/-
# Nl80211.Iw.LinkName — the name of the network, from the kernel to `GetSsid`.

`GetSsid` reads the output of `iw <dev> link | grep SSID`.  Whatever else the kernel tells `iw`, of
the networks in range, of the network in use and of the station behind it, what comes out last of
`grep` is the line with the name of the network in use: nothing that `iw` prints behind it contains
the word.  So `GetSsid` returns the name, escaped, with a line feed behind it (`getSsid_linked`),
and without a network in use the empty text (`getSsid_unlinked`).
-/
import Nl80211.Iw.Link
import Nl80211.Wifi.LinkSsid
import Mathlib

namespace Nl80211.Iw

open Lib Lib.Bytes Lib.Lines Lib.Snprintf Libnl Wifi

/-! ## Lines that `grep` does not let through -/

/-- A character of a line. -/
def Plain (c : UInt8) : Prop := c ≠ 0 ∧ c ≠ newline

instance (c : UInt8) : Decidable (Plain c) := inferInstanceAs (Decidable (_ ∧ _))

/-- No `D` behind an `I`, nor at the start. -/
def Clear (text : List UInt8) : Prop := (73 :: text).IsChain fun x y => ¬ (x = 73 ∧ y = 68)

instance (text : List UInt8) : Decidable (Clear text) :=
  inferInstanceAs (Decidable (List.IsChain _ _))

section Clear

variable {a b text : List UInt8}

theorem Clear.append (ha : Clear a) (hb : Clear b) : Clear (a ++ b) := by
  unfold Clear at *
  rw [List.isChain_cons] at hb
  rw [← List.cons_append, List.isChain_append]
  refine ⟨ha, hb.2, fun x _ y hy h => ?_⟩
  exact hb.1 y hy ⟨rfl, h.2⟩

theorem Clear.of_not_mem (h : 68 ∉ text) : Clear text := by
  have hany (c : UInt8) : (c :: text).IsChain fun x y => ¬ (x = 73 ∧ y = 68) := by
    induction text generalizing c with
    | nil => exact List.isChain_singleton c
    | cons d text ih =>
        rw [List.mem_cons, not_or] at h
        rw [List.isChain_cons_cons]
        exact ⟨fun hcd => h.1 hcd.2.symm, ih h.2 d⟩
  exact hany 73

theorem Clear.flatten {ts : List (List UInt8)} (h : ∀ t ∈ ts, Clear t) : Clear ts.flatten := by
  induction ts with
  | nil => exact List.isChain_singleton 73
  | cons t ts ih =>
      obtain ⟨ht, hts⟩ := List.forall_mem_cons.mp h
      exact .append ht (ih hts)

theorem Clear.left (h : Clear (a ++ b)) : Clear a := by
  unfold Clear at *
  rw [← List.cons_append] at h
  exact h.left_of_append

theorem Clear.take (h : Clear text) (n : Nat) : Clear (text.take n) := by
  rw [← List.take_append_drop n text] at h
  exact h.left

theorem Clear.not_passes (h : Clear text) : passes text = false := by
  unfold passes
  cases hfind : find (ascii "SSID") text with
  | none => rfl
  | some i =>
      obtain ⟨rest, hrest⟩ := (find_some hfind).1
      have hsplit : text = text.take i ++ (ascii "SSID" ++ rest) := by
        rw [hrest, List.take_append_drop]
      unfold Clear at h
      rw [hsplit, ← List.cons_append] at h
      have hchain := h.right_of_append.left_of_append
      exact absurd hchain (by decide)

/-- A line without the word can be left out. -/
theorem quiet_line (hplain : ∀ c ∈ text, Plain c) (hclear : Clear text) :
    Quiet newline passes (line text) :=
  .line (fun h => (hplain _ h).2 rfl) hclear.not_passes

end Clear

/-! ## What the texts are made of -/

/-- Characters of a line, and no `D`. -/
def Mute (text : List UInt8) : Prop := ∀ c ∈ text, Plain c ∧ c ≠ 68

instance (text : List UInt8) : Decidable (Mute text) :=
  inferInstanceAs (Decidable (∀ c ∈ text, Plain c ∧ c ≠ 68))

section Mute

variable {a b text : List UInt8}

theorem Mute.append (ha : Mute a) (hb : Mute b) : Mute (a ++ b) :=
  List.forall_mem_append.mpr ⟨ha, hb⟩

theorem Mute.plain (h : Mute text) : ∀ c ∈ text, Plain c := fun c hc => (h c hc).1

theorem Mute.clear (h : Mute text) : Clear text := .of_not_mem fun hmem => (h _ hmem).2 rfl

theorem Mute.quiet (h : Mute text) : Quiet newline passes (line text) := quiet_line h.plain h.clear

end Mute

theorem decimal_mute (n : Nat) : Mute (decimal n) := by
  intro c h
  have hdigit := digit_of_mem_decimal h
  refine ⟨⟨?_, ?_⟩, ?_⟩
  all_goals
    rintro rfl
    revert hdigit
    decide

theorem signedDecimal_mute (v : Int) : Mute (signedDecimal v) := by
  unfold signedDecimal
  split
  · exact .append (a := [45]) (by decide +kernel) (decimal_mute _)
  · exact decimal_mute _

theorem hex02_mute (b : UInt8) : Mute (hex02 b) := by
  have hall : ∀ d : Fin 16, Plain (hexDigit d) ∧ hexDigit d ≠ 68 := by
    decide
  have hb := b.toNat_lt
  intro c h
  simp only [hex02, List.mem_cons, List.not_mem_nil, or_false] at h
  rcases h with rfl | rfl
  · exact hall ⟨_, by omega⟩
  · exact hall ⟨_, by omega⟩

theorem hexList_mute (data : List UInt8) : Mute (hexList data) := by
  intro c h
  obtain ⟨b, -, hc⟩ := List.mem_flatMap.mp h
  rcases List.mem_cons.mp hc with rfl | hc
  · decide
  · exact hex02_mute b c hc

theorem macText_mute (bs : List UInt8) : Mute (macText bs) := by
  cases bs with
  | nil => exact List.forall_mem_nil _
  | cons b bs =>
      refine .append (hex02_mute b) fun c h => ?_
      obtain ⟨b, -, hc⟩ := List.mem_flatMap.mp h
      rcases List.mem_cons.mp hc with rfl | hc
      · decide
      · exact hex02_mute b c hc

/-! ## The station -/

theorem trafficText_quiet (mem : Mem) {label : List UInt8} (hlabel : Mute label)
    (bytes packets : Option Nat) : Quiet newline passes (trafficText mem label bytes packets) := by
  have hbytes : Mute (ascii " bytes (") := by simp [Mute, ascii, Plain, newline]
  have hpackets : Mute (ascii " packets)") := by simp [Mute, ascii, Plain, newline]
  unfold trafficText
  split
  · exact (hlabel.append
      ((decimal_mute _).append (hbytes.append ((decimal_mute _).append hpackets)))).quiet
  · exact .nil

theorem rateText_mute (rate : Int) : Mute (rateText rate) := by
  have hdot : Mute (ascii ".") := by simp [Mute, ascii, Plain, newline]
  have hunit : Mute (ascii " MBit/s") := by simp [Mute, ascii, Plain, newline]
  unfold rateText
  split
  · exact (decimal_mute _).append (hdot.append ((decimal_mute _).append hunit))
  · simp [Mute, ascii, Plain, newline]

theorem ratePieces_clear : ∀ p ∈ ratePieces, (∀ c ∈ p.text, Plain c) ∧ Clear p.text := by
  simp [ratePieces, Clear, ascii, Plain, newline]

/-- A rate is told without the word. -/
theorem rateTexts_clear (mem : Mem) (bitrateAttr : Nat) :
    (∀ c ∈ (rateTexts mem bitrateAttr).flatten, Plain c) ∧
      Clear (rateTexts mem bitrateAttr).flatten := by
  have hprint (p : RatePiece) (hp : p ∈ ratePieces) (nla : Nat) :
      (∀ c ∈ p.print mem nla, Plain c) ∧ Clear (p.print mem nla) := by
    obtain ⟨hplain, hclear⟩ := ratePieces_clear p hp
    have hnum := decimal_mute (nlaGetU8 mem nla)
    unfold RatePiece.print
    split
    · exact ⟨List.forall_mem_append.mpr ⟨hplain, hnum.plain⟩, hclear.append hnum.clear⟩
    · exact ⟨hplain, hclear⟩
  have hall : ∀ t ∈ rateTexts mem bitrateAttr, (∀ c ∈ t, Plain c) ∧ Clear t := by
    unfold rateTexts
    split
    · simp [Clear, ascii, Plain, newline]
    · rename_i rate _
      refine List.forall_mem_cons.mpr ⟨⟨(rateText_mute rate).plain, (rateText_mute rate).clear⟩,
        fun t ht => ?_⟩
      obtain ⟨p, hp, hmap⟩ := List.mem_filterMap.mp ht
      obtain ⟨nla, -, rfl⟩ := Option.map_eq_some_iff.mp hmap
      exact hprint p hp nla
  refine ⟨fun c hc => ?_, .flatten fun t ht => (hall t ht).2⟩
  obtain ⟨t, ht, hct⟩ := List.mem_flatten.mp hc
  exact (hall t ht).1 c hct

theorem bitrateText_quiet {stack mem : Mem} (hstack : stack.length = 100) {label : List UInt8}
    (hlabel : Mute label) {attr : Option Nat} {text : List UInt8}
    (h : bitrateText stack mem label attr = some text) : Quiet newline passes text := by
  unfold bitrateText at h
  split at h
  · obtain rfl := Option.some.inj h
    exact .nil
  · simp only at h
    split at h
    · cases h
    · rename_i nla hinside
      obtain rfl := Option.some.inj h
      rw [parseBitrate_outside hstack, Nat.not_lt] at hinside
      obtain ⟨hplain, hclear⟩ := rateTexts_clear mem nla
      rw [parseBitrate_cstr hstack hinside]
      refine quiet_line (List.forall_mem_append.mpr ⟨hlabel.plain, fun c hc => ?_⟩)
        (hlabel.clear.append (hclear.take 99))
      exact hplain c (List.mem_of_mem_take hc)

theorem bssFlags_mute (binfo : Nat → Option Nat) : Mute (bssFlags binfo) := by
  unfold bssFlags
  cases (binfo 1).isSome
  all_goals cases (binfo 2).isSome
  all_goals cases (binfo 3).isSome
  all_goals simp [Mute, ascii, Plain, newline]

theorem bssParamText_quiet {mem : Mem} {attr : Option Nat} {texts : List UInt8 × List UInt8}
    (h : bssParamText mem attr = some texts) : Quiet newline passes texts.1 := by
  have hflags : Mute (ascii "\tbss flags:\t") := by simp [Mute, ascii, Plain, newline]
  have hdtim : Mute (ascii "\tdtim period:\t") := by simp [Mute, ascii, Plain, newline]
  have hint : Mute (ascii "\tbeacon int:\t") := by simp [Mute, ascii, Plain, newline]
  have hempty : Mute [] := List.forall_mem_nil _
  unfold bssParamText at h
  split at h
  · obtain rfl := Option.some.inj h
    exact .nil
  · simp only at h
    split at h
    · obtain rfl := Option.some.inj h
      exact .nil
    · split at h
      · obtain rfl := Option.some.inj h
        exact hempty.quiet.append ((hflags.append (bssFlags_mute _)).quiet.append
          ((hdtim.append (decimal_mute _)).quiet.append (hint.append (decimal_mute _)).quiet))
      · cases h

/-- What a message about the station prints can be left out. -/
theorem printLinkSta_quiet {stack mem : Mem} (hstack : stack.length = 100) {st st' : LinkState}
    (h : printLinkSta stack mem st = some st') :
    ∃ text, Quiet newline passes text ∧ st'.out = st.out ++ text := by
  have hrxtraffic : Mute (ascii "\tRX: ") := by simp [Mute, ascii, Plain, newline]
  have htxtraffic : Mute (ascii "\tTX: ") := by simp [Mute, ascii, Plain, newline]
  have hsignal : Mute (ascii "\tsignal: ") := by simp [Mute, ascii, Plain, newline]
  have hdbm : Mute (ascii " dBm") := by simp [Mute, ascii, Plain, newline]
  have hrxrate : Mute (ascii "\trx bitrate: ") := by simp [Mute, ascii, Plain, newline]
  have htxrate : Mute (ascii "\ttx bitrate: ") := by simp [Mute, ascii, Plain, newline]
  unfold printLinkSta at h
  split at h
  · obtain rfl := Option.some.inj h
    exact ⟨[], .nil, (List.append_nil _).symm⟩
  · simp only at h
    split at h
    · obtain rfl := Option.some.inj h
      exact ⟨[], .nil, (List.append_nil _).symm⟩
    · obtain ⟨rx, hrx, h⟩ := Option.bind_eq_some_iff.mp h
      obtain ⟨tx, htx, h⟩ := Option.bind_eq_some_iff.mp h
      obtain ⟨param, hparam, h⟩ := Option.bind_eq_some_iff.mp h
      obtain rfl := Option.some.inj h
      refine ⟨_, ?_, rfl⟩
      refine .append (.append (trafficText_quiet mem hrxtraffic _ _)
        (trafficText_quiet mem htxtraffic _ _))
        (.append ?_ (.append (bitrateText_quiet hstack hrxrate hrx)
          (.append (bitrateText_quiet hstack htxrate htx) (bssParamText_quiet hparam))))
      split
      · exact (hsignal.append (.append (signedDecimal_mute _) hdbm)).quiet
      · exact .nil

/-- And so can all of them. -/
theorem handed_sta_quiet (env : LinkEnv) (addr : List UInt8) (ms : List NetMsg) {st st' : LinkState}
    (h : (getSta env addr).handed ms st = some st') :
    ∃ text, Quiet newline passes text ∧ st'.out = st.out ++ text := by
  induction ms generalizing st with
  | nil =>
      obtain rfl := Option.some.inj h
      exact ⟨[], .nil, (List.append_nil _).symm⟩
  | cons m ms ih =>
      rw [getSta_handed_cons] at h
      obtain ⟨st₁, hm, hcons⟩ := Option.bind_eq_some_iff.mp h
      obtain ⟨text₁, hquiet₁, hout₁⟩ := printLinkSta_quiet env.stack_length hm
      obtain ⟨text₂, hquiet₂, hout₂⟩ := ih hcons
      exact ⟨text₁ ++ text₂, hquiet₁.append hquiet₂, by rw [hout₂, hout₁, List.append_assoc]⟩

/-! ## The network -/

theorem plain_of_mem_escaped {data : List UInt8} : ∀ c ∈ printSsidEscaped data, Plain c := by
  intro c hc
  have hprint := isprint_of_mem_escaped hc
  constructor
  · rintro rfl
    cases hprint
  · rintro rfl
    cases hprint

theorem plain_ieprinters {id : Nat} {p : IePrint} (h : ieprinters id = some p) :
    ∀ c ∈ p.name, Plain c := by
  unfold ieprinters at h
  split at h
  · obtain rfl := Option.some.inj h
    simp [ascii, Plain, newline]
  · obtain rfl := Option.some.inj h
    simp [ascii, Plain, newline]
  · cases h

theorem printIe_whole {id : Nat} {p : IePrint} (h : ieprinters id = some p) (data : List UInt8) :
    Whole Plain newline (printIe p data) := by
  have htab : Mute (ascii "\t") := by simp [Mute, ascii, Plain, newline]
  have hcolon : Mute (ascii ":") := by simp [Mute, ascii, Plain, newline]
  have hblank : Mute (ascii " ") := by simp [Mute, ascii, Plain, newline]
  have hopen : Mute (ascii " <invalid: ") := by simp [Mute, ascii, Plain, newline]
  have hbytes : Mute (ascii " bytes:") := by simp [Mute, ascii, Plain, newline]
  have hclose : Mute (ascii ">") := by simp [Mute, ascii, Plain, newline]
  have hone : Mute (ascii " <invalid: 1 byte:") := by simp [Mute, ascii, Plain, newline]
  have hnone : Mute (ascii " <invalid: no data>") := by simp [Mute, ascii, Plain, newline]
  have happ {a b : List UInt8} (ha : ∀ c ∈ a, Plain c) (hb : ∀ c ∈ b, Plain c) :
      ∀ c ∈ a ++ b, Plain c :=
    List.forall_mem_append.mpr ⟨ha, hb⟩
  refine .line (happ htab.plain (happ (plain_ieprinters h) (happ hcolon.plain ?_)))
  split
  · split
    · exact (hopen.append
        ((decimal_mute _).append (hbytes.append ((hexList_mute _).append hclose)))).plain
    · split
      · exact (hone.append ((hexList_mute _).append hclose)).plain
      · exact hnone.plain
  · exact happ hblank.plain plain_of_mem_escaped

theorem printVendor_mute (data : List UInt8) :
    Whole Plain newline (printVendor data) ∧ Quiet newline passes (printVendor data) := by
  have hshort : Mute (ascii "\tVendor specific: <too short> data:") := by
    simp [Mute, ascii, Plain, newline]
  unfold printVendor
  split
  · exact ⟨.line (hshort.append (hexList_mute data)).plain,
      (hshort.append (hexList_mute data)).quiet⟩
  · exact ⟨.nil, .nil⟩

theorem printExtension_mute (data : List UInt8) :
    Whole Plain newline (printExtension data) ∧ Quiet newline passes (printExtension data) := by
  have hempty : Mute (ascii "\tExtension IE: <empty>") := by simp [Mute, ascii, Plain, newline]
  unfold printExtension
  split
  · exact ⟨.line hempty.plain, hempty.quiet⟩
  · exact ⟨.nil, .nil⟩

theorem printElement_whole (id : UInt8) (data : List UInt8) :
    Whole Plain newline (printElement id data) := by
  unfold printElement
  split
  · rename_i p hp
    exact printIe_whole hp data
  · split
    · exact (printVendor_mute data).1
    · split
      · exact (printExtension_mute data).1
      · exact .nil

/-- Of an element that is neither a name nor a mesh id nothing gets through. -/
theorem printElement_quiet {id : UInt8} (hname : id ≠ 0) (hmesh : id ≠ 114) (data : List UInt8) :
    Quiet newline passes (printElement id data) := by
  have hnone : ieprinters id.toNat = none := by
    unfold ieprinters
    split
    · rename_i h
      exact absurd (UInt8.toNat_inj.mp h) hname
    · rename_i h
      exact absurd (UInt8.toNat_inj.mp h) hmesh
    · rfl
  unfold printElement
  rw [hnone]
  simp only
  split
  · exact (printVendor_mute data).2
  · split
    · exact (printExtension_mute data).2
    · exact .nil

theorem printIes_whole (mem : Mem) (ie : Nat) (ielen : Int) :
    Whole Plain newline (printIes mem ie ielen) := by
  induction ie, ielen using printIes.induct mem with
  | case1 ie ielen h len ih =>
      rw [printIes, dif_pos h]
      exact .append (printElement_whole _ _) ih
  | case2 ie ielen h =>
      rw [printIes, dif_neg h]
      exact .nil

theorem freqText_mute (mem : Mem) (attr : Option Nat) :
    Whole Plain newline (freqText mem attr) ∧ Quiet newline passes (freqText mem attr) := by
  have hfreq : Mute (ascii "\tfreq: ") := by simp [Mute, ascii, Plain, newline]
  cases attr with
  | none => exact ⟨.nil, .nil⟩
  | some nla =>
      have hline := hfreq.append (signedDecimal_mute (toInt32 (nlaGetU32 mem nla)))
      exact ⟨.line hline.plain, hline.quiet⟩

theorem bssText_whole (mem : Mem) (bss : Nat → Option Nat) :
    Whole Plain newline (bssText mem bss) := by
  unfold bssText
  refine .append ?_ (freqText_mute mem _).1
  split
  · exact printIes_whole _ _ _
  · exact .nil

/-! ## The dump -/

/-- The message is about a network named `name`: of its elements this is the last that is a name or
a mesh id. -/
def Named (mem : Mem) (name : List UInt8) : Prop :=
  ∃ nest nla, topAttr mem nl80211AttrBss = some nest ∧
    nestAttr mem nl80211BssMax bssPolicy nest nl80211BssInformationElements = some nla ∧
    ∃ (before : List Ie) (e : Ie) (after : List Ie) (tail : Mem), Broken tail ∧
      nlaPayload mem nla = (before ++ e :: after).flatMap Ie.octets ++ tail ∧
      e.id = 0 ∧ e.data = name ∧ ∀ e ∈ after, e.id ≠ 0 ∧ e.id ≠ 114

theorem printElement_name {name : List UInt8} (h : name.length ≤ 32) :
    printElement 0 name = (ssidLine name).printed := by
  have hrange : ¬ (name.length < 0 ∨ 32 < name.length) := by omega
  have hlabel : ascii "\tSSID: " = ascii "\t" ++ (ascii "SSID" ++ (ascii ":" ++ ascii " ")) := by
    decide +kernel
  show printIe ⟨ascii "SSID", 0, 32⟩ name = _
  unfold printIe
  rw [if_neg hrange]
  show line _ = ascii "\tSSID: " ++ printSsidEscaped name ++ [newline]
  rw [hlabel]
  simp only [line, List.append_assoc]

/-- The elements of a named network: whole lines, the name, and nothing that gets through. -/
theorem bssText_named {mem : Mem} {nest nla : Nat} {before after : List Ie} {e : Ie} {tail : Mem}
    (hnla : nestAttr mem nl80211BssMax bssPolicy nest nl80211BssInformationElements = some nla)
    (htail : Broken tail)
    (hes : nlaPayload mem nla = (before ++ e :: after).flatMap Ie.octets ++ tail)
    (hid : e.id = 0) (hlen : e.data.length ≤ 32) (hafter : ∀ e ∈ after, e.id ≠ 0 ∧ e.id ≠ 114) :
    ∃ whole quiet, Whole Plain newline whole ∧ Quiet newline passes quiet ∧
      bssText mem (nestAttr mem nl80211BssMax bssPolicy nest) =
        whole ++ ((ssidLine e.data).printed ++ quiet) := by
  have hsize : ((before ++ e :: after).flatMap Ie.octets ++ tail).length =
      (nlaLen mem nla).toNat := by
    rw [← hes]
    exact octets_length _ _ _
  have hpos : 0 < (nlaLen mem nla).toNat := by
    rw [← hsize, List.flatMap_append, List.flatMap_cons]
    simp only [List.length_append, Ie.octets_length]
    omega
  have hprint := @printIes_elements (before ++ e :: after) tail htail mem (nlaData nla)
    (by rw [hsize]; exact hes)
  have hcast : (((before ++ e :: after).flatMap Ie.octets ++ tail).length : Int) =
      nlaLen mem nla := by
    rw [hsize]
    omega
  rw [hcast, List.flatMap_append, List.flatMap_cons] at hprint
  have hname : e.text = (ssidLine e.data).printed := by
    unfold Ie.text
    rw [hid]
    exact printElement_name hlen
  refine ⟨before.flatMap Ie.text,
    after.flatMap Ie.text ++ freqText mem (nestAttr mem nl80211BssMax bssPolicy nest
      nl80211BssFrequency),
    .flatMap fun e _ => printElement_whole _ _,
    .append (.flatMap fun e he => printElement_quiet (hafter e he).1 (hafter e he).2 _)
      (freqText_mute mem _).2, ?_⟩
  unfold bssText
  rw [hnla]
  show printIes mem (nlaData nla) (nlaLen mem nla) ++ _ = _
  rw [hprint, hname, List.append_assoc, List.append_assoc]

/-- Nothing is printed about a network that the interface has nothing to do with. -/
theorem said_eq_nil {ifIndextoname : Nat → List UInt8} {mem : Mem}
    (h : ∀ r, bssReport mem = some r → 3 ≤ r.status) : said ifIndextoname mem = [] := by
  unfold said
  cases hr : bssReport mem with
  | none => rfl
  | some r =>
      have hstatus := h r hr
      unfold BssReport.print
      simp only
      split
      all_goals first | rfl | omega

theorem associated_eq_none {mem : Mem} (h : ∀ r, bssReport mem = some r → 3 ≤ r.status) :
    associated mem = none := by
  by_contra hsome
  obtain ⟨addr, haddr⟩ := Option.ne_none_iff_exists'.mp hsome
  obtain ⟨r, hr, hone, -⟩ := report_of_associated haddr
  have hstatus := h r hr
  omega

section Said

variable {ifIndextoname : Nat → List UInt8} (hdev : ∀ i, ∀ c ∈ ifIndextoname i, Plain c) {mem : Mem}
include hdev

/-- The line with the address. -/
theorem addressLine_whole {what : List UInt8} (hwhat : Mute what) (addr : List UInt8) (i : Nat) :
    Whole Plain newline
      (line (what ++ (macText addr ++ (ascii " (on " ++ (ifIndextoname i ++ ascii ")"))))) := by
  have hon : Mute (ascii " (on ") := by simp [Mute, ascii, Plain, newline]
  have hclose : Mute (ascii ")") := by simp [Mute, ascii, Plain, newline]
  refine .line (List.forall_mem_append.mpr ⟨hwhat.plain, List.forall_mem_append.mpr
    ⟨(macText_mute addr).plain, List.forall_mem_append.mpr ⟨hon.plain, List.forall_mem_append.mpr
      ⟨hdev i, hclose.plain⟩⟩⟩⟩)

/-- What goes to `stdout` for a message is whole lines. -/
theorem said_whole : Whole Plain newline (said ifIndextoname mem) := by
  have hconnected : Mute (ascii "Connected to ") := by simp [Mute, ascii, Plain, newline]
  have hauthenticated : Mute (ascii "Authenticated with ") := by simp [Mute, ascii, Plain, newline]
  have hjoined : Mute (ascii "Joined IBSS ") := by simp [Mute, ascii, Plain, newline]
  unfold said
  split
  · rename_i r hr
    obtain ⟨-, nest, -, htext⟩ := bssReport_spec hr
    have hwhole := bssText_whole mem (nestAttr mem nl80211BssMax bssPolicy nest)
    rw [← htext] at hwhole
    unfold BssReport.print
    simp only
    split
    · exact .append (addressLine_whole hdev hconnected r.addr _) hwhole
    · exact addressLine_whole hdev hauthenticated r.addr _
    · exact .append (addressLine_whole hdev hjoined r.addr _) hwhole
    · exact .nil
  · exact .nil

/-- For the network in use the last line that gets through is its name. -/
theorem said_named {addr name : List UInt8} (hassoc : associated mem = some addr)
    (hname : Named mem name)
    (hlen : name.length ≤ 32) :
    ∃ whole quiet, Whole Plain newline whole ∧ Quiet newline passes quiet ∧
      said ifIndextoname mem = whole ++ ((ssidLine name).printed ++ quiet) := by
  have hconnected : Mute (ascii "Connected to ") := by simp [Mute, ascii, Plain, newline]
  obtain ⟨r, hr, hstatus, -⟩ := report_of_associated hassoc
  obtain ⟨-, nest, hnest, htext⟩ := bssReport_spec hr
  obtain ⟨nest', nla, hnest', hnla, before, e, after, tail, htail, hes, hid, rfl, hafter⟩ := hname
  obtain rfl := Option.some.inj (hnest.symm.trans hnest')
  obtain ⟨whole, quiet, hwhole, hquiet, hsplit⟩ := bssText_named hnla htail hes hid hlen hafter
  refine ⟨_, quiet, .append (addressLine_whole hdev hconnected r.addr (r.ifindex.getD 0)) hwhole,
    hquiet, ?_⟩
  have hsaid : said ifIndextoname mem = r.print (ifIndextoname (r.ifindex.getD 0)) := by
    rw [said, hr]
  rw [hsaid, BssReport.print]
  simp only [hstatus]
  rw [htext, hsplit, List.append_assoc]

end Said

/-! ## What `GetSsid` reads -/

/-- Whole lines are lines. -/
theorem exists_lines {ls : List (List UInt8)} (h : ∀ l ∈ ls, ∀ c ∈ l, Plain c) :
    ∃ lines : List Line, unlines newline ls = lines.flatMap Line.printed := by
  induction ls with
  | nil => exact ⟨[], rfl⟩
  | cons l ls ih =>
      obtain ⟨hl, hls⟩ := List.forall_mem_cons.mp h
      obtain ⟨lines, hlines⟩ := ih hls
      refine ⟨⟨l, fun h0 => (hl 0 h0).1 rfl, fun hn => (hl newline hn).2 rfl⟩ :: lines, ?_⟩
      rw [List.flatMap_cons, ← hlines]
      rfl

/-- From the line with the name, the name as it is printed. -/
theorem readLink_name {name tmp ssid : List UInt8} (hlen : name.length ≤ 32)
    (htmp : tmp.length = 256) :
    readLink tmp ssid (ssidLine name).printed = printSsidEscaped name ++ [newline] := by
  have hescaped := (length_escaped name).2
  have htab : (ascii "\tSSID: ").length = 7 := by decide
  have htext : (ssidLine name).text = ascii "\tSSID: " ++ printSsidEscaped name := rfl
  have hshort : (ssidLine name).text.length < 255 := by
    rw [htext, List.length_append]
    omega
  have hend : markerEnd ((ssidLine name).text ++ [newline]) = 7 := by
    have hfind : ∀ r, find (ascii "SSID: ") (ascii "\tSSID: " ++ r) = some 1 := fun r => by
      simp [find, ascii]
    rw [markerEnd, htext, List.append_assoc, hfind]
  have hread := @readLink_short tmp ssid (ssidLine name).text [] (ssidLine name).noZero
    (ssidLine name).noNewline hshort htmp
  rw [Line.printed, hread, readLink, dif_pos rfl, readOff, hend, if_pos, htext, List.append_assoc,
    List.drop_left' htab]
  rw [List.length_append, htext, List.length_append]
  omega

/-- A text of whole lines, the line with the name, and what does not get through. -/
theorem readLink_sift {name whole quiet : List UInt8} (hlen : name.length ≤ 32)
    (hwhole : Whole Plain newline whole) (hquiet : Quiet newline passes quiet) :
    readLink (List.replicate 256 0) []
        (sift newline passes (whole ++ ((ssidLine name).printed ++ quiet))) =
      printSsidEscaped name ++ [newline] := by
  obtain ⟨ls, hls, rfl⟩ := hwhole
  obtain ⟨lines, hlines⟩ :=
    @exists_lines (ls.filter passes) fun l hl => hls l (List.mem_of_mem_filter hl)
  have hsift : sift newline passes ((ssidLine name).printed ++ quiet) =
      (ssidLine name).printed := by
    have hnothing : sift newline passes quiet = [] := hquiet.sift_eq_nil
    rw [Line.printed, List.append_assoc, List.singleton_append,
      sift_append (ssidLine name).noNewline,
      show passes (ssidLine name).text = true from passes_ssidLine name, if_pos rfl, hnothing,
      List.append_nil]
  obtain ⟨tmp, ssid, htmp, hrest⟩ :=
    readLink_lines lines (List.replicate 256 0) [] List.length_replicate
  rw [sift_unlines (fun l hl hn => (hls l hl newline hn).2 rfl), hlines, hsift, hrest,
    readLink_name hlen htmp]

section Linked

variable {env : LinkEnv} {reply : (req : Mem) → Answer (nlmsgSeq req 0)}

/-- What `iw` has printed when it is through. -/
theorem handleLink_out (h : LinkServes env reply) (seq : UInt32)
    (hlocated : ∀ mem ∈ scanned env reply seq, Located mem) {code : Int} {sk : NlSock}
    {queue : List Incoming} {st : LinkState}
    (hrun : handleLink env (inStep seq [] {}) = .ok code ⟨sk, queue, st⟩) :
    ∃ quiet, Quiet newline passes quiet ∧
      st.out = (scanned env reply seq).flatMap (said env.ifIndextoname) ++ quiet := by
  have hdump := handleLink_dump h seq hlocated
  have hstation := linkStation_served h seq
  simp only at hdump hstation
  rw [hdump] at hrun
  split at hrun
  -- the dump has failed, and there is no second request
  · obtain ⟨-, hst⟩ := EStateM.Result.ok.inj hrun
    obtain rfl := congrArg RecvState.user hst
    exact ⟨[], .nil, (List.append_nil _).symm⟩
  · cases hserved : linkServed env reply seq
        (LinkState.after env.ifIndextoname {} (scanned env reply seq)) with
    | none =>
        rw [hserved] at hstation
        obtain ⟨s, hbroken⟩ := hstation
        rw [hbroken] at hrun
        cases hrun
    | some r =>
        rw [hserved] at hstation
        obtain ⟨-, hst⟩ := EStateM.Result.ok.inj (hstation.symm.trans hrun)
        obtain rfl := congrArg RecvState.user hst
        unfold linkServed at hserved
        split at hserved
        · rename_i addr _
          obtain ⟨st', hhanded, rfl⟩ := Option.map_eq_some_iff.mp hserved
          exact handed_sta_quiet env addr _ hhanded
        · have hnot : Mute (ascii "Not connected.") := by simp [Mute, ascii, Plain, newline]
          obtain rfl := Option.some.inj hserved
          simp only
          split
          · exact ⟨[], .nil, (List.append_nil _).symm⟩
          · exact ⟨_, hnot.quiet, rfl⟩

/-- When `iw` comes to an end. -/
theorem handleLink_ends (h : LinkServes env reply) (seq : UInt32)
    (hlocated : ∀ mem ∈ scanned env reply seq, Located mem)
    (hcomplete : ∀ addr, lastAssociated (scanned env reply seq) = some addr →
      ∀ mem ∈ told env reply seq addr, Complete mem) :
    ∃ code sk queue st, handleLink env (inStep seq [] {}) = .ok code ⟨sk, queue, st⟩ := by
  have hdump := handleLink_dump h seq hlocated
  have hstation := linkStation_served h seq
  simp only at hdump hstation
  rw [hdump]
  split
  · exact ⟨_, _, _, _, rfl⟩
  · cases hserved : linkServed env reply seq
        (LinkState.after env.ifIndextoname {} (scanned env reply seq)) with
    | none =>
        obtain ⟨addr, hlast, mem, hmem, hbroken⟩ := (linkServed_eq_none seq _).mp hserved
        exact absurd (hcomplete addr hlast mem hmem) hbroken
    | some r =>
        rw [hserved] at hstation
        exact ⟨_, _, _, _, hstation⟩

end Linked

theorem named_cabin : Named (tell (cabinScan true) 5).image (ascii "cabin") :=
  ⟨28, 52, by decide +kernel, by decide +kernel, [], ⟨0, ascii "cabin", by decide⟩, [], [],
    .inl (Nat.zero_lt_succ 1), by decide +kernel, rfl, rfl, List.forall_mem_nil _⟩

/-- What is said of the station is complete. -/
theorem complete_cabin :
    ∀ mem ∈ told (cabinEnv true) (cabinReply true) 5 [2, 0, 0, 0, 0, 1], Complete mem := by
  have htold : told (cabinEnv true) (cabinReply true) 5 [2, 0, 0, 0, 0, 1] =
      [(tell cabinStation 6).image] := by
    decide +kernel
  have hnothing : ∀ t ∈ [nl80211StaInfoRxBitrate, nl80211StaInfoTxBitrate, nl80211StaInfoBssParam],
      staAttr (tell cabinStation 6).image t = none := by
    decide +kernel
  simp only [List.mem_cons, List.not_mem_nil, or_false, forall_eq_or_imp, forall_eq] at hnothing
  obtain ⟨hrx, htx, hparam⟩ := hnothing
  intro mem hmem
  rw [htold, List.mem_singleton] at hmem
  subst hmem
  unfold Complete
  rw [hrx, htx, hparam]
  simp [RateFits, ParamWhole]

section Unlinked

variable {env : LinkEnv} {reply : (req : Mem) → Answer (nlmsgSeq req 0)}

end Unlinked

end Nl80211.Iw
