/-
# Nl80211.Wifi.Reports — what one message does to the record.

Each handler is reduced to two pure pieces: the report it reads off a message (which members the
message sets, and to what) and the write of that report into the record.  For `get_wifi_name` the
write is exact for every message, including one whose strings are too long for their arrays.  Read
through `WifiMsg.view`, a report whose strings fit overwrites the members it carries and nothing
else.
-/
import Nl80211.Wifi.Handlers

namespace Nl80211.Wifi

open Lib Lib.Bytes Libnl

/-! ## The text of a hardware address -/

/-- Six octets as `mac_addr_n2a` prints them. -/
def macText : List UInt8 → List UInt8
  | [] => []
  | b :: bs => hex02 b ++ bs.flatMap fun c => 58 :: hex02 c

theorem hexDigit_ne_zero {n : Nat} (h : n < 16) : hexDigit n ≠ 0 := by
  have all : ∀ n : Fin 16, hexDigit n ≠ 0 := by decide
  exact all ⟨n, h⟩

theorem hex02_ne_zero {b x : UInt8} (h : x ∈ hex02 b) : x ≠ 0 := by
  have hb := b.toNat_lt
  simp only [hex02, List.mem_cons, List.not_mem_nil, or_false] at h
  rcases h with rfl | rfl
  · exact hexDigit_ne_zero (by omega)
  · exact hexDigit_ne_zero (by omega)

theorem macText_ne_zero {bs : List UInt8} {x : UInt8} (h : x ∈ macText bs) : x ≠ 0 := by
  cases bs with
  | nil => simp [macText] at h
  | cons b bs =>
      simp only [macText, List.mem_append, List.mem_flatMap, List.mem_cons] at h
      rcases h with h | ⟨c, -, rfl | h⟩
      · exact hex02_ne_zero h
      · decide
      · exact hex02_ne_zero h

theorem macText_length_of_six {bs : List UInt8} (h : bs.length = 6) : (macText bs).length = 17 := by
  match bs, h with
  | [_, _, _, _, _, _], _ => rfl

theorem put_put_append (r : WifiMsg) (i : Nat) (a : List UInt8) {b : List UInt8} (hb : b ≠ []) :
    (r.put i (a ++ [0])).put (i + a.length) b = r.put i (a ++ b) := by
  simp only [WifiMsg.put, store_store_append _ _ _ _ _ hb]

/-- The first turn of `mac_addr_n2a` starts the text. -/
theorem macAddrN2aStep_zero (mem : Mem) (arg : Nat) (r : WifiMsg) :
    (macAddrN2aStep mem arg (r, 0) 0).val =
      (r.put Member.macAddr.off (hex02 (rd8 mem arg) ++ [0]), 2) := rfl

/-- Every later turn continues the text written so far over its terminator. -/
theorem macAddrN2aStep_succ (mem : Mem) (arg i : Nat) (r : WifiMsg) (t : List UInt8) :
    (macAddrN2aStep mem arg (r.put Member.macAddr.off (t ++ [0]), t.length) (i + 1)).val =
      (r.put Member.macAddr.off ((t ++ 58 :: hex02 (rd8 mem (arg + (i + 1)))) ++ [0]),
        t.length + 3) := by
  have h := put_put_append r Member.macAddr.off t
    (b := 58 :: hex02 (rd8 mem (arg + (i + 1))) ++ [0]) (by simp)
  rw [← List.append_assoc] at h
  simp only [macAddrN2aStep, sprintfInto, if_neg (Nat.succ_ne_zero i), Traced.val_bind,
    Traced.val_pure, h]

/-- The turns after the first, from any point on. -/
theorem macAddrN2a_loop (mem : Mem) (arg : Nat) (r : WifiMsg) (n : Nat) :
    ∀ (i : Nat) (t : List UInt8),
      ((List.range' (i + 1) n).foldlM (macAddrN2aStep mem arg)
          (r.put Member.macAddr.off (t ++ [0]), t.length)).val =
        (r.put Member.macAddr.off
          ((t ++ (octets mem (arg + (i + 1)) n).flatMap fun c => 58 :: hex02 c) ++ [0]),
          t.length + 3 * n) := by
  induction n with
  | zero => intro i t; simp
  | succ n ih =>
      intro i t
      -- each turn writes a colon and two digits over the terminator, and a new terminator
      have hlen : t.length + 3 = (t ++ 58 :: hex02 (rd8 mem (arg + (i + 1)))).length := by
        simp [hex02]
      have hoct : octets mem (arg + (i + 1)) (n + 1) =
          rd8 mem (arg + (i + 1)) :: octets mem (arg + (i + 1 + 1)) n := by
        rw [Nat.add_comm n 1, octets_add]
        simp [octets, Nat.add_assoc]
      rw [List.range'_succ, List.foldlM_cons, Traced.val_bind, macAddrN2aStep_succ, hlen,
        ih (i + 1), hoct, List.flatMap_cons, ← hlen]
      simp only [List.append_assoc, List.cons_append, Prod.mk.injEq, true_and]
      omega

/-- The six `sprintf`s leave the whole text and one terminator. -/
theorem macAddrN2a_val (mem : Mem) (arg : Nat) (r : WifiMsg) :
    (macAddrN2a mem arg r).val = r.copyText .macAddr (some (macText (octets mem arg ethAlen))) := by
  have hrange : List.range ethAlen = 0 :: List.range' (0 + 1) 5 := rfl
  have hoct : octets mem arg ethAlen = rd8 mem arg :: octets mem (arg + (0 + 1)) 5 := rfl
  have hloop := macAddrN2a_loop mem arg r 5 0 (hex02 (rd8 mem arg))
  -- the first turn starts the text, the other five continue it
  rw [macAddrN2a, hrange, List.foldlM_cons, Traced.val_bind, Traced.val_bind,
    macAddrN2aStep_zero, show (2 : Nat) = (hex02 (rd8 mem arg)).length from rfl, hloop, hoct]
  rfl

/-! ## Interface messages -/

/-- The attributes the top-level walk of a message accepts. -/
def topWalk (mem : Mem) : List Nat :=
  nlaWalk mem (genlmsgAttrdata (nlmsgData 0) 0) (genlmsgAttrlen mem (nlmsgData 0) 0)

/-- The attribute of type `t` that a handler finds in its index array. -/
def topAttr (mem : Mem) (t : Nat) : Option Nat := lastOfType mem t (topWalk mem)

theorem topTable (mem : Mem) {t : Nat} (h0 : 0 < t) (hmax : t ≤ nl80211AttrMax) :
    (nlaParse mem nl80211AttrMax (genlmsgAttrdata (nlmsgData 0) 0)
      (genlmsgAttrlen mem (nlmsgData 0) 0) none).val.tb t = topAttr mem t := by
  rw [(nlaParse_none_val ..).2, if_pos ⟨h0, hmax⟩]
  rfl

/-- What one interface message says: the members it sets, as the handler reads them. -/
structure NameReport where
  ifname : Option (List UInt8)
  ifindex : Option Nat
  mac : Option (List UInt8)
  ssid : Option (List UInt8)
  freq : Option Nat
  deriving DecidableEq, Repr

/-- The report of a message. -/
def nameReport (mem : Mem) : NameReport where
  ifname := (topAttr mem nl80211AttrIfname).map fun a => cstr mem (nlaData a)
  ifindex := (topAttr mem nl80211AttrIfindex).map fun a => nlaGetU32 mem a
  mac := (topAttr mem nl80211AttrMac).map fun a => octets mem (nlaData a) ethAlen
  ssid := (topAttr mem nl80211AttrSsid).map fun a => cstr mem (nlaData a)
  freq := (topAttr mem nl80211AttrWiphyFreq).map fun a => nlaGetU32 mem a

namespace NameReport

/-- The channel that goes with the reported frequency. -/
def channel (rep : NameReport) : Option Int :=
  rep.freq.map fun f => ieee80211FrequencyToChannel (toInt32 f)

/-- The updates of the record, in the order of the handler. -/
def write (rep : NameReport) (r : WifiMsg) : WifiMsg :=
  r |>.copyText .ifname rep.ifname
    |>.setInt .ifindex rep.ifindex
    |>.copyText .macAddr (rep.mac.map macText)
    |>.copyText .ssid rep.ssid
    |>.setInt .channel (rep.channel.map ofInt32)
    |>.setInt .band rep.freq

/-- The record when the SSID is copied. -/
def beforeSsid (rep : NameReport) (r : WifiMsg) : WifiMsg :=
  r |>.copyText .ifname rep.ifname
    |>.setInt .ifindex rep.ifindex
    |>.copyText .macAddr (rep.mac.map macText)

/-- The octet that the report leaves at the address `i` of the record, if it reaches it: the last of
its updates that do. -/
def octet (rep : NameReport) (i : Nat) : Option UInt8 :=
  WifiMsg.intOctet .band rep.freq i
    |>.or (WifiMsg.intOctet .channel (rep.channel.map ofInt32) i)
    |>.or (WifiMsg.textOctet .ssid rep.ssid i)
    |>.or (WifiMsg.textOctet .macAddr (rep.mac.map macText) i)
    |>.or (WifiMsg.intOctet .ifindex rep.ifindex i)
    |>.or (WifiMsg.textOctet .ifname rep.ifname i)

/-- Every octet of the record is the one the report leaves there, or as it was. -/
theorem rd8_write (rep : NameReport) (r : WifiMsg) {i : Nat} (hi : i < wifiMsgSize) :
    rd8 (rep.write r).mem i = (rep.octet i).getD (rd8 r.mem i) := by
  open WifiMsg in
  simp only [write, octet, rd8_setInt hi, rd8_copyText hi, Option.getD_or]

/-- The part of a report that concerns one member. -/
def only (rep : NameReport) (f : Member) : NameReport where
  ifname := if f = .ifname then rep.ifname else none
  ifindex := if f = .ifindex then rep.ifindex else none
  mac := if f = .macAddr then rep.mac else none
  ssid := if f = .ssid then rep.ssid else none
  freq := if f = .channel ∨ f = .band then rep.freq else none

end NameReport

section Updates

variable {mem : Mem} {dst : Member} {r : WifiMsg} (nla : Option Nat)

/-- The copy of a text, if the attribute is there. -/
theorem ifSet_strcpy_val :
    (ifSet nla r fun a => strcpy mem dst a r).val =
      r.copyText dst (nla.map fun a => cstr mem (nlaData a)) := by
  cases nla <;> rfl

/-- The print of a hardware address, if the attribute is there. -/
theorem ifSet_macAddrN2a_val :
    (ifSet nla r fun a => macAddrN2a mem (nlaData a) r).val =
      r.copyText .macAddr ((nla.map fun a => octets mem (nlaData a) ethAlen).map macText) := by
  cases nla with
  | none => rfl
  | some a => exact macAddrN2a_val mem (nlaData a) r

/-- The assignment of an `int`, if the attribute is there. -/
theorem ifSet_assign_val (size : Nat) (value : Nat → Nat) :
    (ifSet nla r fun a => do
      Traced.emit (.value (nlaData a) size)
      assign dst (value a) r).val = r.setInt dst (nla.map value) := by
  cases nla <;> rfl

end Updates

/-- **`get_wifi_name`**: whatever the message holds, the handler writes its report and returns
`NL_SKIP`. -/
theorem getWifiName_val (mem : Mem) (r : WifiMsg) :
    (getWifiName mem r).val = (nlSkip, (nameReport mem).write r) := by
  have table {t : Nat} (h0 : 0 < t) (hmax : t ≤ nl80211AttrMax) := topTable mem h0 hmax
  simp only [getWifiName, Traced.val_bind, Traced.val_pure]
  rw [table (t := nl80211AttrIfname) (by decide) (by decide),
    table (t := nl80211AttrIfindex) (by decide) (by decide),
    table (t := nl80211AttrMac) (by decide) (by decide),
    table (t := nl80211AttrSsid) (by decide) (by decide),
    table (t := nl80211AttrWiphyFreq) (by decide) (by decide),
    ifSet_strcpy_val, ifSet_assign_val, ifSet_macAddrN2a_val, ifSet_strcpy_val]
  -- the frequency is the one attribute that sets two members
  cases hfreq : topAttr mem nl80211AttrWiphyFreq with
  | none => simp [ifSet, NameReport.write, NameReport.channel, nameReport, hfreq, WifiMsg.setInt]
  | some a =>
      simp [ifSet, assign, NameReport.write, NameReport.channel, nameReport, hfreq, WifiMsg.setInt]

/-! ## What an interface message means -/

theorem tdiv_bound {a : Int} (b : Int) (hl : -4294967296 ≤ a) (hu : a ≤ 4294967296)
    (hb : 5 ≤ b) : -2147483648 ≤ a.tdiv b ∧ a.tdiv b < 2147483648 := by
  have habs : (a.tdiv b).natAbs = a.natAbs / b.natAbs := Int.natAbs_tdiv a b
  have hdiv : a.natAbs / b.natAbs ≤ a.natAbs / 5 := Nat.div_le_div_left (by omega) (by omega)
  omega

/-- A channel number is an `int`. -/
theorem ieee80211FrequencyToChannel_bound (n : Nat) :
    -2147483648 ≤ ieee80211FrequencyToChannel (toInt32 n) ∧
      ieee80211FrequencyToChannel (toInt32 n) < 2147483648 := by
  have hf : -2147483648 ≤ toInt32 n ∧ toInt32 n < 2147483648 := by
    unfold toInt32
    split <;> omega
  unfold ieee80211FrequencyToChannel
  repeat' split
  all_goals first
    | omega
    | exact tdiv_bound _ (by omega) (by omega) (by omega)

namespace NameReport

/-- The reported strings fit their arrays. -/
structure Fits (rep : NameReport) : Prop where
  ifname : WifiMsg.FitsIn .ifname rep.ifname
  ssid : WifiMsg.FitsIn .ssid rep.ssid

/-- A report read as a change of the record's meaning: it overwrites what it carries. -/
def apply (rep : NameReport) (v : WifiView) : WifiView :=
  { v with
    ifname := rep.ifname.getD v.ifname
    ifindex := (rep.ifindex.map toInt32).getD v.ifindex
    macAddr := (rep.mac.map macText).getD v.macAddr
    ssid := rep.ssid.getD v.ssid
    channel := rep.channel.getD v.channel
    band := (rep.freq.map toInt32).getD v.band }

end NameReport

theorem macFits (mem : Mem) : WifiMsg.FitsIn .macAddr ((nameReport mem).mac.map macText) := by
  intro t ht
  simp only [nameReport, Option.map_map, Option.mem_def, Option.map_eq_some_iff,
    Function.comp] at ht
  obtain ⟨a, -, rfl⟩ := ht
  have := macText_length_of_six (octets_length mem (nlaData a) ethAlen)
  simp only [Member.macAddr]
  omega

/-- Copied texts hold no zero octet. -/
theorem nameReport_ne_zero (mem : Mem) :
    (∀ t ∈ (nameReport mem).ifname, ∀ x ∈ t, x ≠ 0) ∧
      (∀ t ∈ (nameReport mem).ssid, ∀ x ∈ t, x ≠ 0) ∧
        ∀ t ∈ (nameReport mem).mac.map macText, ∀ x ∈ t, x ≠ 0 := by
  refine ⟨?_, ?_, ?_⟩ <;> intro t ht x hx
  · simp only [nameReport, Option.mem_def, Option.map_eq_some_iff] at ht
    obtain ⟨a, -, rfl⟩ := ht
    exact ne_zero_of_mem_cstr hx
  · simp only [nameReport, Option.mem_def, Option.map_eq_some_iff] at ht
    obtain ⟨a, -, rfl⟩ := ht
    exact ne_zero_of_mem_cstr hx
  · simp only [Option.mem_def, Option.map_eq_some_iff] at ht
    obtain ⟨bs, -, rfl⟩ := ht
    exact macText_ne_zero hx

theorem channel_toInt32 (mem : Mem) :
    ((nameReport mem).channel.map ofInt32).map toInt32 = (nameReport mem).channel := by
  have hb : ∀ n, toInt32 (ofInt32 (ieee80211FrequencyToChannel (toInt32 n))) =
      ieee80211FrequencyToChannel (toInt32 n) := fun n =>
    toInt32_ofInt32 (ieee80211FrequencyToChannel_bound n).1 (ieee80211FrequencyToChannel_bound n).2
  cases hf : (nameReport mem).freq <;> simp [NameReport.channel, hf, hb]

/-! ### Member by member -/

theorem WifiMsg.FitsIn.ite {c : Prop} [Decidable c] {dst : Member} {s : Option (List UInt8)}
    (h : WifiMsg.FitsIn dst s) : WifiMsg.FitsIn dst (if c then s else none) := by
  split
  · exact h
  · exact fun t ht => absurd ht (by simp)

namespace NameReport

variable {rep : NameReport} {r : WifiMsg} {f : Member}

theorem write_only_ifname (rep : NameReport) (r : WifiMsg) :
    (rep.only .ifname).write r = r.copyText .ifname rep.ifname := rfl

theorem write_only_ifindex (rep : NameReport) (r : WifiMsg) :
    (rep.only .ifindex).write r = r.setInt .ifindex rep.ifindex := rfl

theorem write_only_macAddr (rep : NameReport) (r : WifiMsg) :
    (rep.only .macAddr).write r = r.copyText .macAddr (rep.mac.map macText) := rfl

theorem write_only_ssid (rep : NameReport) (r : WifiMsg) :
    (rep.only .ssid).write r = r.copyText .ssid rep.ssid := rfl

theorem write_only_freq (rep : NameReport) (r : WifiMsg) {f : Member}
    (h : f = .channel ∨ f = .band) :
    (rep.only f).write r =
      (r.setInt .channel (rep.channel.map ofInt32)).setInt .band rep.freq := by
  rcases h with rfl | rfl <;> rfl

theorem only_mac (rep : NameReport) (f : Member) :
    (rep.only f).mac.map macText = if f = .macAddr then rep.mac.map macText else none := by
  by_cases h : f = .macAddr
  · rw [if_pos h, show (rep.only f).mac = rep.mac from if_pos h]
  · rw [if_neg h, show (rep.only f).mac = none from if_neg h]
    rfl

/-- Up to the SSID each member is as its own attribute leaves it. -/
theorem raw_beforeSsid_only (hname : WifiMsg.FitsIn .ifname rep.ifname)
    (hmac : WifiMsg.FitsIn .macAddr (rep.mac.map macText)) (hf : f ∈ members) :
    (rep.beforeSsid r).raw f = ((rep.only f).beforeSsid r).raw f := by
  have apart {dst : Member} (hd : dst ∈ members) := members_disjoint f hf dst hd
  have hname' : WifiMsg.FitsIn .ifname (rep.only f).ifname := hname.ite
  have h₁ := WifiMsg.raw_copyText_congr (rfl : r.raw f = r.raw f) hname hname'
    (fun h => if_pos h) (apart (by decide))
  have h₂ := WifiMsg.raw_setInt_congr .ifindex rep.ifindex (rep.only f).ifindex h₁ rfl
    (fun h => if_pos h) (apart (by decide))
  have hmac' : WifiMsg.FitsIn .macAddr ((rep.only f).mac.map macText) := by
    rw [only_mac]
    exact hmac.ite
  exact WifiMsg.raw_copyText_congr h₂ hmac hmac' (fun h => by rw [only_mac, if_pos h])
    (apart (by decide))

/-- What holds of a member behind the copy of the SSID holds of it behind the whole report. -/
theorem raw_write_of_ssid (hf : f ∈ members)
    (h : ((rep.beforeSsid r).copyText .ssid rep.ssid).raw f =
      (((rep.only f).beforeSsid r).copyText .ssid (rep.only f).ssid).raw f) :
    (rep.write r).raw f = ((rep.only f).write r).raw f := by
  have apart {dst : Member} (hd : dst ∈ members) := members_disjoint f hf dst hd
  have hchannel := WifiMsg.raw_setInt_congr .channel (rep.channel.map ofInt32)
    ((rep.only f).channel.map ofInt32) h rfl (fun h => by simp [channel, only, h])
    (apart (by decide))
  exact WifiMsg.raw_setInt_congr .band rep.freq (rep.only f).freq hchannel rfl
    (fun h => if_pos (.inr h)) (apart (by decide))

/-- A member that the copy of the SSID does not reach. -/
theorem raw_write_apart (hname : WifiMsg.FitsIn .ifname rep.ifname)
    (hmac : WifiMsg.FitsIn .macAddr (rep.mac.map macText)) (hf : f ∈ members) (hne : f ≠ .ssid)
    (h : ((rep.beforeSsid r).copyText .ssid rep.ssid).raw f = (rep.beforeSsid r).raw f) :
    (rep.write r).raw f = ((rep.only f).write r).raw f := by
  refine raw_write_of_ssid hf ?_
  rw [h, raw_beforeSsid_only hname hmac hf, show (rep.only f).ssid = none from if_neg hne]
  rfl

/-- A report whose strings fit leaves each member as its own attribute alone would. -/
theorem raw_write_only (hfit : rep.Fits) (hmac : WifiMsg.FitsIn .macAddr (rep.mac.map macText))
    (r : WifiMsg) (hf : f ∈ members) : (rep.write r).raw f = ((rep.only f).write r).raw f := by
  refine raw_write_of_ssid hf ?_
  have hssid' : WifiMsg.FitsIn .ssid (rep.only f).ssid := hfit.ssid.ite
  exact WifiMsg.raw_copyText_congr (raw_beforeSsid_only hfit.ifname hmac hf) hfit.ssid hssid'
    (fun h => if_pos h) (members_disjoint f hf .ssid (by decide))

end NameReport

section Write

variable {rep : NameReport} {r : WifiMsg}

/-- A copy does not reach what lies in front of its array. -/
theorem raw_copyText_of_before {dst f : Member} {s : Option (List UInt8)}
    (h : f.off + f.size ≤ dst.off) : (r.copyText dst s).raw f = r.raw f := by
  cases s with
  | none => rfl
  | some t => exact WifiMsg.raw_put_of_disjoint (.inl h)

/-- In front of the SSID array the name is as its own attribute leaves it. -/
theorem raw_write_ifname (hname : WifiMsg.FitsIn .ifname rep.ifname)
    (hmac : WifiMsg.FitsIn .macAddr (rep.mac.map macText)) :
    (rep.write r).raw .ifname = (r.copyText .ifname rep.ifname).raw .ifname := by
  rw [NameReport.raw_write_apart hname hmac (by decide) (by decide)
    (raw_copyText_of_before (by decide)), NameReport.write_only_ifname]

/-- The SSID array and what follows it, up to the integers, hold the copied text. -/
theorem octets_write_ssid {t : List UInt8} (r : WifiMsg) (hs : rep.ssid = some t) {n : Nat}
    (hn : n ≤ t.length + 1) (hend : Member.ssid.off + n ≤ Member.ifindex.off) :
    octets (rep.write r).mem Member.ssid.off n = (t ++ [0]).take n := by
  simp only [Member.ssid, Member.ifindex] at hend
  have hints : octets (rep.write r).mem Member.ssid.off n =
      octets ((rep.beforeSsid r).copyText .ssid rep.ssid).mem Member.ssid.off n := by
    have hdisj {dst : Member} (h : 84 ≤ dst.off) :
        dst.Disjoint ⟨30, n⟩ := .inr (by simp only; omega)
    exact (WifiMsg.raw_setInt_of_disjoint (f := ⟨30, n⟩) rfl (hdisj (by decide))).trans
      (WifiMsg.raw_setInt_of_disjoint (f := ⟨30, n⟩) rfl (hdisj (by decide)))
  rw [hints, hs]
  apply List.ext_getElem (by simp; omega)
  intro k hk _
  rw [octets_length] at hk
  rw [octets_getElem, List.getElem_take, WifiMsg.copyText, WifiMsg.put, rd8_store, if_pos]
  · rw [Nat.add_sub_cancel_left, rd8_of_lt]
  · rw [WifiMsg.size]
    simp only [Member.ssid, wifiMsgSize, List.length_append, List.length_singleton]
    omega

end Write

/-- A report whose strings fit changes the meaning of the record by what it carries. -/
theorem view_write {mem : Mem} (hfit : (nameReport mem).Fits) (r : WifiMsg) :
    ((nameReport mem).write r).view = (nameReport mem).apply r.view := by
  have hmac := macFits mem
  obtain ⟨zname, zssid, zmac⟩ := nameReport_ne_zero mem
  have hchan := channel_toInt32 mem
  generalize nameReport mem = rep at *
  have text_own {f : Member} (hf : f ∈ members) :
      (rep.write r).text f = ((rep.only f).write r).text f := by
    rw [WifiMsg.text, WifiMsg.text, NameReport.raw_write_only hfit hmac r hf]
  have int_own {f : Member} (h4 : f.size = 4) (hf : f ∈ members) :
      (rep.write r).int f = ((rep.only f).write r).int f :=
    WifiMsg.int_congr h4 (NameReport.raw_write_only hfit hmac r hf)
  open WifiMsg NameReport in
  simp only [WifiMsg.view, NameReport.apply, WifiView.mk.injEq]
  refine ⟨?_, ?_, ?_, ?_, ?_, ?_, ?_, ?_⟩
  · rw [text_own (by decide), write_only_ifname, text_copyText_self (by decide) hfit.ifname zname]
  · rw [text_own (by decide), write_only_ssid, text_copyText_self (by decide) hfit.ssid zssid]
  · rw [text_own (by decide), write_only_macAddr, text_copyText_self (by decide) hmac zmac]
  · rw [int_own rfl (by decide), write_only_ifindex, int_setInt_self (by decide)]
  · rw [int_own rfl (by decide), write_only_freq _ _ (.inl rfl),
      int_setInt_of_disjoint rfl rfl (by decide), int_setInt_self (by decide), hchan]
  · rw [int_own rfl (by decide), write_only_freq _ _ (.inr rfl), int_setInt_self (by decide),
      int_setInt_of_disjoint rfl rfl (by decide)]
  -- no attribute of an interface message sets these two
  · exact int_own rfl (by decide)
  · exact int_own rfl (by decide)

/-- The copied name and SSID end before the member `ifindex`. -/
structure NameReport.Stops (rep : NameReport) : Prop where
  ifname : ∀ t ∈ rep.ifname, Member.ifname.off + t.length < Member.ifindex.off
  ssid : ∀ t ∈ rep.ssid, Member.ssid.off + t.length < Member.ifindex.off

/-- The copied name and SSID end inside the record. -/
structure NameReport.Bounded (rep : NameReport) : Prop where
  ifname : ∀ t ∈ rep.ifname, Member.ifname.off + t.length < wifiMsgSize
  ssid : ∀ t ∈ rep.ssid, Member.ssid.off + t.length < wifiMsgSize

instance (rep : NameReport) : Decidable rep.Bounded :=
  decidable_of_iff ((∀ t ∈ rep.ifname, Member.ifname.off + t.length < wifiMsgSize) ∧
    ∀ t ∈ rep.ssid, Member.ssid.off + t.length < wifiMsgSize) ⟨fun h => ⟨h.1, h.2⟩,
      fun h => ⟨h.1, h.2⟩⟩

theorem NameReport.Stops.bounded {rep : NameReport} (h : rep.Stops) : rep.Bounded where
  ifname t ht := Nat.lt_trans (h.ifname t ht) (by decide)
  ssid t ht := Nat.lt_trans (h.ssid t ht) (by decide)

theorem NameReport.Fits.stops {rep : NameReport} (h : rep.Fits) : rep.Stops where
  ifname t ht := by
    have : t.length < 30 := h.ifname t ht
    simp only [Member.ifname, Member.ifindex]
    omega
  ssid t ht := by
    have : t.length < 32 := h.ssid t ht
    simp only [Member.ssid, Member.ifindex]
    omega

/-- Short of `ifindex`, a copy that is too long does not change it. -/
theorem int_ifindex_write {mem : Mem} (h : (nameReport mem).Stops) (r : WifiMsg) :
    ((nameReport mem).write r).int .ifindex =
      ((nameReport mem).ifindex.map toInt32).getD (r.int .ifindex) := by
  have hmac := macFits mem
  obtain ⟨hname, hssid⟩ := h
  generalize nameReport mem = rep at *
  open WifiMsg in
  rw [NameReport.write, int_setInt_of_disjoint rfl rfl (by decide),
    int_setInt_of_disjoint rfl rfl (by decide), int_congr rfl (raw_copyText_of_short hssid),
    int_copyText_of_disjoint hmac rfl (by decide), int_setInt_self (by decide),
    int_congr rfl (raw_copyText_of_short hname)]

/-! ## Station messages -/

/-- The attributes the walk through a nest accepts. -/
def nestWalk (mem : Mem) (nla : Nat) : List Nat := nlaWalk mem (nlaData nla) (nlaLen mem nla)

/-- A nest that its policy accepts as a whole. -/
def NestValid (mem : Mem) (maxtype : Nat) (policy : Nat → NlaPolicy) (nla : Nat) : Prop :=
  ∀ a ∈ nestWalk mem nla, ¬ Rejected mem maxtype policy a

instance (mem : Mem) (maxtype : Nat) (policy : Nat → NlaPolicy) (nla : Nat) :
    Decidable (NestValid mem maxtype policy nla) :=
  inferInstanceAs (Decidable (∀ a ∈ nestWalk mem nla, _))

/-- The attribute of type `t` that a handler finds in a nest, if the nest is valid. -/
def nestAttr (mem : Mem) (maxtype : Nat) (policy : Nat → NlaPolicy) (nla t : Nat) : Option Nat :=
  if NestValid mem maxtype policy nla then lastOfType mem t (nestWalk mem nla) else none

section Nest

variable {mem : Mem} {maxtype nla : Nat} {policy : Nat → NlaPolicy}

theorem nlaParseNested_err_iff :
    (nlaParseNested mem maxtype nla policy).val.err ≠ 0 ↔ ¬ NestValid mem maxtype policy nla := by
  rw [nlaParseNested, nlaParse_some_err_iff]
  simp [NestValid, nestWalk]

theorem nlaParseNested_tb (hv : NestValid mem maxtype policy nla) {t : Nat} (h0 : 0 < t)
    (hmax : t ≤ maxtype) :
    (nlaParseNested mem maxtype nla policy).val.tb t = nestAttr mem maxtype policy nla t := by
  rw [nlaParseNested, nlaParse_some_tb hv, if_pos ⟨h0, hmax⟩, nestAttr, if_pos hv, nestWalk]

theorem nestAttr_of_not_valid (hv : ¬ NestValid mem maxtype policy nla) (t : Nat) :
    nestAttr mem maxtype policy nla t = none := by
  rw [nestAttr, if_neg hv]

end Nest

/-- The attribute of type `t` inside the `STA_INFO` nest of a message. -/
def staAttr (mem : Mem) (t : Nat) : Option Nat :=
  (topAttr mem nl80211AttrStaInfo).bind fun sta =>
    nestAttr mem nl80211StaInfoMax statsPolicy sta t

/-- The attribute of type `t` inside the `TX_BITRATE` nest of a message. -/
def rateAttr (mem : Mem) (t : Nat) : Option Nat :=
  (staAttr mem nl80211StaInfoTxBitrate).bind fun tx =>
    nestAttr mem nl80211RateInfoMax ratePolicy tx t

/-- What one station message says. -/
@[ext] structure StationReport where
  signal : Option Int
  rate : Option Nat
  deriving DecidableEq, Repr

/-- The report of a message. -/
def stationReport (mem : Mem) : StationReport where
  signal := (staAttr mem nl80211StaInfoSignal).map fun a => int8OfU8 (nlaGetU8 mem a)
  rate := (rateAttr mem nl80211RateInfoBitrate).map fun a => nlaGetU16 mem a

namespace StationReport

/-- The updates of the record, in the order of the handler. -/
def write (rep : StationReport) (r : WifiMsg) : WifiMsg :=
  r |>.setInt .signal (rep.signal.map ofInt32) |>.setInt .txrate rep.rate

/-- A report read as a change of the record's meaning. -/
def apply (rep : StationReport) (v : WifiView) : WifiView :=
  { v with
    signal := rep.signal.getD v.signal
    txrate := (rep.rate.map Int.ofNat).getD v.txrate }

end StationReport

section Tables

variable {mem : Mem} {sta tx t : Nat}

/-- Without `STA_INFO` there is nothing inside it. -/
theorem staAttr_of_none (hs : topAttr mem nl80211AttrStaInfo = none) : staAttr mem t = none := by
  rw [staAttr, hs]
  rfl

theorem staAttr_of_not_valid (hs : topAttr mem nl80211AttrStaInfo = some sta)
    (hv : ¬ NestValid mem nl80211StaInfoMax statsPolicy sta) : staAttr mem t = none := by
  rw [staAttr, hs, Option.bind_some, nestAttr_of_not_valid hv]

/-- The index array of a valid `STA_INFO`. -/
theorem staTable (hs : topAttr mem nl80211AttrStaInfo = some sta)
    (hv : NestValid mem nl80211StaInfoMax statsPolicy sta) (h0 : 0 < t)
      (hmax : t ≤ nl80211StaInfoMax) :
    (nlaParseNested mem nl80211StaInfoMax sta statsPolicy).val.tb t = staAttr mem t := by
  rw [nlaParseNested_tb hv h0 hmax, staAttr, hs, Option.bind_some]

/-- Without `TX_BITRATE` there is no rate. -/
theorem rateAttr_of_none (htx : staAttr mem nl80211StaInfoTxBitrate = none) :
    rateAttr mem t = none := by
  rw [rateAttr, htx]
  rfl

theorem rateAttr_of_not_valid (htx : staAttr mem nl80211StaInfoTxBitrate = some tx)
    (hr : ¬ NestValid mem nl80211RateInfoMax ratePolicy tx) : rateAttr mem t = none := by
  rw [rateAttr, htx, Option.bind_some, nestAttr_of_not_valid hr]

/-- The index array of a valid `TX_BITRATE`. -/
theorem rateTable (htx : staAttr mem nl80211StaInfoTxBitrate = some tx)
    (hr : NestValid mem nl80211RateInfoMax ratePolicy tx) (h0 : 0 < t)
      (hmax : t ≤ nl80211RateInfoMax) :
    (nlaParseNested mem nl80211RateInfoMax tx ratePolicy).val.tb t = rateAttr mem t := by
  rw [nlaParseNested_tb hr h0 hmax, rateAttr, htx, Option.bind_some]

end Tables

/-- **`get_wifi_info`**: whatever the message holds, the handler writes its report and returns
`NL_SKIP`. -/
theorem getWifiInfo_val (mem : Mem) (r : WifiMsg) :
    (getWifiInfo mem r).val = (nlSkip, (stationReport mem).write r) := by
  -- the report as the two assignments of the handler
  have hwrite : (stationReport mem).write r =
      (r.setInt .signal ((staAttr mem nl80211StaInfoSignal).map fun a =>
        ofInt32 (int8OfU8 (nlaGetU8 mem a)))).setInt .txrate
          ((rateAttr mem nl80211RateInfoBitrate).map fun a => nlaGetU16 mem a) := by
    simp only [StationReport.write, stationReport, Option.map_map, Function.comp_def]
  have htop := topTable mem (t := nl80211AttrStaInfo) (by decide) (by decide)
  simp only [getWifiInfo, Traced.val_bind, htop]
  rw [hwrite]
  cases hs : topAttr mem nl80211AttrStaInfo with
  | none =>
      rw [rateAttr_of_none (staAttr_of_none hs), staAttr_of_none hs]
      rfl
  | some sta =>
      simp only [Traced.val_bind]
      by_cases hv : NestValid mem nl80211StaInfoMax statsPolicy sta
      · rw [if_neg (mt nlaParseNested_err_iff.mp (not_not_intro hv))]
        rw [staTable hs hv (t := nl80211StaInfoTxBitrate) (by decide) (by decide),
          staTable hs hv (t := nl80211StaInfoSignal) (by decide) (by decide)]
        simp only [Traced.val_bind, ifSet_assign_val]
        cases htx : staAttr mem nl80211StaInfoTxBitrate with
        | none =>
            rw [rateAttr_of_none htx]
            rfl
        | some tx =>
            simp only [Traced.val_bind]
            by_cases hr : NestValid mem nl80211RateInfoMax ratePolicy tx
            · rw [if_neg (mt nlaParseNested_err_iff.mp (not_not_intro hr))]
              rw [rateTable htx hr (by decide) (by decide), Traced.val_bind, ifSet_assign_val]
              rfl
            · rw [if_pos (nlaParseNested_err_iff.mpr hr), rateAttr_of_not_valid htx hr]
              rfl
      · rw [if_pos (nlaParseNested_err_iff.mpr hv)]
        rw [staAttr_of_not_valid hs hv, rateAttr_of_none (staAttr_of_not_valid hs hv)]
        rfl

theorem int8OfU8_bound (mem : Mem) (nla : Nat) :
    -128 ≤ int8OfU8 (nlaGetU8 mem nla) ∧ int8OfU8 (nlaGetU8 mem nla) < 128 := by
  have := (rd8 mem (nlaData nla)).toNat_lt
  unfold int8OfU8 nlaGetU8
  split <;> omega

/-- A station report changes `signal` and `txrate` by what it carries, and nothing else. -/
theorem view_write_station (mem : Mem) (r : WifiMsg) :
    ((stationReport mem).write r).view = (stationReport mem).apply r.view := by
  have hsig : ((stationReport mem).signal.map ofInt32).map toInt32 =
      (stationReport mem).signal := by
    simp only [stationReport, Option.map_map]
    congr 1
    funext a
    obtain ⟨hl, hu⟩ := int8OfU8_bound mem a
    exact toInt32_ofInt32 (Int.le_trans (by decide) hl) (Int.lt_trans hu (by decide))
  have hrate : (stationReport mem).rate.map toInt32 = (stationReport mem).rate.map Int.ofNat := by
    simp only [stationReport, Option.map_map]
    congr 1
    funext a
    have := rd16_lt mem (nlaData a)
    exact toInt32_of_lt (by simp only [nlaGetU16]; omega)
  generalize stationReport mem = rep at *
  open WifiMsg in
  simp only [WifiMsg.view, StationReport.write, StationReport.apply, WifiView.mk.injEq]
  refine ⟨?_, ?_, ?_, ?_, ?_, ?_, ?_, ?_⟩
  case refine_7 =>
    rw [int_setInt_of_disjoint rfl rfl (by decide), int_setInt_self (by decide), hsig]
  case refine_8 =>
    rw [int_setInt_self (by decide), int_setInt_of_disjoint rfl rfl (by decide), hrate]
  all_goals
    first
      | rw [text_setInt_of_disjoint rfl (by decide), text_setInt_of_disjoint rfl (by decide)]
      | rw [int_setInt_of_disjoint rfl rfl (by decide), int_setInt_of_disjoint rfl rfl (by decide)]

end Nl80211.Wifi
