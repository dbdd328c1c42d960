/-
# Nl80211.Wifi.Decode — `get_wifi_name` as the inverse of what the kernel writes.

An interface message is a stream of attributes in any order, five of which the handler reads and any
others it passes over.  Reading the record back gives what was encoded, with one exception: the SSID
is written without a terminator and copied up to the next zero octet.  Padding supplies that octet
unless the length of the SSID is a multiple of four; then it is up to what follows the attribute,
and an SSID of 32 octets moreover puts its terminator into the address.
-/
import Nl80211.Libnl.Encode
import Nl80211.Wifi.Copies

namespace Nl80211.Wifi

open Lib Lib.Bytes Libnl

/-! ## Interface messages -/

/-- A text of `lo` to `hi` octets without a zero octet. -/
structure Text (lo hi : Nat) where
  chars : List UInt8
  least : lo ≤ chars.length
  most : chars.length ≤ hi
  nonzero : ∀ x ∈ chars, x ≠ 0

/-- The attributes `get_wifi_name` reads. -/
def ifaceTypes : List Nat :=
  [nl80211AttrIfname, nl80211AttrIfindex, nl80211AttrMac, nl80211AttrSsid, nl80211AttrWiphyFreq]

/-- An attribute of an interface message: one of the five, or any other. -/
inductive IfaceAttr where
  | ifname (name : Text 1 15)
  | ifindex (n : Fin 2147483648)
  | mac (addr : { bs : Mem // bs.length = ethAlen })
  | ssid (s : Text 0 32)
  | wiphyFreq (f : Fin 2147483648)
  | other (a : Nla) (type_ne : a.type ∉ ifaceTypes)

namespace IfaceAttr

theorem name_len (name : Text 1 15) : nlaHdrlen + (name.chars ++ [0]).length < 65536 := by
  have := name.most
  simp only [nlaHdrlen, List.length_append, List.length_singleton]
  omega

theorem mac_len (addr : { bs : Mem // bs.length = ethAlen }) :
    nlaHdrlen + addr.val.length < 65536 := by
  rw [addr.property]
  decide

theorem ssid_len (s : Text 0 32) : nlaHdrlen + s.chars.length < 65536 := by
  have := s.most
  simp only [nlaHdrlen]
  omega

/-- The attribute as the kernel writes it: the name with a terminator, the SSID without. -/
def nla : IfaceAttr → Nla
  | ifname name => ⟨nl80211AttrIfname, name.chars ++ [0], by decide, name_len name⟩
  | ifindex n => .u32 nl80211AttrIfindex n.val (by decide)
  | mac addr => ⟨nl80211AttrMac, addr.val, by decide, mac_len addr⟩
  | ssid s => ⟨nl80211AttrSsid, s.chars, by decide, ssid_len s⟩
  | wiphyFreq f => .u32 nl80211AttrWiphyFreq f.val (by decide)
  | other a _ => a

/-- The type of the attribute. -/
def type : IfaceAttr → Nat
  | ifname _ => nl80211AttrIfname
  | ifindex _ => nl80211AttrIfindex
  | mac _ => nl80211AttrMac
  | ssid _ => nl80211AttrSsid
  | wiphyFreq _ => nl80211AttrWiphyFreq
  | other a _ => a.type

theorem type_nla (a : IfaceAttr) : a.nla.type = a.type := by
  cases a <;> simp [nla, type, Nla.type, Nla.u32, nlaTypeMask, nl80211AttrIfname,
    nl80211AttrIfindex,
    nl80211AttrMac, nl80211AttrSsid, nl80211AttrWiphyFreq]

end IfaceAttr

/-- An interface message: each of the five attributes at most once. -/
structure InterfaceMsg extends GenlMsg IfaceAttr.nla where
  once : ∀ t ∈ ifaceTypes, (attrs.filter fun a => a.type = t).length ≤ 1

/-- The record `r'` after the message, `r` before it: every attribute is read back, and a member
without attribute is as it was. -/
structure Decoded (m : InterfaceMsg) (r r' : WifiMsg) : Prop where
  ifname : ∀ name, .ifname name ∈ m.attrs → cstr r'.mem Member.ifname.off = name.chars
  ifindex : ∀ n, .ifindex n ∈ m.attrs → r'.int .ifindex = n.val
  mac : ∀ addr, .mac addr ∈ m.attrs → cstr r'.mem Member.macAddr.off = macText addr.val
  ssid : ∀ s, .ssid s ∈ m.attrs → cstr r'.mem Member.ssid.off = s.chars
  freq : ∀ f, .wiphyFreq f ∈ m.attrs →
    r'.int .band = f.val ∧ r'.int .channel = ieee80211FrequencyToChannel f.val
  no_ifname : (∀ name, .ifname name ∉ m.attrs) → r'.raw .ifname = r.raw .ifname
  no_ifindex : (∀ n, .ifindex n ∉ m.attrs) → r'.raw .ifindex = r.raw .ifindex
  no_mac : (∀ addr, .mac addr ∉ m.attrs) → r'.raw .macAddr = r.raw .macAddr
  no_ssid : (∀ s, .ssid s ∉ m.attrs) → r'.raw .ssid = r.raw .ssid
  no_freq : (∀ f, .wiphyFreq f ∉ m.attrs) →
    r'.raw .band = r.raw .band ∧ r'.raw .channel = r.raw .channel

/-- The SSID is followed by a zero octet, which is padding, or the start of the next attribute, or
what lies behind the message; and either it leaves room for its terminator or the message has no MAC
and the record no address. -/
def SsidEnds (m : InterfaceMsg) (r : WifiMsg) : Prop :=
  ∀ before s after, m.attrs = before ++ .ssid s :: after →
    (s.chars.length % 4 ≠ 0 ∨ rd8 (putAll (after.map IfaceAttr.nla) ++ m.behind) 0 = 0) ∧
      (s.chars.length < 32 ∨
        (∀ addr, .mac addr ∉ m.attrs) ∧ cstr r.mem Member.macAddr.off = [])

/-! ## The report of a message -/

namespace InterfaceMsg

variable {m : InterfaceMsg}

theorem topWalk_eq (m : InterfaceMsg) :
    topWalk m.image = places (genlmsgAttrdata (nlmsgData 0) 0) (m.attrs.map IfaceAttr.nla) := m.walk

/-- An attribute of the five is the one the handler finds. -/
theorem attr_split {before after : List IfaceAttr} {a : IfaceAttr}
    (h : m.attrs = before ++ a :: after) (ht : a.type ∈ ifaceTypes) :
    ∃ nla, topAttr m.image a.type = some nla ∧ Stored m.image nla a.nla ∧
      ∀ k, rd8 m.image (nla + a.nla.span + k) =
        rd8 (putAll (after.map IfaceAttr.nla) ++ m.behind) k := by
  -- at most one attribute of the type, so none behind this one
  have hafter : ∀ b ∈ after.map IfaceAttr.nla, b.type ≠ a.nla.type := by
    intro b hb htype
    obtain ⟨c, hc, rfl⟩ := List.mem_map.mp hb
    rw [c.type_nla, a.type_nla] at htype
    have honce := m.once _ ht
    rw [h, List.filter_append, List.filter_cons_of_pos (by simp), List.length_append,
      List.length_cons] at honce
    have hpos : 0 < (after.filter fun b => b.type = a.type).length :=
      List.length_pos_of_mem (List.mem_filter.mpr ⟨hc, by simpa using htype⟩)
    omega
  have hattrs : m.attrs.map IfaceAttr.nla =
      before.map IfaceAttr.nla ++ a.nla :: after.map IfaceAttr.nla := by
    rw [h, List.map_append, List.map_cons]
  have hstream := m.streams
  rw [hattrs] at hstream
  obtain ⟨hlast, hstored⟩ := lastOfType_split hstream hafter
  refine ⟨_, ?_, hstored, fun k => m.rd8_behind h k⟩
  rw [topAttr, topWalk_eq, hattrs, ← a.type_nla]
  exact hlast

/-- What a handler reads of an attribute is what it reads at the place where the attribute lies. -/
theorem attr_reported {α : Type} {a : IfaceAttr} (ha : a ∈ m.attrs) (ht : a.type ∈ ifaceTypes)
    (read : Nat → α) :
    ∃ nla, (topAttr m.image a.type).map read = some (read nla) ∧ Stored m.image nla a.nla := by
  obtain ⟨before, after, h⟩ := List.append_of_mem ha
  obtain ⟨nla, htop, hstored, -⟩ := attr_split h ht
  exact ⟨nla, by rw [htop, Option.map_some], hstored⟩

/-- What was not written is not found. -/
theorem attr_absent {t : Nat} (h : ∀ a ∈ m.attrs, a.type ≠ t) : topAttr m.image t = none := by
  rw [topAttr, topWalk_eq]
  apply lastOfType_none m.streams
  intro b hb
  obtain ⟨a, ha, rfl⟩ := List.mem_map.mp hb
  rw [a.type_nla]
  exact h a ha

theorem report_ifname {name : Text 1 15} (h : .ifname name ∈ m.attrs) :
    (nameReport m.image).ifname = some name.chars := by
  obtain ⟨nla, hread, hstored⟩ :=
    attr_reported h (show nl80211AttrIfname ∈ ifaceTypes by decide) fun nla =>
      cstr m.image (nlaData nla)
  have hdata : octets m.image (nlaData nla) (name.chars.length + 1) = name.chars ++ [0] := by
    simpa [IfaceAttr.nla] using hstored.data_eq
  rw [cstr_of_octets name.nonzero hdata] at hread
  exact hread

theorem report_ifindex {n : Fin 2147483648} (h : .ifindex n ∈ m.attrs) :
    (nameReport m.image).ifindex = some n.val := by
  obtain ⟨nla, hread, hstored⟩ :=
    attr_reported h (show nl80211AttrIfindex ∈ ifaceTypes by decide) fun nla =>
      nlaGetU32 m.image nla
  have hword : nlaGetU32 m.image nla = n.val := by
    rw [Stored.getU32 hstored]
    omega
  rw [hword] at hread
  exact hread

theorem report_mac {addr : { bs : Mem // bs.length = ethAlen }} (h : .mac addr ∈ m.attrs) :
    (nameReport m.image).mac = some addr.val := by
  obtain ⟨nla, hread, hstored⟩ := attr_reported h (show nl80211AttrMac ∈ ifaceTypes by decide)
    fun nla => octets m.image (nlaData nla) ethAlen
  have hdata : octets m.image (nlaData nla) ethAlen = addr.val := by
    have hoctets := hstored.data_eq
    rwa [show (IfaceAttr.mac addr).nla.data.length = ethAlen from addr.property] at hoctets
  rw [hdata] at hread
  exact hread

theorem report_freq {f : Fin 2147483648} (h : .wiphyFreq f ∈ m.attrs) :
    (nameReport m.image).freq = some f.val := by
  obtain ⟨nla, hread, hstored⟩ :=
    attr_reported h (show nl80211AttrWiphyFreq ∈ ifaceTypes by decide) fun nla =>
      nlaGetU32 m.image nla
  have hword : nlaGetU32 m.image nla = f.val := by
    rw [Stored.getU32 hstored]
    omega
  rw [hword] at hread
  exact hread

/-- The text copied for an SSID starts with the SSID, and ends there exactly when a zero octet
follows. -/
theorem report_ssid {before after : List IfaceAttr} {s : Text 0 32}
    (h : m.attrs = before ++ .ssid s :: after) :
    ∃ t, (nameReport m.image).ssid = some t ∧
      ((s.chars.length % 4 ≠ 0 ∨ rd8 (putAll (after.map IfaceAttr.nla) ++ m.behind) 0 = 0) →
        t = s.chars) ∧
      (¬ (s.chars.length % 4 ≠ 0 ∨ rd8 (putAll (after.map IfaceAttr.nla) ++ m.behind) 0 = 0) →
        ∃ c rest, c ≠ 0 ∧ t = s.chars ++ c :: rest) := by
  obtain ⟨nla, htop, hstored, hbehind⟩ := attr_split h (show nl80211AttrSsid ∈ ifaceTypes by decide)
  have hdata : octets m.image (nlaData nla) s.chars.length = s.chars := hstored.data_eq
  have hne : ∀ k, k < s.chars.length → rd8 m.image (nlaData nla + k) ≠ 0 := by
    intro k hk
    rw [hstored.rd8_data (k := k) hk]
    exact s.nonzero _ (List.getElem_mem hk)
  -- without padding the octet behind the SSID is the first one behind the attribute
  have hnext : s.chars.length % 4 = 0 → rd8 m.image (nlaData nla + s.chars.length) =
      rd8 (putAll (after.map IfaceAttr.nla) ++ m.behind) 0 := by
    intro hmod
    have hspan : (IfaceAttr.ssid s).nla.span = nlaHdrlen + s.chars.length :=
      align4_of_mod (show (nlaHdrlen + s.chars.length) % 4 = 0 by simp only [nlaHdrlen]; omega)
    rw [← hbehind 0, hspan, Nat.add_zero, nlaData, Nat.add_assoc]
  refine ⟨cstr m.image (nlaData nla), ?_, ?_, ?_⟩
  · show (topAttr m.image nl80211AttrSsid).map _ = _
    rw [show topAttr m.image nl80211AttrSsid = some nla from htop, Option.map_some]
  · intro hstop
    have h0 : rd8 m.image (nlaData nla + s.chars.length) = 0 := by
      by_cases hmod : s.chars.length % 4 = 0
      · rw [hnext hmod]
        exact hstop.resolve_left (not_not_intro hmod)
      · exact hstored.rd8_padding hmod
    rw [cstr_eq_octets hne h0, hdata]
  · intro hrun
    rw [not_or, not_not] at hrun
    have hc : rd8 m.image (nlaData nla + s.chars.length) ≠ 0 := by
      rw [hnext hrun.1]
      exact hrun.2
    have hlt : s.chars.length < (cstr m.image (nlaData nla)).length := by
      by_contra hge
      rcases Nat.lt_or_eq_of_le (Nat.not_lt.mp hge) with hlt | heq
      · exact hne _ hlt (rd8_cstr_length ..)
      · exact hc (heq ▸ rd8_cstr_length ..)
    obtain ⟨rest, hlen⟩ := Nat.exists_eq_add_of_lt hlt
    refine ⟨_, octets m.image (nlaData nla + (s.chars.length + 1)) rest, hc, ?_⟩
    rw [cstr_eq_octets_length, hlen, Nat.add_right_comm, octets_add, octets_add, hdata]
    simp [octets]

/-- Nothing is reported for a type that none of the five attributes in the message has. -/
theorem not_reported {α : Type} {t : Nat} (ht : t ∈ ifaceTypes) (read : Nat → α)
    (h : ∀ a ∈ m.attrs, a.type ∈ ifaceTypes → a.type ≠ t) :
    (topAttr m.image t).map read = none := by
  rw [attr_absent, Option.map_none]
  rintro a ha rfl
  exact h a ha ht rfl

theorem report_no_ifname (h : ∀ name, .ifname name ∉ m.attrs) :
    (nameReport m.image).ifname = none := by
  apply not_reported (show nl80211AttrIfname ∈ ifaceTypes by decide)
  intro a ha hfive
  cases a with
  | ifname name => exact absurd ha (h name)
  | other b hne => exact absurd hfive hne
  | _ => nofun

theorem report_no_ifindex (h : ∀ n, .ifindex n ∉ m.attrs) :
    (nameReport m.image).ifindex = none := by
  apply not_reported (show nl80211AttrIfindex ∈ ifaceTypes by decide)
  intro a ha hfive
  cases a with
  | ifindex n => exact absurd ha (h n)
  | other b hne => exact absurd hfive hne
  | _ => nofun

theorem report_no_mac (h : ∀ addr, .mac addr ∉ m.attrs) : (nameReport m.image).mac = none := by
  apply not_reported (show nl80211AttrMac ∈ ifaceTypes by decide)
  intro a ha hfive
  cases a with
  | mac addr => exact absurd ha (h addr)
  | other b hne => exact absurd hfive hne
  | _ => nofun

theorem report_no_ssid (h : ∀ s, .ssid s ∉ m.attrs) : (nameReport m.image).ssid = none := by
  apply not_reported (show nl80211AttrSsid ∈ ifaceTypes by decide)
  intro a ha hfive
  cases a with
  | ssid s => exact absurd ha (h s)
  | other b hne => exact absurd hfive hne
  | _ => nofun

theorem report_no_freq (h : ∀ f, .wiphyFreq f ∉ m.attrs) : (nameReport m.image).freq = none := by
  apply not_reported (show nl80211AttrWiphyFreq ∈ ifaceTypes by decide)
  intro a ha hfive
  cases a with
  | wiphyFreq f => exact absurd ha (h f)
  | other b hne => exact absurd hfive hne
  | _ => nofun

end InterfaceMsg

/-! ## The record after the message -/

section Write

variable {rep : NameReport} {r : WifiMsg}

/-- What follows the SSID array stays when the terminator is in the array, or falls on a zero. -/
theorem raw_copyText_ssid {t : List UInt8} {f : Member} (hf : Member.macAddr.off ≤ f.off)
    (h : t.length < 32 ∨ t.length = 32 ∧ rd8 r.mem Member.macAddr.off = 0) :
    (r.copyText .ssid (some t)).raw f = r.raw f := by
  simp only [Member.macAddr] at hf h
  apply octets_congr
  intro k _
  simp only [WifiMsg.copyText, WifiMsg.put, Member.ssid, rd8_store, List.length_append,
    List.length_singleton]
  split
  · next hin =>
      obtain ⟨-, hend, -⟩ := hin
      -- only the terminator of an SSID of 32 octets lies there
      have hidx : f.off + k = 62 ∧ t.length = 32 := by omega
      rw [hidx.1, (h.resolve_left (by omega)).2, show 62 - 30 = t.length + 0 by omega,
        rd8_append_right]
      rfl
  · rfl

/-- The SSID of the report leaves the rest of the record alone. -/
def SsidStays (rep : NameReport) (r : WifiMsg) : Prop :=
  ∀ t ∈ rep.ssid, t.length < 32 ∨
    t.length = 32 ∧ rep.mac = none ∧ rd8 r.mem Member.macAddr.off = 0

/-- Behind the SSID array every member is as its own attribute leaves it. -/
theorem raw_write_behind (hname : WifiMsg.FitsIn .ifname rep.ifname)
    (hmac : WifiMsg.FitsIn .macAddr (rep.mac.map macText)) (hssid : SsidStays rep r) {f : Member}
    (hf : f ∈ members) (hoff : Member.macAddr.off ≤ f.off) :
    (rep.write r).raw f = ((rep.only f).write r).raw f := by
  have hne : f ≠ .ssid := by
    rintro rfl
    exact absurd hoff (by decide)
  refine NameReport.raw_write_apart hname hmac hf hne ?_
  cases hs : rep.ssid with
  | none => rfl
  | some t =>
      refine raw_copyText_ssid hoff ((hssid t hs).imp_right ?_)
      rintro ⟨hlen, hnone, hzero⟩
      -- without a MAC the address is what it was when the SSID is copied
      have hraw : (rep.beforeSsid r).raw .macAddr = r.raw .macAddr := by
        rw [NameReport.raw_beforeSsid_only hname hmac (by decide), NameReport.beforeSsid,
          NameReport.only_mac, hnone]
        rfl
      have hget := congrArg (·[0]?) hraw
      refine ⟨hlen, ?_⟩
      rw [← hzero]
      simpa [WifiMsg.raw, octets, Member.macAddr] using hget

end Write

/-! ## The round trip -/

section RoundTrip

variable {m : InterfaceMsg} {r : WifiMsg}

/-- The name of the message fits its array. -/
theorem ifname_fits (m : InterfaceMsg) : WifiMsg.FitsIn .ifname (nameReport m.image).ifname := by
  intro t ht
  by_cases h : ∃ name, .ifname name ∈ m.attrs
  · obtain ⟨name, hname⟩ := h
    cases (InterfaceMsg.report_ifname hname).symm.trans ht
    exact Nat.lt_of_le_of_lt name.most (by decide)
  · push Not at h
    cases (InterfaceMsg.report_no_ifname h).symm.trans ht

/-- Where the SSID ends in time, the report holds it as it was encoded and leaves the rest alone. -/
theorem SsidEnds.stays (h : SsidEnds m r) : SsidStays (nameReport m.image) r := by
  intro t ht
  by_cases hs : ∃ s, .ssid s ∈ m.attrs
  · obtain ⟨s, hs⟩ := hs
    obtain ⟨before, after, hattrs⟩ := List.append_of_mem hs
    obtain ⟨hstop, hroom⟩ := h before s after hattrs
    obtain ⟨t', ht', hexact, -⟩ := InterfaceMsg.report_ssid hattrs
    cases ht'.symm.trans ht
    rw [hexact hstop]
    rcases Nat.lt_or_eq_of_le s.most with hlt | heq
    · exact .inl hlt
    · obtain ⟨hmac, haddr⟩ := hroom.resolve_left (by omega)
      exact .inr ⟨heq, InterfaceMsg.report_no_mac hmac, cstr_eq_nil_iff.mp haddr⟩
  · push Not at hs
    cases (InterfaceMsg.report_no_ssid hs).symm.trans ht

/-- What was encoded is read back. -/
theorem decoded_of_ends (h : SsidEnds m r) : Decoded m r ((nameReport m.image).write r) := by
  have hname := ifname_fits m
  have hmac := macFits m.image
  -- only the SSID can run out of its array
  have hbehind {f : Member} (hf : f ∈ members) (hoff : Member.macAddr.off ≤ f.off) :=
    raw_write_behind hname hmac h.stays hf hoff
  have hchan : ∀ f : Fin 2147483648, toInt32 (ofInt32 (ieee80211FrequencyToChannel f.val)) =
      ieee80211FrequencyToChannel f.val := by
    intro f
    have hb := ieee80211FrequencyToChannel_bound f.val
    rw [toInt32_of_lt f.isLt] at hb
    exact toInt32_ofInt32 hb.1 hb.2
  constructor
  case ifname =>
    intro name hmem
    have htext : ((nameReport m.image).write r).text .ifname = name.chars := by
      rw [WifiMsg.text, raw_write_ifname hname hmac, InterfaceMsg.report_ifname hmem]
      exact WifiMsg.text_put_cstring (by decide) name.nonzero
        (Nat.lt_of_le_of_lt name.most (by decide))
    rw [cstr_eq_text (by rw [htext]; exact Nat.lt_of_le_of_lt name.most (by decide)), htext]
  case ifindex =>
    intro n hmem
    rw [WifiMsg.int_congr rfl (hbehind (by decide) (by decide)), NameReport.write_only_ifindex,
      WifiMsg.int_setInt_self (by decide), InterfaceMsg.report_ifindex hmem]
    exact toInt32_of_lt n.isLt
  case mac =>
    intro addr hmem
    have hlen := macText_length_of_six addr.property
    have htext : ((nameReport m.image).write r).text .macAddr = macText addr.val := by
      rw [WifiMsg.text, hbehind (by decide) (by decide), NameReport.write_only_macAddr,
        InterfaceMsg.report_mac hmem]
      exact WifiMsg.text_put_cstring (by decide) (fun x hx => macText_ne_zero hx)
        (by rw [hlen]; decide)
    rw [cstr_eq_text (by rw [htext, hlen]; decide), htext]
  case ssid =>
    intro s hmem
    obtain ⟨before, after, hattrs⟩ := List.append_of_mem hmem
    obtain ⟨t, ht, hexact, -⟩ := InterfaceMsg.report_ssid hattrs
    have hmost := s.most
    rw [hexact (h before s after hattrs).1] at ht
    refine cstr_of_octets s.nonzero ?_
    rw [octets_write_ssid r ht (Nat.le_refl _) (by simp only [Member.ssid, Member.ifindex]; omega)]
    simp
  case freq =>
    intro f hmem
    have hfreq := InterfaceMsg.report_freq hmem
    constructor
    · rw [WifiMsg.int_congr rfl (hbehind (by decide) (by decide)),
        NameReport.write_only_freq _ _ (.inr rfl),
        WifiMsg.int_setInt_self (by decide), hfreq]
      exact toInt32_of_lt f.isLt
    · rw [WifiMsg.int_congr rfl (hbehind (by decide) (by decide)),
        NameReport.write_only_freq _ _ (.inl rfl),
        WifiMsg.int_setInt_of_disjoint rfl rfl (by decide), WifiMsg.int_setInt_self (by decide),
        NameReport.channel, hfreq, Option.map_some, toInt32_of_lt f.isLt]
      exact hchan f
  case no_ifname =>
    intro hnone
    rw [raw_write_ifname hname hmac, InterfaceMsg.report_no_ifname hnone]
    rfl
  case no_ifindex =>
    intro hnone
    rw [hbehind (by decide) (by decide), NameReport.write_only_ifindex,
      InterfaceMsg.report_no_ifindex hnone]
    rfl
  case no_mac =>
    intro hnone
    rw [hbehind (by decide) (by decide), NameReport.write_only_macAddr,
      InterfaceMsg.report_no_mac hnone]
    rfl
  case no_ssid =>
    intro hnone
    have hnone := InterfaceMsg.report_no_ssid hnone
    have hfit : (nameReport m.image).Fits := by
      refine ⟨hname, ?_⟩
      intro t ht
      rw [hnone] at ht
      cases ht
    rw [NameReport.raw_write_only hfit hmac r (by decide), NameReport.write_only_ssid, hnone]
    rfl
  case no_freq =>
    intro hnone
    have hfreq := InterfaceMsg.report_no_freq hnone
    constructor
    · rw [hbehind (by decide) (by decide), NameReport.write_only_freq _ _ (.inr rfl),
        NameReport.channel, hfreq]
      rfl
    · rw [hbehind (by decide) (by decide), NameReport.write_only_freq _ _ (.inl rfl),
        NameReport.channel, hfreq]
      rfl

/-- Reading back what was encoded takes an SSID that ends in time. -/
theorem ends_of_decoded (h : Decoded m r ((nameReport m.image).write r)) : SsidEnds m r := by
  intro before s after hattrs
  have hmem : .ssid s ∈ m.attrs := hattrs ▸ List.mem_append_right _ List.mem_cons_self
  have hmost := s.most
  have hwindow : Member.ssid.off + (s.chars.length + 1) ≤ Member.ifindex.off := by
    simp only [Member.ssid, Member.ifindex]
    omega
  obtain ⟨t, ht, hexact, hlong⟩ := InterfaceMsg.report_ssid hattrs
  have hread := h.ssid s hmem
  have h0 := rd8_cstr_length ((nameReport m.image).write r).mem Member.ssid.off
  rw [hread] at h0
  have hstop : s.chars.length % 4 ≠ 0 ∨
      rd8 (putAll (after.map IfaceAttr.nla) ++ m.behind) 0 = 0 := by
    by_contra hrun
    -- the copy goes on behind the SSID with an octet that is not zero
    obtain ⟨c, rest, hc, rfl⟩ := hlong hrun
    have hoct := octets_write_ssid r ht (n := s.chars.length + 1) (by simp) hwindow
    have hget := congrArg (·[s.chars.length]?) hoct
    simp [octets, h0] at hget
    exact hc hget.symm
  refine ⟨hstop, ?_⟩
  rcases Nat.lt_or_eq_of_le hmost with hlt | heq
  · exact .inl hlt
  · -- the terminator of an SSID of 32 octets is the first octet of the address
    rw [heq] at h0
    have hnil : cstr ((nameReport m.image).write r).mem Member.macAddr.off = [] :=
      cstr_of_eq_zero h0
    have hno : ∀ addr, .mac addr ∉ m.attrs := by
      intro addr haddr
      have hlen := macText_length_of_six addr.property
      rw [← h.mac addr haddr, hnil] at hlen
      cases hlen
    have hraw := congrArg (·[0]?) (h.no_mac hno)
    refine .inr ⟨hno, cstr_of_eq_zero ?_⟩
    have hold : rd8 r.mem Member.macAddr.off =
        rd8 ((nameReport m.image).write r).mem Member.macAddr.off := by
      simpa [WifiMsg.raw, octets, Member.macAddr] using hraw.symm
    exact hold.trans h0

/-- **Decoding.** For every interface message and every record before it, the record afterwards
reads back as what was encoded exactly when the SSID ends in time. -/
theorem decoded_iff (m : InterfaceMsg) (r : WifiMsg) :
    Decoded m r (getWifiName m.image r).val.2 ↔ SsidEnds m r := by
  rw [getWifiName_val]
  exact ⟨ends_of_decoded, decoded_of_ends⟩

end RoundTrip

/-- An SSID that is not padded. -/
def homeText : Text 0 32 := ⟨[104, 111, 109, 101], by decide, by decide, by decide +kernel⟩

/-- An interface associated to `home` on channel 1. -/
def homeAttrs : List IfaceAttr := [.ssid homeText, .wiphyFreq 2412]

/-- The message about it. -/
def homeMsg : InterfaceMsg where
  head := le32 36 ++ (le16 28 ++ (le16 nlmFMulti ++ (le32 7 ++ (le32 0 ++ [7, 1, 0, 0]))))
  attrs := homeAttrs
  behind := []
  head_len := rfl
  len := rfl
  size := by decide
  once := by decide

/-- The SSID `home` fills its attribute and is read with the length of the next one behind it. -/
theorem home_not_decoded : ¬ Decoded homeMsg .init (getWifiName homeMsg.image .init).val.2 := by
  intro h
  rw [getWifiName_val] at h
  obtain ⟨hstop, -⟩ := ends_of_decoded h [] homeText [.wiphyFreq 2412] rfl
  revert hstop
  decide

end Nl80211.Wifi
