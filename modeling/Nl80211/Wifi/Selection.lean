/-
# Nl80211.Wifi.Selection — which interface the record describes.

The object is made for one interface, `dev_`, but `get_wifi_name` writes every message of the dump
into the one record: octet by octet the last message wins (`rd8_nameRecord`).  So the record
describes `dev_` exactly when its message comes last, its SSID is copied as it is, and no earlier
one has left something behind that it does not overwrite (`ComesLast`).

The SSIDs are those the kernel sends, without a terminator: a copy runs on behind its attribute
until it meets a zero octet, over the address, `ifindex`, `channel` and `band` if need be.  The
conditions are about these octets (`ssidOctet`).
-/
import Nl80211.Wifi.Copies
import Nl80211.Wifi.Delivery

namespace Nl80211.Wifi

open Lib Lib.Bytes Libnl

/-! ## What the record should describe -/

/-- The name of an interface: its `IFNAME` less the terminator. -/
def nameOf (m : NetMsg) : Option (List UInt8) :=
  (topAttr m.image nl80211AttrIfname).map fun a => (nlaPayload m.image a).dropLast

/-- The octets of its SSID attribute, if it has one. -/
def ssidOf (m : NetMsg) : Option (List UInt8) :=
  (topAttr m.image nl80211AttrSsid).map (nlaPayload m.image)

/-- The octet `k` places behind the start of its SSID, in the attribute or behind it. -/
def ssidOctet (m : NetMsg) (k : Nat) : Option UInt8 :=
  (topAttr m.image nl80211AttrSsid).map fun a => rd8 m.image (nlaData a + k)

/-- Its frequency, if it has one. -/
def freqOf (m : NetMsg) : Option Nat := (nameReport m.image).freq

/-- The record of a single interface: what its message has, and the defaults for what it lacks. -/
def ifaceView (m : NetMsg) : WifiView :=
  { (nameReport m.image).apply .init with
    ifname := (nameOf m).getD []
    ssid := (ssidOf m).getD [] }

/-- The six members that an interface message is about; the other two as they were set up. -/
def WifiView.iface (v : WifiView) : WifiView := { v with signal := -1, txrate := -1 }

/-- What the record should be for the interface `d` after the messages `ms`: in the six members,
that interface alone; where there is none, the whole record as it was set up. -/
def Selected (d : List UInt8) (ms : List NetMsg) (v : WifiView) : Prop :=
  match ms.find? fun m => nameOf m = some d with
  | some m => v.iface = ifaceView m
  | none => v = .init

instance (d : List UInt8) (ms : List NetMsg) (v : WifiView) : Decidable (Selected d ms v) :=
  match h : ms.find? fun m => nameOf m = some d with
  | some m => decidable_of_iff (v.iface = ifaceView m) (by rw [Selected, h])
  | none => decidable_of_iff (v = .init) (by rw [Selected, h])

/-- An interface message: a name that fits its array, an index and an address; an SSID, if there is
one, of less than 32 octets, none of them zero. -/
structure IsInterface (m : NetMsg) : Prop where
  name : ∃ a ∈ topAttr m.image nl80211AttrIfname, ∃ s : List UInt8,
    nlaPayload m.image a = s ++ [0] ∧ s ≠ [] ∧ s.length < Member.ifname.size ∧ ∀ x ∈ s, x ≠ 0
  ifindex : (nameReport m.image).ifindex.isSome
  mac : (nameReport m.image).mac.isSome
  ssid : ∀ s ∈ ssidOf m, s.length < 32 ∧ ∀ x ∈ s, x ≠ 0

/-- A dump of interfaces with names of their own. -/
structure Interfaces (ms : List NetMsg) : Prop where
  each : ∀ m ∈ ms, IsInterface m
  distinct : (ms.map nameOf).Nodup

/-! ## When it does -/

/-- The message writes into `channel` or `band`: it has a frequency, or an SSID without a zero octet
among the first 58 at its payload. -/
def ReachesChannel (m : NetMsg) : Prop :=
  (freqOf m).isSome ∨ (ssidOf m).isSome ∧ ∀ k < 58, ssidOctet m k ≠ some 0

/-- It leaves both as they were set up, at `-1`: it has no frequency, and the octets of the copy
that fall on the two are 255. -/
def BlanksChannel (m : NetMsg) : Prop :=
  freqOf m = none ∧ ∀ k < 66, 58 ≤ k → ssidOctet m k = some 255

instance (m : NetMsg) : Decidable (ReachesChannel m) := inferInstanceAs (Decidable (_ ∨ _))

instance (m : NetMsg) : Decidable (BlanksChannel m) := inferInstanceAs (Decidable (_ ∧ _))

/-- The message `m` of `d` ends the list behind `before`, the octet behind its SSID, if it has one,
is zero, and what it lacks the messages before it have left unset, without writing behind the
record. -/
structure Overwrites (d : List UInt8) (before : List NetMsg) (m : NetMsg) : Prop where
  named : nameOf m = some d
  ssid : ∀ s ∈ ssidOf m, ssidOctet m s.length = some 0
  noSsid : ssidOf m = none →
    OfLast (fun m' => (ssidOf m').isSome) (fun m' => ssidOctet m' 0 = some 0) before
  noFreq : freqOf m = none → OfLast ReachesChannel BlanksChannel before
  ends : ∀ m' ∈ before, (ssidOf m').isSome → ∃ k < 74, ssidOctet m' k = some 0

/-- There is no interface, or the one named `d` comes last and overwrites the others. -/
def ComesLast (d : List UInt8) (ms : List NetMsg) : Prop :=
  ms = [] ∨ ∃ before m, ms = before ++ [m] ∧ Overwrites d before m

/-! ## One message -/

/-- What is asked of the octets of an SSID is asked of its copy. -/
theorem ssid_cases (m : NetMsg) :
    (ssidOf m = none ∧ (nameReport m.image).ssid = none ∧ ∀ k, ssidOctet m k = none) ∨
      ∃ a, ssidOf m = some (nlaPayload m.image a) ∧
        (nameReport m.image).ssid = some (cstr m.image (nlaData a)) ∧
          ∀ k, ssidOctet m k = some (rd8 m.image (nlaData a + k)) := by
  cases ha : topAttr m.image nl80211AttrSsid with
  | none => exact .inl ⟨by simp [ssidOf, ha], by simp [nameReport, ha], by simp [ssidOctet, ha]⟩
  | some a => exact .inr ⟨a, by simp [ssidOf, ha], by simp [nameReport, ha], by simp [ssidOctet,
    ha]⟩

/-- The copy writes the octet at `k` places if it gets there. -/
theorem putOctet_cstr {mem : Mem} {i o k : Nat} (h : k ≤ (cstr mem i).length) :
    WifiMsg.putOctet o (cstr mem i ++ [0]) (o + k) = some (rd8 mem (i + k)) := by
  rw [WifiMsg.putOctet, if_pos (Nat.le_add_right o k), Nat.add_sub_cancel_left, cstr_append_zero]
  simp [octets, Nat.lt_succ_of_le h]

section Message

variable {m : NetMsg}

/-- The name is read as it was sent. -/
theorem IsInterface.ifname (h : IsInterface m) : ∃ s, nameOf m = some s ∧
    (nameReport m.image).ifname = some s ∧ s ≠ [] ∧ s.length < Member.ifname.size := by
  obtain ⟨a, ha, s, hpay, hne, hlen, hs⟩ := h.name
  refine ⟨s, by simp [nameOf, Option.mem_def.mp ha, hpay], ?_, hne, hlen⟩
  have hlong : (nlaPayload m.image a).length = s.length + 1 := by
    rw [hpay, List.length_append, List.length_singleton]
  have hoct : octets m.image (nlaData a) (s.length + 1) = s ++ [0] := by
    rw [← hpay, nlaPayload, ← hlong]
    simp [nlaPayload]
  rw [nameReport, Option.mem_def.mp ha, Option.map_some, cstr_of_octets hs hoct]

theorem IsInterface.ifname_fits (h : IsInterface m) :
    WifiMsg.FitsIn .ifname (nameReport m.image).ifname := by
  obtain ⟨s, -, hname, -, hlen⟩ := h.ifname
  rw [hname]
  rintro t ⟨⟩
  exact hlen

/-- Its strings end inside the record when there is a zero octet in time behind the start of its
SSID. -/
theorem IsInterface.bounded_iff (h : IsInterface m) : (nameReport m.image).Bounded ↔
    ((ssidOf m).isSome → ∃ k < 74, ssidOctet m k = some 0) := by
  have hname : ∀ t ∈ (nameReport m.image).ifname, Member.ifname.off + t.length < wifiMsgSize := by
    intro t ht
    have := h.ifname_fits t ht
    simp only [Member.ifname, wifiMsgSize] at this ⊢
    omega
  have hbound (n : Nat) : Member.ssid.off + n < wifiMsgSize ↔ n < 74 := by
    simp only [Member.ssid, wifiMsgSize]
    omega
  obtain ⟨hno, hrep, -⟩ | ⟨a, hs, hrep, hoct⟩ := ssid_cases m
  · simp only [hno, Option.isSome_none, Bool.false_eq_true, false_implies, iff_true]
    exact ⟨hname, by simp [hrep]⟩
  · simp only [hs, Option.isSome_some, forall_const, hoct, Option.some.injEq, ← cstr_length_lt_iff]
    exact ⟨fun hb => (hbound _).mp (hb.ssid _ hrep), fun hlt => ⟨hname, fun t ht => by
      cases hrep.symm.trans ht
      exact (hbound _).mpr hlt⟩⟩

/-- A copied SSID is the one that was sent when the octet behind it is zero. -/
theorem IsInterface.ssid_copied (h : IsInterface m) (hend : ∀ s ∈ ssidOf m,
    ssidOctet m s.length = some 0) :
    (nameReport m.image).ssid = ssidOf m := by
  obtain ⟨hno, hrep, -⟩ | ⟨a, hs, hrep, hoct⟩ := ssid_cases m
  · rw [hno, hrep]
  · obtain ⟨-, hne⟩ := h.ssid _ hs
    have h0 := hend _ hs
    rw [hoct, Option.some.injEq] at h0
    have hall : ∀ k, k < (nlaPayload m.image a).length → rd8 m.image (nlaData a + k) ≠ 0 := by
      intro k hk
      rw [rd8_payload hk]
      exact hne _ (List.getElem_mem hk)
    rw [hs, hrep, cstr_eq_octets hall h0]
    simp [nlaPayload]

theorem IsInterface.fits (h : IsInterface m) (hend : ∀ s ∈ ssidOf m,
    ssidOctet m s.length = some 0) :
    (nameReport m.image).Fits := by
  refine ⟨h.ifname_fits, ?_⟩
  rw [h.ssid_copied hend]
  exact fun s hs => (h.ssid s hs).1

/-- In front of the SSID array there is the name, whatever is copied behind it. -/
theorem IsInterface.text_ifname (h : IsInterface m) (r : WifiMsg) :
    ((nameReport m.image).write r).text .ifname = (nameOf m).getD [] := by
  obtain ⟨s, hname, hrep, -, hlen⟩ := h.ifname
  have hzero := (nameReport_ne_zero m.image).1 s hrep
  rw [WifiMsg.text, raw_write_ifname h.ifname_fits (macFits m.image), hrep, hname]
  exact WifiMsg.text_put_cstring (by decide) hzero hlen

end Message

/-! ### Octets -/

/-- The parts of an interface message that reach neither the SSID array nor what lies behind
`ifindex`. -/
theorem IsInterface.octet_ssid {m : NetMsg} (h : IsInterface m) :
    (nameReport m.image).octet Member.ssid.off = ssidOctet m 0 := by
  have hname : WifiMsg.textOctet .ifname (nameReport m.image).ifname Member.ssid.off = none :=
    WifiMsg.textOctet_of_short fun t ht => by
      have := h.ifname_fits t ht
      simp only [Member.ifname, Member.ssid] at this ⊢
      omega
  have hmac :
      WifiMsg.textOctet .macAddr ((nameReport m.image).mac.map macText) Member.ssid.off = none := by
    cases (nameReport m.image).mac with
    | none => rfl
    | some bs =>
        simp only [Option.map_some, WifiMsg.textOctet, Option.bind_some]
        exact WifiMsg.putOctet_of_lt (by decide)
  rw [NameReport.octet, WifiMsg.intOctet_of_lt (by decide), WifiMsg.intOctet_of_lt (by decide),
    WifiMsg.intOctet_of_lt (by decide), hname, hmac, Option.none_or, Option.none_or, Option.or_none,
    Option.or_none, Option.or_none]
  obtain ⟨-, hrep, hoct⟩ | ⟨a, -, hrep, hoct⟩ := ssid_cases m
  · rw [hrep, hoct]
    rfl
  · rw [hrep, hoct]
    exact putOctet_cstr (o := Member.ssid.off) (Nat.zero_le _)

/-- Behind `ifindex` only the frequency and the copy of the SSID are left. -/
theorem IsInterface.octet_behind {m : NetMsg} (h : IsInterface m) {i : Nat} (hi : 88 ≤ i) :
    (nameReport m.image).octet i =
      (WifiMsg.intOctet .band (nameReport m.image).freq i
        |>.or (WifiMsg.intOctet .channel ((nameReport m.image).channel.map ofInt32) i)
        |>.or (WifiMsg.textOctet .ssid (nameReport m.image).ssid i)) := by
  have hname : WifiMsg.textOctet .ifname (nameReport m.image).ifname i = none :=
    WifiMsg.textOctet_of_short fun t ht => by
      have := h.ifname_fits t ht
      simp only [Member.ifname] at this ⊢
      omega
  have hmac : WifiMsg.textOctet .macAddr ((nameReport m.image).mac.map macText) i = none :=
    WifiMsg.textOctet_of_short fun t ht => by
      have := macFits m.image t ht
      simp only [Member.macAddr] at this ⊢
      omega
  have hindex : WifiMsg.intOctet .ifindex (nameReport m.image).ifindex i = none :=
    WifiMsg.intOctet_of_le hi
  rw [NameReport.octet, hname, hmac, hindex, Option.or_none, Option.or_none, Option.or_none]

/-- `channel` and `band` are at their defaults when their eight octets are 255. -/
theorem channel_band_iff (r : WifiMsg) :
    r.int .channel = -1 ∧ r.int .band = -1 ↔ ∀ k < 8, rd8 r.mem (88 + k) = 255 := by
  rw [WifiMsg.int, WifiMsg.int, toInt32_rd32_eq_neg_one_iff, toInt32_rd32_eq_neg_one_iff]
  constructor
  · rintro ⟨hc, hb⟩ k hk
    by_cases h4 : k < 4
    · exact hc k h4
    · have := hb (k - 4) (by omega)
      rwa [show Member.band.off + (k - 4) = 88 + k by simp only [Member.band]; omega] at this
  · intro h
    refine ⟨fun k hk => h k (by omega), fun k hk => ?_⟩
    have := h (4 + k) (by omega)
    rwa [← Nat.add_assoc] at this

section Channel

variable {m : NetMsg}

/-- A message that does not get so far leaves the two as they are. -/
theorem rd8_write_of_not_reaches (h : IsInterface m) (hno : ¬ ReachesChannel m)
    (r : WifiMsg) {k : Nat}
    (hk : k < 8) : rd8 ((nameReport m.image).write r).mem (88 + k) = rd8 r.mem (88 + k) := by
  rw [ReachesChannel, not_or, Option.not_isSome_iff_eq_none] at hno
  obtain ⟨hfreq, hssid⟩ := hno
  have hfreq : (nameReport m.image).freq = none := hfreq
  have hchan : (nameReport m.image).channel = none := by
    rw [NameReport.channel, hfreq, Option.map_none]
  have hshort : WifiMsg.textOctet .ssid (nameReport m.image).ssid (88 + k) = none := by
    refine WifiMsg.textOctet_of_short fun t ht => ?_
    obtain ⟨-, hrep, -⟩ | ⟨a, hs, hrep, hoct⟩ := ssid_cases m
    · cases hrep.symm.trans ht
    · cases hrep.symm.trans ht
      have hlt : (cstr m.image (nlaData a)).length < 58 := by
        rw [cstr_length_lt_iff]
        simpa [hs, hoct] using hssid
      simp only [Member.ssid]
      omega
  rw [NameReport.rd8_write _ _ (by simp only [wifiMsgSize]; omega), h.octet_behind (by omega),
    hfreq,
    hchan, hshort]
  rfl

/-- A frequency of its own is never the default in both. -/
theorem channel_band_of_freq {f : Nat} (hf : (nameReport m.image).freq = some f) (r : WifiMsg) :
    ¬ (((nameReport m.image).write r).int .channel = -1 ∧
      ((nameReport m.image).write r).int .band = -1) := by
  have hband : ((nameReport m.image).write r).int .band = toInt32 f := by
    rw [NameReport.write, WifiMsg.int_setInt_self (by decide), hf, Option.map_some,
      Option.getD_some]
  have hchan : ((nameReport m.image).write r).int .channel =
      ieee80211FrequencyToChannel (toInt32 f) := by
    rw [NameReport.write, WifiMsg.int_setInt_of_disjoint rfl rfl (by decide),
      WifiMsg.int_setInt_self (by decide), channel_toInt32, NameReport.channel, hf, Option.map_some,
      Option.getD_some]
  rintro ⟨hc, hb⟩
  rw [hband] at hb
  rw [hchan, hb] at hc
  exact absurd hc (by decide)

/-- A message that gets so far leaves the defaults only in one way. -/
theorem rd8_write_of_reaches (h : IsInterface m) (hreach : ReachesChannel m) (r : WifiMsg) :
    (∀ k < 8, rd8 ((nameReport m.image).write r).mem (88 + k) = 255) ↔ BlanksChannel m := by
  cases hf : (nameReport m.image).freq with
  | some f =>
      rw [← channel_band_iff]
      refine iff_of_false (channel_band_of_freq hf r) fun hb => ?_
      have hnone : (nameReport m.image).freq = none := hb.1
      rw [hf] at hnone
      cases hnone
  | none =>
      have hfreq : freqOf m = none := hf
      obtain ⟨hs, hlong⟩ := hreach.resolve_left (by simp [hfreq])
      obtain ⟨hno, -⟩ | ⟨a, -, hrep, hoct⟩ := ssid_cases m
      · rw [hno] at hs
        cases hs
      have hchan : (nameReport m.image).channel = none := by
        rw [NameReport.channel, hf, Option.map_none]
      -- an octet of the two that the copy gets to comes from the message
      have hcopy {k : Nat} (hk : k < 8) (hle : 58 + k ≤ (cstr m.image (nlaData a)).length) :
          rd8 ((nameReport m.image).write r).mem (88 + k) = rd8 m.image (nlaData a + (58 + k)) := by
        have hput : WifiMsg.textOctet .ssid (nameReport m.image).ssid (88 + k) =
            some (rd8 m.image (nlaData a + (58 + k))) := by
          rw [hrep, show 88 + k = Member.ssid.off + (58 + k) by simp only [Member.ssid]; omega]
          exact putOctet_cstr hle
        rw [NameReport.rd8_write _ _ (by simp only [wifiMsgSize]; omega), h.octet_behind (by omega),
          hf,
          hchan, hput]
        rfl
      have h58 : 58 ≤ (cstr m.image (nlaData a)).length := by
        by_contra hlt
        obtain ⟨k, hk, h0⟩ := cstr_length_lt_iff.mp (Nat.not_le.mp hlt)
        exact hlong k hk (by rw [hoct, h0])
      simp only [BlanksChannel, hfreq, hoct, Option.some.injEq, true_and]
      constructor
      · intro hall
        -- a copy that ended here would leave its terminator
        have h66 : 66 ≤ (cstr m.image (nlaData a)).length := by
          by_contra hlt
          have hend := hcopy (k := (cstr m.image (nlaData a)).length - 58) (by omega) (by omega)
          rw [hall _ (by omega), Nat.add_sub_cancel' h58, rd8_cstr_length] at hend
          exact absurd hend (by decide)
        intro k hk hle
        have := hcopy (k := k - 58) (by omega) (by omega)
        rw [hall _ (by omega), Nat.add_sub_cancel' hle] at this
        exact this.symm
      · intro hall
        have h66 : 66 ≤ (cstr m.image (nlaData a)).length := by
          by_contra hlt
          obtain ⟨k, hk, h0⟩ := cstr_length_lt_iff.mp (Nat.not_le.mp hlt)
          rcases Nat.lt_or_ge k 58 with hk58 | hk58
          · exact hlong k hk58 (by rw [hoct, h0])
          · rw [hall k hk hk58] at h0
            exact absurd h0 (by decide)
        intro k hk
        rw [hcopy hk (by omega)]
        exact hall _ (by omega) (by omega)

end Channel

/-! ## A list of messages -/

section Fold

variable {before : List NetMsg}

/-- The SSID is still empty when the last one copied is. -/
theorem text_ssid_nameRecord (hi : ∀ m ∈ before, IsInterface m) :
    (nameRecord .init before).text .ssid = [] ↔
      OfLast (fun m => (ssidOf m).isSome) (fun m => ssidOctet m 0 = some 0) before := by
  have hfirst (r : WifiMsg) : r.text .ssid = [] ↔ rd8 r.mem Member.ssid.off = 0 := by
    rw [WifiMsg.text, List.takeWhile_eq_nil_iff]
    simp [WifiMsg.raw, octets, Member.ssid]
  rw [hfirst]
  induction before using List.reverseRecOn with
  | nil => exact iff_of_true (by decide) ofLast_nil
  | append_singleton before m ih =>
      have hm := hi m (by simp)
      have ih := ih fun m' hm' => hi m' (by simp [hm'])
      have hlast : nameRecord .init (before ++ [m]) =
          (nameReport m.image).write (nameRecord .init before) := by
        simp [nameRecord, getWifiName_val]
      rw [hlast, NameReport.rd8_write _ _ (by decide), hm.octet_ssid]
      obtain ⟨hno, -, hoct⟩ | ⟨a, hs, -, hoct⟩ := ssid_cases m
      · rw [ofLast_concat_of_neg (by simp [hno]), hoct, Option.getD_none]
        exact ih
      · rw [ofLast_concat_of_pos (by simp [hs]), hoct, Option.getD_some, Option.some.injEq]

/-- Channel and band are still at their defaults when the last message that gets to them leaves them
so. -/
theorem channel_nameRecord (hi : ∀ m ∈ before, IsInterface m) :
    (nameRecord .init before).int .channel = -1 ∧ (nameRecord .init before).int .band = -1 ↔
      OfLast ReachesChannel BlanksChannel before := by
  rw [channel_band_iff]
  induction before using List.reverseRecOn with
  | nil => exact iff_of_true (by decide) ofLast_nil
  | append_singleton before m ih =>
      have hm := hi m (by simp)
      have ih := ih fun m' hm' => hi m' (by simp [hm'])
      have hlast : nameRecord .init (before ++ [m]) =
          (nameReport m.image).write (nameRecord .init before) := by
        simp [nameRecord, getWifiName_val]
      rw [hlast]
      by_cases hreach : ReachesChannel m
      · rw [ofLast_concat_of_pos hreach, rd8_write_of_reaches hm hreach]
      · rw [ofLast_concat_of_neg hreach, ← ih]
        exact forall₂_congr fun k hk => by rw [rd8_write_of_not_reaches hm hreach _ hk]

end Fold

/-! ## When it describes the right interface -/

/-- In a list of distinct names the last message is the one found under its name. -/
theorem find_last {before : List NetMsg} {m : NetMsg} {d : List UInt8}
    (hn : ((before ++ [m]).map nameOf).Nodup) (hm : nameOf m = some d) :
    (before ++ [m]).find? (fun m => nameOf m = some d) = some m := by
  rw [List.map_append, List.nodup_append] at hn
  have hnone : before.find? (fun m => nameOf m = some d) = none := by
    refine List.find?_eq_none.mpr fun m' hm' h => ?_
    exact hn.2.2 (nameOf m') (List.mem_map_of_mem hm') (nameOf m) (by simp)
      (by rw [hm]; simpa using h)
  rw [List.find?_append, hnone, Option.none_or, List.find?_cons_of_pos (by simpa using hm)]

/-- A record selected for `d` bears no other name. -/
theorem ifname_selected {d : List UInt8} {ms : List NetMsg} {v : WifiView} (h : Selected d ms v)
    (hne : v.ifname ≠ []) : v.ifname = d := by
  unfold Selected at h
  split at h
  · next m hfound =>
      have hm : nameOf m = some d := by simpa using List.find?_some hfound
      have hname : v.iface.ifname = (ifaceView m).ifname := congrArg WifiView.ifname h
      rw [show v.ifname = v.iface.ifname from rfl, hname, ifaceView, hm, Option.getD_some]
  · rw [h] at hne
    exact absurd rfl hne

section Describes

variable {before : List NetMsg} {m : NetMsg}

/-- An SSID that is read back as it was sent ends with the zero octet behind it. -/
theorem ssidOctet_of_text (h : IsInterface m) {r : WifiMsg}
    (htext : ((nameReport m.image).write r).text .ssid = (ssidOf m).getD []) :
    ∀ s ∈ ssidOf m, ssidOctet m s.length = some 0 := by
  intro s hs
  obtain ⟨hno, -⟩ | ⟨a, hs', hrep, hoct⟩ := ssid_cases m
  · cases hno.symm.trans hs
  cases hs'.symm.trans hs
  obtain ⟨hlen, hne⟩ := h.ssid _ hs'
  rw [hs', Option.getD_some] at htext
  rw [hoct, Option.some.injEq]
  by_contra hc
  -- the copy has the SSID and the octet behind it, none of them zero
  have hpay {k : Nat} (hk : k ≤ (nlaPayload m.image a).length) :
      rd8 m.image (nlaData a + k) ≠ 0 := by
    rcases Nat.lt_or_eq_of_le hk with hk | rfl
    · rw [rd8_payload hk]
      exact hne _ (List.getElem_mem hk)
    · exact hc
  have hlong : (nlaPayload m.image a).length < (cstr m.image (nlaData a)).length := by
    by_contra hle
    exact hpay (Nat.not_lt.mp hle) (rd8_cstr_length ..)
  have hwrite := octets_write_ssid r hrep (n := (nlaPayload m.image a).length + 1) (by omega)
    (by simp only [Member.ssid, Member.ifindex]; omega)
  -- so the array holds one character more than the SSID
  have hchar : ∀ x ∈ octets ((nameReport m.image).write r).mem Member.ssid.off
      ((nlaPayload m.image a).length + 1), x ≠ 0 := by
    rw [hwrite, List.take_append_of_le_length (by omega)]
    exact fun x hx => ne_zero_of_mem_cstr (List.mem_of_mem_take hx)
  have hraw : ((nameReport m.image).write r).raw .ssid =
      octets ((nameReport m.image).write r).mem Member.ssid.off
        ((nlaPayload m.image a).length + 1) ++
        octets ((nameReport m.image).write r).mem
          (Member.ssid.off + ((nlaPayload m.image a).length + 1))
          (32 - ((nlaPayload m.image a).length + 1)) := by
    rw [← octets_add, Nat.add_sub_cancel' (show (nlaPayload m.image a).length + 1 ≤ 32 by omega)]
    rfl
  have hlength := congrArg List.length htext
  rw [WifiMsg.text, hraw, List.takeWhile_append_of_pos (by simpa using hchar), List.length_append,
    octets_length] at hlength
  omega

/-- Behind a message whose SSID is copied as it is, the record shows what the message reports and,
for the rest, what was there before. -/
theorem view_concat (h : IsInterface m) (hend : ∀ s ∈ ssidOf m, ssidOctet m s.length = some 0)
    (r : WifiMsg) :
    (nameRecord r (before ++ [m])).view = (nameReport m.image).apply
      (nameRecord r before).view := by
  rw [← view_write (h.fits hend)]
  simp [nameRecord, getWifiName_val]

/-- What the message lacks has to be at its default. -/
theorem iface_apply_iff (h : IsInterface m) (hend : ∀ s ∈ ssidOf m, ssidOctet m s.length = some 0)
    (v : WifiView) :
    ((nameReport m.image).apply v).iface = ifaceView m ↔
      (ssidOf m = none → v.ssid = []) ∧ (freqOf m = none → v.channel = -1 ∧ v.band = -1) := by
  obtain ⟨s, hname, hrep, -⟩ := h.ifname
  obtain ⟨n, hn⟩ := Option.isSome_iff_exists.mp h.ifindex
  obtain ⟨a, ha⟩ := Option.isSome_iff_exists.mp h.mac
  have hssid := h.ssid_copied hend
  have hfreq : (nameReport m.image).freq = freqOf m := rfl
  simp only [WifiView.iface, ifaceView, NameReport.apply, NameReport.channel,
    WifiView.mk.injEq, hname,
    hrep, hn, ha, hssid, hfreq, Option.map_some, Option.getD_some, true_and]
  -- name, index and address come with every interface
  refine and_congr ?_ ?_
  · cases ssidOf m <;> simp
  · cases freqOf m <;> simp [WifiView.init]

end Describes

/-- **Selection**, on the record: without writing behind it, it describes the interface `d` exactly
when that interface comes last. -/
theorem selected_iff {ms : List NetMsg} (h : Interfaces ms) (d : List UInt8) :
    Selected d ms (nameRecord .init ms).view ∧ AllBounded ms ↔ ComesLast d ms := by
  rcases List.eq_nil_or_concat ms with rfl | ⟨before, m, rfl⟩
  · exact ⟨fun _ => .inl rfl, fun _ => ⟨view_init, List.forall_mem_nil _⟩⟩
  rw [List.concat_eq_append] at *
  have hi := h.each m (by simp)
  have hbefore : ∀ m' ∈ before, IsInterface m' := fun m' hm' => h.each m' (by simp [hm'])
  have hlast : nameRecord .init (before ++ [m]) =
      (nameReport m.image).write (nameRecord .init before) := by
    simp [nameRecord, getWifiName_val]
  constructor
  · rintro ⟨hsel, hb⟩
    obtain ⟨s, hname, -, hne, -⟩ := hi.ifname
    -- the name in the record is that of the last message, so `d` is its name
    have htext : (nameRecord .init (before ++ [m])).view.ifname = s := by
      have := hi.text_ifname (nameRecord .init before)
      rwa [hname, Option.getD_some, ← hlast] at this
    have hd : nameOf m = some d := by
      rw [hname, ← ifname_selected hsel (htext ▸ hne), htext]
    rw [Selected, find_last h.distinct hd] at hsel
    have hend := ssidOctet_of_text hi (r := nameRecord .init before) (by
      rw [← hlast]
      exact congrArg WifiView.ssid hsel)
    dsimp only at hsel
    rw [view_concat hi hend, iface_apply_iff hi hend] at hsel
    refine .inr ⟨before, m, rfl, hd, hend, fun hno => ?_, fun hno => ?_, fun m' hm' => ?_⟩
    · exact (text_ssid_nameRecord hbefore).mp (hsel.1 hno)
    · exact (channel_nameRecord hbefore).mp (hsel.2 hno)
    · exact (hbefore m' hm').bounded_iff.mp (hb m' (by simp [hm']))
  · rintro (hnil | ⟨before', m', hsplit, hover⟩)
    · simp at hnil
    obtain ⟨rfl, hmm⟩ := List.append_inj' hsplit rfl
    cases hmm
    constructor
    · rw [Selected, find_last h.distinct hover.named]
      show WifiView.iface _ = _
      rw [view_concat hi hover.ssid, iface_apply_iff hi hover.ssid]
      exact ⟨fun hno => (text_ssid_nameRecord hbefore).mpr (hover.noSsid hno),
        fun hno => (channel_nameRecord hbefore).mpr (hover.noFreq hno)⟩
    · intro m' hm'
      rcases List.mem_append.mp hm' with hm' | hm'
      · exact (hbefore m' hm').bounded_iff.mpr (hover.ends m' hm')
      · rw [List.mem_singleton.mp hm']
        exact (hi.fits hover.ssid).stops.bounded

/-! ## In an update -/

theorem ofInt32_toInt32 {n : Nat} (h : n < 4294967296) : ofInt32 (toInt32 n) = n := by
  unfold ofInt32 toInt32
  split <;> omega

/-- After the interface phase the record describes the interface the object is made for, and the
station request that follows asks for that interface. -/
def Selects (page : Nat) (env : UpdateEnv) (w : World) (ms : List NetMsg) : Prop :=
  ∃ w₁, interfacePhase page env w = .ok true w₁ ∧ Selected w.dev ms w₁.fields.wifi.view ∧
    ∀ m, ms.find? (fun m => nameOf m = some w.dev) = some m →
      ∀ n ∈ (nameReport m.image).ifindex,
        (stationRequest w₁).attrs = [(nl80211AttrIfindex, le32 n)]

section Phase

variable {page : Nat} {w : World} {a : Answer w.sk.seqNext}

/-- The interface phase leaves the fold of `get_wifi_name` over the dump. -/
theorem interfacePhase_record (hw : Idle w) (ha : IsDump page a) (hb : AllBounded a.messages)
    (msg2 : Bool)
    (send2 : SendOutcome) :
    ∃ w₁, interfacePhase page ⟨true, .sent (incoming a.parcels), msg2, send2⟩ w = .ok true w₁ ∧
      w₁.fields.wifi = nameRecord w.fields.wifi a.messages := by
  obtain ⟨w₁, hrun, hx⟩ := interfacePhase_good page
    ⟨true, .sent (incoming a.parcels), msg2, send2⟩ hw rfl rfl ha.good
    (by rw [Reply.delivered, ha.delivered_eq]; exact hb)
  exact ⟨w₁, hrun, by rw [hx.fields, Fields.named, Reply.delivered, ha.delivered_eq]⟩

/-- The station request asks for the index in the record. -/
theorem stationRequest_attrs {w₁ : World} {m : NetMsg} {ms : List NetMsg}
    (hsel : Selected w.dev ms w₁.fields.wifi.view)
    (hm : ms.find? (fun m => nameOf m = some w.dev) = some m) {n : Nat}
    (hn : n ∈ (nameReport m.image).ifindex) :
    (stationRequest w₁).attrs = [(nl80211AttrIfindex, le32 n)] := by
  have hnn : (nameReport m.image).ifindex = some n := hn
  rw [Selected, hm] at hsel
  have hint : w₁.fields.wifi.int .ifindex = (ifaceView m).ifindex := congrArg WifiView.ifindex hsel
  have hlt : n < 4294967296 := by
    obtain ⟨b, -, rfl⟩ := Option.map_eq_some_iff.mp hnn
    exact rd32_lt _ _
  have hval : (ifaceView m).ifindex = toInt32 n := by
    simp only [ifaceView, NameReport.apply, hnn, Option.map_some, Option.getD_some]
  simp only [stationRequest, nlaPutU32, genlmsgPut, List.nil_append, hint, hval,
    ofInt32_toInt32 hlt]

/-- **Selection**, in an update: for every dump of interfaces, the phase selects the object's
interface exactly when that interface comes last. -/
theorem interfacePhase_selects_iff (hw : Idle w) (hinit : w.fields.wifi = .init)
    (ha : IsDump page a)
    (hi : Interfaces a.messages) (msg2 : Bool) (send2 : SendOutcome) :
    Selects page ⟨true, .sent (incoming a.parcels), msg2, send2⟩ w a.messages ↔
      ComesLast w.dev a.messages := by
  rw [← selected_iff hi w.dev]
  constructor
  · rintro ⟨w', hrun, hsel, -⟩
    have hb : AllBounded a.messages := by
      by_contra hb
      obtain ⟨w'', hover⟩ := interfacePhase_overrun page
        ⟨true, .sent (incoming a.parcels), msg2, send2⟩ hw rfl rfl ha.good
        (by rw [Reply.delivered, ha.delivered_eq]; exact hb)
      cases hover.symm.trans hrun
    obtain ⟨w₁, hrun₁, hrecord⟩ := interfacePhase_record hw ha hb msg2 send2
    cases hrun₁.symm.trans hrun
    rw [hrecord, hinit] at hsel
    exact ⟨hsel, hb⟩
  · rintro ⟨hsel, hb⟩
    obtain ⟨w₁, hrun, hrecord⟩ := interfacePhase_record hw ha hb msg2 send2
    rw [← hinit, ← hrecord] at hsel
    exact ⟨w₁, hrun, hsel, fun m hm n hn => stationRequest_attrs hsel hm hn⟩

end Phase

/-- `wlan0`, associated, on channel 1. -/
def wlan0 : NetMsg :=
  .build 28 nlmFMulti 7
    (genlPayload 7
      [nlaPut nl80211AttrIfname [119, 108, 97, 110, 48, 0], nlaPut nl80211AttrIfindex (le32 3),
        nlaPut nl80211AttrMac [2, 0, 0, 0, 0, 1], nlaPut nl80211AttrSsid [104, 111, 109, 101, 49],
        nlaPut nl80211AttrWiphyFreq (le32 2412)])
    [] (by decide)

/-- `wlan1`, not associated. -/
def wlan1 : NetMsg :=
  .build 28 nlmFMulti 7
    (genlPayload 7
      [nlaPut nl80211AttrIfname [119, 108, 97, 110, 49, 0], nlaPut nl80211AttrIfindex (le32 4),
        nlaPut nl80211AttrMac [2, 0, 0, 0, 0, 2]])
    [] (by decide)

/-- `wlan1`, associated; the copy of its SSID runs on through the attribute behind it, over the
address and up to `ifindex`. -/
def wlan1Running : NetMsg :=
  .build 28 nlmFMulti 7
    (genlPayload 7
      [nlaPut nl80211AttrIfname [119, 108, 97, 110, 49, 0], nlaPut nl80211AttrIfindex (le32 4),
        nlaPut nl80211AttrMac [2, 0, 0, 0, 0, 2], nlaPut nl80211AttrSsid (List.replicate 28 120),
        nlaPut 257 (List.replicate 22 255 ++ List.replicate 231 0)])
    [] (by decide +kernel)

/-- An object made for `wlan0`. -/
def forWlan0 : World := { World.opened 28 7 with dev := [119, 108, 97, 110, 48] }

theorem forWlan0_idle : Idle forWlan0 :=
  have h := (opened_idle 28 7).ready
  ⟨⟨h.socket, h.nameCb, h.infoCb, h.fresh⟩, rfl, rfl, rfl⟩

/-- Both interfaces, `wlan0` first. -/
def wlan0First : Answer 7 :=
  .dump [wlan0, wlan1] (by decide +kernel) (by decide +kernel)

/-- Both interfaces, `wlan0` last. -/
def wlan0Last : Answer 7 :=
  .dump [wlan1Running, wlan0] (by decide +kernel) (by decide +kernel)

/-- With `wlan0` first the record mixes the two: the name, index and address of `wlan1`, the SSID
and channel of `wlan0`. -/
theorem wlan0_first_not_selected :
    ¬ Selects 16384 ⟨true, .sent (incoming wlan0First.parcels), true, .failed 1⟩ forWlan0
      wlan0First.messages := by
  rintro ⟨w', hrun, hsel, -⟩
  have hdump : IsDump 16384 wlan0First :=
    ⟨by decide, by simp [wlan0First, Answer.dump, Answer.single], by decide +kernel⟩
  obtain ⟨w₁, hrun₁, hrecord⟩ :=
    interfacePhase_record forWlan0_idle hdump (by decide +kernel) true (.failed 1)
  cases hrun₁.symm.trans hrun
  rw [hrecord] at hsel
  revert hsel
  decide +kernel

theorem wlan0_last_selected :
    Selects 16384 ⟨true, .sent (incoming wlan0Last.parcels), true, .failed 1⟩ forWlan0
      wlan0Last.messages := by
  have hmsgs : wlan0Last.messages = [wlan1Running] ++ [wlan0] := by decide +kernel
  have hi : Interfaces wlan0Last.messages := by
    rw [hmsgs]
    refine ⟨?_, by decide +kernel⟩
    simp only [List.singleton_append, List.mem_cons, List.not_mem_nil, or_false]
    rintro m (rfl | rfl)
    · exact ⟨⟨20, by decide +kernel, [119, 108, 97, 110, 49], by decide +kernel⟩, by decide +kernel,
        by decide +kernel, by decide +kernel⟩
    · exact ⟨⟨20, by decide +kernel, [119, 108, 97, 110, 48], by decide +kernel⟩, by decide +kernel,
        by decide +kernel, by decide +kernel⟩
  have hdump : IsDump 16384 wlan0Last :=
    ⟨by decide, by simp [wlan0Last, Answer.dump, Answer.single], by decide +kernel⟩
  refine (interfacePhase_selects_iff forWlan0_idle rfl hdump hi true (.failed 1)).mpr ?_
  -- `wlan0` has both an SSID and a frequency
  exact .inr ⟨[wlan1Running], wlan0, hmsgs, by decide +kernel, by decide +kernel,
    fun h => absurd h (by decide +kernel), fun h => absurd h (by decide +kernel), by decide +kernel⟩

end Nl80211.Wifi
