/-
# Nl80211.Wifi.Accesses — everything the handlers touch.

The accesses of a handler do not depend on the record: they are the headers its parses look at, the
values and texts of the attributes these find, and the writes that go with them.
-/
import Nl80211.Libnl.Inspect
import Nl80211.Wifi.Reports

namespace Nl80211.Wifi

open Lib Lib.Bytes Libnl

section Accesses

variable {P : Access → Prop} {mem : Mem} {r : WifiMsg}

theorem always_ifSet {o : Option Nat} {f : Nat → Traced Access WifiMsg} :
    Traced.Always P (ifSet o r f) ↔ ∀ a ∈ o, Traced.Always P (f a) := by
  cases o <;> simp [ifSet]

theorem always_strcpy {dst : Member} {nla : Nat} :
    Traced.Always P (strcpy mem dst nla r) ↔
      P (.text nla ((cstr mem (nlaData nla)).length + 1)) ∧
        P (.write dst.off dst.size 0 ((cstr mem (nlaData nla)).length + 1)) := by
  simp [strcpy]

theorem always_assign {dst : Member} {n : Nat} :
    Traced.Always P (assign dst n r) ↔ P (.write dst.off dst.size 0 4) := by
  simp [assign]

/-- The octets `mac_addr_n2a` reads and the pieces of text it writes. -/
theorem always_macAddrN2a {arg : Nat} :
    Traced.Always P (macAddrN2a mem arg r) ↔
      (∀ i < ethAlen, P (.value (arg + i) 1)) ∧
        P (.write Member.macAddr.off Member.macAddr.size 0 3) ∧
        ∀ i < 5, P (.write Member.macAddr.off Member.macAddr.size (2 + 3 * i) 4) := by
  have hrange : List.range ethAlen = [0, 1, 2, 3, 4, 5] := rfl
  have h6 (p : Nat → Prop) : (∀ i < ethAlen, p i) ↔ ∀ i ∈ [0, 1, 2, 3, 4, 5], p i := by
    simp [← hrange]
  have h5 (p : Nat → Prop) : (∀ i < 5, p i) ↔ ∀ i ∈ [0, 1, 2, 3, 4], p i := by
    simp [show [0, 1, 2, 3, 4] = List.range 5 from rfl]
  rw [h6, h5]
  simp [macAddrN2a, hrange, macAddrN2aStep, sprintfInto, hex02]
  tauto

/-- The parse of the attributes of a message. -/
def topParse (mem : Mem) : Traced Access NlaIndex :=
  nlaParse mem nl80211AttrMax (genlmsgAttrdata (nlmsgData 0) 0) (genlmsgAttrlen mem (nlmsgData 0) 0)
    none

/-- `get_wifi_name` touches the headers of its parse and, for each attribute it finds, what that
attribute's branch touches. -/
theorem always_getWifiName :
    Traced.Always P (getWifiName mem r) ↔
      Traced.Always P (topParse mem) ∧
      (∀ a ∈ topAttr mem nl80211AttrIfname, Traced.Always P (strcpy mem .ifname a r)) ∧
      (∀ a ∈ topAttr mem nl80211AttrIfindex,
        P (.value (nlaData a) 4) ∧ Traced.Always P (assign .ifindex 0 r)) ∧
      (∀ a ∈ topAttr mem nl80211AttrMac, Traced.Always P (macAddrN2a mem (nlaData a) r)) ∧
      (∀ a ∈ topAttr mem nl80211AttrSsid, Traced.Always P (strcpy mem .ssid a r)) ∧
      ∀ a ∈ topAttr mem nl80211AttrWiphyFreq, P (.value (nlaData a) 4) ∧
        Traced.Always P (assign .channel 0 r) ∧ Traced.Always P (assign .band 0 r) := by
  have table {t : Nat} (h0 : 0 < t) (hmax : t ≤ nl80211AttrMax) := topTable mem h0 hmax
  simp only [getWifiName, topParse, Traced.always_bind, Traced.always_pure, and_true]
  rw [table (t := nl80211AttrIfname) (by decide) (by decide),
    table (t := nl80211AttrIfindex) (by decide) (by decide),
    table (t := nl80211AttrMac) (by decide) (by decide),
    table (t := nl80211AttrSsid) (by decide) (by decide),
    table (t := nl80211AttrWiphyFreq) (by decide) (by decide)]
  simp only [always_ifSet, always_strcpy, always_assign, always_macAddrN2a, Traced.always_bind,
    Traced.always_emit]

/-- `get_wifi_info` touches the headers of its parses and, for each of the two values it finds, the
value and the member it goes to. -/
theorem always_getWifiInfo :
    Traced.Always P (getWifiInfo mem r) ↔
      Traced.Always P (topParse mem) ∧
      (∀ sta ∈ topAttr mem nl80211AttrStaInfo,
        Traced.Always P (nlaParseNested mem nl80211StaInfoMax sta statsPolicy)) ∧
      (∀ a ∈ staAttr mem nl80211StaInfoSignal,
        P (.value (nlaData a) 1) ∧ Traced.Always P (assign .signal 0 r)) ∧
      (∀ tx ∈ staAttr mem nl80211StaInfoTxBitrate,
        Traced.Always P (nlaParseNested mem nl80211RateInfoMax tx ratePolicy)) ∧
      ∀ a ∈ rateAttr mem nl80211RateInfoBitrate,
        P (.value (nlaData a) 2) ∧ Traced.Always P (assign .txrate 0 r) := by
  have htop := topTable mem (t := nl80211AttrStaInfo) (by decide) (by decide)
  rw [getWifiInfo, Traced.always_bind, ← topParse]
  refine and_congr_right fun _ => ?_
  rw [topParse, htop]
  cases hs : topAttr mem nl80211AttrStaInfo with
  | none =>
      simp [rateAttr_of_none (staAttr_of_none hs), staAttr_of_none hs]
  | some sta =>
      simp only [Option.mem_def, Option.some.injEq, forall_eq', Traced.always_bind]
      refine and_congr_right fun _ => ?_
      by_cases hv : NestValid mem nl80211StaInfoMax statsPolicy sta
      · rw [if_neg (mt nlaParseNested_err_iff.mp (not_not_intro hv)),
          staTable hs hv (t := nl80211StaInfoTxBitrate) (by decide) (by decide),
          staTable hs hv (t := nl80211StaInfoSignal) (by decide) (by decide), Traced.always_bind]
        refine and_congr ?_ ?_
        · simp only [always_ifSet, always_assign, Traced.always_bind, Traced.always_emit,
            Option.mem_def]
        cases htx : staAttr mem nl80211StaInfoTxBitrate with
        | none => simp [rateAttr_of_none htx]
        | some tx =>
            simp only [Option.some.injEq, forall_eq', Traced.always_bind]
            refine and_congr_right fun _ => ?_
            by_cases hr : NestValid mem nl80211RateInfoMax ratePolicy tx
            · rw [if_neg (mt nlaParseNested_err_iff.mp (not_not_intro hr)),
                rateTable htx hr (by decide) (by decide)]
              simp only [always_ifSet, always_assign, Traced.always_bind, Traced.always_emit,
                Traced.always_pure, and_true, Option.mem_def]
            · rw [if_pos (nlaParseNested_err_iff.mpr hr)]
              simp [rateAttr_of_not_valid htx hr]
      · rw [if_pos (nlaParseNested_err_iff.mpr hv)]
        simp [staAttr_of_not_valid hs hv, rateAttr_of_none (staAttr_of_not_valid hs hv)]

/-! ## Writes behind the record -/

theorem topParse_inRecord (mem : Mem) : Traced.Always InRecord (topParse mem) :=
  nlaParse_headers (fun _ => trivial) _ _

theorem strcpy_inRecord {dst : Member} {nla : Nat} :
    Traced.Always InRecord (strcpy mem dst nla r) ↔
      dst.off + (cstr mem (nlaData nla)).length < wifiMsgSize := by
  rw [always_strcpy, InRecord, InRecord, true_and]
  omega

/-- `get_wifi_name` overruns the record exactly when a string it copies does not end inside it. -/
theorem overruns_getWifiName : Overruns (getWifiName mem r) ↔ ¬ (nameReport mem).Bounded := by
  have hmac (a : Nat) : Traced.Always InRecord (macAddrN2a mem (nlaData a) r) := by
    refine always_macAddrN2a.mpr ⟨fun _ _ => trivial, by decide, fun i hi => ?_⟩
    simp only [InRecord, Member.macAddr, wifiMsgSize]
    omega
  have hassign {dst : Member} (h : dst ∈ members) (h4 : dst.size = 4) :
      Traced.Always InRecord (assign dst 0 r) := by
    have hend : ∀ f ∈ members, f.off + f.size ≤ wifiMsgSize := by decide
    rw [always_assign, InRecord]
    have := hend dst h
    omega
  rw [overruns_iff, always_getWifiName]
  refine not_congr ⟨?_, fun h => ?_⟩
  · rintro ⟨-, hname, -, -, hssid, -⟩
    constructor
    · rintro t ht
      obtain ⟨a, ha, rfl⟩ := Option.map_eq_some_iff.mp ht
      exact strcpy_inRecord.mp (hname a ha)
    · rintro t ht
      obtain ⟨a, ha, rfl⟩ := Option.map_eq_some_iff.mp ht
      exact strcpy_inRecord.mp (hssid a ha)
  · refine ⟨topParse_inRecord mem, fun a ha => ?_, fun _ _ => ⟨trivial, hassign (by decide) rfl⟩,
      fun a _ => hmac a, fun a ha => ?_,
      fun _ _ => ⟨trivial, hassign (by decide) rfl, hassign (by decide) rfl⟩⟩
    · exact strcpy_inRecord.mpr (h.ifname _ (Option.map_eq_some_iff.mpr ⟨a, ha, rfl⟩))
    · exact strcpy_inRecord.mpr (h.ssid _ (Option.map_eq_some_iff.mpr ⟨a, ha, rfl⟩))

/-- `get_wifi_info` never does. -/
theorem not_overruns_getWifiInfo : ¬ Overruns (getWifiInfo mem r) := by
  have hnest {maxtype nla : Nat} {policy : Nat → NlaPolicy} :
      Traced.Always InRecord (nlaParseNested mem maxtype nla policy) :=
    nlaParse_headers (fun _ => trivial) _ _
  rw [overruns_iff, not_not, always_getWifiInfo]
  exact ⟨topParse_inRecord mem, fun _ _ => hnest,
    fun _ _ => ⟨trivial, always_assign.mpr (by decide)⟩, fun _ _ => hnest,
    fun _ _ => ⟨trivial, always_assign.mpr (by decide)⟩⟩

/-! ## Writes into a member -/

/-- The access writes into the member. -/
def WritesTo (f : Member) : Access → Prop
  | .write dst _ off len => dst + off < f.off + f.size ∧ f.off < dst + off + len
  | .header _ | .value .. | .text .. => False

instance (f : Member) : (e : Access) → Decidable (WritesTo f e)
  | .write dst _ off len =>
      inferInstanceAs (Decidable (dst + off < f.off + f.size ∧ f.off < dst + off + len))
  | .header _ | .value .. | .text .. => isFalse id

/-- A handler writes into the member. -/
def Writes {α : Type} (f : Member) (x : Traced Access α) : Prop := ∃ e ∈ x.log, WritesTo f e

theorem writes_iff {α : Type} {f : Member} {x : Traced Access α} :
    Writes f x ↔ ¬ Traced.Always (fun e => ¬ WritesTo f e) x := by
  simp [Writes, Traced.Always]

/-- `get_wifi_info` writes into `signal` for a `SIGNAL` it finds, and into `txrate`
for a `BITRATE`. -/
theorem writes_getWifiInfo {f : Member} :
    Writes f (getWifiInfo mem r) ↔
      (∃ a ∈ staAttr mem nl80211StaInfoSignal, WritesTo f (.write 96 4 0 4)) ∨
        ∃ a ∈ rateAttr mem nl80211RateInfoBitrate, WritesTo f (.write 100 4 0 4) := by
  have hparse {maxtype head : Nat} {len : Int} {policy : Option (Nat → NlaPolicy)} :
      Traced.Always (fun e => ¬ WritesTo f e) (nlaParse mem maxtype head len policy) :=
    nlaParse_headers (fun _ => id) _ _
  have hvalue (off width : Nat) : ¬ WritesTo f (.value off width) := id
  rw [writes_iff, always_getWifiInfo]
  simp only [topParse, nlaParseNested, hparse, hvalue, not_false_eq_true, always_assign, true_and,
    implies_true, Member.signal, Member.txrate, not_and_or, not_forall, not_not, exists_prop]

end Accesses

end Nl80211.Wifi
