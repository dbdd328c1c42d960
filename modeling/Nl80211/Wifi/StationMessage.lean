/-
# Nl80211.Wifi.StationMessage — the meaning of a station message.

The kernel reports a station as a nest of attributes, and in it the transmit rate as a nest of its
own.  `stationMeaning` says what such a tree means for the record, without offsets or lengths: the
last nest counts, a nest with an attribute that violates its policy counts for nothing, of several
attributes of one type the last one counts.  `get_wifi_info` computes exactly that
(`getWifiInfo_means`).
-/
import Nl80211.Libnl.Encode
import Nl80211.Wifi.Copies

namespace Nl80211.Wifi

open Lib Lib.Bytes Libnl

/-! ## The tree of a message -/

/-- An attribute of the `STA_INFO` nest: a `TX_BITRATE` nest or any other. -/
abbrev StaAttr := NestOr nl80211StaInfoTxBitrate (@id Nla)

/-- An attribute of a station message: a `STA_INFO` nest or any other. -/
abbrev StationAttr := NestOr nl80211AttrStaInfo (@NestOr.nla nl80211StaInfoTxBitrate Nla id)

/-- A station message. -/
abbrev StationMsg := GenlMsg (@NestOr.nla nl80211AttrStaInfo StaAttr NestOr.nla)

/-- The signal in an attribute: its first octet, sign-extended, which is the octet as an eight-bit
number in two's complement. -/
def signalValue (a : Nla) : Int := (rd8 a.data 0).toBitVec.toInt

/-- The rate in an attribute: its first two octets. -/
def rateValue (a : Nla) : Nat := rd16 a.data 0

/-- The rate that a `TX_BITRATE` nest reports. -/
def rateMeaning (rates : List Nla) : Option Nat :=
  if ∃ a ∈ rates, Violates nl80211RateInfoMax ratePolicy a then none
  else (lastNla nl80211RateInfoBitrate rates).map rateValue

/-- What a `STA_INFO` nest reports. -/
def staMeaning (sta : List StaAttr) : StationReport :=
  if ∃ a ∈ sta.map NestOr.nla, Violates nl80211StaInfoMax statsPolicy a then ⟨none, none⟩
  else ⟨(lastNla nl80211StaInfoSignal (sta.map NestOr.nla)).map signalValue,
    (NestOr.last sta).bind rateMeaning⟩

/-- What a station message reports. -/
def stationMeaning (attrs : List StationAttr) : StationReport :=
  match NestOr.last attrs with
  | some sta => staMeaning sta
  | none => ⟨none, none⟩

/-- The handler's result and the record afterwards, `r` before it: what the message reports is
there, and everything else is as it was. -/
structure Means (attrs : List StationAttr) (r : WifiMsg) (out : Int × WifiMsg) : Prop where
  result : out.1 = nlSkip
  signal : out.2.int .signal = (stationMeaning attrs).signal.getD (r.int .signal)
  txrate : out.2.int .txrate = ((stationMeaning attrs).rate.map Int.ofNat).getD (r.int .txrate)
  others : ∀ f ∈ members, f ≠ .signal → f ≠ .txrate → out.2.raw f = r.raw f
  unchanged : stationMeaning attrs = ⟨none, none⟩ → out.2 = r

/-! ## Nests in memory -/

section Nest

variable {mem : Mem} {maxtype nla : Nat} {policy : Nat → NlaPolicy} {a : Nla} {as : List Nla}

theorem nestWalk_stored (h : Stored mem nla a) (hdata : a.data = putAll as) :
    nestWalk mem nla = places (nlaData nla) as := h.walk hdata

theorem nestValid_iff (h : Stored mem nla a) (hdata : a.data = putAll as) :
    NestValid mem maxtype policy nla ↔ ¬ ∃ b ∈ as, Violates maxtype policy b := by
  rw [NestValid, nestWalk_stored h hdata]
  exact not_rejected_iff (h.streams hdata)

/-- In a nest that violates its policy nothing is found. -/
theorem nestAttr_violated (h : Stored mem nla a) (hdata : a.data = putAll as)
    (hv : ∃ b ∈ as, Violates maxtype policy b) (t : Nat) :
    nestAttr mem maxtype policy nla t = none := by
  apply nestAttr_of_not_valid
  rw [nestValid_iff h hdata]
  exact not_not_intro hv

/-- In any other nest the last attribute of each type is found. -/
theorem nestAttr_stored (h : Stored mem nla a) (hdata : a.data = putAll as)
    (hv : ¬ ∃ b ∈ as, Violates maxtype policy b) (t : Nat) :
    match lastNla t as with
    | none => nestAttr mem maxtype policy nla t = none
    | some b => ∃ p, nestAttr mem maxtype policy nla t = some p ∧ Stored mem p b := by
  rw [nestAttr, if_pos ((nestValid_iff h hdata).mpr hv), nestWalk_stored h hdata]
  exact lastOfType_stream (h.streams hdata) t

/-- Where the last attribute of the type of a nest is found, the last nest is found. -/
theorem last_nest {t : Nat} {α : Type} {write : α → Nla} {bs : List (NestOr t write)}
    {found : Option Nat}
    (hfound : match lastNla t (bs.map NestOr.nla) with
      | none => found = none
      | some b => ∃ p, found = some p ∧ Stored mem p b) :
    match NestOr.last bs with
    | none => found = none
    | some cs => ∃ p b, found = some p ∧ Stored mem p b ∧ b.data = putAll (cs.map write) := by
  have hnest := NestOr.lastNla_map bs
  cases hlast : NestOr.last bs with
  | none =>
      simp only [hlast] at hnest
      simpa only [hnest] using hfound
  | some cs =>
      simp only [hlast] at hnest
      obtain ⟨b, hb, hcs⟩ := hnest
      simp only [hb] at hfound
      obtain ⟨p, hp, hstored⟩ := hfound
      exact ⟨p, b, hp, hstored, hcs⟩

/-- The last nest inside a nest. -/
theorem nestAttr_nest {t : Nat} {α : Type} {write : α → Nla} {bs : List (NestOr t write)}
    (h : Stored mem nla a) (hdata : a.data = putAll (bs.map NestOr.nla))
    (hv : ¬ ∃ b ∈ bs.map NestOr.nla, Violates maxtype policy b) :
    match NestOr.last bs with
    | none => nestAttr mem maxtype policy nla t = none
    | some cs => ∃ p b, nestAttr mem maxtype policy nla t = some p ∧ Stored mem p b ∧
        b.data = putAll (cs.map write) := by
  apply last_nest
  exact nestAttr_stored h hdata hv t

/-- The last nest of a message. -/
theorem topAttr_nest {t : Nat} {α : Type} {write : α → Nla} (m : GenlMsg (@NestOr.nla t α write)) :
    match NestOr.last m.attrs with
    | none => topAttr m.image t = none
    | some cs => ∃ p b, topAttr m.image t = some p ∧ Stored m.image p b ∧
        b.data = putAll (cs.map write) := by
  have hwalk : topWalk m.image =
      places (genlmsgAttrdata (nlmsgData 0) 0) (m.attrs.map NestOr.nla) := m.walk
  apply last_nest
  rw [topAttr, hwalk]
  exact lastOfType_stream m.streams t

/-- What is read off the attribute found in a nest is what its payload holds. -/
theorem nestAttr_read {t : Nat} {β : Type} {read : Nat → β} {value : Nla → β} (h : Stored mem nla a)
    (hdata : a.data = putAll as) (hv : ¬ ∃ b ∈ as, Violates maxtype policy b)
    (hread : ∀ p b, lastNla t as = some b → Stored mem p b → read p = value b) :
    (nestAttr mem maxtype policy nla t).map read = (lastNla t as).map value := by
  have hfound := nestAttr_stored h hdata hv t
  cases hlast : lastNla t as with
  | none =>
      simp only [hlast] at hfound
      rw [hfound, Option.map_none, Option.map_none]
  | some b =>
      simp only [hlast] at hfound
      obtain ⟨p, hp, hstored⟩ := hfound
      rw [hp, Option.map_some, Option.map_some, hread p b hlast hstored]

/-- A value read off an attribute that keeps to its policy is read off its payload. -/
theorem nlaGetU8_stored (h : Stored mem nla a) (hlen : 1 ≤ a.data.length) :
    nlaGetU8 mem nla = (rd8 a.data 0).toNat := by
  have hread := h.rd8_data (k := 0) hlen
  rw [Nat.add_zero] at hread
  rw [nlaGetU8, hread, rd8_of_lt hlen]

theorem nlaGetU16_stored (h : Stored mem nla a) (hlen : 2 ≤ a.data.length) :
    nlaGetU16 mem nla = rd16 a.data 0 := by
  have h₀ := h.rd8_data (k := 0) (by omega)
  have h₁ := h.rd8_data (k := 1) hlen
  rw [Nat.add_zero] at h₀
  rw [nlaGetU16, rd16, rd16, h₀, h₁, rd8_of_lt (by omega), rd8_of_lt (by omega)]

/-- What is asked of an attribute in a nest that keeps to its policy. -/
theorem accepts_of_last {t : Nat} {b : Nla} (h : lastNla t as = some b)
    (hv : ¬ ∃ b ∈ as, Violates maxtype policy b) (h0 : 0 < t) (hmax : t ≤ maxtype) :
    (policy t).Accepts b.data := by
  obtain ⟨rfl, before, after, rfl, -⟩ := lastNla_eq_some h
  by_contra hacc
  exact hv ⟨b, by simp, h0, hmax, hacc⟩

end Nest

/-! ## The report is the meaning -/

/-- The conversion through `int8_t` extends the sign. -/
theorem int8OfU8_toNat (b : UInt8) : int8OfU8 b.toNat = b.toBitVec.toInt := by
  have hb := b.toNat_lt
  rw [BitVec.toInt_eq_toNat_cond, UInt8.toNat_toBitVec, int8OfU8]
  split <;> split <;> omega

/-- The rate that is read off a stored `TX_BITRATE` nest. -/
theorem rate_stored {mem : Mem} {nla : Nat} {a : Nla} {rates : List Nla} (h : Stored mem nla a)
    (hdata : a.data = putAll rates) :
    (nestAttr mem nl80211RateInfoMax ratePolicy nla nl80211RateInfoBitrate).map
      (fun a => nlaGetU16 mem a) = rateMeaning rates := by
  by_cases hv : ∃ b ∈ rates, Violates nl80211RateInfoMax ratePolicy b
  · rw [rateMeaning, if_pos hv, nestAttr_violated h hdata hv, Option.map_none]
  rw [rateMeaning, if_neg hv]
  apply nestAttr_read h hdata hv
  intro p b hlast hstored
  -- the policy asks for two octets
  have hlen := (accepts_of_last hlast hv (by decide) (by decide)).least
  rw [rateValue, nlaGetU16_stored hstored hlen]

/-- The report that is read off a stored `STA_INFO` nest. -/
theorem sta_stored {mem : Mem} {nla : Nat} {a : Nla} {sta : List StaAttr} (h : Stored mem nla a)
    (hdata : a.data = putAll (sta.map NestOr.nla))
    (htop : topAttr mem nl80211AttrStaInfo = some nla) : stationReport mem = staMeaning sta := by
  have hattr (t : Nat) :
      staAttr mem t = nestAttr mem nl80211StaInfoMax statsPolicy nla t := by
    rw [staAttr, htop, Option.bind_some]
  by_cases hv : ∃ b ∈ sta.map NestOr.nla, Violates nl80211StaInfoMax statsPolicy b
  · simp only [staMeaning, if_pos hv, stationReport, rateAttr, hattr,
      nestAttr_violated h hdata hv, Option.map_none, Option.bind_none]
  rw [staMeaning, if_neg hv]
  ext1
  · -- the signal
    show (staAttr mem nl80211StaInfoSignal).map _ = Option.map signalValue _
    rw [hattr]
    apply nestAttr_read h hdata hv
    intro p b hlast hstored
    have hlen := (accepts_of_last hlast hv (by decide) (by decide)).least
    rw [signalValue, nlaGetU8_stored hstored hlen, int8OfU8_toNat]
  · -- the rate: the nest inside the nest
    have hnest := nestAttr_nest h hdata hv
    show (rateAttr mem nl80211RateInfoBitrate).map _ = (NestOr.last sta).bind rateMeaning
    rw [rateAttr, hattr]
    cases hlast : NestOr.last sta with
    | none =>
        simp only [hlast] at hnest
        rw [hnest]
        rfl
    | some rates =>
        simp only [hlast, List.map_id] at hnest
        obtain ⟨p, b, hp, hstored, hrates⟩ := hnest
        rw [hp, Option.bind_some, Option.bind_some]
        exact rate_stored hstored hrates

/-- What the handler reads off a station message is what the message means. -/
theorem stationReport_eq (m : StationMsg) : stationReport m.image = stationMeaning m.attrs := by
  have hnest := topAttr_nest m
  rw [stationMeaning]
  cases hlast : NestOr.last m.attrs with
  | none =>
      simp only [hlast] at hnest
      simp only [stationReport, rateAttr, staAttr, hnest, Option.bind_none, Option.map_none]
  | some sta =>
      simp only [hlast] at hnest
      obtain ⟨p, a, hp, hstored, hdata⟩ := hnest
      exact sta_stored hstored hdata hp

/-- The record after a station message, as its readers see it. -/
theorem view_getWifiInfo (m : StationMsg) (r : WifiMsg) :
    (getWifiInfo m.image r).val.2.view = (stationMeaning m.attrs).apply r.view := by
  rw [getWifiInfo_val, view_write_station, stationReport_eq]

/-- **Station messages.** For every station message and every record before it, the handler computes
the meaning of the message. -/
theorem getWifiInfo_means (m : StationMsg) (r : WifiMsg) :
    Means m.attrs r (getWifiInfo m.image r).val := by
  have hview := view_getWifiInfo m r
  rw [getWifiInfo_val, stationReport_eq] at hview ⊢
  constructor
  case result => rfl
  case signal => exact congrArg WifiView.signal hview
  case txrate => exact congrArg WifiView.txrate hview
  case others =>
    intro f hf hsignal htxrate
    -- both updates assign an `int` of their own
    have hdisj := members_disjoint f hf
    exact (WifiMsg.raw_setInt_of_disjoint rfl (hdisj .txrate (by decide) htxrate)).trans
      (WifiMsg.raw_setInt_of_disjoint rfl (hdisj .signal (by decide) hsignal))
  case unchanged =>
    intro hnone
    rw [hnone]
    rfl

end Nl80211.Wifi
