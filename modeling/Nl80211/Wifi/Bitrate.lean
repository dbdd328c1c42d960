/-
# Nl80211.Wifi.Bitrate — which transmit rates reach the record.

The kernel has two attributes for a rate: a 32-bit one, and a 16-bit one that it leaves out when the
rate does not fit.  `iw` takes the first and falls back on the second (`parse_bitrate`),
`get_wifi_info` knows the second only.  So a rate of 6.5536 Gbit/s or more is not recorded and
`txrate` keeps what it held.
-/
import Nl80211.Wifi.StationMessage

namespace Nl80211.Wifi

open Lib Lib.Bytes Libnl

/-! ## `parse_bitrate` of `iw` -/

def nl80211RateInfoBitrate32 : Nat := 5

/-- `rate_policy` of `parse_bitrate`. -/
def iwRatePolicy : Nat → NlaPolicy
  | 1 => { type := .u16 }      -- BITRATE
  | 5 => { type := .u32 }      -- BITRATE32
  | 2 => { type := .u8 }       -- MCS
  | 3 => { type := .flag }     -- 40_MHZ_WIDTH
  | 4 => { type := .flag }     -- SHORT_GI
  | _ => {}

/-- `parse_bitrate` up to where it prints: the rate it takes from a nest, `none` when it fails to
parse the nest. -/
def parsedBitrate (mem : Mem) (bitrateAttr : Nat) : Traced Access (Option Int) := do
  let rinfo ← nlaParseNested mem nl80211RateInfoMax bitrateAttr iwRatePolicy
  if rinfo.err ≠ 0 then return none          -- "failed to parse nested rate attributes!"
  else
    match rinfo.tb nl80211RateInfoBitrate32 with
    | some nla =>
        Traced.emit (.value (nlaData nla) 4)
        return some (toInt32 (nlaGetU32 mem nla))
    | none =>
        match rinfo.tb nl80211RateInfoBitrate with
        | some nla =>
            Traced.emit (.value (nlaData nla) 2)
            return some (nlaGetU16 mem nla)
        | none => return some 0

/-! ## Nests that encode a rate -/

/-- The 16-bit attribute. -/
def bitrate (r : Nat) : Nla := .u16 nl80211RateInfoBitrate r (by decide)

/-- The 32-bit attribute. -/
def bitrate32 (r : Nat) : Nla := .u32 nl80211RateInfoBitrate32 r (by decide)

/-- Any other attribute of the nest that keeps to the policy: MCS, width, guard interval. -/
structure RateExtra (a : Nla) : Prop where
  not_bitrate : a.type ≠ nl80211RateInfoBitrate
  not_bitrate32 : a.type ≠ nl80211RateInfoBitrate32
  valid : ¬ Violates nl80211RateInfoMax ratePolicy a

/-- The attributes for the rate `r`, with others, in any order. -/
inductive EncodesRate (r : Nat) (rates : List Nla) : Prop where
  /-- a kernel that knows both attributes; the 16-bit one only if the rate fits it -/
  | newer (extras : List Nla) (valid : ∀ a ∈ extras, RateExtra a)
      (perm : rates.Perm ((bitrate32 r :: if r < 65536 then [bitrate r] else []) ++ extras))
  /-- a kernel from before the 32-bit attribute -/
  | older (extras : List Nla) (valid : ∀ a ∈ extras, RateExtra a) (fits : r < 65536)
      (perm : rates.Perm (bitrate r :: extras))

/-- The message carries the nest: it is the last `TX_BITRATE` of the last `STA_INFO`, whose
attributes keep to their policy. -/
structure CarriesRates (attrs : List StationAttr) (rates : List Nla) : Prop where
  carried : ∃ sta, NestOr.last attrs = some sta ∧ NestOr.last sta = some rates ∧
    ¬ ∃ a ∈ sta.map NestOr.nla, Violates nl80211StaInfoMax statsPolicy a

/-- The rate is in the record after the message, and it is the one `iw` takes from the nest. -/
def RateReported (m : StationMsg) (r : Nat) (old : WifiMsg) : Prop :=
  (getWifiInfo m.image old).val.2.int .txrate = r ∧
    ∃ nla, staAttr m.image nl80211StaInfoTxBitrate = some nla ∧
      (parsedBitrate m.image nla).val = some (r : Int)

namespace EncodesRate

variable {r : Nat} {rates : List Nla}

theorem bitrate_type (r : Nat) : (bitrate r).type = nl80211RateInfoBitrate := by
  simp [bitrate, Nla.u16, Nla.type, nl80211RateInfoBitrate, nlaTypeMask]

theorem bitrate32_type (r : Nat) : (bitrate32 r).type = nl80211RateInfoBitrate32 := by
  simp [bitrate32, Nla.u32, Nla.type, nl80211RateInfoBitrate32, nlaTypeMask]

/-- What the attributes of the nest are. -/
theorem cases_mem (h : EncodesRate r rates) {a : Nla} (ha : a ∈ rates) :
    a = bitrate32 r ∨ (a = bitrate r ∧ r < 65536) ∨ RateExtra a := by
  cases h with
  | newer extras valid perm =>
      have hmem := perm.mem_iff.mp ha
      rw [List.mem_append, List.mem_cons] at hmem
      rcases hmem with (rfl | hmem) | hmem
      · exact .inl rfl
      · by_cases hr : r < 65536
        · rw [if_pos hr, List.mem_singleton] at hmem
          exact .inr (.inl ⟨hmem, hr⟩)
        · rw [if_neg hr] at hmem
          cases hmem
      · exact .inr (.inr (valid a hmem))
  | older extras valid fits perm =>
      rcases List.mem_cons.mp (perm.mem_iff.mp ha) with rfl | hmem
      · exact .inr (.inl ⟨rfl, fits⟩)
      · exact .inr (.inr (valid a hmem))

theorem mem_bitrate (h : EncodesRate r rates) (hr : r < 65536) : bitrate r ∈ rates := by
  cases h with
  | newer extras _ perm =>
      apply perm.mem_iff.mpr
      rw [if_pos hr]
      simp
  | older extras _ _ perm => exact perm.mem_iff.mpr List.mem_cons_self

/-- One of the two attributes is always there. -/
theorem mem_bitrate32_or (h : EncodesRate r rates) : bitrate32 r ∈ rates ∨ r < 65536 := by
  cases h with
  | newer extras _ perm => exact .inl (perm.mem_iff.mpr (by simp))
  | older extras _ fits _ => exact .inr fits

/-- The 16-bit attribute is found exactly when the rate fits it. -/
theorem lastNla_bitrate (h : EncodesRate r rates) :
    lastNla nl80211RateInfoBitrate rates = if r < 65536 then some (bitrate r) else none := by
  have hfound {a : Nla} (ha : a ∈ rates) (htype : a.type = nl80211RateInfoBitrate) :
      a = bitrate r ∧ r < 65536 := by
    rcases h.cases_mem ha with rfl | hb | hextra
    · rw [bitrate32_type] at htype
      cases htype
    · exact hb
    · exact absurd htype hextra.not_bitrate
  cases hlast : lastNla nl80211RateInfoBitrate rates with
  | none =>
      rw [if_neg fun hr => lastNla_eq_none.mp hlast _ (h.mem_bitrate hr) (bitrate_type r)]
  | some a =>
      obtain ⟨htype, before, after, hsplit, -⟩ := lastNla_eq_some hlast
      obtain ⟨rfl, hr⟩ := hfound (by simp [hsplit]) htype
      rw [if_pos hr]

/-- The 32-bit attribute, where it is found, holds the rate. -/
theorem eq_bitrate32 (h : EncodesRate r rates) {a : Nla}
    (hlast : lastNla nl80211RateInfoBitrate32 rates = some a) : a = bitrate32 r := by
  obtain ⟨htype, before, after, hsplit, -⟩ := lastNla_eq_some hlast
  rcases h.cases_mem (a := a) (by simp [hsplit]) with rfl | ⟨rfl, -⟩ | hextra
  · rfl
  · rw [bitrate_type] at htype
    cases htype
  · exact absurd htype hextra.not_bitrate32

/-- The two attributes keep to a policy that asks for no more than their size. -/
theorem valid_of_policy (h : EncodesRate r rates) {policy : Nat → NlaPolicy}
    (h16 : (policy nl80211RateInfoBitrate).Accepts (le16 r))
    (h32 : (policy nl80211RateInfoBitrate32).Accepts (le32 r))
    (hother : ∀ t, t ≠ nl80211RateInfoBitrate32 → policy t = ratePolicy t) :
    ¬ ∃ a ∈ rates, Violates nl80211RateInfoMax policy a := by
  rintro ⟨a, ha, hpos, hmax, hacc⟩
  rcases h.cases_mem ha with rfl | ⟨rfl, -⟩ | hextra
  · rw [bitrate32_type] at hacc
    exact hacc h32
  · rw [bitrate_type] at hacc
    exact hacc h16
  · rw [hother _ hextra.not_bitrate32] at hacc
    exact hextra.valid ⟨hpos, hmax, hacc⟩

theorem valid (h : EncodesRate r rates) :
    ¬ ∃ a ∈ rates, Violates nl80211RateInfoMax ratePolicy a :=
  h.valid_of_policy ⟨nofun, Nat.le_refl 2, nofun, nofun⟩ ⟨nofun, Nat.zero_le 4, nofun, nofun⟩
    fun _ _ => rfl

theorem iwRatePolicy_of_ne {t : Nat} (h : t ≠ nl80211RateInfoBitrate32) :
    iwRatePolicy t = ratePolicy t := by
  match t, h with
  | 0, _ | 1, _ | 2, _ | 3, _ | 4, _ => rfl
  | 5, h => exact absurd rfl h
  | t + 6, _ => rfl

theorem valid_iw (h : EncodesRate r rates) :
    ¬ ∃ a ∈ rates, Violates nl80211RateInfoMax iwRatePolicy a :=
  h.valid_of_policy ⟨nofun, Nat.le_refl 2, nofun, nofun⟩ ⟨nofun, Nat.le_refl 4, nofun, nofun⟩
    fun _ => iwRatePolicy_of_ne

/-- What the nest means to `get_wifi_info`. -/
theorem rateMeaning_eq (h : EncodesRate r rates) :
    rateMeaning rates = if r < 65536 then some r else none := by
  rw [rateMeaning, if_neg h.valid, h.lastNla_bitrate]
  by_cases hr : r < 65536
  · have hvalue : rateValue (bitrate r) = r := by
      have hread := rd16_le16 r []
      rwa [List.append_nil, Nat.mod_eq_of_lt hr] at hread
    rw [if_pos hr, if_pos hr, Option.map_some, hvalue]
  · rw [if_neg hr, if_neg hr, Option.map_none]

/-- What `iw` takes from the nest: the rate, whichever attributes encode it. -/
theorem parsedBitrate_eq (h : EncodesRate r rates) (hr : r < 2147483648) {mem : Mem} {nla : Nat}
    {a : Nla} (hs : Stored mem nla a) (hdata : a.data = putAll rates) :
    (parsedBitrate mem nla).val = some (r : Int) := by
  have hvalid : NestValid mem nl80211RateInfoMax iwRatePolicy nla :=
    (nestValid_iff hs hdata).mpr h.valid_iw
  have herr : (nlaParseNested mem nl80211RateInfoMax nla iwRatePolicy).val.err = 0 := by
    by_contra hne
    exact nlaParseNested_err_iff.mp hne hvalid
  have h32 := nestAttr_stored hs hdata h.valid_iw nl80211RateInfoBitrate32
  have h16 := nestAttr_stored hs hdata h.valid_iw nl80211RateInfoBitrate
  simp only [parsedBitrate, Traced.val_bind, herr, ne_eq, not_true_eq_false, if_false]
  rw [nlaParseNested_tb hvalid (by decide) (by decide),
    nlaParseNested_tb hvalid (by decide) (by decide)]
  cases hlast : lastNla nl80211RateInfoBitrate32 rates with
  | some b =>
      simp only [hlast] at h32
      obtain ⟨p, hp, hstored⟩ := h32
      -- `iw` takes the 32-bit attribute whenever it is there
      cases h.eq_bitrate32 hlast
      rw [hp]
      simp only [Traced.val_bind, Traced.val_pure, Stored.getU32 hstored]
      rw [Nat.mod_eq_of_lt (by omega), toInt32_of_lt hr]
  | none =>
      -- an older kernel: the rate fits 16 bits
      have hfits : r < 65536 := h.mem_bitrate32_or.resolve_left fun hmem =>
        lastNla_eq_none.mp hlast _ hmem (bitrate32_type r)
      have hbit := h.lastNla_bitrate
      rw [if_pos hfits] at hbit
      simp only [hlast] at h32
      simp only [hbit] at h16
      obtain ⟨p, hp, hstored⟩ := h16
      rw [h32, hp]
      have hread := rd16_le16 r []
      rw [List.append_nil, Nat.mod_eq_of_lt hfits] at hread
      simp only [Traced.val_bind, Traced.val_pure,
        nlaGetU16_stored hstored (show 2 ≤ (bitrate r).data.length from Nat.le_refl 2)]
      exact congrArg (fun n : Nat => some (n : Int)) hread

end EncodesRate

/-! ## The rate in the record -/

/-- The report of a message that carries a nest. -/
theorem CarriesRates.meaning {attrs : List StationAttr} {rates : List Nla}
    (h : CarriesRates attrs rates) : (stationMeaning attrs).rate = rateMeaning rates := by
  obtain ⟨sta, hsta, hrates, hvalid⟩ := h.carried
  rw [stationMeaning, hsta]
  simp only [staMeaning, if_neg hvalid, hrates, Option.bind_some]

/-- Where the nest lies in the message. -/
theorem CarriesRates.stored {m : StationMsg} {rates : List Nla} (h : CarriesRates m.attrs rates) :
    ∃ nla a, staAttr m.image nl80211StaInfoTxBitrate = some nla ∧ Stored m.image nla a ∧
      a.data = putAll rates := by
  obtain ⟨sta, hsta, hrates, hvalid⟩ := h.carried
  have htop := topAttr_nest m
  simp only [hsta] at htop
  obtain ⟨p, b, hp, hstored, hdata⟩ := htop
  have hnest := nestAttr_nest hstored hdata hvalid
  simp only [hrates, List.map_id] at hnest
  obtain ⟨nla, a, hnla, ha, hcontent⟩ := hnest
  refine ⟨nla, a, ?_, ha, hcontent⟩
  rw [staAttr, hp, Option.bind_some, hnla]

/-- The rate after a message that carries a nest. -/
theorem txrate_carried {m : StationMsg} {rates : List Nla} {r : Nat} (henc : EncodesRate r rates)
    (hm : CarriesRates m.attrs rates) (old : WifiMsg) :
    (getWifiInfo m.image old).val.2.int .txrate = if r < 65536 then (r : Int)
      else old.int .txrate := by
  have htx := congrArg WifiView.txrate (view_getWifiInfo m old)
  change _ = ((stationMeaning m.attrs).rate.map Int.ofNat).getD (old.int .txrate) at htx
  rw [hm.meaning, henc.rateMeaning_eq] at htx
  refine htx.trans ?_
  split <;> rfl

/-- **Rates.** For every station message that carries a rate and every record before it, the rate is
recorded exactly when it fits 16 bits or the record held it already. -/
theorem rateReported_iff {m : StationMsg} {rates : List Nla} {r : Nat} (hr : r < 2147483648)
    (henc : EncodesRate r rates) (hm : CarriesRates m.attrs rates) (old : WifiMsg) :
    RateReported m r old ↔ r < 65536 ∨ old.int .txrate = r := by
  obtain ⟨nla, a, hnla, hstored, hdata⟩ := hm.stored
  have hiw := henc.parsedBitrate_eq hr hstored hdata
  rw [RateReported, txrate_carried henc hm]
  by_cases hfits : r < 65536
  · rw [if_pos hfits]
    exact iff_of_true ⟨rfl, nla, hnla, hiw⟩ (.inl hfits)
  · rw [if_neg hfits]
    constructor
    · exact fun h => .inr h.1
    · rintro (h | h)
      · exact absurd h hfits
      · exact ⟨h, nla, hnla, hiw⟩

/-- A `STA_INFO` nest that holds nothing but a `TX_BITRATE` nest. -/
def ratesOnly (rates : List Nla) (len_lt : nlaHdrlen + (putAll (rates.map id)).length < 65536) :
    List StaAttr :=
  [.nest ⟨nl80211StaInfoTxBitrate, rates, by decide, by decide, len_lt⟩]

/-- 54 Mbit/s. -/
def slowSta : List StaAttr := ratesOnly [bitrate32 540, bitrate 540] (by decide)

/-- 8 Gbit/s. -/
def fastSta : List StaAttr := ratesOnly [bitrate32 80000] (by decide)

/-- A station at 54 Mbit/s. -/
def slowMsg : StationMsg where
  head := le32 44 ++ (le16 28 ++ (le16 nlmFMulti ++ (le32 8 ++ (le32 0 ++ [19, 1, 0, 0]))))
  attrs := [.nest ⟨nl80211AttrStaInfo, slowSta, by decide, by decide, by decide⟩]
  behind := []
  head_len := rfl
  len := rfl
  size := by decide

/-- A station at 8 Gbit/s. -/
def fastMsg : StationMsg where
  head := le32 36 ++ (le16 28 ++ (le16 nlmFMulti ++ (le32 8 ++ (le32 0 ++ [19, 1, 0, 0]))))
  attrs := [.nest ⟨nl80211AttrStaInfo, fastSta, by decide, by decide, by decide⟩]
  behind := []
  head_len := rfl
  len := rfl
  size := by decide

theorem slow_carried : CarriesRates slowMsg.attrs [bitrate32 540, bitrate 540] :=
  ⟨slowSta, rfl, rfl, by decide⟩

theorem fast_carried : CarriesRates fastMsg.attrs [bitrate32 80000] :=
  ⟨fastSta, rfl, rfl, by decide⟩

theorem slow_rate_reported : RateReported slowMsg 540 .init :=
  (rateReported_iff (by decide) (.newer [] (List.forall_mem_nil _) (.refl _))
    slow_carried .init).mpr (.inl (by decide))

/-- A rate of 8 Gbit/s does not reach the record. -/
theorem fast_rate_not_reported :
    EncodesRate 80000 [bitrate32 80000] ∧ CarriesRates fastMsg.attrs [bitrate32 80000] ∧
      ¬ RateReported fastMsg 80000 .init := by
  have henc : EncodesRate 80000 [bitrate32 80000] := .newer [] (List.forall_mem_nil _) (.refl _)
  refine ⟨henc, fast_carried, fun h => ?_⟩
  have hrate := h.1
  rw [txrate_carried henc fast_carried] at hrate
  revert hrate
  decide

end Nl80211.Wifi
