/-
# Nl80211.Wifi.Channels — channel numbers over all frequencies.

`ieee80211_frequency_to_channel` is a cascade of interval tests; `ieee80211_channel_to_frequency` of
`iw` is the table it should invert, and it does so on every channel of the four bands.  What it gets
wrong lies outside the bands: below 2403 MHz and in two gaps the division yields a negative channel,
and for the largest values, which are negative as an `int`, the subtraction overflows.
-/
import Nl80211.Wifi.Reports

namespace Nl80211.Wifi

open Lib Lib.Bytes Libnl

/-! ## The table of `iw` -/

/-- `enum nl80211_band`. -/
inductive Nl80211Band where
  | band2GHz | band5GHz | band60GHz | band6GHz | bandS1GHz
  deriving DecidableEq, Repr

/-- `ieee80211_channel_to_frequency`; `0` is "not supported". -/
def ieee80211ChannelToFrequency (chan : Int) (band : Nl80211Band) : Int :=
  if chan ≤ 0 then 0
  else
    match band with
    | .band2GHz => if chan = 14 then 2484 else if chan < 14 then 2407 + chan * 5 else 0
    | .band5GHz => if chan ≥ 182 ∧ chan ≤ 196 then 4000 + chan * 5 else 5000 + chan * 5
    | .band6GHz => if chan = 2 then 5935 else if chan ≤ 253 then 5950 + chan * 5 else 0
    | .band60GHz => if chan < 7 then 56160 + chan * 2160 else 0
    | .bandS1GHz => 0

/-- The channel `c` of the band lies at this frequency; in the 5 GHz band only what is below 5950
MHz counts. -/
def ChannelAt (band : Nl80211Band) (c freq : Int) : Prop :=
  0 < c ∧ freq ≠ 0 ∧ ieee80211ChannelToFrequency c band = freq ∧ (band = .band5GHz → freq < 5950)

/-! ## The arithmetic of the code -/

/-- A subtraction of `int`s, undefined when it overflows. -/
def intSub (a b : Int) : Option Int :=
  if -2147483648 ≤ a - b ∧ a - b ≤ 2147483647 then some (a - b) else none

/-- `ieee80211_frequency_to_channel` in `int` arithmetic; `none` when it overflows. -/
def ieee80211FrequencyToChannelInt (freq : Int) : Option Int :=
  if freq = 2484 then some 14
  else if freq = 5935 then some 2
  else if freq < 2484 then (intSub freq 2407).map (·.tdiv 5)
  else if freq ≥ 4910 ∧ freq ≤ 4980 then (intSub freq 4000).map (·.tdiv 5)
  else if freq < 5950 then (intSub freq 5000).map (·.tdiv 5)
  else if freq ≤ 45000 then (intSub freq 5950).map (·.tdiv 5)
  else if freq ≥ 58320 ∧ freq ≤ 70200 then (intSub freq 56160).map (·.tdiv 2160)
  else some 0

/-- What should hold of a reported frequency `f`, an unsigned 32-bit value that is converted to
`int`. -/
structure ChannelSound (f : UInt32) : Prop where
  /-- no signed overflow, and the value is that of the unbounded arithmetic -/
  defined : ieee80211FrequencyToChannelInt (toInt32 f.toNat) =
    some (ieee80211FrequencyToChannel (toInt32 f.toNat))
  nonneg : 0 ≤ ieee80211FrequencyToChannel (toInt32 f.toNat)
  /-- a channel's own frequency gives back the channel -/
  inverse : ∀ band c, ChannelAt band c (toInt32 f.toNat) →
    ieee80211FrequencyToChannel (toInt32 f.toNat) = c
  /-- no other channel of the band is reported by the same number -/
  unique : ∀ band c, ChannelAt band c (toInt32 f.toNat) → ∀ c' freq, ChannelAt band c' freq →
    ieee80211FrequencyToChannel freq = ieee80211FrequencyToChannel (toInt32 f.toNat) → c' = c
  /-- the frequency is not recorded beside a negative channel -/
  recorded : ∀ mem r, (nameReport mem).freq = some f.toNat →
    (getWifiName mem r).val.2.int .band = toInt32 f.toNat ∧
      0 ≤ (getWifiName mem r).val.2.int .channel

/-! ## Signs and overflows -/

/-- Rounding towards zero, a quotient is negative from one whole divisor below zero on. -/
theorem tdiv_nonneg_iff {a b : Int} (hb : 0 < b) : 0 ≤ a.tdiv b ↔ -b < a := by
  constructor
  · intro h
    by_contra hle
    -- `tdiv` is the quotient of the magnitudes, with the sign put back
    have hone : 1 ≤ (-a) / b := Int.le_ediv_of_mul_le hb (by omega)
    have hneg : (-a).tdiv b = (-a) / b := Int.tdiv_eq_ediv_of_nonneg (by omega)
    rw [Int.neg_tdiv] at hneg
    omega
  · intro h
    by_cases ha : 0 ≤ a
    · exact Int.tdiv_nonneg ha (Int.le_of_lt hb)
    · have hzero : (-a).tdiv b = 0 := Int.tdiv_eq_zero_of_lt (by omega) (by omega)
      rw [Int.neg_tdiv] at hzero
      omega

theorem intSub_of_range {a b : Int} (h : -2147483648 ≤ a - b ∧ a - b ≤ 2147483647) :
    intSub a b = some (a - b) := if_pos h

/-- The only subtraction that can overflow is the first one. -/
theorem frequencyToChannelInt_eq {freq : Int} (hl : -2147483648 + 2407 ≤ freq)
    (hu : freq ≤ 2147483647) :
    ieee80211FrequencyToChannelInt freq = some (ieee80211FrequencyToChannel freq) := by
  unfold ieee80211FrequencyToChannelInt ieee80211FrequencyToChannel
  repeat' split
  all_goals first
    | rfl
    | rw [intSub_of_range (by omega), Option.map_some]

/-- For the smallest `int`s, the values just above 2^31 as the kernel sends them, it does. -/
theorem frequencyToChannelInt_overflow {freq : Int} (h : freq < -2147483648 + 2407) :
    ieee80211FrequencyToChannelInt freq = none := by
  rw [ieee80211FrequencyToChannelInt, if_neg (by omega), if_neg (by omega),
    if_pos (by omega), intSub,
    if_neg (by omega), Option.map_none]

/-- The frequencies for which the channel is not negative. -/
theorem frequencyToChannel_nonneg_iff {freq : Int} :
    0 ≤ ieee80211FrequencyToChannel freq ↔
      (2403 ≤ freq ∧ freq ≤ 2484) ∨ (4910 ≤ freq ∧ freq ≤ 4980) ∨ 4996 ≤ freq := by
  unfold ieee80211FrequencyToChannel
  repeat' split
  all_goals first
    | omega
    | rw [tdiv_nonneg_iff (by decide)]
      omega

/-! ## The inverse -/

theorem tdiv_of_mul {a b c : Int} (hb : 0 < b) (h : a = c * b) : a.tdiv b = c := by
  rw [h, Int.mul_tdiv_cancel c (by omega)]

/-- **Inverse.** On the channels of the four bands the cascade inverts the table. -/
theorem frequencyToChannel_channelAt {band : Nl80211Band} {c freq : Int}
    (h : ChannelAt band c freq) :
    ieee80211FrequencyToChannel freq = c := by
  obtain ⟨hpos, hne, rfl, h5⟩ := h
  unfold ieee80211ChannelToFrequency at hne h5 ⊢
  rw [if_neg (by omega)] at hne h5 ⊢
  unfold ieee80211FrequencyToChannel
  cases band with
  | band2GHz =>
      simp only at hne ⊢
      split at hne
      · next h14 => simp [h14]
      · split at hne
        · next h14 hlt =>
            rw [if_neg h14, if_pos hlt, if_neg (by omega), if_neg (by omega), if_pos (by omega)]
            exact tdiv_of_mul (by decide) (by omega)
        · exact absurd rfl hne
  | band5GHz =>
      have h5950 := h5 rfl
      simp only at h5950 ⊢
      by_cases hlow : c ≥ 182 ∧ c ≤ 196
      · -- 4910 to 4980 MHz, inside the range of the second test
        rw [if_pos hlow, if_neg (by omega), if_neg (by omega), if_neg (by omega), if_pos (by omega)]
        exact tdiv_of_mul (by decide) (by omega)
      · rw [if_neg hlow] at h5950 ⊢
        rw [if_neg (by omega), if_neg (by omega), if_neg (by omega), if_neg (by omega),
          if_pos (by omega)]
        exact tdiv_of_mul (by decide) (by omega)
  | band60GHz =>
      simp only at hne ⊢
      split at hne
      · next hlt =>
          rw [if_pos hlt, if_neg (by omega), if_neg (by omega), if_neg (by omega),
            if_neg (by omega),
            if_neg (by omega), if_neg (by omega), if_pos (by omega)]
          exact tdiv_of_mul (by decide) (by omega)
      · exact absurd rfl hne
  | band6GHz =>
      simp only at hne ⊢
      split at hne
      · next h2 => simp [h2]
      · split at hne
        · next h2 hle =>
            rw [if_neg h2, if_pos hle, if_neg (by omega), if_neg (by omega), if_neg (by omega),
              if_neg (by omega), if_neg (by omega), if_pos (by omega)]
            exact tdiv_of_mul (by decide) (by omega)
        · exact absurd rfl hne
  | bandS1GHz => exact absurd rfl hne

/-! ## What is recorded -/

/-- Both members that belong to a frequency, whatever else the message holds. -/
theorem freq_recorded {mem : Mem} {n : Nat} (h : (nameReport mem).freq = some n) (r : WifiMsg) :
    (getWifiName mem r).val.2.int .band = toInt32 n ∧
      (getWifiName mem r).val.2.int .channel = ieee80211FrequencyToChannel (toInt32 n) := by
  have hb := ieee80211FrequencyToChannel_bound n
  rw [getWifiName_val]
  simp only [NameReport.write, NameReport.channel, h, Option.map_some]
  constructor
  · exact WifiMsg.int_setInt_self (by decide)
  · rw [WifiMsg.int_setInt_of_disjoint rfl rfl (by decide), WifiMsg.int_setInt_self (by decide)]
    exact toInt32_ofInt32 hb.1 hb.2

/-- **Channels.** A frequency is treated as it should be exactly when it lies from 2403 to 2484 MHz,
from 4910 to 4980 MHz, or from 4996 MHz up to the largest `int`. -/
theorem channelSound_iff (f : UInt32) :
    ChannelSound f ↔
      (2403 ≤ f.toNat ∧ f.toNat ≤ 2484) ∨ (4910 ≤ f.toNat ∧ f.toNat ≤ 4980) ∨
        (4996 ≤ f.toNat ∧ f.toNat < 2147483648) := by
  have hlt := f.toNat_lt
  constructor
  · intro h
    have hn := frequencyToChannel_nonneg_iff.mp h.nonneg
    unfold toInt32 at hn
    -- from 2^31 on the `int` is negative
    split at hn <;> omega
  · intro h
    have hint : toInt32 f.toNat = f.toNat := toInt32_of_lt (by omega)
    have hnonneg : 0 ≤ ieee80211FrequencyToChannel (toInt32 f.toNat) := by
      rw [hint]
      exact frequencyToChannel_nonneg_iff.mpr (by omega)
    constructor
    case defined =>
      rw [hint]
      exact frequencyToChannelInt_eq (by omega) (by omega)
    case nonneg => exact hnonneg
    case inverse => exact fun band c hc => frequencyToChannel_channelAt hc
    case unique =>
      intro band c hc c' freq hc' heq
      rw [frequencyToChannel_channelAt hc, frequencyToChannel_channelAt hc'] at heq
      exact heq
    case recorded =>
      intro mem r hfreq
      obtain ⟨hband, hchannel⟩ := freq_recorded hfreq r
      refine ⟨hband, ?_⟩
      rw [hchannel]
      exact hnonneg

/-- At 902 MHz the code reports channel -301. -/
theorem s1g_not_sound : ¬ ChannelSound 902 := by
  intro h
  have hn := h.nonneg
  revert hn
  decide

end Nl80211.Wifi
