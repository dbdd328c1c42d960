/-
# Nl80211.Wifi.Stations — whose signal and whose rate.

`get_wifi_info` writes `signal` and `txrate` each when the message at hand reports it, and nothing
resets them.  So after the station phase either field holds the last value reported for it, or the
value from before.  Which message wrote a field is read off the writes of the handler (`Wrote`); the
two belong to one station exactly when the last message that reports anything reports both, or one
of them is reported by no message and was unknown before (`OneStation`).
-/
import Nl80211.Wifi.Delivery

namespace Nl80211.Wifi

open Lib Lib.Bytes Libnl

/-! ## The fold over the messages -/

theorem view_infoRecord (ms : List NetMsg) (r : WifiMsg) :
    (infoRecord r ms).view = ms.foldl (fun v m => (stationReport m.image).apply v) r.view := by
  induction ms generalizing r with
  | nil => rfl
  | cons m ms ih =>
      rw [List.foldl_cons, ← view_write_station, ← ih]
      simp only [infoRecord, List.foldl_cons, getWifiInfo_val]

/-- The signal a message reports. -/
def signalOf (m : NetMsg) : Option Int := (stationReport m.image).signal

/-- The rate a message reports. -/
def rateOf (m : NetMsg) : Option Int := (stationReport m.image).rate.map Int.ofNat

theorem signal_infoRecord (ms : List NetMsg) (r : WifiMsg) :
    (infoRecord r ms).view.signal = lastReport signalOf r.view.signal ms := by
  rw [view_infoRecord]
  exact foldl_field _ WifiView.signal signalOf (fun _ _ => rfl) ms _

theorem txrate_infoRecord (ms : List NetMsg) (r : WifiMsg) :
    (infoRecord r ms).view.txrate = lastReport rateOf r.view.txrate ms := by
  rw [view_infoRecord]
  exact foldl_field _ WifiView.txrate rateOf (fun _ _ => rfl) ms _

/-! ## One station per record -/

/-- The handler writes the member `f` while it handles the message; the record does not matter to
what it touches. -/
def Wrote (f : Member) (m : NetMsg) : Prop := ∃ r, Writes f (getWifiInfo m.image r)

theorem wrote_iff {f : Member} {m : NetMsg} (r : WifiMsg) :
    Wrote f m ↔ Writes f (getWifiInfo m.image r) := by
  constructor
  · rintro ⟨r', h⟩
    rwa [writes_getWifiInfo] at h ⊢
  · exact fun h => ⟨r, h⟩

/-- After `before ++ m :: after` the member `f` is that of the message `m`, whose value for it is
`value`: `m` wrote it last, or `m` has no value, the member is unknown, and no message wrote it. -/
structure BelongsTo (f : Member) (value : NetMsg → Option Int) (before : List NetMsg) (m : NetMsg)
    (after : List NetMsg) (r : WifiMsg) : Prop where
  reported : ∀ v ∈ value m, r.int f = v ∧ Wrote f m ∧ ∀ m' ∈ after, ¬ Wrote f m'
  unknown : value m = none → r.int f = -1 ∧ ∀ m' ∈ before ++ m :: after, ¬ Wrote f m'

/-- After the station phase both members are those of one and the same message of the answer. -/
def PairsUp (page : Nat) (env : UpdateEnv) (w : World) (ms : List NetMsg) : Prop :=
  ∃ w₁, stationPhase page env w = .ok true w₁ ∧ ∃ before m after, ms = before ++ m :: after ∧
    BelongsTo .signal signalOf before m after w₁.fields.wifi ∧
      BelongsTo .txrate rateOf before m after w₁.fields.wifi

/-- There is a station; what no message reports was unknown before; and where both are reported, the
last message that reports anything reports both. -/
structure OneStation (old : WifiMsg) (ms : List NetMsg) : Prop where
  some : ms ≠ []
  signal : (∀ m ∈ ms, signalOf m = none) → old.int .signal = -1
  rate : (∀ m ∈ ms, rateOf m = none) → old.int .txrate = -1
  same : (∃ m ∈ ms, (signalOf m).isSome) → (∃ m ∈ ms, (rateOf m).isSome) →
    OfLast (fun m => (signalOf m).isSome ∨ (rateOf m).isSome)
      (fun m => (signalOf m).isSome ∧ (rateOf m).isSome) ms

/-! ### Who wrote -/

/-- A message writes the signal when it reports one, -/
theorem wrote_signal_iff {m : NetMsg} : Wrote .signal m ↔ (signalOf m).isSome := by
  have hsig : WritesTo .signal (.write 96 4 0 4) := by decide
  have hrate : ¬ WritesTo .signal (.write 100 4 0 4) := by decide
  rw [wrote_iff .init, writes_getWifiInfo]
  simp [hsig, hrate, signalOf, stationReport, Option.isSome_iff_exists]

/-- and the rate when it reports one. -/
theorem wrote_txrate_iff {m : NetMsg} : Wrote .txrate m ↔ (rateOf m).isSome := by
  have hsig : ¬ WritesTo .txrate (.write 96 4 0 4) := by decide
  have hrate : WritesTo .txrate (.write 100 4 0 4) := by decide
  rw [wrote_iff .init, writes_getWifiInfo]
  simp [hsig, hrate, rateOf, stationReport, Option.isSome_iff_exists]

/-- A member that holds what was reported last is that of `m` when `m` reported it last, or nobody
did and it was unknown. -/
theorem belongsTo_iff {f : Member} {value : NetMsg → Option Int} {before after : List NetMsg}
    {m : NetMsg}
    {r : WifiMsg} {old : Int} (hint : r.int f = lastReport value old (before ++ m :: after))
    (hwrote : ∀ m, Wrote f m ↔ (value m).isSome) :
    BelongsTo f value before m after r ↔
      ((value m).isSome ∧ ∀ m' ∈ after, value m' = none) ∨
        ((∀ m' ∈ before ++ m :: after, value m' = none) ∧ old = -1) := by
  have hnot (m' : NetMsg) : ¬ Wrote f m' ↔ value m' = none := by
    rw [hwrote, Option.not_isSome_iff_eq_none]
  constructor
  · rintro ⟨hrep, hunk⟩
    cases hm : value m with
    | some v =>
        obtain ⟨-, -, hafter⟩ := hrep v hm
        exact .inl ⟨rfl, fun m' hm' => (hnot m').mp (hafter m' hm')⟩
    | none =>
        obtain ⟨hval, hall⟩ := hunk hm
        have hall : ∀ m' ∈ before ++ m :: after, value m' = none :=
          fun m' hm' => (hnot m').mp (hall m' hm')
        rw [hint, lastReport_of_forall_none hall] at hval
        exact .inr ⟨hall, hval⟩
  · rintro (⟨hm, hafter⟩ | ⟨hall, hold⟩)
    · refine ⟨fun v hv => ⟨?_, (hwrote m).mpr hm, fun m' hm' => (hnot m').mpr (hafter m' hm')⟩,
        fun hnone => by simp [hnone] at hm⟩
      rw [hint, lastReport_split hv hafter]
    · have hm : value m = none := hall m (by simp)
      refine ⟨fun v hv => absurd (hm.symm.trans hv) (by simp), fun _ => ⟨?_, fun m' hm' => ?_⟩⟩
      · rw [hint, lastReport_of_forall_none hall, hold]
      · exact (hnot m').mpr (hall m' hm')

/-- One message owns both members in exactly these cases. -/
theorem exists_belongsTo_iff {r old : WifiMsg} {ms : List NetMsg}
    (hsig : r.int .signal = lastReport signalOf (old.int .signal) ms)
    (hrate : r.int .txrate = lastReport rateOf (old.int .txrate) ms) :
    (∃ before m after, ms = before ++ m :: after ∧ BelongsTo .signal signalOf before m after r ∧
        BelongsTo .txrate rateOf before m after r) ↔ OneStation old ms := by
  have hnone {value : NetMsg → Option Int} (h : ¬ ∃ m ∈ ms, (value m).isSome) :
      ∀ m ∈ ms, value m = none := fun m hm => by
    by_contra hv
    exact h ⟨m, hm, Option.isSome_iff_ne_none.mpr hv⟩
  constructor
  · rintro ⟨before, m, after, rfl, hs, ht⟩
    rw [belongsTo_iff hsig fun _ => wrote_signal_iff] at hs
    rw [belongsTo_iff hrate fun _ => wrote_txrate_iff] at ht
    have reports {value : NetMsg → Option Int} {x : Int}
        (h : ((value m).isSome ∧ ∀ m' ∈ after, value m' = none) ∨
          ((∀ m' ∈ before ++ m :: after, value m' = none) ∧ x = -1)) :
        (∀ m' ∈ before ++ m :: after, value m' = none) → x = -1 := fun hall => by
      rcases h with ⟨hm, -⟩ | ⟨-, hx⟩
      · rw [hall m (by simp)] at hm
        cases hm
      · exact hx
    refine ⟨by simp, reports hs, reports ht, fun hsome hsome' => ?_⟩
    -- both are reported, so `m` reported either last
    have last {value : NetMsg → Option Int} {x : Int}
        (h : ((value m).isSome ∧ ∀ m' ∈ after, value m' = none) ∨
          ((∀ m' ∈ before ++ m :: after, value m' = none) ∧ x = -1))
        (hex : ∃ m' ∈ before ++ m :: after, (value m').isSome) :
        (value m).isSome ∧ ∀ m' ∈ after, value m' = none := by
      refine h.resolve_right ?_
      rintro ⟨hall, -⟩
      obtain ⟨m', hm', hv⟩ := hex
      rw [hall m' hm'] at hv
      cases hv
    obtain ⟨hms, has⟩ := last hs hsome
    obtain ⟨hmt, hat⟩ := last ht hsome'
    rw [ofLast_split (.inl hms) fun m' hm' => by simp [has m' hm', hat m' hm']]
    exact ⟨hms, hmt⟩
  · rintro ⟨hne, hs, ht, hsame⟩
    by_cases hsome : ∃ m ∈ ms, (signalOf m).isSome
    · by_cases hsome' : ∃ m ∈ ms, (rateOf m).isSome
      · obtain ⟨m₀, hm₀, hv₀⟩ := hsome
        obtain ⟨before, m, after, rfl, hm, hafter⟩ :=
          exists_last (p := fun m => (signalOf m).isSome ∨ (rateOf m).isSome) ⟨m₀, hm₀, .inl hv₀⟩
        obtain ⟨hms, hmt⟩ := (ofLast_split (p := fun m => (signalOf m).isSome ∨ (rateOf m).isSome)
          hm hafter).mp (hsame ⟨m₀, hm₀, hv₀⟩ hsome')
        simp only [not_or, Option.not_isSome_iff_eq_none] at hafter
        refine ⟨before, m, after, rfl, ?_, ?_⟩
        · rw [belongsTo_iff hsig fun _ => wrote_signal_iff]
          exact .inl ⟨hms, fun m' hm' => (hafter m' hm').1⟩
        · rw [belongsTo_iff hrate fun _ => wrote_txrate_iff]
          exact .inl ⟨hmt, fun m' hm' => (hafter m' hm').2⟩
      · obtain ⟨before, m, after, rfl, hm, hafter⟩ := exists_last hsome
        refine ⟨before, m, after, rfl, ?_, ?_⟩
        · rw [belongsTo_iff hsig fun _ => wrote_signal_iff]
          exact .inl ⟨hm, fun m' hm' => Option.not_isSome_iff_eq_none.mp (hafter m' hm')⟩
        · rw [belongsTo_iff hrate fun _ => wrote_txrate_iff]
          exact .inr ⟨hnone hsome', ht (hnone hsome')⟩
    · by_cases hsome' : ∃ m ∈ ms, (rateOf m).isSome
      · obtain ⟨before, m, after, rfl, hm, hafter⟩ := exists_last hsome'
        refine ⟨before, m, after, rfl, ?_, ?_⟩
        · rw [belongsTo_iff hsig fun _ => wrote_signal_iff]
          exact .inr ⟨hnone hsome, hs (hnone hsome)⟩
        · rw [belongsTo_iff hrate fun _ => wrote_txrate_iff]
          exact .inl ⟨hm, fun m' hm' => Option.not_isSome_iff_eq_none.mp (hafter m' hm')⟩
      · -- nothing is reported: any station will do
        obtain ⟨m, after, rfl⟩ := List.exists_cons_of_ne_nil hne
        refine ⟨[], m, after, rfl, ?_, ?_⟩
        · rw [belongsTo_iff hsig fun _ => wrote_signal_iff]
          exact .inr ⟨hnone hsome, hs (hnone hsome)⟩
        · rw [belongsTo_iff hrate fun _ => wrote_txrate_iff]
          exact .inr ⟨hnone hsome', ht (hnone hsome')⟩

/-! ## In an update -/

/-- The station phase leaves the fold of `get_wifi_info` over the dump. -/
theorem stationPhase_record {page : Nat} {w : World} (hw : Idle w)
    (hflag : 0 < w.fields.infoResult) {a : Answer w.sk.seqNext} (ha : IsDump page a) (msg1 : Bool)
    (send1 : SendOutcome) :
    ∃ w₁, stationPhase page ⟨msg1, send1, true, .sent (incoming a.parcels)⟩ w = .ok true w₁ ∧
      w₁.fields.wifi = infoRecord w.fields.wifi a.messages := by
  obtain ⟨w₁, hrun, hx⟩ := stationPhase_good page
    ⟨msg1, send1, true, .sent (incoming a.parcels)⟩ hw hflag rfl rfl rfl ha.good
  exact ⟨w₁, hrun, by rw [hx.fields, Fields.informed, Reply.delivered, ha.delivered_eq]⟩

/-- **One station.** For every record before and every dump of stations, the phase leaves signal and
rate of one message exactly in the cases of `OneStation`. -/
theorem stationPhase_pairs_iff {page : Nat} {w : World} (hw : Idle w)
    (hflag : 0 < w.fields.infoResult) {a : Answer w.sk.seqNext} (ha : IsDump page a) (msg1 : Bool)
    (send1 : SendOutcome) :
    PairsUp page ⟨msg1, send1, true, .sent (incoming a.parcels)⟩ w a.messages ↔
      OneStation w.fields.wifi a.messages := by
  obtain ⟨w₁, hrun, hrecord⟩ := stationPhase_record hw hflag ha msg1 send1
  have hsig : w₁.fields.wifi.int .signal =
      lastReport signalOf (w.fields.wifi.int .signal) a.messages := by
    rw [hrecord]
    exact signal_infoRecord a.messages w.fields.wifi
  have hrate : w₁.fields.wifi.int .txrate =
      lastReport rateOf (w.fields.wifi.int .txrate) a.messages := by
    rw [hrecord]
    exact txrate_infoRecord a.messages w.fields.wifi
  rw [← exists_belongsTo_iff hsig hrate]
  constructor
  · rintro ⟨w', hrun', hone⟩
    cases hrun.symm.trans hrun'
    exact hone
  · exact fun hone => ⟨w₁, hrun, hone⟩

/-! ## Two stations -/

/-- The attributes of a station message with a signal and, if there is one, a rate. -/
def staInfo (signal : UInt8) (rate : Option Nat) : Mem :=
  nlaPut nl80211AttrStaInfo
    (nlaPut nl80211StaInfoSignal [signal] ++
      match rate with
      | some r => nlaPut nl80211StaInfoTxBitrate (nlaPut nl80211RateInfoBitrate (le16 r))
      | none => [])

/-- A station at -40 dBm and 54 Mbit/s. -/
def fullStation : NetMsg :=
  .build 28 nlmFMulti 7 (genlPayload 19 [staInfo 216 (some 540)]) [] (by decide)

/-- A station at -60 dBm that reports no rate. -/
def partialStation : NetMsg :=
  .build 28 nlmFMulti 7 (genlPayload 19 [staInfo 196 none]) [] (by decide)

/-- An object that is about to ask for stations. -/
def armedWorld : World := (World.opened 28 7).armed

def fullFirst : Answer 7 :=
  .dump [fullStation, partialStation] (by decide +kernel) (by decide +kernel)

def fullLast : Answer 7 :=
  .dump [partialStation, fullStation] (by decide +kernel) (by decide +kernel)

/-- With the partial report last the record pairs its signal with the rate of the other station. -/
theorem full_first_mixed :
    ¬ PairsUp 16384 ⟨true, .failed 1, true, .sent (incoming fullFirst.parcels)⟩ armedWorld
      fullFirst.messages := by
  rintro ⟨w', hrun, hone⟩
  have hdump : IsDump 16384 fullFirst :=
    ⟨by decide, by simp [fullFirst, Answer.dump, Answer.single], by decide +kernel⟩
  obtain ⟨w₁, hrun₁, hrecord⟩ := stationPhase_record (w := armedWorld)
    (opened_idle 28 7).armed Int.one_pos hdump true (.failed 1)
  cases hrun₁.symm.trans hrun
  rw [hrecord] at hone
  have hone : OneStation armedWorld.fields.wifi fullFirst.messages :=
    (exists_belongsTo_iff (signal_infoRecord _ _) (txrate_infoRecord _ _)).mp hone
  have hboth : (∃ m ∈ fullFirst.messages, (signalOf m).isSome) ∧
      ∃ m ∈ fullFirst.messages, (rateOf m).isSome := by decide +kernel
  -- the last message reports a signal only
  have hlast := hone.same hboth.1 hboth.2 [fullStation] partialStation [] (by decide +kernel)
    (by decide +kernel) (List.forall_mem_nil _)
  revert hlast
  decide +kernel

theorem full_last_pairs :
    PairsUp 16384 ⟨true, .failed 1, true, .sent (incoming fullLast.parcels)⟩ armedWorld
      fullLast.messages := by
  have hdump : IsDump 16384 fullLast :=
    ⟨by decide, by simp [fullLast, Answer.dump, Answer.single], by decide +kernel⟩
  have hmsgs : fullLast.messages = [partialStation] ++ [fullStation] := by decide +kernel
  have hone : OneStation armedWorld.fields.wifi fullLast.messages := by
    rw [hmsgs]
    refine ⟨by simp, fun h => ?_, fun h => ?_, fun _ _ => ?_⟩
    · exact absurd (h fullStation (by simp)) (by decide +kernel)
    · exact absurd (h fullStation (by simp)) (by decide +kernel)
    · rw [ofLast_concat_of_pos (by decide +kernel)]
      decide +kernel
  exact (stationPhase_pairs_iff (w := armedWorld) (opened_idle 28 7).armed Int.one_pos hdump true
    (.failed 1)).mpr hone

end Nl80211.Wifi
