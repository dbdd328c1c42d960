/-
# Nl80211.Wifi.Bounds — what the handlers read of a message.

The handlers trust `nla_parse` to stay inside the message.  At the top level it does as long as the
count of remaining octets does not fall below zero, that is, as long as the padding of every
attribute passed over lies in the message.  In a nest the count may fall below zero: the parse then
goes on behind the nest, where it must not leave the message and must not take what it finds there.
The fixed-size values of `get_wifi_name` are read without a look at the length of their attributes,
so these have to end inside the message on their own account; the values of `get_wifi_info` are
covered by the policies.
-/
import Nl80211.Libnl.Locality
import Nl80211.Libnl.Packet
import Nl80211.Wifi.Accesses

namespace Nl80211.Wifi

open Lib Lib.Bytes Libnl

/-! ## What the reads should be -/

/-- Of which types an attribute counts as taken from a nest: of those that `get_wifi_info` looks up
in the index arrays, and of others up to all that these hold. -/
structure Taken where
  sta : Nat → Bool
  rate : Nat → Bool
  signal : sta nl80211StaInfoSignal
  txBitrate : sta nl80211StaInfoTxBitrate
  bitrate : rate nl80211RateInfoBitrate

/-- What a parse takes from a nest lies inside the payload of the nest. -/
def NestInside (taken : Nat → Bool) (mem : Mem) (maxtype : Nat) (policy : Nat → NlaPolicy)
    (nla : Nat) : Prop :=
  (nlaParseNested mem maxtype nla policy).val.err = 0 →
    ∀ t, taken t → ∀ a ∈ (nlaParseNested mem maxtype nla policy).val.tb t,
      nlaData nla ≤ a ∧ a + nlaLenField mem a ≤ nla + nlaLenField mem nla

/-- Both handlers read headers and values inside the message, and what is taken from a nest lies
inside the nest. -/
structure ReadsInside (taken : Taken) (mem : Mem) : Prop where
  name : ∀ r, Traced.Always (Inside 0 (nlmsgLenField mem 0)) (getWifiName mem r)
  info : ∀ r, Traced.Always (Inside 0 (nlmsgLenField mem 0)) (getWifiInfo mem r)
  staInfo : ∀ sta ∈ topAttr mem nl80211AttrStaInfo,
    NestInside taken.sta mem nl80211StaInfoMax statsPolicy sta
  txBitrate : ∀ tx ∈ staAttr mem nl80211StaInfoTxBitrate,
    NestInside taken.rate mem nl80211RateInfoMax ratePolicy tx

/-- Octets outside the `STA_INFO` attribute have no influence on what `get_wifi_info` does. -/
def StationAlone (mem : Mem) : Prop :=
  ∀ mem', ∀ sta ∈ topAttr mem nl80211AttrStaInfo, sta ∈ topAttr mem' nl80211AttrStaInfo →
    Agree mem mem' sta (sta + nlaLenField mem sta) →
      ∀ r, (getWifiInfo mem' r).val = (getWifiInfo mem r).val

/-- The nest is refused, or what stands behind its end is nothing that would be taken. -/
def TakesInside (taken : Nat → Bool) (mem : Mem) (maxtype : Nat) (policy : Nat → NlaPolicy)
    (nla : Nat) : Prop :=
  NestValid mem maxtype policy nla → ∀ a ∈ nestWalk mem nla, nla + nlaLenField mem nla < a →
    nlaType mem a = 0 ∨ maxtype < nlaType mem a ∨ taken (nlaType mem a) = false

/-- A nest whose parse does not leave the message, and takes nothing from behind its end. -/
structure NestFits (taken : Nat → Bool) (mem : Mem) (maxtype : Nat) (policy : Nat → NlaPolicy)
    (nla lim : Nat) : Prop where
  upTo : ContainedUpTo mem maxtype (some policy) (nlaData nla) (nlaLen mem nla) lim
  behind : TakesInside taken mem maxtype policy nla

instance (taken : Nat → Bool) (mem : Mem) (maxtype : Nat) (policy : Nat → NlaPolicy) (nla : Nat) :
    Decidable (TakesInside taken mem maxtype policy nla) :=
  inferInstanceAs (Decidable (_ → _))

instance (taken : Nat → Bool) (mem : Mem) (maxtype : Nat) (policy : Nat → NlaPolicy)
    (nla lim : Nat) : Decidable (NestFits taken mem maxtype policy nla lim) :=
  decidable_of_iff (ContainedUpTo mem maxtype (some policy) (nlaData nla) (nlaLen mem nla) lim ∧
      TakesInside taken mem maxtype policy nla)
    ⟨fun h => ⟨h.1, h.2⟩, fun h => ⟨h.upTo, h.behind⟩⟩

/-- The padding of every attribute passed over at the top level lies in the message, the fixed-size
values end in it, and the nests fit it. -/
structure Padded (taken : Taken) (mem : Mem) : Prop where
  top : Contained mem nl80211AttrMax none (genlmsgAttrdata (nlmsgData 0) 0)
    (genlmsgAttrlen mem (nlmsgData 0) 0)
  ifindex : ∀ a ∈ topAttr mem nl80211AttrIfindex, nlaData a + 4 ≤ nlmsgLenField mem 0
  mac : ∀ a ∈ topAttr mem nl80211AttrMac, nlaData a + ethAlen ≤ nlmsgLenField mem 0
  freq : ∀ a ∈ topAttr mem nl80211AttrWiphyFreq, nlaData a + 4 ≤ nlmsgLenField mem 0
  staInfo : ∀ sta ∈ topAttr mem nl80211AttrStaInfo,
    NestFits taken.sta mem nl80211StaInfoMax statsPolicy sta (nlmsgLenField mem 0)
  txBitrate : ∀ tx ∈ staAttr mem nl80211StaInfoTxBitrate,
    NestFits taken.rate mem nl80211RateInfoMax ratePolicy tx (nlmsgLenField mem 0)

/-- No padding runs past the end of `STA_INFO`, and the octets of `STA_INFO` settle the parse of
`TX_BITRATE`. -/
structure StationSettled (mem : Mem) : Prop where
  staInfo : ∀ sta ∈ topAttr mem nl80211AttrStaInfo,
    Contained mem nl80211StaInfoMax (some statsPolicy) (nlaData sta) (nlaLen mem sta)
  txBitrate : ∀ sta ∈ topAttr mem nl80211AttrStaInfo, ∀ tx ∈ staAttr mem nl80211StaInfoTxBitrate,
    Settled mem nl80211RateInfoMax (some ratePolicy) (nlaData tx) (nlaLen mem tx)
      (sta + nlaLenField mem sta)

/-! ## Nests -/

theorem statsPolicy_headersOnly : HeadersOnly statsPolicy := by
  intro t
  unfold statsPolicy
  split <;> decide

theorem ratePolicy_headersOnly : HeadersOnly ratePolicy := by
  intro t
  unfold ratePolicy
  split <;> decide

/-- Both nests let a value of two octets pass where they ask for one of one or two. -/
theorem statsPolicy_takesTwo : TakesTwo statsPolicy nl80211StaInfoMax 7 := by
  intro mem a htype hlen
  simp [Rejected, validateNla, htype, nlaLen, hlen, statsPolicy, nlaAttrMinlen, nlaHdrlen,
    nl80211StaInfoMax]

theorem ratePolicy_takesTwo : TakesTwo ratePolicy nl80211RateInfoMax 1 := by
  intro mem a htype hlen
  simp [Rejected, validateNla, htype, nlaLen, hlen, ratePolicy, nlaAttrMinlen, nlaHdrlen,
    nl80211RateInfoMax]

section Nest

variable {mem : Mem} {maxtype nla t a lim : Nat} {policy : Nat → NlaPolicy} {taken : Nat → Bool}

theorem mem_nestAttr (h : a ∈ nestAttr mem maxtype policy nla t) :
    NestValid mem maxtype policy nla ∧ a ∈ nestWalk mem nla ∧ nlaType mem a = t := by
  rw [nestAttr] at h
  split at h
  · exact ⟨‹_›, mem_lastOfType h⟩
  · cases h

theorem nest_sum : (nlaData nla : Int) + nlaLen mem nla = (nla + nlaLenField mem nla : Nat) := by
  simp only [nlaData, nlaLen, nlaHdrlen]
  omega

theorem nest_lt : nlaLen mem nla < 18446744073709551616 := by
  have := rd16_lt mem nla
  simp only [nlaLen, nlaLenField]
  omega

/-- An attribute that satisfies its policy has the octets its type stands for. -/
theorem nlaLen_of_not_rejected {kind : NlaKind} (h : ¬ Rejected mem maxtype policy a)
    (h0 : 0 < nlaType mem a) (hmax : nlaType mem a ≤ maxtype)
    (hkind : policy (nlaType mem a) = { type := kind }) :
    (nlaAttrMinlen kind : Int) ≤ nlaLen mem a := by
  by_contra hlt
  refine h ?_
  have hmin : (if kind ≠ NlaKind.unspec then nlaAttrMinlen kind else 0) = nlaAttrMinlen kind := by
    cases kind <;> rfl
  rw [Rejected, validateNla, if_neg (by omega)]
  simp only [hkind, ne_eq, not_true_eq_false, if_false]
  simp only [ne_eq] at hmin
  rw [hmin]
  split
  · decide
  · rw [if_pos (by omega)]
    decide

/-- The last attribute of a type stands in the nest exactly when none of that type stands behind. -/
theorem nestInside_iff :
    NestInside taken mem maxtype policy nla ↔ TakesInside taken mem maxtype policy nla := by
  have herr : (nlaParseNested mem maxtype nla policy).val.err = 0 ↔
      NestValid mem maxtype policy nla :=
    not_iff_not.mp nlaParseNested_err_iff
  rw [NestInside, TakesInside, herr]
  refine forall_congr' fun hv => ⟨fun h a ha hbehind => ?_, fun h t ht a ha => ?_⟩
  · by_contra htype
    rw [not_or, not_or, Bool.not_eq_false] at htype
    obtain ⟨b, hb, hab⟩ := exists_lastOfType_ge (nlaWalk_pairwise mem _ _) ha
    have := (h (nlaType mem a) htype.2.2 b (by rwa [nlaParseNested, nlaParse_some_tb hv,
        if_pos (by omega)])).2
    omega
  · rw [nlaParseNested, nlaParse_some_tb hv] at ha
    split at ha
    · obtain ⟨hwalk, htype⟩ := mem_lastOfType ha
      have hin : a ≤ nla + nlaLenField mem nla := by
        by_contra hout
        have := h a hwalk (by omega)
        simp only [htype, ht, Bool.true_eq_false, or_false] at this
        omega
      exact ⟨(nlaWalk_ge mem _ _ a hwalk).1, walk_inside nest_sum nest_lt a hwalk hin⟩
    · cases ha

/-- What is taken from a nest that fits lies inside it. -/
theorem nestAttr_inside (hf : NestFits taken mem maxtype policy nla lim) (h0 : 0 < t)
    (hmax : t ≤ maxtype) (ht : taken t) (h : a ∈ nestAttr mem maxtype policy nla t) :
    nlaData nla ≤ a ∧ nlaHdrlen ≤ nlaLenField mem a ∧
      a + nlaLenField mem a ≤ nla + nlaLenField mem nla := by
  obtain ⟨hv, hwalk, htype⟩ := mem_nestAttr h
  have hge := nlaWalk_ge mem _ _ a hwalk
  have hin : a ≤ nla + nlaLenField mem nla := by
    by_contra hout
    have := hf.behind hv a hwalk (by omega)
    simp only [htype, ht, Bool.true_eq_false, or_false] at this
    omega
  exact ⟨hge.1, hge.2, walk_inside nest_sum nest_lt a hwalk hin⟩

/-- The parse of a nest in the message stays in the message exactly when it is contained up to its
end. -/
theorem nestParse_inside_iff (hend : nla + nlaLenField mem nla ≤ lim) (hlim : lim < 2147483648) :
    Traced.Always (Inside 0 lim) (nlaParseNested mem maxtype nla policy) ↔
      ContainedUpTo mem maxtype (some policy) (nlaData nla) (nlaLen mem nla) lim :=
  nlaParse_inside_iff (Nat.zero_le _) nest_sum hend hlim (by simp only [nlaLen, nlaHdrlen]; omega)

/-- A value of the kind its policy asks for lies inside the attribute. -/
theorem nestAttr_value (kind : NlaKind) (h : a ∈ nestAttr mem maxtype policy nla t) (h0 : 0 < t)
    (hmax : t ≤ maxtype) (hkind : policy t = { type := kind }) :
    nlaData a + nlaAttrMinlen kind ≤ a + nlaLenField mem a := by
  obtain ⟨hv, hwalk, rfl⟩ := mem_nestAttr h
  have := nlaLen_of_not_rejected (hv a hwalk) h0 hmax hkind
  simp only [nlaLen, nlaData, nlaHdrlen] at this ⊢
  omega

/-- What a nest hands out depends on the octets that settle its parse only. -/
theorem nestAttr_congr {mem' : Mem} {lo edge : Nat} (hp : HeadersOnly policy)
    (hs : Settled mem maxtype (some policy) (nlaData nla) (nlaLen mem nla) edge)
    (hag : Agree mem mem' lo edge) (hlo : lo ≤ nla) (hend : nla + nlaLenField mem nla ≤ edge)
    (hlen : nlaHdrlen ≤ nlaLenField mem nla) (h0 : 0 < t) (hmax : t ≤ maxtype) :
    nestAttr mem' maxtype policy nla t = nestAttr mem maxtype policy nla t := by
  simp only [nlaHdrlen] at hlen
  have hfield := hag.lenField hlo (by omega)
  have hlen' : nlaLen mem' nla = nlaLen mem nla := by rw [nlaLen, nlaLen, hfield]
  have hparse : (nlaParseNested mem maxtype nla policy).val =
      (nlaParseNested mem' maxtype nla policy).val := by
    rw [nlaParseNested, nlaParseNested, hlen']
    refine nlaParseFrom_congr hp (fun h hh hallow => ?_) _
    have hsum := heads_sum nest_sum h hh
    have hge := heads_ge hh
    simp only [nlaData] at hge
    refine (hs h hh).sameHeader hag (by omega) hsum hend ?_ hallow
    have := rd16_lt mem nla
    simp only [nlaLenField] at hsum
    omega
  by_cases hv : NestValid mem maxtype policy nla
  · have hv' : NestValid mem' maxtype policy nla := by
      by_contra hv'
      have herr := nlaParseNested_err_iff.mpr hv'
      rw [← hparse] at herr
      exact nlaParseNested_err_iff.mp herr hv
    rw [← nlaParseNested_tb hv h0 hmax, ← nlaParseNested_tb hv' h0 hmax, hparse]
  · have hv' : ¬ NestValid mem' maxtype policy nla := by
      have herr := nlaParseNested_err_iff.mpr hv
      rw [hparse] at herr
      exact nlaParseNested_err_iff.mp herr
    rw [nestAttr_of_not_valid hv, nestAttr_of_not_valid hv']

/-- A late attribute is what the nest hands out for its type. -/
theorem nestAttr_late {mem' : Mem} {edge : Nat} {t v : UInt8}
    (h : FindsLate mem mem' edge maxtype policy (nlaData nla) (nlaLen mem nla) t v)
    (hend : nla + 2 ≤ edge) :
    ∃ q ∈ nestAttr mem' maxtype policy nla t.toNat, rd8 mem' (nlaData q) = v ∧
      rd8 mem' (nlaData q + 1) = 0 := by
  have hlen : nlaLen mem' nla = nlaLen mem nla := by
    rw [nlaLen, nlaLen, h.agree.lenField (Nat.zero_le _) hend]
  obtain ⟨q, hq, hval⟩ := h.found
  refine ⟨q, ?_, hval⟩
  rw [nestAttr, if_pos, nestWalk, hlen]
  · exact hq
  · rw [NestValid, nestWalk, hlen]
    exact h.accepted

end Nest

/-! ## The top level -/

/-- A memory that differs behind `STA_INFO` only, by octets among which its type is not,
has it too. -/
theorem topAttr_stable {mem mem' : Mem} {sta : Nat} {t v : UInt8}
    (hsta : sta ∈ topAttr mem nl80211AttrStaInfo)
      (hag : Agree mem mem' 0 (sta + nlaLenField mem sta))
    (hbehind : ∀ i, sta + nlaLenField mem sta ≤ i → rd8 mem' i ∈ [0, 1, 4, 6, 0x3f, t, v])
    (ht : t.toNat ≠ nl80211AttrStaInfo) (hv : v.toNat ≠ nl80211AttrStaInfo) :
    sta ∈ topAttr mem' nl80211AttrStaInfo := by
  have hge : 20 ≤ sta := (nlaWalk_ge mem _ _ sta (mem_lastOfType hsta).1).1
  have hlen : nlmsgLenField mem' 0 = nlmsgLenField mem 0 := by
    rw [nlmsgLenField, nlmsgLenField, rd32, rd32, hag.rd16 (Nat.zero_le _) (by omega),
      hag.rd16 (Nat.zero_le _) (by omega)]
  have hattrlen : genlmsgAttrlen mem' (nlmsgData 0) 0 = genlmsgAttrlen mem (nlmsgData 0) 0 := by
    rw [genlmsgAttrlen, genlmsgAttrlen, genlmsgLen, genlmsgLen,
      show nlmsgData 0 - nlmsgHdrlen = 0 from rfl, hlen]
  rw [topAttr, topWalk, hattrlen]
  refine lastOfType_stable hsta hag (by decide) fun i hi => ?_
  have hmem := hbehind i hi
  simp only [List.mem_cons, List.not_mem_nil, or_false] at hmem
  rcases hmem with h | h | h | h | h | h | h
  all_goals
    rw [h]
    first | assumption | decide

/-- Without an influence of other octets all memories with the same `STA_INFO` say the same. -/
theorem StationAlone.apply_eq {mem mem' : Mem} {sta : Nat} (h : StationAlone mem)
    (hsta : sta ∈ topAttr mem nl80211AttrStaInfo) (hsta' : sta ∈ topAttr mem' nl80211AttrStaInfo)
    (hag : Agree mem mem' 0 (sta + nlaLenField mem sta)) :
    (stationReport mem').apply WifiMsg.init.view = (stationReport mem).apply WifiMsg.init.view := by
  have hsame := h mem' sta hsta hsta' (hag.mono (Nat.zero_le _) (Nat.le_refl _)) .init
  rw [getWifiInfo_val, getWifiInfo_val, Prod.mk.injEq] at hsame
  rw [← view_write_station, ← view_write_station, hsame.2]

section Message

variable {mem : Mem} {taken : Taken} (h16 : nlmsgHdrlen ≤ nlmsgLenField mem 0)
  (hfit : nlmsgLenField mem 0 < 2147483648)
include h16 hfit

theorem attrdata_add_attrlen :
    (genlmsgAttrdata (nlmsgData 0) 0 : Int) + genlmsgAttrlen mem (nlmsgData 0) 0 =
      nlmsgLenField mem 0 := by
  rw [genlmsgAttrlen_eq h16 hfit]
  have : genlmsgAttrdata (nlmsgData 0) 0 = 20 := rfl
  omega

theorem attrlen_bounds :
    -4 ≤ genlmsgAttrlen mem (nlmsgData 0) 0 ∧
      genlmsgAttrlen mem (nlmsgData 0) 0 < 18446744073709551616 := by
  rw [genlmsgAttrlen_eq h16 hfit]
  simp only [nlmsgHdrlen] at h16
  omega

theorem topParse_inside_iff :
    Traced.Always (Inside 0 (nlmsgLenField mem 0)) (topParse mem) ↔
      Contained mem nl80211AttrMax none (genlmsgAttrdata (nlmsgData 0) 0)
        (genlmsgAttrlen mem (nlmsgData 0) 0) := by
  have hsum := attrdata_add_attrlen h16 hfit
  rw [← containedUpTo_self_iff hsum]
  exact nlaParse_inside_iff (Nat.zero_le _) hsum (Nat.le_refl _) hfit (attrlen_bounds h16 hfit).1

/-- The attributes found in a contained message lie inside it. -/
theorem topAttr_inside (hc : Contained mem nl80211AttrMax none (genlmsgAttrdata (nlmsgData 0) 0)
    (genlmsgAttrlen mem (nlmsgData 0) 0)) {t a : Nat} (ha : a ∈ topAttr mem t) :
    nlaHdrlen ≤ nlaLenField mem a ∧ a + nlaLenField mem a ≤ nlmsgLenField mem 0 := by
  have hsum := attrdata_add_attrlen h16 hfit
  have hwalk := (mem_lastOfType ha).1
  exact ⟨(nlaWalk_ge mem _ _ a hwalk).2,
    walk_inside hsum (attrlen_bounds h16 hfit).2 a hwalk (walk_le hc (by simp [Refused])
      hsum a hwalk)⟩

/-- What `get_wifi_name` reads lies inside the message exactly when the message is padded at the top
level and the values end inside it. -/
theorem name_inside_iff (r : WifiMsg) :
    Traced.Always (Inside 0 (nlmsgLenField mem 0)) (getWifiName mem r) ↔
      Contained mem nl80211AttrMax none (genlmsgAttrdata (nlmsgData 0) 0)
          (genlmsgAttrlen mem (nlmsgData 0) 0) ∧
        (∀ a ∈ topAttr mem nl80211AttrIfindex, nlaData a + 4 ≤ nlmsgLenField mem 0) ∧
        (∀ a ∈ topAttr mem nl80211AttrMac, nlaData a + ethAlen ≤ nlmsgLenField mem 0) ∧
        ∀ a ∈ topAttr mem nl80211AttrWiphyFreq, nlaData a + 4 ≤ nlmsgLenField mem 0 := by
  have hmac (a : Nat) : (∀ i < ethAlen, nlaData a + i + 1 ≤ nlmsgLenField mem 0) ↔
      nlaData a + ethAlen ≤ nlmsgLenField mem 0 :=
    ⟨fun h => h 5 (by decide), fun h i hi => by omega⟩
  rw [always_getWifiName, topParse_inside_iff h16 hfit]
  simp only [always_strcpy, always_assign, always_macAddrN2a, Inside, Nat.zero_le, true_and,
    and_true, implies_true, hmac]

/-- Where the attributes of `STA_INFO` in a padded message lie: in the attribute, and so in the
message. -/
theorem staAttr_inside (hp : Padded taken mem) {sta t a : Nat}
    (hsta : sta ∈ topAttr mem nl80211AttrStaInfo) (h0 : 0 < t) (hmax : t ≤ nl80211StaInfoMax)
    (ht : taken.sta t) (ha : a ∈ staAttr mem t) :
    nlaHdrlen ≤ nlaLenField mem a ∧ sta ≤ a ∧
      a + nlaLenField mem a ≤ sta + nlaLenField mem sta ∧
      sta + nlaLenField mem sta ≤ nlmsgLenField mem 0 := by
  rw [staAttr, hsta, Option.bind_some] at ha
  obtain ⟨hlo, hlen, hend⟩ := nestAttr_inside (hp.staInfo sta hsta) h0 hmax ht ha
  simp only [nlaData] at hlo
  exact ⟨hlen, by omega, hend, (topAttr_inside h16 hfit hp.top hsta).2⟩

/-- What `get_wifi_info` reads of a padded message lies inside it. -/
theorem info_inside (hp : Padded taken mem) (r : WifiMsg) :
    Traced.Always (Inside 0 (nlmsgLenField mem 0)) (getWifiInfo mem r) := by
  have hassign {dst : Member} : Traced.Always (Inside 0 (nlmsgLenField mem 0)) (assign dst 0 r) :=
    always_assign.mpr trivial
  refine always_getWifiInfo.mpr ⟨(topParse_inside_iff h16 hfit).mpr hp.top, ?_,
    fun a ha => ⟨?_, hassign⟩, ?_, fun a ha => ⟨?_, hassign⟩⟩
  · intro sta hsta
    have hin := topAttr_inside h16 hfit hp.top hsta
    exact (nestParse_inside_iff hin.2 hfit).mpr (hp.staInfo sta hsta).upTo
  · obtain ⟨sta, hsta, hval⟩ := Option.bind_eq_some_iff.mp ha
    have hin := staAttr_inside h16 hfit hp hsta (by decide) (by decide) taken.signal ha
    have hval := nestAttr_value .u8 hval (by decide) (by decide) rfl
    exact ⟨Nat.zero_le _, by simp only [nlaAttrMinlen] at hval; omega⟩
  · intro tx htx
    obtain ⟨sta, hsta, -⟩ := Option.bind_eq_some_iff.mp htx
    have hin := staAttr_inside h16 hfit hp hsta (by decide) (by decide) taken.txBitrate htx
    exact (nestParse_inside_iff (by omega) hfit).mpr (hp.txBitrate tx htx).upTo
  · obtain ⟨tx, htx, ha⟩ := Option.bind_eq_some_iff.mp ha
    obtain ⟨sta, hsta, -⟩ := Option.bind_eq_some_iff.mp htx
    have hin := staAttr_inside h16 hfit hp hsta (by decide) (by decide) taken.txBitrate htx
    have hval := nestAttr_value .u16 ha (by decide) (by decide) rfl
    have hend :=
      (nestAttr_inside (hp.txBitrate tx htx) (by decide) (by decide) taken.bitrate ha).2.2
    exact ⟨Nat.zero_le _, by simp only [nlaAttrMinlen] at hval; omega⟩

/-- The two handlers read inside their message, and take from nests what lies in these, exactly when
the message is padded. -/
theorem readsInside_iff_padded : ReadsInside taken mem ↔ Padded taken mem := by
  constructor
  · intro h
    obtain ⟨htop, hidx, hmac, hfreq⟩ := (name_inside_iff h16 hfit .init).mp (h.name .init)
    obtain ⟨-, hsta, -, htx, -⟩ := always_getWifiInfo.mp (h.info .init)
    have hfits : ∀ sta ∈ topAttr mem nl80211AttrStaInfo,
        NestFits taken.sta mem nl80211StaInfoMax statsPolicy sta (nlmsgLenField mem 0) :=
      fun sta hmem =>
      ⟨(nestParse_inside_iff (topAttr_inside h16 hfit htop hmem).2 hfit).mp (hsta sta hmem),
        nestInside_iff.mp (h.staInfo sta hmem)⟩
    refine ⟨htop, hidx, hmac, hfreq, hfits, fun tx hmem =>
      ⟨?_, nestInside_iff.mp (h.txBitrate tx hmem)⟩⟩
    obtain ⟨sta, hs, ha⟩ := Option.bind_eq_some_iff.mp hmem
    have hend := (nestAttr_inside (hfits sta hs) (by decide) (by decide) taken.txBitrate ha).2.2
    have := (topAttr_inside h16 hfit htop hs).2
    exact (nestParse_inside_iff (by omega) hfit).mp (htx tx hmem)
  · intro hp
    exact ⟨fun r => (name_inside_iff h16 hfit r).mpr ⟨hp.top, hp.ifindex, hp.mac, hp.freq⟩,
      info_inside h16 hfit hp, fun sta hsta => nestInside_iff.mpr (hp.staInfo sta hsta).behind,
      fun tx htx => nestInside_iff.mpr (hp.txBitrate tx htx).behind⟩

/-! ## The influence of other octets -/

/-- The report of a padded station message whose nests are settled depends on its `STA_INFO`
attribute only. -/
theorem stationReport_congr (hp : Padded taken mem) (hs : StationSettled mem) {mem' : Mem}
    {sta : Nat} (hsta : sta ∈ topAttr mem nl80211AttrStaInfo)
    (hsta' : sta ∈ topAttr mem' nl80211AttrStaInfo)
    (hag : Agree mem mem' sta (sta + nlaLenField mem sta)) :
    stationReport mem' = stationReport mem := by
  have hlen := (topAttr_inside h16 hfit hp.top hsta).1
  have hattr {t : Nat} (h0 : 0 < t) (hmax : t ≤ nl80211StaInfoMax) :
      staAttr mem' t = staAttr mem t := by
    rw [staAttr, staAttr, hsta, hsta', Option.bind_some, Option.bind_some]
    exact nestAttr_congr statsPolicy_headersOnly ((settled_self_iff nest_sum).mpr
      (hs.staInfo sta hsta))
      hag (Nat.le_refl _) (Nat.le_refl _) hlen h0 hmax
  -- the policy has made sure that the value read is part of the attribute
  have hsig : (stationReport mem').signal = (stationReport mem).signal := by
    simp only [stationReport]
    rw [hattr (t := nl80211StaInfoSignal) (by decide) (by decide)]
    apply Option.map_congr
    intro a ha
    have hin := staAttr_inside h16 hfit hp hsta (by decide) (by decide) taken.signal ha
    rw [staAttr, hsta, Option.bind_some] at ha
    have hval := nestAttr_value .u8 ha (by decide) (by decide) rfl
    simp only [nlaAttrMinlen, nlaData] at hval
    rw [nlaGetU8, nlaGetU8, hag _ (by simp only [nlaData]; omega) (by simp only [nlaData]; omega)]
  have hrate : (stationReport mem').rate = (stationReport mem).rate := by
    simp only [stationReport, rateAttr]
    rw [hattr (t := nl80211StaInfoTxBitrate) (by decide) (by decide)]
    cases htx : staAttr mem nl80211StaInfoTxBitrate with
    | none => rfl
    | some tx =>
        obtain ⟨htxlen, hlo, hend, -⟩ :=
          staAttr_inside h16 hfit hp hsta (by decide) (by decide) taken.txBitrate htx
        rw [Option.bind_some, Option.bind_some, nestAttr_congr ratePolicy_headersOnly
          (hs.txBitrate sta hsta tx htx) hag hlo hend htxlen (by decide) (by decide)]
        apply Option.map_congr
        intro a ha
        have hval := nestAttr_value .u16 ha (by decide) (by decide) rfl
        have hin := nestAttr_inside (hp.txBitrate tx htx) (by decide) (by decide) taken.bitrate ha
        simp only [nlaAttrMinlen, nlaData] at hval hin
        rw [nlaGetU16, nlaGetU16, hag.rd16 (by simp only [nlaData]; omega)
          (by simp only [nlaData]; omega)]
  exact StationReport.ext hsig hrate

/-- Where octets outside `STA_INFO` have no influence the nests are settled: otherwise a late
attribute brings in a signal or a rate. -/
theorem stationSettled_of_alone (hp : Padded taken mem) (h : StationAlone mem) :
    StationSettled mem := by
  have hstation {sta : Nat} (hsta : sta ∈ topAttr mem nl80211AttrStaInfo) :
      Contained mem nl80211StaInfoMax (some statsPolicy) (nlaData sta) (nlaLen mem sta) := by
    have hin := topAttr_inside h16 hfit hp.top hsta
    simp only [nlaHdrlen] at hin
    by_contra hbad
    have key (v : UInt8) (hv : v.toNat ≠ nl80211AttrStaInfo) :
        int8OfU8 v.toNat = ((stationReport mem).apply WifiMsg.init.view).signal := by
      obtain ⟨mem', hlate⟩ :=
        exists_findsLate statsPolicy_headersOnly statsPolicy_takesTwo (by decide)
        nest_sum (Nat.le_refl _) nest_lt hfit (hp.staInfo sta hsta).upTo
        (mt (settled_self_iff nest_sum).mp hbad) v
      have hsta' := topAttr_stable hsta hlate.agree hlate.behind (by decide) hv
      obtain ⟨q, hq, hval, -⟩ := nestAttr_late hlate (by omega)
      have hattr : staAttr mem' nl80211StaInfoSignal = some q := by
        rw [staAttr, hsta', Option.bind_some]
        exact hq
      rw [← h.apply_eq hsta hsta' hlate.agree]
      simp [StationReport.apply, stationReport, hattr, nlaGetU8, hval]
    have := (key 0 (by decide)).trans (key 1 (by decide)).symm
    exact absurd this (by decide)
  refine ⟨fun sta hsta => hstation hsta, fun sta hsta tx htx => ?_⟩
  have hin := staAttr_inside h16 hfit hp hsta (by decide) (by decide) taken.txBitrate htx
  have hlen := (topAttr_inside h16 hfit hp.top hsta).1
  simp only [nlaHdrlen] at hin
  by_contra hbad
  have key (v : UInt8) (hv : v.toNat ≠ nl80211AttrStaInfo) :
      (v.toNat : Int) = ((stationReport mem).apply WifiMsg.init.view).txrate := by
    obtain ⟨mem', hlate⟩ := exists_findsLate ratePolicy_headersOnly ratePolicy_takesTwo (by decide)
      nest_sum hin.2.2.1 nest_lt hfit (hp.txBitrate tx htx).upTo hbad v
    have hsta' := topAttr_stable hsta hlate.agree hlate.behind (by decide) hv
    obtain ⟨q, hq, hval, hzero⟩ := nestAttr_late hlate (by omega)
    have htx' : staAttr mem' nl80211StaInfoTxBitrate = some tx := by
      rw [staAttr, hsta, Option.bind_some] at htx
      rw [staAttr, hsta', Option.bind_some, nestAttr_congr statsPolicy_headersOnly
        ((settled_self_iff nest_sum).mpr (hstation hsta)) hlate.agree (Nat.zero_le _)
          (Nat.le_refl _) hlen
        (by decide) (by decide)]
      exact htx
    have hattr : rateAttr mem' nl80211RateInfoBitrate = some q := by
      rw [rateAttr, htx', Option.bind_some]
      exact hq
    rw [← h.apply_eq hsta hsta' hlate.agree]
    simp [StationReport.apply, stationReport, hattr, nlaGetU16, rd16, hval, hzero]
  have := (key 0 (by decide)).trans (key 1 (by decide)).symm
  exact absurd this (by decide)

/-- **Bounds.** Whatever counts as taken, the two handlers read inside their message and take from
nests what lies in these exactly when the message is padded; and octets outside `STA_INFO` have no
influence either exactly when its nests are settled as well. -/
theorem readsInside_iff (taken : Taken) :
    (ReadsInside taken mem ↔ Padded taken mem) ∧
      (ReadsInside taken mem ∧ StationAlone mem ↔ Padded taken mem ∧ StationSettled mem) := by
  refine ⟨readsInside_iff_padded h16 hfit, ?_⟩
  rw [readsInside_iff_padded h16 hfit]
  refine and_congr_right fun hp => ⟨stationSettled_of_alone h16 hfit hp, fun hs => ?_⟩
  intro mem' sta hsta hsta' hag r
  rw [getWifiInfo_val, getWifiInfo_val, stationReport_congr h16 hfit hp hs hsta hsta' hag]

end Message

/-- A message that is its header and nothing else. -/
def bare : NetMsg := .build 28 nlmFMulti 7 [] [] (by decide)

/-- Of a bare message the handlers read an attribute header behind its end. -/
theorem bare_not_inside :
    nlmsgHdrlen ≤ nlmsgLenField bare.image 0 ∧ nlmsgLenField bare.image 0 < 2147483648 ∧
      ¬ ∃ taken, ReadsInside taken bare.image := by
  refine ⟨by decide, by decide, fun ⟨taken, h⟩ => ?_⟩
  have htop := ((name_inside_iff (by decide) (by decide) .init).mp (h.name .init)).1
  revert htop
  decide +kernel

/-- All that the index arrays hold counts as taken. -/
def indexed : Taken := ⟨fun _ => true, fun _ => true, rfl, rfl, rfl⟩

/-- What `get_wifi_info` looks up. -/
def lookedUp : Taken :=
  ⟨fun t => t = nl80211StaInfoSignal ∨ t = nl80211StaInfoTxBitrate,
    fun t => t = nl80211RateInfoBitrate, rfl, rfl, rfl⟩

/-- A station with a signal and a rate. -/
def station : NetMsg :=
  .build 28 nlmFMulti 7
    (genlPayload 19
      [nlaPut nl80211AttrStaInfo
        (nlaPut nl80211StaInfoSignal [200] ++
          nlaPut nl80211StaInfoTxBitrate (nlaPut nl80211RateInfoBitrate (le16 540)))])
    [] (by decide)

/-- A station with a `TX_BITRATE` that ends where the padding of its rate begins: the parse of this
nest goes on behind it, where the signal stands in `STA_INFO`. -/
def unpadded : NetMsg :=
  .build 28 nlmFMulti 7
    (genlPayload 19
      [nlaPut nl80211AttrStaInfo
        (le16 10 ++ le16 nl80211StaInfoTxBitrate ++ nlaPut nl80211RateInfoBitrate (le16 540) ++
          nlaPut nl80211StaInfoSignal [200] ++ [0, 0, 0, 0])])
    [] (by decide)

theorem station_inside :
    (ReadsInside indexed station.image ∧ StationAlone station.image) ∧
      ReadsInside lookedUp unpadded.image ∧ StationAlone unpadded.image := by
  constructor
  · refine (readsInside_iff (by decide) (by decide) _).2.mpr ⟨⟨?_, ?_, ?_, ?_, ?_, ?_⟩, ?_, ?_⟩
    all_goals decide +kernel
  · refine (readsInside_iff (by decide) (by decide) _).2.mpr ⟨⟨?_, ?_, ?_, ?_, ?_, ?_⟩, ?_, ?_⟩
    all_goals decide +kernel

end Nl80211.Wifi
