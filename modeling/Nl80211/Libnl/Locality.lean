/-
# Nl80211.Libnl.Locality — which octets a parse depends on.

A parse whose policy has no strings goes by the headers it looks at and by nothing else
(`nlaParseFrom_congr`).  The octets in front of an edge settle it when they say all that it goes by
at each position (`Settled`); where they do not, the octets behind the edge can bring in an
attribute of any type and value (`exists_findsLate`), so that being settled is also what it takes.
-/
import Nl80211.Libnl.Inspect

namespace Nl80211.Libnl

open Lib Lib.Bytes

/-! ## What a parse depends on -/

/-- The two memories agree on the octets `lo .. hi`. -/
def Agree (mem mem' : Mem) (lo hi : Nat) : Prop := ∀ i, lo ≤ i → i < hi → rd8 mem i = rd8 mem' i

section Agree

variable {mem mem' : Mem} {nla lo hi : Nat}

theorem Agree.mono (h : Agree mem mem' lo hi) {lo' hi' : Nat} (hlo : lo ≤ lo') (hhi : hi' ≤ hi) :
    Agree mem mem' lo' hi' :=
  fun i h₁ h₂ => h i (Nat.le_trans hlo h₁) (Nat.lt_of_lt_of_le h₂ hhi)

theorem Agree.rd16 (h : Agree mem mem' lo hi) {i : Nat} (hl : lo ≤ i) (hh : i + 2 ≤ hi) :
    rd16 mem i = rd16 mem' i := by
  rw [Bytes.rd16, Bytes.rd16, h i hl (by omega), h (i + 1) (by omega) (by omega)]

theorem Agree.lenField (h : Agree mem mem' lo hi) (hl : lo ≤ nla) (hh : nla + 2 ≤ hi) :
    nlaLenField mem nla = nlaLenField mem' nla :=
  h.rd16 hl hh

theorem Agree.type (h : Agree mem mem' lo hi) (hl : lo ≤ nla) (hh : nla + 4 ≤ hi) :
    nlaType mem nla = nlaType mem' nla := by
  rw [nlaType, nlaType, h.rd16 (by omega) (by omega)]

end Agree

/-- A policy without strings, which looks at headers only. -/
def HeadersOnly (policy : Nat → NlaPolicy) : Prop := ∀ t, (policy t).type ≠ .string

/-- The two memories show the parse the same at a position: the length, and the type behind a length
that is accepted. -/
def SameHeader (mem mem' : Mem) (nla : Nat) : Prop :=
  nlaLenField mem nla = nlaLenField mem' nla ∧
    (nlaHdrlen ≤ nlaLenField mem nla → nlaType mem nla = nlaType mem' nla)

section Congr

variable {mem mem' : Mem} {maxtype nla lo hi : Nat} {policy : Nat → NlaPolicy} {rem : Int}

theorem Agree.sameHeader (h : Agree mem mem' lo hi) (hl : lo ≤ nla) (hh : nla + 4 ≤ hi) :
    SameHeader mem mem' nla :=
  ⟨h.lenField hl (by omega), fun _ => h.type hl hh⟩

theorem SameHeader.ok (h : SameHeader mem mem' nla) :
    (nlaOk mem nla rem).val = true ↔ (nlaOk mem' nla rem).val = true := by
  rw [nlaOk_val, nlaOk_val, h.1]

theorem SameHeader.next (h : SameHeader mem mem' nla) :
    nlaNext mem' nla rem = nlaNext mem nla rem := by
  rw [nlaNext, nlaNext, h.1]

/-- Under such a policy an attribute is accepted or refused for its header. -/
theorem SameHeader.validateNla (h : SameHeader mem mem' nla) (hp : HeadersOnly policy)
    (h4 : nlaHdrlen ≤ nlaLenField mem nla) :
    validateNla mem nla maxtype policy = validateNla mem' nla maxtype policy := by
  have hlen : nlaLen mem' nla = nlaLen mem nla := by rw [nlaLen, nlaLen, h.1]
  have hstr (t : Nat) : ((policy t).type = .string) = False := by simp [hp t]
  simp only [Libnl.validateNla, hlen, ← h.2 h4, hstr, false_and, if_false]

/-- A parse computes the same from two memories that show it the same headers. -/
theorem nlaParseFrom_congr (hp : HeadersOnly policy)
    (hsame : ∀ h ∈ heads mem maxtype (some policy) nla rem, AllowsHeader h →
      SameHeader mem mem' h.1)
    (tb : NlaTable) :
    (nlaParseFrom mem maxtype (some policy) nla rem tb).val =
      (nlaParseFrom mem' maxtype (some policy) nla rem tb).val := by
  induction nla, rem using nlaWalk_induction mem generalizing tb with
  | stop nla rem h =>
      rw [heads_of_not_ok h, List.forall_mem_singleton] at hsame
      have h' : ¬ (nlaOk mem' nla rem).val = true := by
        by_cases hallow : AllowsHeader (nla, rem)
        · exact mt (hsame hallow).ok.mpr h
        · rw [nlaOk_val]
          simp only [AllowsHeader, nlaHdrlen] at hallow
          omega
      simp [nlaParseFrom_of_not_ok h, nlaParseFrom_of_not_ok h']
  | step nla rem h ih =>
      have hhead : SameHeader mem mem' nla :=
        hsame (nla, rem) (by rw [heads]; exact List.mem_cons_self) (allowsHeader_of_ok h)
      have h' := hhead.ok.mp h
      have h4 : nlaHdrlen ≤ nlaLenField mem nla := (nlaOk_val.mp h).1
      have hval : validateNla mem nla maxtype policy = validateNla mem' nla maxtype policy :=
        hhead.validateNla hp h4
      -- either both parses stop here with the same code, or both enter the attribute and go on
      by_cases hv : Rejected mem maxtype policy nla
      · have hv' : Rejected mem' maxtype policy nla := by rwa [Rejected, ← hval]
        simp [nlaParseFrom_some_of_rejected h hv, nlaParseFrom_some_of_rejected h' hv', hval]
      · have hv' : ¬ Rejected mem' maxtype policy nla := by rwa [Rejected, ← hval]
        have hr : ¬ Refused mem maxtype (some policy) nla := by simpa [Refused] using hv
        rw [heads_of_ok h hr, List.forall_mem_cons] at hsame
        have hstep : indexStep mem' maxtype tb nla = indexStep mem maxtype tb nla := by
          rw [indexStep, indexStep, hhead.2 h4]
        rw [nlaParseFrom_some_of_ok h hv, nlaParseFrom_some_of_ok h' hv', hhead.next, hstep]
        simp only [Traced.val_bind]
        exact ih hsame.2 _

end Congr

/-! ## When the octets in front of an edge settle a parse -/

/-- The octets in front of `edge` say all that the parse goes by at a position: the octets of the
container that remain, the header, or a length that is too short for an attribute. -/
def Shows (mem : Mem) (edge : Nat) (h : Nat × Int) : Prop :=
  0 ≤ h.2 ∨ h.1 + nlaHdrlen ≤ edge ∨ (h.1 + 2 ≤ edge ∧ nlaLenField mem h.1 < nlaHdrlen)

instance (mem : Mem) (edge : Nat) (h : Nat × Int) : Decidable (Shows mem edge h) :=
  inferInstanceAs (Decidable (_ ∨ _ ∨ _))

/-- They do so wherever the loop arrives. -/
def Settled (mem : Mem) (maxtype : Nat) (policy : Option (Nat → NlaPolicy)) (nla : Nat) (rem : Int)
    (edge : Nat) : Prop :=
  ∀ h ∈ heads mem maxtype policy nla rem, Shows mem edge h

instance {mem : Mem} {maxtype nla edge : Nat} {policy : Option (Nat → NlaPolicy)} {rem : Int} :
    Decidable (Settled mem maxtype policy nla rem edge) :=
  inferInstanceAs (Decidable (∀ h ∈ heads mem maxtype policy nla rem, _))

section Settled

variable {mem : Mem} {maxtype nla hi edge : Nat} {policy : Nat → NlaPolicy} {rem : Int}

theorem settled_self_iff {policy : Option (Nat → NlaPolicy)} (hsum : (nla : Int) + rem = hi) :
    Settled mem maxtype policy nla rem hi ↔ Contained mem maxtype policy nla rem := by
  refine forall₂_congr fun h hh => ?_
  have := heads_sum hsum h hh
  simp only [Shows, nlaHdrlen]
  omega

/-- A header the parse looks at where the octets in front of the edge say all is the same in every
memory that agrees on these. -/
theorem Shows.sameHeader {mem' : Mem} {lo : Nat} {h : Nat × Int} (hs : Shows mem edge h)
    (hag : Agree mem mem' lo edge) (hlo : lo ≤ h.1) (hsum : (h.1 : Int) + h.2 = hi)
      (hhi : hi ≤ edge)
    (hlt : h.2 < 18446744073709551616) (hallow : AllowsHeader h) : SameHeader mem mem' h.1 := by
  simp only [AllowsHeader, sizeT, nlaHdrlen] at hallow
  rcases hs with h0 | hend | ⟨hend, hshort⟩
  · rw [Int.emod_eq_of_lt h0 hlt] at hallow
    exact hag.sameHeader hlo (by omega)
  · exact hag.sameHeader hlo hend
  · exact ⟨hag.lenField hlo hend, fun h4 => absurd h4 (Nat.not_le.mpr hshort)⟩

/-! ### A late attribute

At the first position where the octets in front of the edge do not say all stands a header that is
passed over, completed where a part of it lies in front of the edge, and behind it an attribute with
a payload of two octets. -/

/-- The two headers and the payload, at `p` and `q`. -/
def lateOctet (p q : Nat) (t v : UInt8) (i : Nat) : UInt8 :=
  if i = p then 4
  else if i = p + 1 then 1
  else if i = p + 3 then 0x3f
  else if i = q then 6
  else if i = q + 2 then t
  else if i = q + 4 then v
  else 0

/-- The length that the first header has, with the octets of it that lie in front of the edge. -/
def lateLen (mem : Mem) (edge p : Nat) : Nat :=
  (if p < edge then rd8 mem p else 4).toNat +
    256 * (if p + 1 < edge then rd8 mem (p + 1) else 1).toNat

/-- The octets of `mem` in front of the edge, and the late attribute. -/
def lateMem (mem : Mem) (edge p : Nat) (t v : UInt8) : Mem :=
  (List.range (edge + p + lateLen mem edge p + 16)).map fun i =>
    if i < edge then rd8 mem i else lateOctet p (p + align4 (lateLen mem edge p)) t v i

theorem rd8_lateMem (p : Nat) (t v : UInt8) (i : Nat) :
    rd8 (lateMem mem edge p t v) i =
      if i < edge then rd8 mem i else lateOctet p (p + align4 (lateLen mem edge p)) t v i := by
  by_cases hi : i < (lateMem mem edge p t v).length
  · rw [rd8_of_lt hi]
    simp [lateMem]
  · rw [rd8_of_length_le (Nat.le_of_not_lt hi)]
    have := align4_lt (lateLen mem edge p)
    simp only [lateMem, List.length_map, List.length_range] at hi
    rw [if_neg (by omega), lateOctet]
    repeat rw [if_neg (by omega)]

theorem lateOctet_mem (p q : Nat) (t v : UInt8) (i : Nat) :
    lateOctet p q t v i ∈ [0, 1, 4, 6, 0x3f, t, v] := by
  unfold lateOctet
  repeat' split
  all_goals simp

theorem nlaType_eq_mod (mem : Mem) (a : Nat) : nlaType mem a = rd16 mem (a + 2) % 16384 :=
  Nat.and_two_pow_sub_one_eq_mod _ 14

theorem sizeT_of_neg (h : rem < 0) (hge : -4294967296 ≤ rem) : 65536 ≤ sizeT rem := by
  rw [sizeT]
  omega

/-- At a position that is not settled the walk goes through the late attribute and ends. -/
theorem walk_late {p : Nat} (hbad : ¬ Shows mem edge (p, rem)) (hge : -2147483648 ≤ rem)
    (t v : UInt8) :
    ∃ q, nlaWalk (lateMem mem edge p t v) p rem = [p, q] ∧
      0x3f00 ≤ nlaType (lateMem mem edge p t v) p ∧
      nlaLenField (lateMem mem edge p t v) q = 6 ∧ nlaType (lateMem mem edge p t v) q = t.toNat ∧
      rd8 (lateMem mem edge p t v) (q + 4) = v ∧ rd8 (lateMem mem edge p t v) (q + 5) = 0 := by
  simp only [Shows, nlaHdrlen, not_or, not_and, Nat.not_lt, Int.not_le] at hbad
  obtain ⟨hneg, hedge, hlong⟩ := hbad
  have hlen : nlaLenField (lateMem mem edge p t v) p = lateLen mem edge p := by
    rw [nlaLenField, rd16, rd8_lateMem, rd8_lateMem, lateLen]
    simp [lateOctet]
  -- a length that is complete in front of the edge is long enough, and any other is completed to be
  -- so
  have h4 : 4 ≤ lateLen mem edge p := by
    by_cases hin : p + 2 ≤ edge
    · have := hlong hin
      rwa [lateLen, if_pos (by omega), if_pos (by omega)]
    · rw [lateLen, if_neg (show ¬ p + 1 < edge by omega)]
      simp
  have h16 : lateLen mem edge p < 65536 := hlen ▸ rd16_lt _ _
  obtain ⟨q, hq⟩ : ∃ q, q = p + align4 (lateLen mem edge p) := ⟨_, rfl⟩
  have hal := le_align4 (lateLen mem edge p)
  have hal' := align4_lt (lateLen mem edge p)
  have behind (k : Nat) : rd8 (lateMem mem edge p t v) (q + k) =
      if k = 0 then 6 else if k = 2 then t else if k = 4 then v else 0 := by
    rw [rd8_lateMem, if_neg (by omega), ← hq, lateOctet]
    simp only [show ¬ q + k = p by omega, show ¬ q + k = p + 1 by omega,
      show ¬ q + k = p + 3 by omega, if_false, Nat.add_eq_left, Nat.add_left_cancel_iff]
  have hlenq : nlaLenField (lateMem mem edge p t v) q = 6 := by
    rw [nlaLenField, rd16, behind 1, show rd8 (lateMem mem edge p t v) q = _ from behind 0]
    rfl
  have hend : nlaLenField (lateMem mem edge p t v) (q + 8) = 0 := by
    rw [nlaLenField, rd16, behind 8, behind 9]
    rfl
  refine ⟨q, ?_, ?_, hlenq, ?_, behind 4, behind 5⟩
  · have hsize := sizeT_of_neg hneg (by omega)
    have hok : (nlaOk (lateMem mem edge p t v) p rem).val = true :=
      nlaOk_val.mpr ⟨by omega, by omega⟩
    have hnext : nlaNext (lateMem mem edge p t v) p rem =
        (q, rem - align4 (lateLen mem edge p)) := by rw [nlaNext, hlen, hq]
    have hsize' : 65536 ≤ sizeT (rem - align4 (lateLen mem edge p)) :=
      sizeT_of_neg (by omega) (by omega)
    have hok' : (nlaOk (lateMem mem edge p t v) q (rem - align4 (lateLen mem edge p))).val = true :=
      nlaOk_val.mpr ⟨by omega, by omega⟩
    have hnext' : nlaNext (lateMem mem edge p t v) q (rem - align4 (lateLen mem edge p)) =
        (q + 8, rem - align4 (lateLen mem edge p) - 8) := by rw [nlaNext, hlenq]; rfl
    rw [nlaWalk_of_ok hok, hnext, nlaWalk_of_ok hok', hnext', nlaWalk_of_not_ok]
    simp only [nlaOk_val, hend]
    omega
  · have hhigh : rd8 (lateMem mem edge p t v) (p + 3) = 0x3f := by
      rw [rd8_lateMem, if_neg (by omega), lateOctet]
      simp
    have := (rd8 (lateMem mem edge p t v) (p + 2)).toNat_lt
    rw [nlaType_eq_mod, rd16, hhigh]
    simp only [UInt8.reduceToNat]
    omega
  · have := t.toNat_lt
    rw [nlaType_eq_mod, rd16, behind 2, behind 3]
    simp only [OfNat.ofNat_ne_zero, if_false, if_true, Nat.reduceEqDiff, UInt8.toNat_zero]
    omega

/-- A policy lets an attribute of type `t` with two octets pass. -/
def TakesTwo (policy : Nat → NlaPolicy) (maxtype : Nat) (t : UInt8) : Prop :=
  ∀ mem a, nlaType mem a = t.toNat → nlaLenField mem a = 6 → ¬ Rejected mem maxtype policy a

/-- The octets behind the edge have become others, and the parse finds an attribute among them. -/
structure FindsLate (mem mem' : Mem) (edge maxtype : Nat) (policy : Nat → NlaPolicy) (nla : Nat)
    (rem : Int) (t v : UInt8) : Prop where
  agree : Agree mem mem' 0 edge
  behind : ∀ i, edge ≤ i → rd8 mem' i ∈ [0, 1, 4, 6, 0x3f, t, v]
  accepted : ∀ a ∈ nlaWalk mem' nla rem, ¬ Rejected mem' maxtype policy a
  found : ∃ q ∈ lastOfType mem' t.toNat (nlaWalk mem' nla rem),
    rd8 mem' (q + 4) = v ∧ rd8 mem' (q + 5) = 0

theorem findsLate_of_not_shows {lim : Nat} {t : UInt8} (htakes : TakesTwo policy maxtype t)
    (hmax : maxtype < 0x3f00) (hsum : (nla : Int) + rem = hi) (hlim : lim < 2147483648)
    (hin : 0 ≤ rem ∨ nla + nlaHdrlen ≤ lim) (hbad : ¬ Shows mem edge (nla, rem)) (v : UInt8) :
    FindsLate mem (lateMem mem edge nla t v) edge maxtype policy nla rem t v := by
  have hneg : rem < 0 := Int.not_le.mp fun h0 => hbad (.inl h0)
  simp only [nlaHdrlen] at hin
  obtain ⟨q, hwalk, hskip, hlen, htype, hval⟩ := walk_late hbad (by omega) t v
  refine ⟨fun i _ hi => ?_, fun i hi => ?_, ?_, q, ?_, hval⟩
  · rw [rd8_lateMem, if_pos hi]
  · rw [rd8_lateMem, if_neg (by omega)]
    exact lateOctet_mem ..
  · rw [hwalk, List.forall_mem_cons, List.forall_mem_singleton]
    exact ⟨not_rejected_of_type (.inr (by omega)), htakes _ _ htype hlen⟩
  · rw [hwalk, lastOfType_cons, lastOfType_cons, if_pos htype]
    rfl

/-- An attribute in front of it that the parse goes by in the same way changes nothing of that. -/
theorem FindsLate.cons {mem' : Mem} {t v : UInt8} (hp : HeadersOnly policy)
    (h : FindsLate mem mem' edge maxtype policy (nlaNext mem nla rem).1 (nlaNext mem nla rem).2 t v)
    (hok : (nlaOk mem nla rem).val = true) (hv : ¬ Rejected mem maxtype policy nla)
    (hhead : SameHeader mem mem' nla) : FindsLate mem mem' edge maxtype policy nla rem t v := by
  have hv' : ¬ Rejected mem' maxtype policy nla := by
    rwa [Rejected, ← hhead.validateNla hp (nlaOk_val.mp hok).1]
  have hwalk : nlaWalk mem' nla rem =
      nla :: nlaWalk mem' (nlaNext mem nla rem).1 (nlaNext mem nla rem).2 := by
    rw [nlaWalk_of_ok (hhead.ok.mp hok), hhead.next]
  obtain ⟨q, hq, hval⟩ := h.found
  refine ⟨h.agree, h.behind, ?_, q, ?_, hval⟩
  · rw [hwalk, List.forall_mem_cons]
    exact ⟨hv', h.accepted⟩
  · rw [hwalk, lastOfType_cons, hq]
    rfl

/-- A parse that is not settled can be made to find an attribute of any type with any value. -/
theorem exists_findsLate {lim : Nat} {t : UInt8} (hp : HeadersOnly policy)
    (htakes : TakesTwo policy maxtype t) (hmax : maxtype < 0x3f00) (hsum : (nla : Int) + rem = hi)
    (hhi : hi ≤ edge) (hlt : rem < 18446744073709551616) (hlim : lim < 2147483648)
    (hin : ContainedUpTo mem maxtype (some policy) nla rem lim)
    (hbad : ¬ Settled mem maxtype (some policy) nla rem edge) (v : UInt8) :
    ∃ mem', FindsLate mem mem' edge maxtype policy nla rem t v := by
  have here {nla : Nat} {rem : Int} (hsum : (nla : Int) + rem = hi)
      (hin : ContainedUpTo mem maxtype (some policy) nla rem lim)
      (hs : ¬ Shows mem edge (nla, rem)) :
        ∃ mem', FindsLate mem mem' edge maxtype policy nla rem t v :=
    have hfirst := hin (nla, rem) (by rw [heads]; exact List.mem_cons_self)
    ⟨_, findsLate_of_not_shows htakes hmax hsum hlim hfirst hs v⟩
  induction nla, rem using nlaWalk_induction mem with
  | stop nla rem h =>
      rw [Settled, heads_of_not_ok h, List.forall_mem_singleton] at hbad
      exact here hsum hin hbad
  | step nla rem h ih =>
      by_cases hs : Shows mem edge (nla, rem)
      · by_cases hr : Refused mem maxtype (some policy) nla
        · rw [Settled, heads_of_refused h hr, List.forall_mem_singleton] at hbad
          exact absurd hs hbad
        · rw [Settled, heads_of_ok h hr, List.forall_mem_cons] at hbad
          rw [ContainedUpTo, heads_of_ok h hr, List.forall_mem_cons] at hin
          obtain ⟨mem', hlate⟩ := ih (by simp only [nlaNext]; omega) (by simp only [nlaNext]; omega)
            hin.2 fun hsettled => hbad ⟨hs, hsettled⟩
          exact ⟨mem', hlate.cons hp h (fun hv => hr ⟨policy, rfl, hv⟩)
            (hs.sameHeader hlate.agree (Nat.zero_le _) hsum hhi hlt (allowsHeader_of_ok h))⟩
      · exact here hsum hin hs

end Settled

/-- The last attribute of a type stays the last when the octets behind it become others, none of
them the octet of that type. -/
theorem lastOfType_stable {mem mem' : Mem} {t sta nla : Nat} {rem : Int}
    (h : sta ∈ lastOfType mem t (nlaWalk mem nla rem))
    (hag : Agree mem mem' 0 (sta + nlaLenField mem sta)) (ht : t < 256)
    (hne : ∀ i, sta + nlaLenField mem sta ≤ i → (rd8 mem' i).toNat ≠ t) :
    sta ∈ lastOfType mem' t (nlaWalk mem' nla rem) := by
  induction nla, rem using nlaWalk_induction mem with
  | stop nla rem hok =>
      rw [nlaWalk_of_not_ok hok] at h
      cases h
  | step nla rem hok ih =>
      have hge := nlaWalk_ge mem nla rem sta (mem_lastOfType h).1
      simp only [nlaHdrlen] at hge
      have hhead : SameHeader mem mem' nla := hag.sameHeader (Nat.zero_le _) (by omega)
      rw [nlaWalk_of_ok (hhead.ok.mp hok), hhead.next, lastOfType_cons]
      rw [nlaWalk_of_ok hok, lastOfType_cons] at h
      cases hrest :
        lastOfType mem t (nlaWalk mem (nlaNext mem nla rem).1 (nlaNext mem nla rem).2) with
      | some a =>
          rw [hrest] at h ih
          rw [ih h]
          rfl
      | none =>
          -- it is the attribute at hand, and behind it no octet is that of its type
          rw [hrest, Option.none_or] at h
          by_cases htype : nlaType mem nla = t
          · rw [if_pos htype] at h
            obtain rfl := Option.some.inj h
            have hnone : lastOfType mem' t
                (nlaWalk mem' (nlaNext mem nla rem).1 (nlaNext mem nla rem).2) = none := by
              rw [lastOfType, List.getLast?_eq_none_iff, List.filter_eq_nil_iff]
              intro a ha htype'
              have hnext := (nlaWalk_ge mem' _ _ a ha).1
              have := le_align4 (nlaLenField mem nla)
              have hlow := (rd8 mem' (a + 2)).toNat_lt
              simp only [nlaNext] at hnext
              rw [decide_eq_true_eq, nlaType_eq_mod, rd16] at htype'
              exact hne (a + 2) (by omega) (by omega)
            rw [hnone, Option.none_or, ← hhead.2 hge.2, if_pos htype]
            rfl
          · rw [if_neg htype] at h
            cases h

end Nl80211.Libnl
