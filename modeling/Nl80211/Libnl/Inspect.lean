/-
# Nl80211.Libnl.Inspect — which headers a parse looks at.

The loop of `nla_parse` visits a sequence of positions, each with a count of remaining octets
(`heads`), and reads a header at those where the count, taken as a `size_t`, allows one.  Position
and count always add up to the end of the container.  Once the count has fallen below zero, because
the padding of an attribute that was passed over runs past the end, it allows every header, so the
headers lie in front of a limit exactly as long as those positions do (`heads_inside_iff`).
-/
import Nl80211.Libnl.Attr

namespace Nl80211.Libnl

open Lib Lib.Bytes

/-- The parse ends at the attribute at `nla` because it fails its policy. -/
def Refused (mem : Mem) (maxtype : Nat) (policy : Option (Nat → NlaPolicy)) (nla : Nat) : Prop :=
  ∃ p ∈ policy, Rejected mem maxtype p nla

instance (mem : Mem) (maxtype : Nat) (policy : Option (Nat → NlaPolicy)) (nla : Nat) :
    Decidable (Refused mem maxtype policy nla) :=
  match policy with
  | none => isFalse (by simp [Refused])
  | some p => decidable_of_iff (Rejected mem maxtype p nla) (by simp [Refused])

/-- Where the loop of a parse arrives, each time with the octets that remain. -/
def heads (mem : Mem) (maxtype : Nat) (policy : Option (Nat → NlaPolicy)) (nla : Nat) (rem : Int) :
    List (Nat × Int) :=
  (nla, rem) ::
    if _h : (nlaOk mem nla rem).val = true then
      if Refused mem maxtype policy nla then []
      else heads mem maxtype policy (nlaNext mem nla rem).1 (nlaNext mem nla rem).2
    else []
termination_by mem.length - nla
decreasing_by
  have := lt_of_nlaOk _h
  omega

/-- The octets that remain allow a header, as `nla_ok` sees it. -/
def AllowsHeader (h : Nat × Int) : Prop := nlaHdrlen ≤ sizeT h.2

instance (h : Nat × Int) : Decidable (AllowsHeader h) := inferInstanceAs (Decidable (_ ≤ _))

section Heads

variable {mem : Mem} {maxtype : Nat} {policy : Option (Nat → NlaPolicy)} {nla : Nat} {rem : Int}

theorem heads_of_not_ok (h : ¬ (nlaOk mem nla rem).val = true) :
    heads mem maxtype policy nla rem = [(nla, rem)] := by
  rw [heads, dif_neg h]

theorem heads_of_refused (h : (nlaOk mem nla rem).val = true)
    (hr : Refused mem maxtype policy nla) : heads mem maxtype policy nla rem = [(nla, rem)] := by
  rw [heads, dif_pos h, if_pos hr]

theorem heads_of_ok (h : (nlaOk mem nla rem).val = true) (hr : ¬ Refused mem maxtype policy nla) :
    heads mem maxtype policy nla rem =
      (nla, rem) :: heads mem maxtype policy (nlaNext mem nla rem).1 (nlaNext mem nla rem).2 := by
  rw [heads, dif_pos h, if_neg hr]

theorem allowsHeader_of_ok (h : (nlaOk mem nla rem).val = true) : AllowsHeader (nla, rem) := by
  obtain ⟨h4, hle⟩ := nlaOk_val.mp h
  exact Nat.le_trans h4 hle

theorem nlaOk_log_head :
    (nlaOk mem nla rem).log = if AllowsHeader (nla, rem) then [.header nla] else [] :=
  nlaOk_log

/-- One turn of the loop, whatever the policy. -/
theorem nlaParseFrom_of_ok (h : (nlaOk mem nla rem).val = true)
    (hr : ¬ Refused mem maxtype policy nla) (tb : NlaTable) :
    nlaParseFrom mem maxtype policy nla rem tb = (do
      let _ ← nlaOk mem nla rem
      nlaParseFrom mem maxtype policy (nlaNext mem nla rem).1 (nlaNext mem nla rem).2
        (indexStep mem maxtype tb nla)) := by
  cases policy with
  | none => exact nlaParseFrom_none_of_ok h
  | some p => exact nlaParseFrom_some_of_ok h fun hv => hr ⟨p, rfl, hv⟩

/-- A parse reads the headers its loop arrives at and nothing else. -/
theorem nlaParseFrom_log (tb : NlaTable) :
    (nlaParseFrom mem maxtype policy nla rem tb).log =
      ((heads mem maxtype policy nla rem).filter (AllowsHeader ·)).map fun h => .header h.1 := by
  induction nla, rem using nlaWalk_induction mem generalizing tb with
  | stop nla rem h =>
      rw [nlaParseFrom_of_not_ok h, heads_of_not_ok h, Traced.log_bind, nlaOk_log_head]
      by_cases hh : AllowsHeader (nla, rem)
      · rw [if_pos hh]
        simp [hh]
      · rw [if_neg hh]
        simp [hh]
  | step nla rem h ih =>
      have hh := allowsHeader_of_ok h
      by_cases hr : Refused mem maxtype policy nla
      · obtain ⟨p, rfl, hv⟩ := hr
        rw [nlaParseFrom_some_of_rejected h hv, heads_of_refused h ⟨p, rfl, hv⟩, Traced.log_bind,
          nlaOk_log_head, if_pos hh]
        simp [hh]
      · rw [nlaParseFrom_of_ok h hr, heads_of_ok h hr, Traced.log_bind, nlaOk_log_head,
          if_pos hh, ih]
        simp [hh]

/-- What holds of every header holds of all a parse touches. -/
theorem nlaParse_headers {P : Access → Prop} (hP : ∀ a, P (.header a)) (head : Nat) (len : Int) :
    Traced.Always P (nlaParse mem maxtype head len policy) := by
  intro e he
  rw [nlaParse, nlaParseFrom_log, List.mem_map] at he
  obtain ⟨h, -, rfl⟩ := he
  exact hP h.1

/-- Position and count of remaining octets add up to the end of the container. -/
theorem heads_sum {hi : Nat} (hsum : (nla : Int) + rem = hi) :
    ∀ h ∈ heads mem maxtype policy nla rem, (h.1 : Int) + h.2 = hi := by
  induction nla, rem using nlaWalk_induction mem with
  | stop nla rem h =>
      rw [heads_of_not_ok h, List.forall_mem_singleton]
      exact hsum
  | step nla rem h ih =>
      by_cases hr : Refused mem maxtype policy nla
      · rw [heads_of_refused h hr, List.forall_mem_singleton]
        exact hsum
      · rw [heads_of_ok h hr, List.forall_mem_cons]
        refine ⟨hsum, ih ?_⟩
        simp only [nlaNext]
        omega

/-- The parse stays in its container: the count of remaining octets never falls below zero. -/
def Contained (mem : Mem) (maxtype : Nat) (policy : Option (Nat → NlaPolicy)) (nla : Nat)
    (rem : Int) : Prop :=
  ∀ h ∈ heads mem maxtype policy nla rem, 0 ≤ h.2

instance : Decidable (Contained mem maxtype policy nla rem) :=
  inferInstanceAs (Decidable (∀ h ∈ heads mem maxtype policy nla rem, _))

/-- Where the count has fallen below zero, the header still lies in front of `lim`. -/
def ContainedUpTo (mem : Mem) (maxtype : Nat) (policy : Option (Nat → NlaPolicy)) (nla : Nat)
    (rem : Int) (lim : Nat) : Prop :=
  ∀ h ∈ heads mem maxtype policy nla rem, 0 ≤ h.2 ∨ h.1 + nlaHdrlen ≤ lim

instance {lim : Nat} : Decidable (ContainedUpTo mem maxtype policy nla rem lim) :=
  inferInstanceAs (Decidable (∀ h ∈ heads mem maxtype policy nla rem, _))

theorem containedUpTo_self_iff {hi : Nat} (hsum : (nla : Int) + rem = hi) :
    ContainedUpTo mem maxtype policy nla rem hi ↔ Contained mem maxtype policy nla rem := by
  refine forall₂_congr fun h hh => ?_
  have := heads_sum hsum h hh
  simp only [nlaHdrlen]
  omega

/-- At one position: the header, if it is read, lies in front of the limit. -/
theorem head_inside_iff {hi lim : Nat} (hsum : (nla : Int) + rem = hi) (hlim : hi ≤ lim)
    (hge : -9223372036854775808 ≤ rem) (hlt : rem < 18446744073709551616) :
    (AllowsHeader (nla, rem) → nla + nlaHdrlen ≤ lim) ↔ 0 ≤ rem ∨ nla + nlaHdrlen ≤ lim := by
  simp only [AllowsHeader, sizeT, nlaHdrlen]
  constructor
  · intro h
    by_contra hneg
    have hwrap : rem % 18446744073709551616 = rem + 18446744073709551616 := by omega
    have := h (by omega)
    omega
  · rintro (h0 | h) hallow
    · rw [Int.emod_eq_of_lt h0 hlt] at hallow
      omega
    · exact h

/-- The headers read lie in front of the limit exactly when the parse is contained up to it. -/
theorem heads_inside_iff {hi lim : Nat} (hsum : (nla : Int) + rem = hi) (hlim : hi ≤ lim)
    (hmax : lim < 2147483648) (hge : -(lim : Int) - 65540 ≤ rem) :
    (∀ h ∈ heads mem maxtype policy nla rem, AllowsHeader h → h.1 + nlaHdrlen ≤ lim) ↔
      ContainedUpTo mem maxtype policy nla rem lim := by
  induction nla, rem using nlaWalk_induction mem with
  | stop nla rem h =>
      rw [ContainedUpTo, heads_of_not_ok h, List.forall_mem_singleton, List.forall_mem_singleton]
      exact head_inside_iff hsum hlim (by omega) (by omega)
  | step nla rem h ih =>
      have hhead := head_inside_iff hsum hlim (by omega) (by omega)
      rw [ContainedUpTo]
      by_cases hr : Refused mem maxtype policy nla
      · rw [heads_of_refused h hr, List.forall_mem_singleton, List.forall_mem_singleton]
        exact hhead
      · rw [heads_of_ok h hr, List.forall_mem_cons, List.forall_mem_cons, hhead]
        have := rd16_lt mem nla
        have := align4_lt (nlaLenField mem nla)
        -- a header in front of the limit cannot push the count further down than one attribute
        refine and_congr_right fun hin => ih ?_ ?_
        · simp only [nlaNext]
          omega
        · simp only [nlaNext, nlaLenField, nlaHdrlen] at *
          omega

theorem heads_ge {h : Nat × Int} (hmem : h ∈ heads mem maxtype policy nla rem) : nla ≤ h.1 := by
  induction nla, rem using nlaWalk_induction mem with
  | stop nla rem hok =>
      rw [heads_of_not_ok hok, List.mem_singleton] at hmem
      exact Nat.le_of_eq (congrArg Prod.fst hmem).symm
  | step nla rem hok ih =>
      by_cases hr : Refused mem maxtype policy nla
      · rw [heads_of_refused hok hr, List.mem_singleton] at hmem
        exact Nat.le_of_eq (congrArg Prod.fst hmem).symm
      · rw [heads_of_ok hok hr, List.mem_cons] at hmem
        rcases hmem with rfl | hmem
        · exact Nat.le_refl _
        · exact Nat.le_trans (Nat.le_of_lt (lt_of_nlaOk hok).2) (ih hmem)

end Heads

/-! ## Reads inside a container -/

/-- Headers and values are read from the octets `lo .. hi` only. -/
def Inside (lo hi : Nat) : Access → Prop
  | .header nla => lo ≤ nla ∧ nla + nlaHdrlen ≤ hi
  | .value off width => lo ≤ off ∧ off + width ≤ hi
  | .text .. | .write .. => True

theorem Inside.mono {lo hi lo' hi' : Nat} {e : Access} (h : Inside lo hi e) (hlo : lo' ≤ lo)
    (hhi : hi ≤ hi') : Inside lo' hi' e := by
  cases e with
  | header nla => exact ⟨Nat.le_trans hlo h.1, Nat.le_trans h.2 hhi⟩
  | value off width => exact ⟨Nat.le_trans hlo h.1, Nat.le_trans h.2 hhi⟩
  | text | write => trivial

theorem mem_lastOfType {mem : Mem} {t a : Nat} {walk : List Nat} (h : a ∈ lastOfType mem t walk) :
    a ∈ walk ∧ nlaType mem a = t := by
  have := List.mem_of_getLast? h
  simpa using this

theorem lastOfType_cons (mem : Mem) (t a : Nat) (walk : List Nat) :
    lastOfType mem t (a :: walk) =
      (lastOfType mem t walk).or (if nlaType mem a = t then some a else none) := by
  simp only [lastOfType, List.filter_cons, decide_eq_true_eq]
  split
  · rw [List.getLast?_cons]
    cases (walk.filter fun a => nlaType mem a = t).getLast? <;> rfl
  · rw [Option.or_none]

/-- The last attribute of a type stands at or behind every attribute of that type. -/
theorem exists_lastOfType_ge {mem : Mem} {a : Nat} {walk : List Nat} (hw : walk.Pairwise (· < ·))
    (ha : a ∈ walk) : ∃ b ∈ lastOfType mem (nlaType mem a) walk, a ≤ b := by
  induction walk with
  | nil => cases ha
  | cons c walk ih =>
      rw [List.pairwise_cons] at hw
      rw [lastOfType_cons]
      cases hrest : lastOfType mem (nlaType mem a) walk with
      | some b =>
          refine ⟨b, rfl, ?_⟩
          rcases List.mem_cons.mp ha with rfl | ha
          · exact Nat.le_of_lt (hw.1 b (mem_lastOfType hrest).1)
          · obtain ⟨b', hb', hle⟩ := ih hw.2 ha
            rw [hrest] at hb'
            cases hb'
            exact hle
      | none =>
          rcases List.mem_cons.mp ha with rfl | ha
          · exact ⟨a, by simp, Nat.le_refl a⟩
          · obtain ⟨b', hb', -⟩ := ih hw.2 ha
            rw [hrest] at hb'
            cases hb'

section Container

variable {mem : Mem} {maxtype head hi : Nat} {policy : Option (Nat → NlaPolicy)} {len : Int}

/-- A parse reads in front of a limit exactly when it is contained up to it. -/
theorem nlaParse_inside_iff {lo lim : Nat} (hlo : lo ≤ head) (hsum : (head : Int) + len = hi)
    (hlim : hi ≤ lim) (hmax : lim < 2147483648) (hge : -4 ≤ len) :
    Traced.Always (Inside lo lim) (nlaParse mem maxtype head len policy) ↔
      ContainedUpTo mem maxtype policy head len lim := by
  rw [← heads_inside_iff hsum hlim hmax (by omega), Traced.Always, nlaParse, nlaParseFrom_log]
  constructor
  · intro h x hx hallow
    exact (h (.header x.1) (List.mem_map.mpr ⟨x, by simp [hx, hallow], rfl⟩)).2
  · rintro h e he
    obtain ⟨x, hx, rfl⟩ := List.mem_map.mp he
    obtain ⟨hx, hallow⟩ := List.mem_filter.mp hx
    exact ⟨Nat.le_trans hlo (heads_ge hx), h x hx (of_decide_eq_true hallow)⟩

/-- An accepted attribute that starts in the container lies in it. -/
theorem walk_inside (hsum : (head : Int) + len = hi) (hlt : len < 18446744073709551616) :
    ∀ a ∈ nlaWalk mem head len, a ≤ hi → a + nlaLenField mem a ≤ hi := by
  induction head, len using nlaWalk_induction mem with
  | stop nla rem h => simp [nlaWalk_of_not_ok h]
  | step nla rem h ih =>
      have hle := (nlaOk_val.mp h).2
      rw [nlaWalk_of_ok h, List.forall_mem_cons]
      refine ⟨fun hin => ?_, ih (by simp only [nlaNext]; omega) (by simp only [nlaNext]; omega)⟩
      rw [sizeT, Int.emod_eq_of_lt (by omega) hlt] at hle
      omega

/-- A walk goes forwards. -/
theorem nlaWalk_ge (mem : Mem) (nla : Nat) (rem : Int) :
    ∀ a ∈ nlaWalk mem nla rem, nla ≤ a ∧ nlaHdrlen ≤ nlaLenField mem a := by
  induction nla, rem using nlaWalk_induction mem with
  | stop nla rem h => simp [nlaWalk_of_not_ok h]
  | step nla rem h ih =>
      rw [nlaWalk_of_ok h, List.forall_mem_cons]
      refine ⟨⟨Nat.le_refl _, (nlaOk_val.mp h).1⟩, fun a ha => ⟨?_, (ih a ha).2⟩⟩
      exact Nat.le_trans (Nat.le_of_lt (lt_of_nlaOk h).2) (ih a ha).1

theorem nlaWalk_pairwise (mem : Mem) (nla : Nat) (rem : Int) :
    (nlaWalk mem nla rem).Pairwise (· < ·) := by
  induction nla, rem using nlaWalk_induction mem with
  | stop nla rem h => simp [nlaWalk_of_not_ok h]
  | step nla rem h ih =>
      rw [nlaWalk_of_ok h, List.pairwise_cons]
      exact ⟨fun a ha => Nat.lt_of_lt_of_le (lt_of_nlaOk h).2 (nlaWalk_ge mem _ _ a ha).1, ih⟩

/-- A contained parse that accepts all it finds walks through its container only. -/
theorem walk_le (hc : Contained mem maxtype policy head len)
    (hv : ∀ a ∈ nlaWalk mem head len, ¬ Refused mem maxtype policy a)
    (hsum : (head : Int) + len = hi) : ∀ a ∈ nlaWalk mem head len, a ≤ hi := by
  induction head, len using nlaWalk_induction mem with
  | stop nla rem h => simp [nlaWalk_of_not_ok h]
  | step nla rem h ih =>
      rw [nlaWalk_of_ok h, List.forall_mem_cons] at hv ⊢
      rw [Contained, heads_of_ok h hv.1, List.forall_mem_cons] at hc
      refine ⟨?_, ih hc.2 hv.2 ?_⟩
      · have := hc.1
        omega
      · simp only [nlaNext]
        omega

end Container

end Nl80211.Libnl
