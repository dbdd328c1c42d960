/-
# Nl80211.Lib.LastReport — folds in which the last report wins.

A run over a list of messages keeps one value; each message either reports a new value or says
nothing about it.  What the run ends with is the last value reported, or the value it started with.

`OfLast` is the matching condition on the messages: of those that have one property, the last one
has another.
-/
import Mathlib

namespace Nl80211.Lib

variable {μ α : Type}

/-- The last value that `f` reports along `ms`, or `a` when it reports none. -/
def lastReport (f : μ → Option α) (a : α) (ms : List μ) : α :=
  ((ms.filterMap f).getLast?).getD a

@[simp] theorem lastReport_nil (f : μ → Option α) (a : α) : lastReport f a [] = a := rfl

theorem lastReport_append_singleton (f : μ → Option α) (a : α) (ms : List μ) (m : μ) :
    lastReport f a (ms ++ [m]) = (f m).getD (lastReport f a ms) := by
  cases hm : f m <;> simp [lastReport, List.filterMap_append, hm]

theorem lastReport_cons (f : μ → Option α) (a : α) (m : μ) (ms : List μ) :
    lastReport f a (m :: ms) = lastReport f ((f m).getD a) ms := by
  cases hm : f m with
  | none => simp [lastReport, hm]
  | some v => simp [lastReport, hm, List.getLast?_cons]

/-- A field of a larger state that each step overwrites or leaves alone follows its own reports. -/
theorem foldl_field {σ : Type} (step : σ → μ → σ) (get : σ → α) (f : μ → Option α)
    (hstep : ∀ s m, get (step s m) = (f m).getD (get s)) (ms : List μ) (s : σ) :
    get (ms.foldl step s) = lastReport f (get s) ms := by
  induction ms generalizing s with
  | nil => rfl
  | cons m ms ih => rw [List.foldl_cons, ih, hstep, lastReport_cons]

/-- Messages that say nothing leave the value alone. -/
theorem lastReport_of_forall_none {f : μ → Option α} {ms : List μ} (h : ∀ m ∈ ms, f m = none)
    (a : α) : lastReport f a ms = a := by
  simp [lastReport, List.filterMap_eq_nil_iff.mpr h]

/-- Behind the last message that reports, the value is the one it reported. -/
theorem lastReport_split {f : μ → Option α} {before after : List μ} {m : μ} {v : α}
    (hm : f m = some v)
    (hafter : ∀ m' ∈ after, f m' = none) (a : α) :
    lastReport f a (before ++ m :: after) = v := by
  simp [lastReport, List.filterMap_append, hm, List.filterMap_eq_nil_iff.mpr hafter]

/-! ## The last message of a kind -/

/-- If some message of `ms` is a `p`, the last one that is, is a `q`. -/
def OfLast (p q : μ → Prop) (ms : List μ) : Prop :=
  ∀ before m after, ms = before ++ m :: after → p m → (∀ m' ∈ after, ¬ p m') → q m

section OfLast

variable {p q : μ → Prop} {ms : List μ} {m : μ}

theorem ofLast_nil : OfLast p q [] := by
  intro before m after h
  simp at h

/-- At the end of the list the question is about the message there, if it is a `p`. -/
theorem ofLast_concat_of_pos (h : p m) : OfLast p q (ms ++ [m]) ↔ q m := by
  constructor
  · intro hlast
    exact hlast ms m [] rfl h (List.forall_mem_nil _)
  · intro hq before m' after hsplit hm' hafter
    rcases List.eq_nil_or_concat after with rfl | ⟨after, x, rfl⟩
    · cases (List.append_inj' hsplit rfl).2
      exact hq
    · -- then the message at the end is not a `p`
      rw [List.concat_eq_append, ← List.cons_append, ← List.append_assoc] at hsplit
      cases (List.append_inj' hsplit rfl).2
      exact absurd h (hafter _ (by simp))

/-- A message at the end that is no `p` makes no difference. -/
theorem ofLast_concat_of_neg (h : ¬ p m) : OfLast p q (ms ++ [m]) ↔ OfLast p q ms := by
  constructor
  · rintro hlast before m' after rfl hm' hafter
    refine hlast before m' (after ++ [m]) (by simp) hm' ?_
    simp only [List.mem_append, List.mem_singleton]
    rintro x (hx | rfl)
    · exact hafter x hx
    · exact h
  · intro hlast before m' after hsplit hm' hafter
    rcases List.eq_nil_or_concat after with rfl | ⟨after, x, rfl⟩
    · cases (List.append_inj' hsplit rfl).2
      exact absurd hm' h
    · rw [List.concat_eq_append, ← List.cons_append, ← List.append_assoc] at hsplit
      obtain ⟨rfl, -⟩ := List.append_inj' hsplit rfl
      exact hlast before m' after rfl hm' fun y hy => hafter y (by simp [hy])

/-- Nor do any number of them. -/
theorem ofLast_append_of_neg {after : List μ} (h : ∀ m ∈ after, ¬ p m) :
    OfLast p q (ms ++ after) ↔ OfLast p q ms := by
  induction after using List.reverseRecOn with
  | nil => rw [List.append_nil]
  | append_singleton after m ih =>
      rw [← List.append_assoc, ofLast_concat_of_neg (h m (by simp)), ih fun x hx =>
        h x (by simp [hx])]

/-- The last `p` is the one the question is about. -/
theorem ofLast_split {before after : List μ} (hm : p m) (hafter : ∀ m' ∈ after, ¬ p m') :
    OfLast p q (before ++ m :: after) ↔ q m := by
  rw [List.append_cons, ofLast_append_of_neg hafter, ofLast_concat_of_pos hm]

/-- Where there is a `p`, there is a last one. -/
theorem exists_last (h : ∃ m ∈ ms, p m) :
    ∃ before m after, ms = before ++ m :: after ∧ p m ∧ ∀ m' ∈ after, ¬ p m' := by
  induction ms using List.reverseRecOn with
  | nil => simp at h
  | append_singleton ms m ih =>
      by_cases hm : p m
      · exact ⟨ms, m, [], rfl, hm, List.forall_mem_nil _⟩
      obtain ⟨x, hx, hp⟩ := h
      have hx : x ∈ ms := by
        rcases List.mem_append.mp hx with hx | hx
        · exact hx
        · exact absurd (List.mem_singleton.mp hx ▸ hp) hm
      obtain ⟨before, y, after, rfl, hy, hafter⟩ := ih ⟨x, hx, hp⟩
      refine ⟨before, y, after ++ [m], by simp, hy, ?_⟩
      simp only [List.mem_append, List.mem_singleton]
      rintro z (hz | rfl)
      · exact hafter z hz
      · exact hm

/-- A value reported last satisfies what every last report satisfies, or none was reported and the
value is the old one. -/
theorem lastReport_iff {f : μ → Option α} (good : α → Prop) (a : α) (ms : List μ) :
    good (lastReport f a ms) ↔
      OfLast (fun m => (f m).isSome) (fun m => ∀ v ∈ f m, good v) ms ∧
        ((∀ m ∈ ms, f m = none) → good a) := by
  induction ms using List.reverseRecOn with
  | nil => simp [ofLast_nil]
  | append_singleton ms m ih =>
      rw [lastReport_append_singleton]
      cases hm : f m with
      | none =>
          rw [ofLast_concat_of_neg (by simp [hm]), Option.getD_none, ih]
          simp [or_imp, forall_and, hm]
      | some v =>
          rw [ofLast_concat_of_pos (by simp [hm]), Option.getD_some]
          simp [hm]

end OfLast

end Nl80211.Lib
