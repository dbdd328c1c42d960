/-
# Nl80211.Lib.Ownership — acquiring, using and releasing by handle.

A run leaves a trace of events: a resource is acquired under a handle, an operation is applied to a
pointer, a resource is released through a pointer.  A pointer that holds no handle is `none`.
`Disciplined` and `Settled` say what one wants of a trace; `run` checks it event by event against a
ledger of the live handles, and a trace that `run` accepts is disciplined (`run_disciplined`) and,
when nothing is left live, settled (`run_settled`).
-/
import Mathlib

namespace Nl80211.Lib.Ownership

/-- An event; `ω` names operations, `κ` handles. -/
inductive Event (ω κ : Type) where
  | acquire (k : κ)
  | use (op : ω) (p : Option κ)
  | release (op : ω) (p : Option κ)
  deriving DecidableEq, Repr

variable {ω κ : Type} [DecidableEq κ]

namespace Event

/-- The event releases `k`. -/
def releases (k : κ) : Event ω κ → Bool
  | .release _ p => p = some k
  | _ => false

/-- The event acquires `k`. -/
def acquires (k : κ) : Event ω κ → Bool
  | .acquire k' => k' = k
  | _ => false

/-- The pointer an operation is applied to. -/
def target : Event ω κ → Option (Option κ)
  | .acquire _ => none
  | .use _ p => some p
  | .release _ p => some p

end Event

/-! ## What a trace should be -/

/-- `k` has been acquired and not been released in `t`. -/
def Live (k : κ) (t : List (Event ω κ)) : Prop :=
  t.any (Event.acquires k) = true ∧ t.countP (Event.releases k) = 0

/-- Every operation, releases included, is applied to a live handle. -/
def Disciplined (t : List (Event ω κ)) : Prop :=
  ∀ a e b, t = a ++ e :: b → ∀ p, e.target = some p → ∃ k, p = some k ∧ Live k a

/-- Every handle that was acquired has been released exactly once. -/
def Settled (t : List (Event ω κ)) : Prop :=
  ∀ k, t.any (Event.acquires k) = true → t.countP (Event.releases k) = 1

/-! ## Checking it -/

/-- The handles that are live, and those that have been released. -/
structure Ledger (κ : Type) where
  live : List κ := []
  past : List κ := []
  deriving DecidableEq, Repr

/-- One event; `none` if it is out of order. -/
def step (l : Ledger κ) : Event ω κ → Option (Ledger κ)
  | .acquire k => if k ∈ l.live ∨ k ∈ l.past then none else some { l with live := k :: l.live }
  | .use _ (some k) => if k ∈ l.live then some l else none
  | .release _ (some k) =>
      if k ∈ l.live then some ⟨l.live.filter (· ≠ k), k :: l.past⟩ else none
  | .use _ none => none
  | .release _ none => none

/-- A whole trace. -/
def run : Ledger κ → List (Event ω κ) → Option (Ledger κ)
  | l, [] => some l
  | l, e :: t => (step l e).bind fun l => run l t

theorem run_append (l : Ledger κ) (a b : List (Event ω κ)) :
    run l (a ++ b) = (run l a).bind fun l => run l b := by
  induction a generalizing l with
  | nil => rfl
  | cons e a ih =>
      rw [List.cons_append, run, run]
      cases step l e with
      | none => rfl
      | some l => exact ih l

/-- The ledger says what has happened in `t`. -/
structure Tracks (l : Ledger κ) (t : List (Event ω κ)) : Prop where
  live : ∀ k ∈ l.live, Live k t
  past : ∀ k ∈ l.past, t.countP (Event.releases k) = 1
  all : ∀ k, t.any (Event.acquires k) = true → k ∈ l.live ∨ k ∈ l.past
  released : ∀ k, t.countP (Event.releases k) ≠ 0 → k ∈ l.past

theorem Tracks.empty : Tracks ({} : Ledger κ) ([] : List (Event ω κ)) := by
  constructor <;> simp

section Tracks

variable {l l' : Ledger κ} {t : List (Event ω κ)} {k : κ}

/-- A new handle becomes live. -/
theorem Tracks.acquire (h : Tracks l t) (hnp : k ∉ l.past) :
    Tracks { l with live := k :: l.live } (t ++ [.acquire k]) := by
  have hzero : t.countP (Event.releases k) = 0 := by
    by_contra hne
    exact hnp (h.released k hne)
  constructor
  · intro j hj
    rcases List.mem_cons.mp hj with rfl | hj
    · exact ⟨by simp [Event.acquires], by simp [Event.releases, hzero]⟩
    · exact ⟨by simp [(h.live j hj).1], by simp [Event.releases, (h.live j hj).2]⟩
  · intro j hj
    simp [Event.releases, h.past j hj]
  · intro j hj
    simp only [List.any_append, Bool.or_eq_true, List.any_cons, List.any_nil, Bool.or_false,
      Event.acquires, decide_eq_true_eq] at hj
    rcases hj with hj | rfl
    · exact (h.all j hj).imp (List.mem_cons_of_mem k) id
    · exact .inl List.mem_cons_self
  · intro j hj
    exact h.released j (by simpa [Event.releases] using hj)

/-- A use changes nothing. -/
theorem Tracks.use (h : Tracks l t) (op : ω) (p : Option κ) : Tracks l (t ++ [.use op p]) := by
  constructor
  · intro j hj
    exact ⟨by simp [(h.live j hj).1], by simp [Event.releases, (h.live j hj).2]⟩
  · intro j hj
    simp [Event.releases, h.past j hj]
  · intro j hj
    exact h.all j (by simpa [Event.acquires] using hj)
  · intro j hj
    exact h.released j (by simpa [Event.releases] using hj)

/-- A live handle is released for the first time. -/
theorem Tracks.release (h : Tracks l t) (hk : k ∈ l.live) (op : ω) :
    Tracks ⟨l.live.filter (· ≠ k), k :: l.past⟩ (t ++ [.release op (some k)]) := by
  constructor
  · intro j hj
    simp only [List.mem_filter, decide_eq_true_eq] at hj
    refine ⟨by simp [(h.live j hj.1).1], ?_⟩
    simp [Event.releases, (h.live j hj.1).2, Ne.symm hj.2]
  · intro j hj
    by_cases hjk : k = j
    · subst hjk
      simp [Event.releases, (h.live k hk).2]
    · have hj' : j ∈ l.past := (List.mem_cons.mp hj).resolve_left (Ne.symm hjk)
      simp [Event.releases, h.past j hj', hjk]
  · intro j hj
    have hj' := h.all j (by simpa [Event.acquires] using hj)
    by_cases hjk : j = k
    · exact .inr (by simp [hjk])
    · exact hj'.imp (fun h => by simp [h, hjk]) (List.mem_cons_of_mem k)
  · intro j hj
    by_cases hjk : j = k
    · simp [hjk]
    · exact List.mem_cons_of_mem _ (h.released j (by simpa [Event.releases, Ne.symm hjk] using hj))

/-- One accepted event keeps the ledger true, and its target is live. -/
theorem Tracks.step {e : Event ω κ} (h : Tracks l t) (he : step l e = some l') :
    Tracks l' (t ++ [e]) ∧ ∀ p, e.target = some p → ∃ k, p = some k ∧ Live k t := by
  cases e with
  | acquire k =>
      simp only [Ownership.step, Option.ite_none_left_eq_some, not_or, Option.some.injEq] at he
      obtain ⟨⟨-, hnp⟩, rfl⟩ := he
      exact ⟨h.acquire hnp, nofun⟩
  | use op p =>
      cases p with
      | none => cases he
      | some k =>
          simp only [Ownership.step, Option.ite_none_right_eq_some, Option.some.injEq] at he
          obtain ⟨hk, rfl⟩ := he
          refine ⟨h.use op (some k), ?_⟩
          rintro p hp
          cases hp
          exact ⟨k, rfl, h.live k hk⟩
  | release op p =>
      cases p with
      | none => cases he
      | some k =>
          simp only [Ownership.step, Option.ite_none_right_eq_some, Option.some.injEq] at he
          obtain ⟨hk, rfl⟩ := he
          refine ⟨h.release hk op, ?_⟩
          rintro p hp
          cases hp
          exact ⟨k, rfl, h.live k hk⟩

end Tracks

/-- An accepted trace keeps the ledger true, and all its targets are live. -/
theorem Tracks.run {l l' : Ledger κ} {s t : List (Event ω κ)} (h : Tracks l s)
    (ht : run l t = some l') :
    Tracks l' (s ++ t) ∧ ∀ a e b, t = a ++ e :: b → ∀ p, e.target = some p →
      ∃ k, p = some k ∧ Live k (s ++ a) := by
  induction t generalizing l s with
  | nil =>
      cases ht
      exact ⟨by simpa using h, by simp⟩
  | cons e t ih =>
      obtain ⟨l₁, he, ht⟩ := Option.bind_eq_some_iff.mp ht
      obtain ⟨h₁, htarget⟩ := h.step he
      obtain ⟨hall, hrest⟩ := ih h₁ ht
      refine ⟨by simpa using hall, ?_⟩
      intro a e' b hsplit p hp
      cases a with
      | nil =>
          cases hsplit
          simpa using htarget p hp
      | cons x a =>
          cases hsplit
          simpa using hrest a e' b rfl p hp

/-- A trace the ledger accepts is disciplined. -/
theorem run_disciplined {t : List (Event ω κ)} {l : Ledger κ} (h : run {} t = some l) :
    Disciplined t := by
  simpa [Disciplined] using (Tracks.empty.run h).2

/-- A trace that leaves nothing live is settled. -/
theorem run_settled {t : List (Event ω κ)} {l : Ledger κ} (h : run {} t = some l)
    (hlive : l.live = []) : Settled t := by
  intro k hk
  have htracks := (Tracks.empty.run h).1
  rw [List.nil_append] at htracks
  exact htracks.past k ((htracks.all k hk).resolve_left (by simp [hlive]))

/-- An operation on a pointer that holds no live handle spoils every trace it occurs in. -/
theorem not_disciplined {a b : List (Event ω κ)} {e : Event ω κ} {p : Option κ}
    (hp : e.target = some p) (h : ∀ k, p = some k → ¬ Live k a) :
    ¬ Disciplined (a ++ e :: b) := by
  intro hd
  obtain ⟨k, hk, hlive⟩ := hd a e b rfl p hp
  exact h k hk hlive

end Nl80211.Lib.Ownership
