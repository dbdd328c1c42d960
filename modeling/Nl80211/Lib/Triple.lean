/-
# Nl80211.Lib.Triple — pre- and postconditions of stateful computations that can stop.

`Triple P x Q E`: started where `P` holds, `x` either returns where `Q` holds of its result or stops
where `E` holds.  `Keeps I E x` is the case of an invariant.  One rule for each construct of a
program; the state and the reasons to stop are arbitrary.
-/
import Mathlib

namespace Nl80211.Lib

variable {ε σ α β : Type}

/-- From `P`, the computation returns in `Q` or stops in `E`. -/
def Triple (P : σ → Prop) (x : EStateM ε σ α) (Q : α → σ → Prop) (E : ε → σ → Prop) : Prop :=
  ∀ s, P s → match x s with
    | .ok a s' => Q a s'
    | .error e s' => E e s'

namespace Triple

variable {P P' : σ → Prop} {Q Q' : α → σ → Prop} {R : β → σ → Prop} {E : ε → σ → Prop}
  {x : EStateM ε σ α}

theorem ret {a : α} (h : ∀ s, P s → Q a s) : Triple P (pure a) Q E := h

theorem stop {e : ε} (h : ∀ s, P s → E e s) : Triple P (throw e) Q E := h

theorem read {Q : σ → σ → Prop} (h : ∀ s, P s → Q s s) : Triple P get Q E := h

theorem update {f : σ → σ} {Q : PUnit → σ → Prop} (h : ∀ s, P s → Q () (f s)) :
    Triple P (modify f) Q E := h

theorem andThen {f : α → EStateM ε σ β} (hx : Triple P x Q E) (hf : ∀ a, Triple (Q a) (f a) R E) :
    Triple P (x >>= f) R E := by
  intro s hs
  have h := hx s hs
  simp only [bind, EStateM.bind]
  cases hrun : x s with
  | ok a s' =>
      rw [hrun] at h
      exact hf a s' h
  | error e s' =>
      rw [hrun] at h
      exact h

/-- Behind a read the state is known. -/
theorem inspect {f : σ → EStateM ε σ β} (h : ∀ s, P s → Triple (· = s) (f s) R E) :
    Triple P (get >>= f) R E :=
  fun s hs => h s hs s rfl

theorem choose {c : Prop} [Decidable c] {y : EStateM ε σ α} (hx : c → Triple P x Q E)
    (hy : ¬ c → Triple P y Q E) : Triple P (if c then x else y) Q E := by
  split
  · exact hx ‹c›
  · exact hy ‹¬ c›

theorem weaken (h : Triple P x Q E) (hP : ∀ s, P' s → P s) (hQ : ∀ a s, Q a s → Q' a s) :
    Triple P' x Q' E := by
  intro s hs
  have h := h s (hP s hs)
  cases hrun : x s with
  | ok a s' =>
      rw [hrun] at h
      exact hQ a s' h
  | error e s' =>
      rw [hrun] at h
      exact h

/-- What a triple says of one run. -/
theorem ok {s s' : σ} {a : α} (h : Triple P x Q E) (hs : P s) (hrun : x s = .ok a s') : Q a s' := by
  have h := h s hs
  rwa [hrun] at h

theorem error {s s' : σ} {e : ε} (h : Triple P x Q E) (hs : P s) (hrun : x s = .error e s') :
    E e s' := by
  have h := h s hs
  rwa [hrun] at h

/-- What is known whatever the state. -/
theorem given {p : Prop} (h : p → Triple P x Q E) : Triple (fun s => p ∧ P s) x Q E :=
  fun s hs => h hs.1 s hs.2

/-- A computation that cannot stop returns. -/
theorem returns {s : σ} (h : Triple P x Q fun _ _ => False) (hs : P s) :
    ∃ a s', x s = .ok a s' ∧ Q a s' := by
  have h := h s hs
  cases hrun : x s with
  | ok a s' =>
      rw [hrun] at h
      exact ⟨a, s', rfl, h⟩
  | error e s' =>
      rw [hrun] at h
      exact h.elim

end Triple

/-- `I` is kept as long as the computation goes on; where it stops, `E` holds. -/
def Keeps (I : σ → Prop) (E : ε → σ → Prop) (x : EStateM ε σ α) : Prop := Triple I x (fun _ => I) E

namespace Keeps

variable {I : σ → Prop} {E : ε → σ → Prop} {x y : EStateM ε σ α}

theorem ret (a : α) : Keeps I E (pure a : EStateM ε σ α) := Triple.ret fun _ => id

theorem stop {e : ε} (h : ∀ s, I s → E e s) : Keeps I E (throw e : EStateM ε σ α) := Triple.stop h

theorem read : Keeps I E (get : EStateM ε σ σ) := Triple.read fun _ => id

theorem update {f : σ → σ} (h : ∀ s, I s → I (f s)) : Keeps I E (modify f : EStateM ε σ PUnit) :=
  Triple.update h

theorem andThen {f : α → EStateM ε σ β} (hx : Keeps I E x) (hf : ∀ a, Keeps I E (f a)) :
    Keeps I E (x >>= f) :=
  Triple.andThen hx hf

theorem choose {c : Prop} [Decidable c] (hx : Keeps I E x) (hy : Keeps I E y) :
    Keeps I E (if c then x else y) :=
  Triple.choose (fun _ => hx) fun _ => hy

/-- An invariant of every step of a list of steps is one of the whole. -/
theorem forEach {f : β → EStateM ε σ PUnit} (h : ∀ b, Keeps I E (f b)) (bs : List β) :
    Keeps I E (bs.forM f) := by
  induction bs with
  | nil => exact ret ()
  | cons b bs ih => exact andThen (h b) fun _ => ih

end Keeps

end Nl80211.Lib
