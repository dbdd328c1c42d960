/-
# Nl80211.Lib.Traced — computations that log what they touch.

A traced computation returns a value together with the list of events it caused, in order.  It is
Mathlib's writer monad over a list; this file gives the two projections, their rules for `pure` and
`bind`, and the invariant rule: a property of every event of a computation is proved event by event,
along the program text.
-/
import Mathlib

namespace Nl80211.Lib

/-- A computation with a log of events of type `ε`. -/
abbrev Traced (ε : Type) := Writer (List ε)

namespace Traced

variable {ε α β : Type}

/-- The value a traced computation returns. -/
def val (x : Traced ε α) : α := (WriterT.run x).1

/-- The events it caused, oldest first. -/
def log (x : Traced ε α) : List ε := (WriterT.run x).2

/-- Log one event. -/
def emit (e : ε) : Traced ε Unit := WriterT.mk ((), [e])

@[simp] theorem val_pure (a : α) : (pure a : Traced ε α).val = a := rfl
@[simp] theorem log_pure (a : α) : (pure a : Traced ε α).log = [] := rfl

@[simp] theorem val_bind (x : Traced ε α) (f : α → Traced ε β) :
    (x >>= f).val = (f x.val).val := rfl

@[simp] theorem log_bind (x : Traced ε α) (f : α → Traced ε β) :
    (x >>= f).log = x.log ++ (f x.val).log := rfl

@[simp] theorem val_emit (e : ε) : (emit e).val = () := rfl
@[simp] theorem log_emit (e : ε) : (emit e).log = [e] := rfl

/-! ## Invariants of the log -/

/-- Every event of `x` satisfies `P`. -/
def Always (P : ε → Prop) (x : Traced ε α) : Prop := ∀ e ∈ x.log, P e

@[simp] theorem always_pure (P : ε → Prop) (a : α) : Always P (pure a : Traced ε α) := by
  simp [Always]

@[simp] theorem always_emit (P : ε → Prop) (e : ε) : Always P (emit e) ↔ P e := by
  simp [Always]

@[simp] theorem always_bind (P : ε → Prop) (x : Traced ε α) (f : α → Traced ε β) :
    Always P (x >>= f) ↔ Always P x ∧ Always P (f x.val) := by
  simp [Always, or_imp, forall_and]

end Traced

end Nl80211.Lib
