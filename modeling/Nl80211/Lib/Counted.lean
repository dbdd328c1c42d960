/-
# Nl80211.Lib.Counted — objects that count the references to them.

A heap holds objects under handles, each with the number of references to it.  `get` takes one more,
`put` gives one back and frees the object with the last.  `Counts h refs` says that the heap counts
exactly the references `refs`, a multiset of handles; as long as a program only gives back what it
holds, the heap never sees a freed object (`Counts.put`), and when it holds nothing any more the
heap is empty (`Counts.empty`).
-/
import Mathlib

namespace Nl80211.Lib.Counted

variable {α : Type}

/-- A heap: for each handle the count and the contents of the object, or nothing when it has not
been allocated or has been freed.  `fault` is set when an object that is not there is touched.  The
count has no bound of its own: where a program keeps it in a machine word, its calls say when it is
full. -/
structure Heap (α : Type) where
  cells : Nat → Option (Nat × α) := fun _ => none
  next : Nat := 0
  fault : Bool := false

namespace Heap

/-- The number of references the heap has counted. -/
def count (h : Heap α) (k : Nat) : Nat := ((h.cells k).map Prod.fst).getD 0

/-- The contents of an object. -/
def contents (h : Heap α) (k : Nat) : Option α := (h.cells k).map Prod.snd

/-- A new object, with one reference. -/
def alloc (h : Heap α) (x : α) : Heap α :=
  { h with cells := Function.update h.cells h.next (some (1, x)), next := h.next + 1 }

/-- One more reference. -/
def get (h : Heap α) (k : Nat) : Heap α :=
  match h.cells k with
  | some (n, x) => { h with cells := Function.update h.cells k (some (n + 1, x)) }
  | none => { h with fault := true }

/-- One reference less; the last frees the object. -/
def put (h : Heap α) (k : Nat) : Heap α :=
  match h.cells k with
  | some (n, x) =>
      { h with cells := Function.update h.cells k (if n ≤ 1 then none else some (n - 1, x)) }
  | none => { h with fault := true }

/-- New contents. -/
def write (h : Heap α) (k : Nat) (x : α) : Heap α :=
  match h.cells k with
  | some (n, _) => { h with cells := Function.update h.cells k (some (n, x)) }
  | none => { h with fault := true }

end Heap

/-- The heap counts the references `refs` and nothing else, and has met no fault. -/
structure Counts (h : Heap α) (refs : Multiset Nat) : Prop where
  sound : h.fault = false
  fresh : ∀ k, h.next ≤ k → h.cells k = none
  count : ∀ k, h.count k = refs.count k
  positive : ∀ k n x, h.cells k = some (n, x) → 0 < n

namespace Counts

variable {h : Heap α} {refs : Multiset Nat} {k : Nat} {x : α}

/-- The heap before anything has been allocated. -/
theorem start : Counts ({} : Heap α) 0 where
  sound := rfl
  fresh := fun _ _ => rfl
  count := fun _ => rfl
  positive := nofun

/-- An object that is referenced is there. -/
theorem cell (hc : Counts h refs) (hk : k ∈ refs) : ∃ x, h.cells k = some (refs.count k, x) := by
  have hcount := hc.count k
  have hpos := Multiset.count_pos.mpr hk
  cases hcell : h.cells k with
  | none => simp [Heap.count, hcell] at hcount; omega
  | some c =>
      obtain ⟨n, x⟩ := c
      simp only [Heap.count, hcell, Option.map_some, Option.getD_some] at hcount
      exact ⟨x, by rw [hcount]⟩

/-- An object that nobody references is gone. -/
theorem none_of_not_mem (hc : Counts h refs) (hk : k ∉ refs) : h.cells k = none := by
  have hcount := hc.count k
  rw [Multiset.count_eq_zero_of_notMem hk] at hcount
  cases hcell : h.cells k with
  | none => rfl
  | some c =>
      have := hc.positive k c.1 c.2 hcell
      simp [Heap.count, hcell] at hcount
      omega

/-- Without references nothing is left on the heap. -/
theorem empty (hc : Counts h 0) (k : Nat) : h.cells k = none :=
  hc.none_of_not_mem (Multiset.notMem_zero k)

/-- The handles that are held lie below the next one. -/
theorem lt_next (hc : Counts h refs) (hk : k ∈ refs) : k < h.next := by
  by_contra hle
  obtain ⟨x, hcell⟩ := hc.cell hk
  rw [hc.fresh k (Nat.not_lt.mp hle)] at hcell
  cases hcell

/-- Replacing the count of one object. -/
theorem of_update (hc : Counts h refs) (hk : k < h.next) {refs' : Multiset Nat}
    {c : Option (Nat × α)} (hself : (c.map Prod.fst).getD 0 = refs'.count k)
    (hpos : ∀ n x, c = some (n, x) → 0 < n) (hother : ∀ j, j ≠ k → refs'.count j = refs.count j) :
    Counts { h with cells := Function.update h.cells k c } refs' where
  sound := hc.sound
  fresh := by
    intro j hj
    have hne : j ≠ k := Nat.ne_of_gt (Nat.lt_of_lt_of_le hk hj)
    simpa [hne] using hc.fresh j hj
  count := by
    intro j
    by_cases hjk : j = k
    · subst hjk
      simpa [Heap.count] using hself
    · rw [hother j hjk, ← hc.count j]
      simp [Heap.count, hjk]
  positive := by
    intro j n x hcell
    by_cases hjk : j = k
    · subst hjk
      exact hpos n x (by simpa using hcell)
    · exact hc.positive j n x (by simpa [hjk] using hcell)

/-- The caller of `alloc` holds the reference to the new object. -/
theorem alloc (hc : Counts h refs) (x : α) : Counts (h.alloc x) (h.next ::ₘ refs) := by
  have hnot : h.next ∉ refs := fun hk => Nat.lt_irrefl _ (hc.lt_next hk)
  have hgrown : Counts { h with next := h.next + 1 } refs :=
    ⟨hc.sound, fun k hk => hc.fresh k (by simp at hk; omega), hc.count, hc.positive⟩
  refine hgrown.of_update (k := h.next) (Nat.lt_succ_self _) ?_ ?_ ?_
  · simp [Multiset.count_eq_zero_of_notMem hnot]
  · rintro n x ⟨⟩
    exact Nat.one_pos
  · intro j hj
    exact Multiset.count_cons_of_ne hj refs

/-- Who holds a reference can take another. -/
theorem get (hc : Counts h refs) (hk : k ∈ refs) : Counts (h.get k) (k ::ₘ refs) := by
  obtain ⟨x, hcell⟩ := hc.cell hk
  rw [Heap.get, hcell]
  refine hc.of_update (hc.lt_next hk) ?_ ?_ ?_
  · simp
  · rintro n y ⟨⟩
    omega
  · intro j hj
    exact Multiset.count_cons_of_ne hj refs

/-- Who holds a reference can give it back. -/
theorem put (hc : Counts h (k ::ₘ refs)) : Counts (h.put k) refs := by
  obtain ⟨x, hcell⟩ := hc.cell (Multiset.mem_cons_self k refs)
  rw [Multiset.count_cons_self] at hcell
  rw [Heap.put, hcell]
  refine hc.of_update (hc.lt_next (Multiset.mem_cons_self k refs)) ?_ ?_ ?_
  · by_cases hlast : refs.count k = 0 <;> simp [hlast]
  · intro n y hn
    split at hn
    · cases hn
    · cases hn
      omega
  · intro j hj
    exact (Multiset.count_cons_of_ne hj refs).symm

/-- Who holds a reference can write to the object. -/
theorem write (hc : Counts h refs) (hk : k ∈ refs) (x : α) : Counts (h.write k x) refs := by
  obtain ⟨y, hcell⟩ := hc.cell hk
  rw [Heap.write, hcell]
  refine hc.of_update (hc.lt_next hk) ?_ ?_ ?_
  · simp
  · rintro n z ⟨⟩
    exact Multiset.count_pos.mpr hk
  · intro j _
    rfl

/-- Giving references back one by one. -/
theorem putAll {ks : List Nat} (hc : Counts h (ks + refs)) : Counts (ks.foldl Heap.put h) refs := by
  induction ks generalizing h with
  | nil => simpa using hc
  | cons k ks ih =>
      rw [← Multiset.cons_coe, Multiset.cons_add] at hc
      exact ih hc.put

end Counts

/-! ## What an operation does to the contents -/

namespace Heap

variable {h : Heap α} {j k : Nat} {x : α}

@[simp] theorem contents_alloc_self : (h.alloc x).contents h.next = some x := by
  simp [contents, alloc]

theorem contents_alloc_of_ne (hne : k ≠ h.next) : (h.alloc x).contents k = h.contents k := by
  simp [contents, alloc, hne]

@[simp] theorem contents_get : (h.get k).contents j = h.contents j := by
  rw [get]
  split
  · next n y hcell =>
      by_cases hjk : j = k
      · subst hjk
        simp [contents, hcell]
      · simp [contents, hjk]
  · rfl

theorem contents_put_of_ne (hne : j ≠ k) : (h.put k).contents j = h.contents j := by
  rw [put]
  split <;> simp [contents, hne]

theorem contents_write_self (hk : (h.cells k).isSome) : (h.write k x).contents k = some x := by
  obtain ⟨c, hcell⟩ := Option.isSome_iff_exists.mp hk
  simp [write, contents, hcell]

theorem contents_write_of_ne (hne : j ≠ k) : (h.write k x).contents j = h.contents j := by
  rw [write]
  split <;> simp [contents, hne]

/-! ## Operations that cancel -/

/-- An object can be allocated with its contents, or filled in afterwards. -/
theorem write_alloc (h : Heap α) (x y : α) : (h.alloc x).write h.next y = h.alloc y := by
  simp [write, alloc]

theorem write_write (hk : (h.cells k).isSome) (x y : α) :
    (h.write k x).write k y = h.write k y := by
  obtain ⟨c, hcell⟩ := Option.isSome_iff_exists.mp hk
  simp [write, hcell]

/-- A reference taken and given back. -/
theorem put_get {n : Nat} (hcell : h.cells k = some (n, x)) (hpos : 0 < n) :
    (h.get k).put k = h := by
  have hne : ¬ n + 1 ≤ 1 := by omega
  simp only [get, hcell, put, Function.update_self, if_neg hne, Nat.add_sub_cancel,
    Function.update_idem]
  rw [← hcell, Function.update_eq_self]

/-- An object allocated and freed leaves the other cells as they were. -/
theorem put_alloc (hfresh : h.cells h.next = none) (x : α) :
    (h.alloc x).put h.next = { h with next := h.next + 1 } := by
  simp only [alloc, put, Function.update_self, Nat.le_refl, if_true, Function.update_idem]
  rw [← hfresh, Function.update_eq_self]

theorem cells_alloc_self (h : Heap α) (x : α) : (h.alloc x).cells h.next = some (1, x) := by
  simp [alloc]

end Heap

namespace Counts

variable {h : Heap α} {refs : Multiset Nat}

/-- Handles that have been used up are no references. -/
theorem skip (hc : Counts h refs) (n : Nat) : Counts { h with next := h.next + n } refs where
  sound := hc.sound
  fresh := fun k hk => hc.fresh k (Nat.le_trans (Nat.le_add_right _ n) hk)
  count := hc.count
  positive := hc.positive

end Counts

end Nl80211.Lib.Counted
