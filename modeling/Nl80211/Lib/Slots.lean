/-
# Nl80211.Lib.Slots — a bitmap that hands out slots.

`m` words of `w` bits, one bit a slot.  `firstFree` looks for the first bit that is clear, word by
word and passing over the full ones; `mark` and `clear` take a slot and give it back.  `Owned b
slots` says that the bits set in `b` are the slots that are out, each of them once: as long as only
slots that are out are given back, no slot is ever out twice (`Owned.take`, `Owned.give`).
-/
import Mathlib

namespace Nl80211.Lib.Slots

variable {m w : Nat}

/-- The words of a bitmap. -/
abbrev Bitmap (m w : Nat) := Fin m → BitVec w

/-- A slot: the word and the bit in it. -/
abbrev Slot (m w : Nat) := Fin m × Fin w

/-- Slots are numbered through the words. -/
def Slot.index (s : Slot m w) : Nat := s.2 + s.1 * w

/-- The slot of a number. -/
def slotAt (k : Nat) (h : k < m * w) : Slot m w :=
  ⟨⟨k / w, Nat.div_lt_of_lt_mul (by rwa [Nat.mul_comm])⟩,
    ⟨k % w, Nat.mod_lt _ (Nat.pos_of_ne_zero fun h0 => by simp [h0] at h)⟩⟩

theorem Slot.index_lt (s : Slot m w) : s.index < m * w := by
  have hlt : (s.1 : Nat) * w + w ≤ m * w := by
    rw [← Nat.succ_mul]
    exact Nat.mul_le_mul_right w s.1.isLt
  have := s.2.isLt
  unfold Slot.index
  omega

/-- A slot is known by its number. -/
@[simp] theorem slotAt_index (s : Slot m w) (h : s.index < m * w) : slotAt s.index h = s := by
  have hpos : 0 < w := Nat.lt_of_le_of_lt (Nat.zero_le _) s.2.isLt
  refine Prod.ext (Fin.ext ?_) (Fin.ext ?_)
  · show (s.2 + s.1 * w : Nat) / w = s.1
    rw [Nat.add_mul_div_right _ _ hpos, Nat.div_eq_of_lt s.2.isLt, Nat.zero_add]
  · show (s.2 + s.1 * w : Nat) % w = s.2
    rw [Nat.add_mul_mod_self_right, Nat.mod_eq_of_lt s.2.isLt]

namespace Bitmap

/-- Whether a slot is out. -/
def marked (b : Bitmap m w) (s : Slot m w) : Bool := 1#w &&& (b s.1 >>> (s.2 : Nat)) ≠ 0#w

/-- Takes a slot. -/
def mark (b : Bitmap m w) (s : Slot m w) : Bitmap m w :=
  Function.update b s.1 (b s.1 ||| 1#w <<< (s.2 : Nat))

/-- Gives a slot back. -/
def clear (b : Bitmap m w) (s : Slot m w) : Bitmap m w :=
  Function.update b s.1 (b s.1 &&& ~~~(1#w <<< (s.2 : Nat)))

/-- The first slot that is not out. -/
def firstFree (b : Bitmap m w) : Option (Slot m w) :=
  (List.finRange m).findSome? fun i =>
    if b i = BitVec.allOnes w then none
    else ((List.finRange w).find? fun n => !b.marked (i, n)).map (i, ·)

/-- The bit of a slot in a word. -/
theorem getLsbD_bit (n k : Fin w) : (1#w <<< (n : Nat)).getLsbD k = decide (n = k) := by
  have hk := k.isLt
  rw [BitVec.getLsbD_shiftLeft, BitVec.getLsbD_one, Bool.eq_iff_iff]
  simp only [hk, decide_true, Bool.true_and, Bool.and_eq_true, Bool.not_eq_true', decide_eq_true_eq,
    decide_eq_false_iff_not, Fin.ext_iff]
  omega

theorem marked_eq (b : Bitmap m w) (s : Slot m w) : b.marked s = (b s.1).getLsbD s.2 := by
  have hpos : 0 < w := Nat.lt_of_le_of_lt (Nat.zero_le _) s.2.isLt
  have hlow (k : Nat) : (1#w &&& (b s.1 >>> (s.2 : Nat))).getLsbD k
      = (decide (k = 0) && (b s.1).getLsbD s.2) := by
    rw [BitVec.getLsbD_and, BitVec.getLsbD_one, BitVec.getLsbD_ushiftRight]
    rcases Nat.eq_zero_or_pos k with rfl | hk
    · simp only [hpos, decide_true, Bool.true_and, Nat.add_zero]
    · simp only [Nat.ne_of_gt hk, decide_false, Bool.and_false, Bool.false_and]
  cases hbit : (b s.1).getLsbD s.2 with
  | true =>
      rw [marked, decide_eq_true_eq]
      intro h0
      have h := hlow 0
      rw [h0, hbit, BitVec.getLsbD_zero] at h
      cases h
  | false =>
      rw [marked, decide_eq_false_iff_not, not_not]
      refine BitVec.eq_of_getLsbD_eq fun k hk => ?_
      rw [hlow, hbit, Bool.and_false, BitVec.getLsbD_zero]

theorem marked_mark (b : Bitmap m w) (s t : Slot m w) :
    (b.mark s).marked t = (b.marked t || s = t) := by
  obtain ⟨i, n⟩ := s
  obtain ⟨j, k⟩ := t
  rw [marked_eq, marked_eq]
  by_cases hij : j = i
  · subst hij
    show (Function.update b j (b j ||| 1#w <<< (n : Nat)) j).getLsbD k = _
    rw [Function.update_self, BitVec.getLsbD_or, getLsbD_bit]
    simp only [Prod.mk.injEq, true_and]
  · show (Function.update b i (b i ||| 1#w <<< (n : Nat)) j).getLsbD k = _
    rw [Function.update_of_ne hij]
    simp only [Prod.mk.injEq, Ne.symm hij, false_and, decide_false, Bool.or_false]

theorem marked_clear (b : Bitmap m w) (s t : Slot m w) :
    (b.clear s).marked t = (b.marked t && s ≠ t) := by
  obtain ⟨i, n⟩ := s
  obtain ⟨j, k⟩ := t
  have hk := k.isLt
  rw [marked_eq, marked_eq]
  by_cases hij : j = i
  · subst hij
    show (Function.update b j (b j &&& ~~~(1#w <<< (n : Nat))) j).getLsbD k = _
    rw [Function.update_self, BitVec.getLsbD_and, BitVec.getLsbD_not, getLsbD_bit]
    simp only [hk, decide_true, Bool.true_and, ne_eq, Prod.mk.injEq, true_and, decide_not]
  · show (Function.update b i (b i &&& ~~~(1#w <<< (n : Nat))) j).getLsbD k = _
    rw [Function.update_of_ne hij]
    simp only [ne_eq, Prod.mk.injEq, Ne.symm hij, false_and, not_false_eq_true, decide_true,
      Bool.and_true]

/-- A word with every bit set is full. -/
theorem marked_of_full {b : Bitmap m w} {i : Fin m} (h : b i = BitVec.allOnes w) (n : Fin w) :
    b.marked (i, n) = true := by
  rw [marked_eq, h, BitVec.getLsbD_allOnes]
  exact decide_eq_true n.isLt

/-- What `firstFree` finds is free. -/
theorem firstFree_free {b : Bitmap m w} {s : Slot m w} (h : b.firstFree = some s) :
    b.marked s = false := by
  obtain ⟨i, -, hi⟩ := List.exists_of_findSome?_eq_some h
  split at hi
  · cases hi
  · obtain ⟨n, hn, rfl⟩ := Option.map_eq_some_iff.mp hi
    simpa using List.find?_some hn

/-- Where `firstFree` finds nothing, every slot is out. -/
theorem firstFree_none {b : Bitmap m w} (h : b.firstFree = none) (s : Slot m w) :
    b.marked s = true := by
  have hi := List.findSome?_eq_none_iff.mp h s.1 (List.mem_finRange s.1)
  split at hi
  · exact marked_of_full ‹_› s.2
  · have hn := List.find?_eq_none.mp (Option.map_eq_none_iff.mp hi) s.2 (List.mem_finRange s.2)
    simpa using hn

end Bitmap

/-- The slots that are out: each once, and the bits that are set. -/
structure Owned (b : Bitmap m w) (slots : Multiset (Slot m w)) : Prop where
  nodup : slots.Nodup
  marked : ∀ s, b.marked s = true ↔ s ∈ slots

namespace Owned

variable {b : Bitmap m w} {slots : Multiset (Slot m w)} {s : Slot m w}

/-- Before any slot has been taken. -/
theorem start : Owned (fun _ => 0#w : Bitmap m w) 0 where
  nodup := Multiset.nodup_zero
  marked := by
    intro s
    simp [Bitmap.marked_eq]

/-- A slot that is out is not free. -/
theorem not_mem_of_free (ho : Owned b slots) (h : b.firstFree = some s) : s ∉ slots := by
  rw [← ho.marked, Bitmap.firstFree_free h]
  exact Bool.false_ne_true

/-- The first free slot can be taken. -/
theorem take (ho : Owned b slots) (h : b.firstFree = some s) : Owned (b.mark s) (s ::ₘ slots) where
  nodup := Multiset.nodup_cons.mpr ⟨ho.not_mem_of_free h, ho.nodup⟩
  marked := by
    intro t
    rw [Bitmap.marked_mark, Bool.or_eq_true, ho.marked, decide_eq_true_eq, Multiset.mem_cons]
    exact ⟨fun h => h.symm.imp_left Eq.symm, fun h => h.symm.imp_right Eq.symm⟩

/-- Who has a slot can give it back. -/
theorem give (ho : Owned b (s ::ₘ slots)) : Owned (b.clear s) slots where
  nodup := (Multiset.nodup_cons.mp ho.nodup).2
  marked := by
    intro t
    rw [Bitmap.marked_clear, Bool.and_eq_true, ho.marked, decide_eq_true_eq, Multiset.mem_cons]
    constructor
    · rintro ⟨rfl | ht, hne⟩
      · exact absurd rfl hne
      · exact ht
    · intro ht
      refine ⟨Or.inr ht, ?_⟩
      rintro rfl
      exact (Multiset.nodup_cons.mp ho.nodup).1 ht

/-- Nothing out, no bit set. -/
theorem empty (ho : Owned b 0) : b = fun _ => 0#w := by
  funext i
  refine BitVec.eq_of_getLsbD_eq fun k hk => ?_
  have hbit := Bitmap.marked_eq b (i, ⟨k, hk⟩)
  rw [Bool.eq_false_iff.mpr fun hm => Multiset.notMem_zero _ ((ho.marked _).mp hm)] at hbit
  rw [← hbit]
  simp

/-- When there is no free slot, all of them are out. -/
theorem full (ho : Owned b slots) (h : b.firstFree = none) : Multiset.card slots = m * w := by
  have hall : (⟨slots, ho.nodup⟩ : Finset (Slot m w)) = Finset.univ :=
    Finset.eq_univ_of_forall fun s => (ho.marked s).mp (Bitmap.firstFree_none h s)
  have hcard := congrArg Finset.card hall
  rwa [Finset.card_mk, Finset.card_univ, Fintype.card_prod, Fintype.card_fin, Fintype.card_fin]
    at hcard

/-- There are no more slots than bits. -/
theorem card_le (ho : Owned b slots) : Multiset.card slots ≤ m * w := by
  have hcard := Finset.card_le_univ (⟨slots, ho.nodup⟩ : Finset (Slot m w))
  rwa [Finset.card_mk, Fintype.card_prod, Fintype.card_fin, Fintype.card_fin] at hcard

end Owned

end Nl80211.Lib.Slots
