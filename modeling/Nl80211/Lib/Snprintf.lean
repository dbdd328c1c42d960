/-
# Nl80211.Lib.Snprintf — a text put together with `snprintf`, piece by piece.

`pos += snprintf(pos, size - (pos - buf), ...)`: each piece is cut to the room that is left, but
`pos` moves on by the whole of it.  The text is cut once, at the end of the block, as long as no
call starts behind it; a call that does is told of a room that is a huge unsigned number, and writes
there.  Which of the two happens is decided by the pieces before the last (`appendAll_outside`).
-/
import Nl80211.Lib.Bytes

namespace Nl80211.Lib.Snprintf

open Bytes

/-- `size_t` holds the numbers below this. -/
def sizeMax : Nat := 2 ^ 64

/-- What `snprintf(_, n, ...)` writes of a text. -/
def snprintf (n : Nat) (text : List UInt8) : List UInt8 :=
  if n = 0 then [] else text.take (n - 1) ++ [0]

/-- A block with a text in it: its octets, where the next piece goes, and whether something was
written behind its end. -/
structure Block where
  cells : Mem
  pos : Nat := 0
  outside : Bool := false

namespace Block

/-- `pos += snprintf(pos, size - (pos - buf), ...)`. -/
def append (size : Nat) (b : Block) (text : List UInt8) : Block :=
  let written := snprintf (((size : Int) - b.pos) % sizeMax).toNat text
  { cells := store b.cells b.pos written
    pos := b.pos + text.length
    outside := b.outside || b.cells.length < b.pos + written.length }

/-- One piece after the other. -/
def appendAll (size : Nat) (b : Block) (texts : List (List UInt8)) : Block :=
  texts.foldl (append size) b

theorem appendAll_append (size : Nat) (b : Block) (as bs : List (List UInt8)) :
    b.appendAll size (as ++ bs) = (b.appendAll size as).appendAll size bs :=
  List.foldl_append

@[simp] theorem append_cells_length (size : Nat) (b : Block) (text : List UInt8) :
    (b.append size text).cells.length = b.cells.length :=
  store_length _ _ _

@[simp] theorem append_pos (size : Nat) (b : Block) (text : List UInt8) :
    (b.append size text).pos = b.pos + text.length := rfl

@[simp] theorem appendAll_cells_length (size : Nat) (b : Block) (texts : List (List UInt8)) :
    (b.appendAll size texts).cells.length = b.cells.length := by
  induction texts generalizing b with
  | nil => rfl
  | cons t texts ih => exact (ih (b.append size t)).trans (append_cells_length size b t)

theorem appendAll_pos (size : Nat) (b : Block) (texts : List (List UInt8)) :
    (b.appendAll size texts).pos = b.pos + texts.flatten.length := by
  induction texts generalizing b with
  | nil => rfl
  | cons t texts ih =>
      rw [List.flatten_cons, List.length_append, ← Nat.add_assoc]
      exact ih (b.append size t)

end Block

theorem snprintf_pos {n : Nat} (hn : 0 < n) (text : List UInt8) :
    snprintf n text = text.take (n - 1) ++ [0] :=
  if_neg (by omega)

/-- It never writes more than it is told to. -/
theorem snprintf_length_le (n : Nat) (text : List UInt8) : (snprintf n text).length ≤ n := by
  unfold snprintf
  split
  · exact Nat.zero_le n
  · rw [List.length_append, List.length_take, List.length_singleton]
    omega

/-! ## Where a call writes -/

section Call

variable {size : Nat} {b : Block} (hsize : b.cells.length = size) (hmax : size < sizeMax)
include hsize hmax

/-- A call that starts in the block, or at its end, stays in it. -/
theorem append_of_le (hpos : b.pos ≤ size) (text : List UInt8) :
    b.append size text =
      ⟨store b.cells b.pos (snprintf (size - b.pos) text), b.pos + text.length, b.outside⟩ := by
  have hroom : (((size : Int) - b.pos) % sizeMax).toNat = size - b.pos := by
    rw [Int.emod_eq_of_lt (by omega) (by omega)]
    omega
  have hle := snprintf_length_le (size - b.pos) text
  have hin : ¬ b.cells.length < b.pos + (snprintf (size - b.pos) text).length := by omega
  unfold Block.append
  rw [hroom]
  simp only [hin, decide_false, Bool.or_false]

omit hmax in
/-- A call that starts behind the block writes there. -/
theorem append_outside_of_lt (hpos : size < b.pos) (hwrap : b.pos < sizeMax) (text : List UInt8) :
    (b.append size text).outside = true := by
  have hroom : 0 < (((size : Int) - b.pos) % sizeMax).toNat := by
    have hadd : ((size : Int) - b.pos) % sizeMax = (size : Int) - b.pos + sizeMax := by
      rw [← Int.add_emod_right, Int.emod_eq_of_lt (by omega) (by omega)]
    rw [hadd]
    omega
  unfold Block.append
  rw [snprintf_pos hroom]
  simp only [List.length_append, List.length_singleton, Bool.or_eq_true, decide_eq_true_eq]
  omega

/-- Once outside, always. -/
theorem append_outside (hwrap : b.pos < sizeMax) (text : List UInt8) :
    (b.append size text).outside = true ↔ b.outside = true ∨ size < b.pos := by
  by_cases hpos : b.pos ≤ size
  · rw [append_of_le hsize hmax hpos]
    exact ⟨.inl, fun h => h.resolve_right (by omega)⟩
  · exact ⟨fun _ => .inr (by omega), fun _ => append_outside_of_lt hsize (by omega) hwrap text⟩

end Call

/-! ## A whole text -/

theorem flatten_dropLast_length_le (texts : List (List UInt8)) :
    texts.dropLast.flatten.length ≤ texts.flatten.length :=
  ((List.dropLast_sublist texts).flatten).length_le

/-- A piece that starts on the terminator of the text so far, or at the end of the block, continues
the text. -/
theorem store_snprintf_snprintf {cells : Mem} {size : Nat} {text : List UInt8}
    (hle : text.length ≤ size)
    (piece : List UInt8) :
    store (store cells 0 (snprintf size text)) text.length (snprintf (size - text.length) piece) =
      store cells 0 (snprintf size (text ++ piece)) := by
  rcases Nat.lt_or_ge text.length size with hlt | hge
  · have hcont :=
      store_store_append cells 0 text (piece.take (size - text.length - 1) ++ [0]) 0 (by simp)
    rw [Nat.zero_add] at hcont
    rw [snprintf_pos (by omega), snprintf_pos (by omega), snprintf_pos (by omega),
      List.take_of_length_le (by omega), hcont, List.take_append,
      List.take_of_length_le (l := text) (by omega), List.append_assoc, Nat.sub_right_comm]
  · have hfull : size - text.length = 0 := by omega
    have hstore (m : Mem) (i : Nat) : store m i [] = m := by
      rw [store, List.nil_append, List.length_nil, Nat.add_zero,
        List.take_of_length_le (l := m.drop i) (by rw [List.length_drop]), List.take_append_drop]
    rw [hfull, snprintf, snprintf, if_pos rfl, hstore, snprintf]
    split
    · rfl
    · rw [List.take_append_of_le_length (by omega)]

section Text

variable {size : Nat} {cells : Mem} (hsize : cells.length = size) (hmax : size < sizeMax)
include hsize hmax

/-- Some call starts behind the block: the pieces before the last do not fit in it. -/
theorem appendAll_outside (texts : List (List UInt8)) (hwrap : texts.flatten.length < sizeMax) :
    (Block.appendAll size ⟨cells, 0, false⟩ texts).outside = true ↔
      size < texts.dropLast.flatten.length := by
  induction texts using List.reverseRecOn with
  | nil => simp [Block.appendAll]
  | append_singleton texts t ih =>
      rw [List.flatten_append, List.length_append] at hwrap
      have hpos : (Block.appendAll size ⟨cells, 0, false⟩ texts).pos = texts.flatten.length :=
        (Block.appendAll_pos size _ texts).trans (Nat.zero_add _)
      have hcells := (Block.appendAll_cells_length size ⟨cells, 0, false⟩ texts).trans hsize
      have hle := flatten_dropLast_length_le texts
      rw [Block.appendAll_append, List.dropLast_concat]
      show (Block.append size _ t).outside = true ↔ _
      rw [append_outside hcells hmax (by omega), ih (by omega), hpos]
      omega

/-- What stands in the block as long as the calls stay in it: the text, cut to the block. -/
theorem appendAll_cells {texts : List (List UInt8)} (hne : texts ≠ [])
    (hin : texts.dropLast.flatten.length ≤ size) :
    (Block.appendAll size ⟨cells, 0, false⟩ texts).cells =
      store cells 0 (snprintf size texts.flatten) := by
  induction texts using List.reverseRecOn with
  | nil => exact absurd rfl hne
  | append_singleton texts t ih =>
      rw [List.dropLast_concat] at hin
      have hpos : (Block.appendAll size ⟨cells, 0, false⟩ texts).pos = texts.flatten.length :=
        (Block.appendAll_pos size _ texts).trans (Nat.zero_add _)
      have hcells := (Block.appendAll_cells_length size ⟨cells, 0, false⟩ texts).trans hsize
      have hle := flatten_dropLast_length_le texts
      rw [Block.appendAll_append, List.flatten_append, List.flatten_singleton]
      show (Block.append size _ t).cells = _
      rw [append_of_le hcells hmax (by omega), hpos]
      rcases List.eq_nil_or_concat texts with rfl | ⟨init, last, rfl⟩
      · rfl
      · show store _ _ _ = _
        rw [ih (by simp) (by omega), store_snprintf_snprintf hin]

/-- The text as a C string: whole when the block has room for it and for the terminator. -/
theorem cstr_appendAll {texts : List (List UInt8)} (hpos : 0 < size) (hne : texts ≠ [])
    (hin : texts.dropLast.flatten.length ≤ size) (hzero : ∀ x ∈ texts.flatten, x ≠ 0) :
    cstr (Block.appendAll size ⟨cells, 0, false⟩ texts).cells 0 =
      texts.flatten.take (size - 1) := by
  rw [appendAll_cells hsize hmax hne hin, snprintf_pos hpos]
  refine cstr_of_octets (fun x hx => hzero x (List.mem_of_mem_take hx)) ?_
  have hself := @octets_store_self cells 0 (texts.flatten.take (size - 1) ++ [0]) (by
    rw [List.length_append, List.length_take, List.length_singleton]
    omega)
  rwa [List.length_append, List.length_singleton] at hself

end Text

end Nl80211.Lib.Snprintf
