/-
# Nl80211.Lib.Lines — texts made of lines, and filters on lines.

A line is what ends with a separator.  `sift` keeps the lines that a test lets through, as `grep`
does; a text is `Quiet` when it is made of whole lines and none of them passes, so that it can be
left out of whatever it stands in.
-/
import Mathlib

namespace Nl80211.Lib.Lines

variable {α β : Type}

/-- Lines as they are printed. -/
def unlines (nl : α) (ls : List (List α)) : List α := ls.flatMap (· ++ [nl])

/-! ## Whole lines -/

/-- The text is made of whole lines, of characters with `P`. -/
def Whole (P : α → Prop) (nl : α) (t : List α) : Prop :=
  ∃ ls : List (List α), (∀ l ∈ ls, ∀ c ∈ l, P c) ∧ t = unlines nl ls

namespace Whole

variable {P : α → Prop} {nl : α} {t u : List α}

theorem nil : Whole P nl [] := ⟨[], by simp, rfl⟩

theorem line (h : ∀ c ∈ t, P c) : Whole P nl (t ++ [nl]) :=
  ⟨[t], by simpa using h, by rw [unlines, List.flatMap_singleton]⟩

theorem append (ht : Whole P nl t) (hu : Whole P nl u) : Whole P nl (t ++ u) := by
  obtain ⟨ls, hls, rfl⟩ := ht
  obtain ⟨ms, hms, rfl⟩ := hu
  refine ⟨ls ++ ms, fun l hl => ?_, by rw [unlines, unlines, unlines, List.flatMap_append]⟩
  rcases List.mem_append.mp hl with h | h
  · exact hls l h
  · exact hms l h

theorem flatMap {f : β → List α} {bs : List β} (h : ∀ b ∈ bs, Whole P nl (f b)) :
    Whole P nl (bs.flatMap f) := by
  induction bs with
  | nil => exact nil
  | cons b bs ih =>
      obtain ⟨hb, hbs⟩ := List.forall_mem_cons.mp h
      exact append hb (ih hbs)

end Whole

/-! ## Filters -/

section Filter

variable [DecidableEq α]

/-- The lines of a text, without their separators; what is left behind the last separator counts
too. -/
def lines (nl : α) : List α → List (List α)
  | [] => []
  | c :: s =>
      if c = nl then [] :: lines nl s
      else
        match lines nl s with
        | [] => [[c]]
        | l :: ls => (c :: l) :: ls

/-- The lines that pass, each with its separator. -/
def sift (nl : α) (p : List α → Bool) (s : List α) : List α := unlines nl ((lines nl s).filter p)

variable {nl : α} {p : List α → Bool} {t u : List α}

theorem lines_append (h : nl ∉ t) (s : List α) : lines nl (t ++ nl :: s) = t :: lines nl s := by
  induction t with
  | nil => rw [List.nil_append, lines, if_pos rfl]
  | cons c t ih =>
      rw [List.mem_cons, not_or] at h
      rw [List.cons_append, lines, if_neg (Ne.symm h.1), ih h.2]

theorem sift_append (h : nl ∉ t) (s : List α) :
    sift nl p (t ++ nl :: s) = (if p t then t ++ [nl] else []) ++ sift nl p s := by
  rw [sift, lines_append h, List.filter_cons]
  split
  · rw [unlines, List.flatMap_cons]
    rfl
  · rfl

/-- Whole lines are sifted one by one. -/
theorem sift_unlines {ls : List (List α)} (h : ∀ l ∈ ls, nl ∉ l) (s : List α) :
    sift nl p (unlines nl ls ++ s) = unlines nl (ls.filter p) ++ sift nl p s := by
  induction ls with
  | nil => rfl
  | cons l ls ih =>
      obtain ⟨hl, hls⟩ := List.forall_mem_cons.mp h
      have hcons : unlines nl (l :: ls) ++ s = l ++ nl :: (unlines nl ls ++ s) := by
        rw [unlines, List.flatMap_cons, List.append_assoc, List.append_assoc]
        rfl
      rw [hcons, sift_append hl, ih hls, List.filter_cons]
      split
      · rw [unlines, unlines, List.flatMap_cons, List.append_assoc (l ++ [nl])]
      · rfl

/-- The text can be left out: whole lines, none of which passes. -/
def Quiet (nl : α) (p : List α → Bool) (t : List α) : Prop := ∀ s, sift nl p (t ++ s) = sift nl p s

namespace Quiet

theorem nil : Quiet nl p [] := fun _ => rfl

theorem line (h : nl ∉ t) (hp : p t = false) : Quiet nl p (t ++ [nl]) := by
  intro s
  rw [List.append_assoc, List.singleton_append, sift_append h, hp]
  rfl

/-- Nothing comes out of it. -/
theorem sift_eq_nil (h : Quiet nl p t) : sift nl p t = [] := by
  rw [← List.append_nil t, h]
  rfl

theorem append (ht : Quiet nl p t) (hu : Quiet nl p u) : Quiet nl p (t ++ u) := by
  intro s
  rw [List.append_assoc, ht, hu]

theorem flatMap {f : β → List α} {bs : List β} (h : ∀ b ∈ bs, Quiet nl p (f b)) :
    Quiet nl p (bs.flatMap f) := by
  induction bs with
  | nil => exact nil
  | cons b bs ih =>
      obtain ⟨hb, hbs⟩ := List.forall_mem_cons.mp h
      exact append hb (ih hbs)

end Quiet

end Filter

end Nl80211.Lib.Lines
