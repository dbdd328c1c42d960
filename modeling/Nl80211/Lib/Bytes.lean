/-
# Nl80211.Lib.Bytes — octets in flat memory.

A memory is a list of octets starting at address `0`; every address past the list reads as zero, so
reads are total.  On top of it: little-endian words, four-octet alignment, C strings (the octets up
to the first zero) and in-place stores into a block of fixed size.  Nothing here knows which program
the octets belong to.
-/
import Mathlib

namespace Nl80211.Lib.Bytes

/-- A memory image: the octets from address `0` on. -/
abbrev Mem := List UInt8

/-! ## Reads -/

/-- The octet at address `i`. -/
def rd8 (m : Mem) (i : Nat) : UInt8 := m.getD i 0

/-- The little-endian 16-bit word at address `i`. -/
def rd16 (m : Mem) (i : Nat) : Nat := (rd8 m i).toNat + 256 * (rd8 m (i + 1)).toNat

/-- The little-endian 32-bit word at address `i`. -/
def rd32 (m : Mem) (i : Nat) : Nat := rd16 m i + 65536 * rd16 m (i + 2)

/-- The octets of a text. -/
def ascii (s : String) : List UInt8 := s.toList.map fun c => UInt8.ofNat c.toNat

/-- The `n` octets from address `i` on. -/
def octets (m : Mem) (i n : Nat) : List UInt8 := (List.range n).map fun k => rd8 m (i + k)

theorem rd8_of_length_le {m : Mem} {i : Nat} (h : m.length ≤ i) : rd8 m i = 0 := by
  simp [rd8, List.getElem?_eq_none h]

theorem rd8_of_lt {m : Mem} {i : Nat} (h : i < m.length) : rd8 m i = m[i] := by
  simp [rd8, h]

theorem rd8_append_left {a b : Mem} {i : Nat} (h : i < a.length) : rd8 (a ++ b) i = rd8 a i := by
  simp [rd8, List.getElem?_append_left h]

theorem rd8_append_right (a b : Mem) (k : Nat) : rd8 (a ++ b) (a.length + k) = rd8 b k := by
  simp [rd8, List.getElem?_append_right]

theorem rd8_append_of_le {a b : Mem} {i : Nat} (h : a.length ≤ i) :
    rd8 (a ++ b) i = rd8 b (i - a.length) := by
  obtain ⟨k, rfl⟩ := Nat.exists_eq_add_of_le h
  simp [rd8_append_right]

theorem rd16_lt (m : Mem) (i : Nat) : rd16 m i < 65536 := by
  have h₀ := (rd8 m i).toNat_lt
  have h₁ := (rd8 m (i + 1)).toNat_lt
  unfold rd16
  omega

theorem rd32_lt (m : Mem) (i : Nat) : rd32 m i < 4294967296 := by
  have h₀ := rd16_lt m i
  have h₁ := rd16_lt m (i + 2)
  unfold rd32
  omega

theorem rd16_of_length_le {m : Mem} {i : Nat} (h : m.length ≤ i) : rd16 m i = 0 := by
  simp [rd16, rd8_of_length_le h, rd8_of_length_le (Nat.le_succ_of_le h)]

theorem rd16_append_right (a b : Mem) (k : Nat) : rd16 (a ++ b) (a.length + k) = rd16 b k := by
  simp [rd16, rd8_append_right, Nat.add_assoc]

theorem rd32_append_right (a b : Mem) (k : Nat) : rd32 (a ++ b) (a.length + k) = rd32 b k := by
  simp [rd32, rd16_append_right, Nat.add_assoc]

theorem rd16_append_left {a b : Mem} {i : Nat} (h : i + 2 ≤ a.length) :
    rd16 (a ++ b) i = rd16 a i := by
  simp [rd16, rd8_append_left (show i < a.length by omega),
    rd8_append_left (show i + 1 < a.length by omega)]

theorem rd32_append_left {a b : Mem} {i : Nat} (h : i + 4 ≤ a.length) :
    rd32 (a ++ b) i = rd32 a i := by
  simp [rd32, rd16_append_left (show i + 2 ≤ a.length by omega),
    rd16_append_left (show i + 2 + 2 ≤ a.length by omega)]

@[simp] theorem octets_length (m : Mem) (i n : Nat) : (octets m i n).length = n := by
  simp [octets]

@[simp] theorem octets_zero (m : Mem) (i : Nat) : octets m i 0 = [] := rfl

theorem octets_getElem {m : Mem} {i n k : Nat} (h : k < (octets m i n).length) :
    (octets m i n)[k] = rd8 m (i + k) := by
  simp [octets]

theorem octets_congr {m m' : Mem} {i i' n : Nat}
    (h : ∀ k, k < n → rd8 m (i + k) = rd8 m' (i' + k)) : octets m i n = octets m' i' n :=
  List.map_congr_left fun k hk => h k (List.mem_range.mp hk)

theorem octets_add (m : Mem) (i a b : Nat) :
    octets m i (a + b) = octets m i a ++ octets m (i + a) b := by
  simp [octets, List.range_add, Nat.add_assoc]

theorem octets_append_right (a b : Mem) (k n : Nat) :
    octets (a ++ b) (a.length + k) n = octets b k n :=
  octets_congr fun j _ => by rw [Nat.add_assoc, rd8_append_right]

/-- A 32-bit word is determined by its four octets. -/
theorem rd32_congr {m m' : Mem} {i i' : Nat} (h : octets m i 4 = octets m' i' 4) :
    rd32 m i = rd32 m' i' := by
  have get : ∀ k, k < 4 → rd8 m (i + k) = rd8 m' (i' + k) := fun k hk => by
    simpa [octets, hk] using congrArg (·[k]?) h
  have h₀ := get 0 (by omega)
  have h₁ := get 1 (by omega)
  have h₂ := get 2 (by omega)
  have h₃ := get 3 (by omega)
  simp only [rd32, rd16, Nat.add_assoc, Nat.reduceAdd, Nat.add_zero] at *
  rw [h₀, h₁, h₂, h₃]

theorem octets_self_append (a b : Mem) : octets (a ++ b) 0 a.length = a := by
  apply List.ext_getElem (by simp)
  intro k hk ha
  rw [octets_getElem, Nat.zero_add, rd8_append_left ha, rd8_of_lt ha]

/-! ## Little-endian encodings -/

/-- The two octets of a 16-bit word. -/
def le16 (n : Nat) : List UInt8 := [UInt8.ofNat n, UInt8.ofNat (n / 256)]

/-- The four octets of a 32-bit word. -/
def le32 (n : Nat) : List UInt8 := le16 n ++ le16 (n / 65536)

/-- `n` as a little-endian 64-bit value. -/
def le64 (n : Nat) : List UInt8 := le32 n ++ le32 (n / 4294967296)

@[simp] theorem le16_length (n : Nat) : (le16 n).length = 2 := rfl
@[simp] theorem le32_length (n : Nat) : (le32 n).length = 4 := rfl

theorem rd16_le16 (n : Nat) (b : Mem) : rd16 (le16 n ++ b) 0 = n % 65536 := by
  simp [rd16, rd8, le16]
  omega

theorem rd32_le32 (n : Nat) (b : Mem) : rd32 (le32 n ++ b) 0 = n % 4294967296 := by
  simp [rd32, rd16, rd8, le32, le16]
  omega

theorem rd32_of_octets {m : Mem} {i n : Nat} (h : octets m i (le32 n).length = le32 n) :
    rd32 m i = n % 4294967296 := by
  have h' : octets m i 4 = octets (le32 n ++ []) 0 4 :=
    h.trans (octets_self_append (le32 n) []).symm
  rw [rd32_congr h', rd32_le32]

/-! ## Two's complement -/

/-- The `int` whose 32-bit pattern is `n`. -/
def toInt32 (n : Nat) : Int :=
  if n % 4294967296 < 2147483648 then (n % 4294967296 : Nat)
  else (n % 4294967296 : Nat) - 4294967296

/-- The 32-bit pattern of an `int`. -/
def ofInt32 (v : Int) : Nat := (v % 4294967296).toNat

theorem toInt32_of_lt {n : Nat} (h : n < 2147483648) : toInt32 n = n := by
  unfold toInt32
  split <;> omega

/-- The sign of an `int` in memory is that of its last octet. -/
theorem toInt32_rd32_nonneg_iff {m : Mem} {i : Nat} :
    0 ≤ toInt32 (rd32 m i) ↔ rd8 m (i + 3) < 128 := by
  have h₀ := rd16_lt m i
  have h₂ := (rd8 m (i + 2)).toNat_lt
  have h₃ := (rd8 m (i + 3)).toNat_lt
  rw [UInt8.lt_iff_toNat_lt]
  have hword : rd32 m i =
      rd16 m i + 65536 * ((rd8 m (i + 2)).toNat + 256 * (rd8 m (i + 3)).toNat) := rfl
  rw [toInt32, hword, Nat.mod_eq_of_lt (by omega)]
  have h128 : (128 : UInt8).toNat = 128 := rfl
  split <;> omega

/-- `-1` is four octets of 255. -/
theorem toInt32_rd32_eq_neg_one_iff {m : Mem} {i : Nat} :
    toInt32 (rd32 m i) = -1 ↔ ∀ k < 4, rd8 m (i + k) = 255 := by
  have octet (x : UInt8) : x = 255 ↔ x.toNat = 255 := by
    rw [← UInt8.toNat_inj]
    rfl
  have hfour (p : Nat → Prop) : (∀ k < 4, p k) ↔ p 0 ∧ p 1 ∧ p 2 ∧ p 3 :=
    ⟨fun h => ⟨h 0 (by omega), h 1 (by omega), h 2 (by omega), h 3 (by omega)⟩, by
      rintro ⟨h₀, h₁, h₂, h₃⟩ k hk
      match k, hk with
      | 0, _ => exact h₀
      | 1, _ => exact h₁
      | 2, _ => exact h₂
      | 3, _ => exact h₃⟩
  have hword : rd32 m i = (rd8 m i).toNat + 256 * (rd8 m (i + 1)).toNat +
      65536 * ((rd8 m (i + 2)).toNat + 256 * (rd8 m (i + 3)).toNat) := rfl
  have h₀ := (rd8 m i).toNat_lt
  have h₁ := (rd8 m (i + 1)).toNat_lt
  have h₂ := (rd8 m (i + 2)).toNat_lt
  have h₃ := (rd8 m (i + 3)).toNat_lt
  simp only [hfour, octet, Nat.add_zero]
  rw [toInt32, Nat.mod_eq_of_lt (rd32_lt m i), hword]
  constructor
  · intro h
    split at h <;> omega
  · rintro ⟨e₀, e₁, e₂, e₃⟩
    rw [e₀, e₁, e₂, e₃]
    decide

theorem toInt32_ofInt32 {v : Int} (hl : -2147483648 ≤ v) (hu : v < 2147483648) :
    toInt32 (ofInt32 v) = v := by
  unfold toInt32 ofInt32
  split <;> omega

/-! ## Alignment to four octets -/

/-- `n` rounded up to a multiple of four. -/
def align4 (n : Nat) : Nat := (n + 3) / 4 * 4

theorem le_align4 (n : Nat) : n ≤ align4 n := by unfold align4; omega
theorem align4_lt (n : Nat) : align4 n < n + 4 := by unfold align4; omega
theorem align4_mod (n : Nat) : align4 n % 4 = 0 := by unfold align4; omega

theorem align4_of_mod {n : Nat} (h : n % 4 = 0) : align4 n = n := by unfold align4; omega

theorem align4_add {n : Nat} (m : Nat) (h : n % 4 = 0) : align4 (n + m) = n + align4 m := by
  unfold align4; omega

/-- `bs` followed by zero octets up to a multiple of four. -/
def pad4 (bs : List UInt8) : List UInt8 :=
  bs ++ List.replicate (align4 bs.length - bs.length) 0

@[simp] theorem pad4_length (bs : List UInt8) : (pad4 bs).length = align4 bs.length := by
  have := le_align4 bs.length
  simp [pad4]
  omega

/-! ## C strings -/

/-- The C string at address `i`: the octets before the first zero. -/
def cstr (m : Mem) (i : Nat) : List UInt8 := (m.drop i).takeWhile (· ≠ 0)

theorem ne_zero_of_mem_cstr {m : Mem} {i : Nat} {x : UInt8} (h : x ∈ cstr m i) : x ≠ 0 := by
  have := List.all_eq_true.mp List.all_takeWhile x h
  simpa using this

theorem cstr_cons_of_ne {m : Mem} {i : Nat} (h : rd8 m i ≠ 0) :
    cstr m i = rd8 m i :: cstr m (i + 1) := by
  have hi : i < m.length := by
    by_contra hi
    exact h (rd8_of_length_le (by omega))
  have hx : m[i] ≠ 0 := rd8_of_lt hi ▸ h
  rw [cstr, List.drop_eq_getElem_cons hi, List.takeWhile_cons_of_pos (by simpa using hx),
    rd8_of_lt hi, cstr]

theorem cstr_of_eq_zero {m : Mem} {i : Nat} (h : rd8 m i = 0) : cstr m i = [] := by
  by_cases hi : i < m.length
  · rw [cstr, List.drop_eq_getElem_cons hi]
    exact List.takeWhile_cons_of_neg (by simpa [rd8_of_lt hi] using h)
  · simp [cstr, List.drop_eq_nil_of_le (Nat.not_lt.mp hi)]

/-- The C string is exactly `n` octets long when the first zero lies `n` octets on. -/
theorem cstr_eq_octets {m : Mem} :
    ∀ {n i : Nat}, (∀ k, k < n → rd8 m (i + k) ≠ 0) → rd8 m (i + n) = 0 → cstr m i = octets m i n
  | 0, _, _, h0 => cstr_of_eq_zero h0
  | n + 1, i, hne, h0 => by
      have ih : cstr m (i + 1) = octets m (i + 1) n :=
        cstr_eq_octets (fun k hk => by
          have := hne (k + 1) (by omega)
          rwa [show i + (k + 1) = i + 1 + k by omega] at this)
          (by rwa [show i + (n + 1) = i + 1 + n by omega] at h0)
      rw [cstr_cons_of_ne (by simpa using hne 0 (by omega)), ih]
      simp only [octets, List.range_succ_eq_map, List.map_cons, List.map_map, Nat.add_zero,
        List.cons.injEq, true_and]
      exact List.map_congr_left fun k _ => by
        simp only [Function.comp, Nat.succ_eq_add_one]
        rw [show i + (k + 1) = i + 1 + k by omega]

theorem rd8_cstr_lt {m : Mem} :
    ∀ {k i : Nat}, k < (cstr m i).length → rd8 m (i + k) ≠ 0
  | k, i, hk => by
      by_cases h0 : rd8 m i = 0
      · simp [cstr_of_eq_zero h0] at hk
      · rw [cstr_cons_of_ne h0] at hk
        cases k with
        | zero => exact h0
        | succ k =>
            have := rd8_cstr_lt (i := i + 1) (k := k) (by simpa using hk)
            rwa [show i + 1 + k = i + (k + 1) by omega] at this

theorem rd8_cstr_length (m : Mem) (i : Nat) : rd8 m (i + (cstr m i).length) = 0 := by
  generalize hn : m.length - i = n
  induction n generalizing i with
  | zero =>
      have hz : rd8 m i = 0 := rd8_of_length_le (by omega)
      simpa [cstr_of_eq_zero hz] using hz
  | succ n ih =>
      by_cases h0 : rd8 m i = 0
      · simpa [cstr_of_eq_zero h0] using h0
      · have := ih (i + 1) (by omega)
        rw [cstr_cons_of_ne h0, List.length_cons]
        rwa [show i + 1 + (cstr m (i + 1)).length = i + ((cstr m (i + 1)).length + 1) by omega]
          at this

theorem cstr_eq_octets_length (m : Mem) (i : Nat) : cstr m i = octets m i (cstr m i).length :=
  cstr_eq_octets (fun _ hk => rd8_cstr_lt hk) (rd8_cstr_length m i)

/-- A C string with its terminator, as it lies in memory. -/
theorem cstr_append_zero (m : Mem) (i : Nat) :
    cstr m i ++ [0] = octets m i ((cstr m i).length + 1) := by
  rw [octets_add, ← cstr_eq_octets_length]
  simp [octets, rd8_cstr_length]

/-- A zero octet bounds the string before it. -/
theorem cstr_length_le {m : Mem} {i n : Nat} (h0 : rd8 m (i + n) = 0) : (cstr m i).length ≤ n := by
  by_contra hlt
  exact rd8_cstr_lt (by omega) h0

/-- The string ends within `n` octets when there is a zero octet among them. -/
theorem cstr_length_lt_iff {m : Mem} {i n : Nat} :
    (cstr m i).length < n ↔ ∃ k < n, rd8 m (i + k) = 0 := by
  constructor
  · intro h
    exact ⟨_, h, rd8_cstr_length m i⟩
  · rintro ⟨k, hk, h0⟩
    exact Nat.lt_of_le_of_lt (cstr_length_le h0) hk

theorem cstr_eq_nil_iff {mem : Mem} {i : Nat} : cstr mem i = [] ↔ rd8 mem i = 0 := by
  constructor
  · intro h
    have h0 := rd8_cstr_length mem i
    rwa [h] at h0
  · exact cstr_of_eq_zero

/-- Octets that end with a zero are a C string. -/
theorem cstr_of_octets {mem : Mem} {i : Nat} {s : List UInt8} (hs : ∀ x ∈ s, x ≠ 0)
    (h : octets mem i (s.length + 1) = s ++ [0]) : cstr mem i = s := by
  rw [octets_add] at h
  obtain ⟨hoct, hzero⟩ := List.append_inj h (by simp)
  have h0 : rd8 mem (i + s.length) = 0 := by simpa [octets] using hzero
  have hne : ∀ k, k < s.length → rd8 mem (i + k) ≠ 0 := by
    intro k hk
    have hget : rd8 mem (i + k) = s[k] := by
      have := congrArg (·[k]?) hoct
      simpa [octets, hk] using this
    rw [hget]
    exact hs _ (List.getElem_mem hk)
  rw [cstr_eq_octets hne h0, hoct]

/-! ## Stores into a block of fixed size -/

/-- `bs` written over `m` from address `i` on; what would fall behind the block is not written. -/
def store (m : Mem) (i : Nat) (bs : List UInt8) : Mem :=
  m.take i ++ (bs ++ m.drop (i + bs.length)).take (m.length - i)

@[simp] theorem store_length (m : Mem) (i : Nat) (bs : List UInt8) :
    (store m i bs).length = m.length := by
  simp only [store, List.length_append, List.length_take, List.length_drop]
  omega

/-- One octet of a block after a store. -/
theorem rd8_store (m : Mem) (i : Nat) (bs : List UInt8) (j : Nat) :
    rd8 (store m i bs) j =
      if i ≤ j ∧ j < i + bs.length ∧ j < m.length then rd8 bs (j - i) else rd8 m j := by
  by_cases hj : j < m.length
  · by_cases hi : i ≤ j
    · have hlen : (m.take i).length = i := by simp; omega
      rw [store, rd8_append_of_le (by omega), hlen]
      have hlt : j - i < ((bs ++ m.drop (i + bs.length)).take (m.length - i)).length := by
        simp only [List.length_take, List.length_append, List.length_drop]
        omega
      rw [rd8_of_lt hlt, List.getElem_take]
      by_cases hb : j < i + bs.length
      · rw [if_pos ⟨hi, hb, hj⟩, List.getElem_append_left (by omega), rd8_of_lt (by omega)]
      · rw [if_neg (by omega), List.getElem_append_right (by omega), List.getElem_drop,
          rd8_of_lt hj]
        congr 1
        omega
    · have hlt : j < (m.take i).length := by simp; omega
      rw [if_neg (by omega), store, rd8_append_left hlt, rd8_of_lt hlt, List.getElem_take,
        rd8_of_lt hj]
  · rw [if_neg (by omega), rd8_of_length_le (by simpa using hj), rd8_of_length_le (by omega)]

/-- A store leaves every block it does not meet as it was. -/
theorem octets_store_of_disjoint {m : Mem} {i : Nat} {bs : List UInt8} {o n : Nat}
    (h : o + n ≤ i ∨ i + bs.length ≤ o) : octets (store m i bs) o n = octets m o n :=
  octets_congr fun k hk => by rw [rd8_store, if_neg (by omega)]

/-- Reading back what a store wrote. -/
theorem octets_store_self {m : Mem} {i : Nat} {bs : List UInt8} (h : i + bs.length ≤ m.length) :
    octets (store m i bs) i bs.length = bs := by
  apply List.ext_getElem (by simp)
  intro k hk hb
  rw [octets_getElem, rd8_store, if_pos (by omega), Nat.add_sub_cancel_left, rd8_of_lt hb]

/-- A store over a stretch of its own length replaces that stretch. -/
theorem store_stretch {a b c bs : List UInt8} (h : bs.length = b.length) :
    store (a ++ (b ++ c)) a.length bs = a ++ (bs ++ c) := by
  have hdrop : (a ++ (b ++ c)).drop (a.length + bs.length) = c := by
    rw [h, ← List.append_assoc, ← List.length_append, List.drop_left]
  rw [store, hdrop, List.take_left, List.take_of_length_le]
  simp [h]

/-- Blocks with the same octets are the same. -/
theorem mem_ext {m m' : Mem} (hlen : m.length = m'.length) (h : ∀ j, rd8 m j = rd8 m' j) :
    m = m' := by
  apply List.ext_getElem hlen
  intro j hj hj'
  have := h j
  rwa [rd8_of_lt hj, rd8_of_lt hj'] at this

/-- Stores that do not meet can be made in either order. -/
theorem store_comm {m : Mem} {i j : Nat} {a b : List UInt8} (h : i + a.length ≤ j) :
    store (store m i a) j b = store (store m j b) i a := by
  apply mem_ext (by simp)
  intro k
  simp only [rd8_store, store_length]
  split_ifs <;> first | rfl | omega

/-- A text written behind another replaces its terminator and continues it. -/
theorem store_store_append (m : Mem) (i : Nat) (a b : List UInt8) (z : UInt8) (hb : b ≠ []) :
    store (store m i (a ++ [z])) (i + a.length) b = store m i (a ++ b) := by
  have hb' : 0 < b.length := List.length_pos_iff.mpr hb
  apply mem_ext (by simp)
  intro j
  simp only [rd8_store, store_length, List.length_append, List.length_singleton]
  by_cases hja : j < i + a.length
  · rw [if_neg (by omega)]
    by_cases hij : i ≤ j ∧ j < m.length
    · rw [if_pos (by omega), if_pos (by omega), rd8_append_left (by omega),
        rd8_append_left (by omega)]
    · rw [if_neg (by omega), if_neg (by omega)]
  · by_cases hjb : j < i + a.length + b.length ∧ j < m.length
    · rw [if_pos (by omega), if_pos (by omega), rd8_append_of_le (by omega), Nat.sub_sub]
    · rw [if_neg (by omega), if_neg (by omega), if_neg (by omega)]

end Nl80211.Lib.Bytes
