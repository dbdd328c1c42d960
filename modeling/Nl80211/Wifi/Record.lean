/-
# Nl80211.Wifi.Record — the record `wifi_msg` as the block of memory it is.

`wifi_msg` is three character arrays followed by five `int`s.  The handlers fill it with `strcpy`
and `sprintf`, which know the start of an array but not its end, so the record is modelled as its
104 octets: a copy that is too long runs into the next member exactly as it does in memory.  What
falls behind the last member is not kept here; it is another object that is overrun there, and the
run that gets so far ends (`InRecord`, `recvLoop`).

`WifiView` is what the record means: each array read as a C string, each `int` as a number.
-/
import Nl80211.Lib.Bytes

namespace Nl80211.Wifi

open Lib.Bytes

/-! ## Layout -/

/-- A member of the record: its offset and its size. -/
structure Member where
  off : Nat
  size : Nat
  deriving DecidableEq, Repr

namespace Member

def ifname : Member := ⟨0, 30⟩
def ssid : Member := ⟨30, 32⟩
def macAddr : Member := ⟨62, 20⟩
-- two octets of padding align the first `int`
def ifindex : Member := ⟨84, 4⟩
def channel : Member := ⟨88, 4⟩
def band : Member := ⟨92, 4⟩
def signal : Member := ⟨96, 4⟩
def txrate : Member := ⟨100, 4⟩

end Member

/-- The character arrays of the record. -/
def charArrays : List Member := [.ifname, .ssid, .macAddr]

/-- The members of the record. -/
def members : List Member := charArrays ++ [.ifindex, .channel, .band, .signal, .txrate]

/-- The members do not overlap. -/
def Member.Disjoint (f g : Member) : Prop := f.off + f.size ≤ g.off ∨ g.off + g.size ≤ f.off

instance (f g : Member) : Decidable (f.Disjoint g) := inferInstanceAs (Decidable (_ ∨ _))

theorem members_disjoint : ∀ f ∈ members, ∀ dst ∈ members, f ≠ dst → dst.Disjoint f := by
  decide

/-- `sizeof(wifi_msg)`. -/
def wifiMsgSize : Nat := 104

/-- `wifi_msg`. -/
structure WifiMsg where
  mem : Mem
  size : mem.length = wifiMsgSize
  deriving DecidableEq

namespace WifiMsg

/-- The initial record: empty strings, every `int` at `-1`. -/
def init : WifiMsg := ⟨List.replicate 84 0 ++ List.replicate 20 255, rfl⟩

/-- The octets of a member. -/
def raw (r : WifiMsg) (f : Member) : List UInt8 := octets r.mem f.off f.size

/-- A character array read as a C string. -/
def text (r : WifiMsg) (f : Member) : List UInt8 := (r.raw f).takeWhile (· ≠ 0)

/-- An `int` member. -/
def int (r : WifiMsg) (f : Member) : Int := toInt32 (rd32 r.mem f.off)

/-- Write `bs` at address `i` of the record, as far as the record goes. -/
def put (r : WifiMsg) (i : Nat) (bs : List UInt8) : WifiMsg := ⟨store r.mem i bs, by simp [r.size]⟩

/-- Assign an `int` member, given by its 32-bit pattern. -/
def putInt (r : WifiMsg) (f : Member) (n : Nat) : WifiMsg := r.put f.off (le32 n)

/-! ## What a write changes -/

theorem raw_put_of_disjoint {r : WifiMsg} {i : Nat} {bs : List UInt8} {f : Member}
    (h : f.off + f.size ≤ i ∨ i + bs.length ≤ f.off) : (r.put i bs).raw f = r.raw f :=
  octets_store_of_disjoint h

/-- A C string that fits its array is read back as it was copied. -/
theorem text_put_cstring {r : WifiMsg} {f : Member} {s : List UInt8}
    (hf : f.off + f.size ≤ wifiMsgSize) (hs : ∀ x ∈ s, x ≠ 0) (hlen : s.length < f.size) :
    (r.put f.off (s ++ [0])).text f = s := by
  have hsz := r.size
  have hraw : (r.put f.off (s ++ [0])).raw f =
      (s ++ [0]) ++ octets (r.put f.off (s ++ [0])).mem (f.off + (s.length + 1))
        (f.size - (s.length + 1)) := by
    have hself : octets (store r.mem f.off (s ++ [0])) f.off (s ++ [0]).length = s ++ [0] :=
      octets_store_self (by simp; omega)
    rw [List.length_append, List.length_singleton] at hself
    rw [raw, ← Nat.add_sub_cancel' (show s.length + 1 ≤ f.size by omega), octets_add]
    simp only [Nat.add_sub_cancel_left]
    rw [put, hself]
  -- what was in the array behind the terminator is not read
  rw [text, hraw, List.append_assoc, List.singleton_append,
    List.takeWhile_append_of_pos (by simpa using hs), List.takeWhile_cons_of_neg (by simp),
    List.append_nil]

/-- An `int` member is read back as it was assigned. -/
theorem int_putInt_self {r : WifiMsg} {f : Member} (hf : f.off + 4 ≤ wifiMsgSize) (n : Nat) :
    (r.putInt f n).int f = toInt32 n := by
  have hsz := r.size
  have hself : octets (store r.mem f.off (le32 n)) f.off (le32 n).length = le32 n :=
    octets_store_self (by simp; omega)
  rw [int, putInt, put, rd32_of_octets hself]
  simp [toInt32]

end WifiMsg

/-! ## Writing one member -/

namespace WifiMsg

/-- Copy a text, if there is one, with its terminator to the start of an array. -/
def copyText (dst : Member) (s : Option (List UInt8)) (r : WifiMsg) : WifiMsg :=
  match s with
  | some s => r.put dst.off (s ++ [0])
  | none => r

/-- Assign an `int` member, if there is a value. -/
def setInt (dst : Member) (n : Option Nat) (r : WifiMsg) : WifiMsg :=
  match n with
  | some n => r.putInt dst n
  | none => r

/-- The text and its terminator stay inside the array. -/
def FitsIn (dst : Member) (s : Option (List UInt8)) : Prop := ∀ t ∈ s, t.length < dst.size

variable {r r' : WifiMsg} {dst f : Member} {s : Option (List UInt8)} {n : Option Nat}

theorem text_copyText_self (hf : dst.off + dst.size ≤ wifiMsgSize) (hs : FitsIn dst s)
    (hz : ∀ t ∈ s, ∀ x ∈ t, x ≠ 0) : (r.copyText dst s).text dst = s.getD (r.text dst) := by
  cases s with
  | none => rfl
  | some t => exact text_put_cstring hf (hz t rfl) (hs t rfl)

theorem raw_copyText_of_disjoint (hs : FitsIn dst s) (h : dst.Disjoint f) :
    (r.copyText dst s).raw f = r.raw f := by
  cases s with
  | none => rfl
  | some t =>
      have ht : t.length < dst.size := hs t rfl
      exact raw_put_of_disjoint (by
        simp only [List.length_append, List.length_singleton]
        rcases h with h | h <;> omega)

/-- A copy that ends before a member leaves it alone, whether or not it fits its own array. -/
theorem raw_copyText_of_short (h : ∀ t ∈ s, dst.off + t.length < f.off) :
    (r.copyText dst s).raw f = r.raw f := by
  cases s with
  | none => rfl
  | some t =>
      have ht := h t rfl
      exact raw_put_of_disjoint (.inr (by
        simp only [List.length_append, List.length_singleton]
        omega))

theorem int_congr (hf : f.size = 4) (h : r.raw f = r'.raw f) :
    r.int f = r'.int f := by
  rw [raw, raw, hf] at h
  rw [int, int, rd32_congr h]

theorem int_copyText_of_disjoint (hs : FitsIn dst s) (hf : f.size = 4) (h : dst.Disjoint f) :
    (r.copyText dst s).int f = r.int f :=
  int_congr hf (raw_copyText_of_disjoint hs h)

theorem int_setInt_self (hf : dst.off + 4 ≤ wifiMsgSize) :
    (r.setInt dst n).int dst = (n.map toInt32).getD (r.int dst) := by
  cases n with
  | none => rfl
  | some n => exact int_putInt_self hf n

theorem raw_setInt_of_disjoint (hd : dst.size = 4) (h : dst.Disjoint f) :
    (r.setInt dst n).raw f = r.raw f := by
  cases n with
  | none => rfl
  | some n => exact raw_put_of_disjoint (by rcases h with h | h <;> simp <;> omega)

theorem text_setInt_of_disjoint (hd : dst.size = 4) (h : dst.Disjoint f) :
    (r.setInt dst n).text f = r.text f := by
  rw [text, raw_setInt_of_disjoint hd h, text]

theorem int_setInt_of_disjoint (hd : dst.size = 4) (hf : f.size = 4) (h : dst.Disjoint f) :
    (r.setInt dst n).int f = r.int f :=
  int_congr hf (raw_setInt_of_disjoint hd h)

/-! ### Octet by octet -/

/-- The octet that `bs`, written at `o`, leaves at the address `i`, if it reaches it. -/
def putOctet (o : Nat) (bs : List UInt8) (i : Nat) : Option UInt8 :=
  if o ≤ i then bs[i - o]? else none

/-- The octet that a copied text leaves at the address `i`. -/
def textOctet (dst : Member) (s : Option (List UInt8)) (i : Nat) : Option UInt8 :=
  s.bind fun s => putOctet dst.off (s ++ [0]) i

/-- The octet that an assigned `int` leaves at the address `i`. -/
def intOctet (dst : Member) (n : Option Nat) (i : Nat) : Option UInt8 :=
  n.bind fun n => putOctet dst.off (le32 n) i

variable {i : Nat}

theorem putOctet_of_lt {o : Nat} {bs : List UInt8} (h : i < o) : putOctet o bs i = none :=
  if_neg (Nat.not_le.mpr h)

theorem putOctet_of_le {o : Nat} {bs : List UInt8} (h : o + bs.length ≤ i) :
    putOctet o bs i = none := by
  rw [putOctet, if_pos (by omega), List.getElem?_eq_none (by omega)]

/-- A text in front of the address does not reach it. -/
theorem textOctet_of_short (h : ∀ t ∈ s, dst.off + t.length < i) : textOctet dst s i = none := by
  cases s with
  | none => rfl
  | some t =>
      have := h t rfl
      exact putOctet_of_le (by simp only [List.length_append, List.length_singleton]; omega)

/-- Nor does an `int` in front of it or behind it. -/
theorem intOctet_of_le (h : dst.off + 4 ≤ i) : intOctet dst n i = none := by
  cases n with
  | none => rfl
  | some n => exact putOctet_of_le h

theorem intOctet_of_lt (h : i < dst.off) : intOctet dst n i = none := by
  cases n with
  | none => rfl
  | some n => exact putOctet_of_lt h

theorem rd8_put (r : WifiMsg) (o : Nat) (bs : List UInt8) (hi : i < wifiMsgSize) :
    rd8 (r.put o bs).mem i = (putOctet o bs i).getD (rd8 r.mem i) := by
  rw [put, rd8_store, putOctet, r.size]
  by_cases ho : o ≤ i
  · by_cases hend : i < o + bs.length
    · rw [if_pos ⟨ho, hend, hi⟩, if_pos ho, List.getElem?_eq_getElem (by omega), Option.getD_some,
        rd8_of_lt]
    · rw [if_neg (by omega), if_pos ho, List.getElem?_eq_none (by omega), Option.getD_none]
  · rw [if_neg (by omega), if_neg ho, Option.getD_none]

theorem rd8_copyText (hi : i < wifiMsgSize) :
    rd8 (r.copyText dst s).mem i = (textOctet dst s i).getD (rd8 r.mem i) := by
  cases s with
  | none => rfl
  | some t => exact rd8_put r dst.off (t ++ [0]) hi

theorem rd8_setInt (hi : i < wifiMsgSize) :
    rd8 (r.setInt dst n).mem i = (intOctet dst n i).getD (rd8 r.mem i) := by
  cases n with
  | none => rfl
  | some n => exact rd8_put r dst.off (le32 n) hi

/-- An `int` is not negative when its last octet says so. -/
theorem int_nonneg_iff (r : WifiMsg) (f : Member) : 0 ≤ r.int f ↔ rd8 r.mem (f.off + 3) < 128 :=
  toInt32_rd32_nonneg_iff

/-- The octets of a member after a write depend on no others. -/
theorem raw_put_congr (h : r.raw f = r'.raw f) (i : Nat) (bs : List UInt8) :
    (r.put i bs).raw f = (r'.put i bs).raw f := by
  apply octets_congr
  intro k hk
  have hold : rd8 r.mem (f.off + k) = rd8 r'.mem (f.off + k) := by
    have := congrArg (·[k]?) h
    simpa [raw, octets, hk] using this
  rw [put, put, rd8_store, rd8_store, hold, r.size, r'.size]

theorem raw_copyText_congr (h : r.raw f = r'.raw f) {s s' : Option (List UInt8)}
    (hs : FitsIn dst s) (hs' : FitsIn dst s') (hown : f = dst → s' = s)
    (hother : f ≠ dst → dst.Disjoint f) :
      (r.copyText dst s).raw f = (r'.copyText dst s').raw f := by
  by_cases hf : f = dst
  · rw [hown hf]
    cases s with
    | none => exact h
    | some t => exact raw_put_congr h _ _
  · rw [raw_copyText_of_disjoint hs (hother hf), raw_copyText_of_disjoint hs' (hother hf), h]

theorem raw_setInt_congr (dst : Member) (n n' : Option Nat) (h : r.raw f = r'.raw f)
    (hd : dst.size = 4)
    (hown : f = dst → n' = n) (hother : f ≠ dst → dst.Disjoint f) :
    (r.setInt dst n).raw f = (r'.setInt dst n').raw f := by
  by_cases hf : f = dst
  · rw [hown hf]
    cases n with
    | none => exact h
    | some n => exact raw_put_congr h _ _
  · rw [raw_setInt_of_disjoint hd (hother hf), raw_setInt_of_disjoint hd (hother hf), h]

end WifiMsg

/-! ## What the record means -/

/-- The record as its readers see it. -/
structure WifiView where
  ifname : List UInt8
  ssid : List UInt8
  macAddr : List UInt8
  ifindex : Int
  channel : Int
  band : Int
  signal : Int
  txrate : Int
  deriving DecidableEq, Repr

/-- The record read member by member. -/
def WifiMsg.view (r : WifiMsg) : WifiView where
  ifname := r.text .ifname
  ssid := r.text .ssid
  macAddr := r.text .macAddr
  ifindex := r.int .ifindex
  channel := r.int .channel
  band := r.int .band
  signal := r.int .signal
  txrate := r.int .txrate

/-- The view of the initial record. -/
def WifiView.init : WifiView := ⟨[], [], [], -1, -1, -1, -1, -1⟩

theorem view_init : WifiMsg.init.view = WifiView.init := by decide

end Nl80211.Wifi
