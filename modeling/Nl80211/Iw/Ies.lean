/-
# Nl80211.Iw.Ies — printing information elements.

A beacon carries a row of elements: an id, a length, that many octets.  `print_ies` walks them and
prints a line for those that it has something to say about; for `iw link` these are the name of the
network and of the mesh, and elements that are too short to be what their id says.  A row of
elements is read back whatever stands behind it (`printIes_elements`), and every stretch of memory
starts with one such row and no other (`printIes_reads`).
-/
import Nl80211.Netinfc.Getters
import Nl80211.Wifi.LinkSsid
import Mathlib

namespace Nl80211.Iw

open Lib Lib.Bytes Wifi

/-! ## Numbers -/

/-- A number as `%d` prints it. -/
def decimal (n : Nat) : List UInt8 := ascii (toString n)

theorem digit_of_mem_decimal {n : Nat} {x : UInt8} (h : x ∈ decimal n) :
    48 ≤ x.toNat ∧ x.toNat ≤ 57 := by
  unfold decimal at h
  rw [Netinfc.ascii_toString] at h
  obtain ⟨c, hc, rfl⟩ := List.mem_map.mp h
  have hdigit := Netinfc.toNat_of_mem_toDigits hc
  rw [UInt8.toNat_ofNat', Nat.mod_eq_of_lt (by omega)]
  exact hdigit

theorem decimal_length_le {n k : Nat} (hk : 0 < k) (h : n < 10 ^ k) : (decimal n).length ≤ k := by
  unfold decimal
  rw [Netinfc.ascii_toString, List.length_map]
  exact (Nat.length_toDigits_le_iff (by decide) hk).mpr h

/-! ## Printing -/

/-- A row of `ieprinters`: the name and the lengths it accepts. -/
structure IePrint where
  name : List UInt8
  minlen : Nat
  maxlen : Nat

/-- The rows of `ieprinters` that have `BIT(PRINT_LINK)` set; both print with `print_ssid`. -/
def ieprinters : Nat → Option IePrint
  | 0 => some ⟨ascii "SSID", 0, 32⟩
  | 114 => some ⟨ascii "MESH ID", 0, 32⟩
  | _ => none

/-- A line of output. -/
def line (text : List UInt8) : List UInt8 := text ++ [newline]

/-- Octets as `printf(" %.02x", ...)` prints them. -/
def hexList (data : List UInt8) : List UInt8 := data.flatMap fun b => 32 :: hex02 b

/-- `print_ie`, with `print_ssid` for the function that prints the contents. -/
def printIe (p : IePrint) (data : List UInt8) : List UInt8 :=
  line (ascii "\t" ++ (p.name ++ (ascii ":" ++
    if data.length < p.minlen ∨ p.maxlen < data.length then
      if 1 < data.length then
        ascii " <invalid: " ++
          (decimal data.length ++ (ascii " bytes:" ++ (hexList data ++ ascii ">")))
      else if data.length ≠ 0 then ascii " <invalid: 1 byte:" ++
        (hexList (data.take 1) ++ ascii ">")
      else ascii " <invalid: no data>"
    else ascii " " ++ printSsidEscaped data)))

/-- `print_vendor`, which says nothing of a vendor that it only knows for `PRINT_SCAN`. -/
def printVendor (data : List UInt8) : List UInt8 :=
  if data.length < 3 then line (ascii "\tVendor specific: <too short> data:" ++ hexList data)
    else []

/-- `print_extension`, likewise. -/
def printExtension (data : List UInt8) : List UInt8 :=
  if data.length < 1 then line (ascii "\tExtension IE: <empty>") else []

/-- The body of the loop of `print_ies`. -/
def printElement (id : UInt8) (data : List UInt8) : List UInt8 :=
  match ieprinters id.toNat with
  | some p => printIe p data
  | none => if id = 221 then printVendor data else if id = 255 then printExtension data else []

/-- `print_ies(ie, ielen, false, PRINT_LINK)`. -/
def printIes (mem : Mem) (ie : Nat) (ielen : Int) : List UInt8 :=
  if _h : 2 ≤ ielen ∧ ((rd8 mem (ie + 1)).toNat : Int) ≤ ielen - 2 then
    let len := (rd8 mem (ie + 1)).toNat
    printElement (rd8 mem ie) (octets mem (ie + 2) len) ++
      printIes mem (ie + (len + 2)) (ielen - (len + 2))
  else []
termination_by ielen.toNat
decreasing_by omega

/-! ## Elements -/

/-- An element. -/
structure Ie where
  id : UInt8
  data : List UInt8
  small : data.length < 256

/-- The element in memory. -/
def Ie.octets (e : Ie) : Mem := e.id :: UInt8.ofNat e.data.length :: e.data

@[simp] theorem Ie.octets_length (e : Ie) : e.octets.length = e.data.length + 2 := rfl

/-- What does not hold another element: fewer than two octets, or fewer than the second says. -/
def Broken (tail : Mem) : Prop := tail.length < 2 ∨ tail.length - 2 < (rd8 tail 1).toNat

/-- What is printed for an element. -/
def Ie.text (e : Ie) : List UInt8 := printElement e.id e.data

/-- A stretch of memory, octet by octet. -/
theorem rd8_of_octets {mem bs : Mem} {i : Nat} (h : octets mem i bs.length = bs) {k : Nat}
    (hk : k < bs.length) : rd8 mem (i + k) = rd8 bs k := by
  have hlt : k < (octets mem i bs.length).length := by
    rw [octets_length]
    exact hk
  have hget : (octets mem i bs.length)[k] = rd8 mem (i + k) := octets_getElem hlt
  rw [← hget, rd8_of_lt hk]
  exact List.getElem_of_eq h _

/-- Two stretches, one behind the other. -/
theorem octets_append_iff {mem as bs : Mem} {i : Nat} :
    octets mem i (as ++ bs).length = as ++ bs ↔
      octets mem i as.length = as ∧ octets mem (i + as.length) bs.length = bs := by
  rw [List.length_append, octets_add]
  constructor
  · intro h
    exact List.append_inj h (octets_length _ _ _)
  · rintro ⟨ha, hb⟩
    rw [ha, hb]

/-- **A row of elements is printed element by element.**  What is left behind the last is not
looked at. -/
theorem printIes_elements (es : List Ie) {tail : Mem} (htail : Broken tail) {mem : Mem} {ie : Nat}
    (h : octets mem ie (es.flatMap Ie.octets ++ tail).length = es.flatMap Ie.octets ++ tail) :
    printIes mem ie (es.flatMap Ie.octets ++ tail).length = es.flatMap Ie.text := by
  induction es generalizing ie with
  | nil =>
      rw [List.flatMap_nil, List.nil_append] at h
      rw [List.flatMap_nil, List.nil_append, printIes, dif_neg, List.flatMap_nil]
      rintro ⟨htwo, hlen⟩
      have hone : 1 < tail.length := by omega
      rw [rd8_of_octets h hone] at hlen
      rcases htail with hshort | hlong <;> omega
  | cons e es ih =>
      rw [List.flatMap_cons, List.append_assoc] at h
      obtain ⟨helem, hrest⟩ := octets_append_iff.mp h
      have hid : rd8 mem ie = e.id := rd8_of_octets helem (k := 0) (by simp)
      have hlen : (rd8 mem (ie + 1)).toNat = e.data.length := by
        rw [rd8_of_octets helem (by simp)]
        exact Nat.mod_eq_of_lt e.small
      have hdata : octets mem (ie + 2) e.data.length = e.data :=
        (@octets_append_iff mem [e.id, UInt8.ofNat e.data.length] e.data ie).mp helem |>.2
      rw [List.flatMap_cons, List.append_assoc, List.length_append, e.octets_length,
        printIes, dif_pos]
      · simp only [hid, hlen, hdata]
        have hsize : ((e.data.length + 2 + (es.flatMap Ie.octets ++ tail).length : Nat) : Int) -
            ((e.data.length : Int) + 2) = ((es.flatMap Ie.octets ++ tail).length : Nat) := by
          omega
        have hih : printIes mem (ie + (e.data.length + 2)) (es.flatMap Ie.octets ++ tail).length =
            es.flatMap Ie.text := ih hrest
        rw [hsize, hih, List.flatMap_cons]
        rfl
      · rw [hlen]
        omega

/-- Every stretch of memory starts with a row of elements. -/
theorem exists_elements (bs : Mem) :
    ∃ (es : List Ie) (tail : Mem), Broken tail ∧ bs = es.flatMap Ie.octets ++ tail := by
  induction hn : bs.length using Nat.strong_induction_on generalizing bs with
  | _ n ih =>
      by_cases hbroken : Broken bs
      · exact ⟨[], bs, hbroken, rfl⟩
      · unfold Broken at hbroken
        match bs, hbroken with
        | id :: len :: rest, hbroken =>
            have hle : len.toNat ≤ rest.length := by
              have hrd : rd8 (id :: len :: rest) 1 = len := rfl
              rw [hrd] at hbroken
              simp only [List.length_cons] at hbroken
              omega
            have hlt := len.toNat_lt
            obtain ⟨es, tail, htail, hes⟩ := ih (rest.drop len.toNat).length (by
              rw [← hn, List.length_drop, List.length_cons, List.length_cons]
              omega) _ rfl
            have htake : (rest.take len.toNat).length = len.toNat := by
              rw [List.length_take]
              omega
            refine ⟨⟨id, rest.take len.toNat, by omega⟩ :: es, tail, htail, ?_⟩
            rw [List.flatMap_cons, List.append_assoc, ← hes]
            show id :: len :: rest = id :: UInt8.ofNat (rest.take len.toNat).length ::
              (rest.take len.toNat ++ rest.drop len.toNat)
            rw [htake, UInt8.ofNat_toNat, List.take_append_drop]
        | [], hbroken => exact absurd (.inl (by decide)) hbroken
        | [_], hbroken => exact absurd (.inl (by simp)) hbroken

/-- An element of which all octets are there is no broken one. -/
theorem Ie.not_broken (e : Ie) (rest : Mem) : ¬ Broken (e.octets ++ rest) := by
  intro hbroken
  have hlen : (rd8 (e.octets ++ rest) 1).toNat = e.data.length := Nat.mod_eq_of_lt e.small
  unfold Broken at hbroken
  rw [hlen, List.length_append, e.octets_length] at hbroken
  omega

/-- An element ends where its length says. -/
theorem Ie.octets_append_inj {e₁ e₂ : Ie} {rest₁ rest₂ : Mem}
    (h : e₁.octets ++ rest₁ = e₂.octets ++ rest₂) : e₁ = e₂ ∧ rest₁ = rest₂ := by
  obtain ⟨id₁, data₁, small₁⟩ := e₁
  obtain ⟨id₂, data₂, small₂⟩ := e₂
  obtain ⟨hid, h⟩ := List.cons.inj h
  obtain ⟨hoctet, h⟩ := List.cons.inj h
  have hlen : data₁.length = data₂.length := by
    have htoNat := congrArg UInt8.toNat hoctet
    rwa [UInt8.toNat_ofNat', UInt8.toNat_ofNat', Nat.mod_eq_of_lt small₁,
      Nat.mod_eq_of_lt small₂] at htoNat
  obtain ⟨rfl, rfl⟩ := List.append_inj h hlen
  subst hid
  exact ⟨rfl, rfl⟩

/-- There is one way to take memory apart into elements. -/
theorem elements_unique {es₁ es₂ : List Ie} {tail₁ tail₂ : Mem} (h₁ : Broken tail₁)
    (h₂ : Broken tail₂)
    (h : es₁.flatMap Ie.octets ++ tail₁ = es₂.flatMap Ie.octets ++ tail₂) : es₁ = es₂ := by
  induction es₁ generalizing es₂ with
  | nil =>
      cases es₂ with
      | nil => rfl
      | cons e es =>
          rw [List.flatMap_nil, List.nil_append, List.flatMap_cons, List.append_assoc] at h
          rw [h] at h₁
          exact absurd h₁ (e.not_broken _)
  | cons e₁ es₁ ih =>
      cases es₂ with
      | nil =>
          rw [List.flatMap_nil, List.nil_append, List.flatMap_cons, List.append_assoc] at h
          rw [← h] at h₂
          exact absurd h₂ (e₁.not_broken _)
      | cons e₂ es₂ =>
          rw [List.flatMap_cons, List.flatMap_cons, List.append_assoc, List.append_assoc] at h
          obtain ⟨rfl, hrest⟩ := Ie.octets_append_inj h
          rw [ih hrest]

/-- **What `print_ies` reads.**  Whatever is in memory, its octets are in one way only a row of
elements and something that holds no other, and what is printed is the text of each of these
elements in turn. -/
theorem printIes_reads (mem : Mem) (ie ielen : Nat) :
    (∃! es : List Ie, ∃ tail, Broken tail ∧ octets mem ie ielen = es.flatMap Ie.octets ++ tail) ∧
      ∀ (es : List Ie) (tail : Mem), Broken tail →
        octets mem ie ielen = es.flatMap Ie.octets ++ tail →
        printIes mem ie ielen = es.flatMap Ie.text := by
  constructor
  · obtain ⟨es, tail, htail, hes⟩ := exists_elements (octets mem ie ielen)
    refine ⟨es, ⟨tail, htail, hes⟩, ?_⟩
    rintro es' ⟨tail', htail', hes'⟩
    exact elements_unique htail' htail (hes'.symm.trans hes)
  · intro es tail htail hes
    have hlen : (es.flatMap Ie.octets ++ tail).length = ielen := by
      rw [← hes]
      exact octets_length mem ie ielen
    have hprinted := @printIes_elements es tail htail mem ie (by rw [hlen]; exact hes)
    rwa [hlen] at hprinted

end Nl80211.Iw
