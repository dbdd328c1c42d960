/-
# Nl80211.Wifi.LinkSsid — the two ways `GetSsid` comes by a network name.

A record that holds a name gives it back as it is.  With an empty record `GetSsid` runs `iw <dev>
link | grep SSID` and reads what comes out, line by line, each read replacing the one before: what
stands behind the first `SSID: ` of the last line.  `iw` prints the name escaped, and every line
ends in a line feed, which `GetSsid` keeps; so the line with the name never yields it.  A later line
that `grep` lets through can.
-/
import Mathlib
import Nl80211.Lib.Lines
import Nl80211.Wifi.Copies
import Nl80211.Wifi.Commands

namespace Nl80211.Wifi

open Lib Lib.Bytes Lib.Lines

/-! ## What `iw` prints -/

/-- `isprint` of the C locale. -/
def isprint (c : UInt8) : Bool := 32 ≤ c && c ≤ 126

/-- One octet of a name of `len` octets, at position `i`. -/
def printSsidOctet (len i : Nat) (c : UInt8) : List UInt8 :=
  if isprint c && c ≠ 32 && c ≠ 92 then [c]
  else if c = 32 && (i ≠ 0 && i ≠ len - 1) then [32]
  else [92, 120] ++ hex02 c

/-- `print_ssid_escaped`. -/
def printSsidEscaped (data : List UInt8) : List UInt8 :=
  data.zipIdx.flatMap fun x => printSsidOctet data.length x.2 x.1

/-- A line of output: no zero octet and no line feed but the one that ends it. -/
structure Line where
  text : List UInt8
  noZero : 0 ∉ text
  noNewline : newline ∉ text

/-- The line as it is printed. -/
def Line.printed (l : Line) : List UInt8 := l.text ++ [newline]

theorem isprint_hexDigit (n : Nat) (h : n < 16) : isprint (hexDigit n) = true := by
  revert h
  revert n
  decide

theorem isprint_of_mem_octet {len i : Nat} {c x : UInt8} (h : x ∈ printSsidOctet len i c) :
    isprint x = true := by
  unfold printSsidOctet at h
  split at h
  · obtain rfl := List.mem_singleton.mp h
    simp_all
  · split at h
    · obtain rfl := List.mem_singleton.mp h
      decide
    · have hlt := c.toNat_lt
      have h₁ := isprint_hexDigit (c.toNat / 16) (by omega)
      have h₂ := isprint_hexDigit (c.toNat % 16) (by omega)
      simp only [hex02, List.cons_append, List.nil_append, List.mem_cons, List.not_mem_nil,
        or_false] at h
      rcases h with rfl | rfl | rfl | rfl
      · decide
      · decide
      · exact h₁
      · exact h₂

/-- Whatever the name, its escaped text is printable. -/
theorem isprint_of_mem_escaped {data : List UInt8} {x : UInt8} (h : x ∈ printSsidEscaped data) :
    isprint x = true := by
  obtain ⟨y, -, hy⟩ := List.mem_flatMap.mp h
  exact isprint_of_mem_octet hy

/-- Each octet is printed as one to four. -/
theorem length_escaped (data : List UInt8) :
    data.length ≤ (printSsidEscaped data).length ∧
      (printSsidEscaped data).length ≤ 4 * data.length := by
  have hone (x : UInt8 × Nat) : 1 ≤ (printSsidOctet data.length x.2 x.1).length ∧
      (printSsidOctet data.length x.2 x.1).length ≤ 4 := by
    unfold printSsidOctet
    split
    · simp
    · split <;> simp [hex02]
  have hsum (l : List (UInt8 × Nat)) :
      l.length ≤ (l.flatMap fun x => printSsidOctet data.length x.2 x.1).length ∧
        (l.flatMap fun x => printSsidOctet data.length x.2 x.1).length ≤ 4 * l.length := by
    induction l with
    | nil => simp
    | cons x l ih =>
        have := hone x
        simp only [List.length_cons, List.flatMap_cons, List.length_append]
        omega
  simpa [printSsidEscaped] using hsum data.zipIdx

/-- What `print_ie` and `print_ssid` print for the name. -/
def ssidLine (s : List UInt8) : Line where
  text := ascii "\tSSID: " ++ printSsidEscaped s
  noZero h := by
    rcases List.mem_append.mp h with h | h
    · revert h
      decide
    · cases isprint_of_mem_escaped h
  noNewline h := by
    rcases List.mem_append.mp h with h | h
    · revert h
      decide
    · cases isprint_of_mem_escaped h

/-- The test of `grep SSID`. -/
def passes (text : List UInt8) : Bool := (find (ascii "SSID") text).isSome

/-- `grep SSID`. -/
def grepSsid (output : List UInt8) : List UInt8 := sift newline passes output

/-- The lines that it lets through. -/
def ssidLines (ls : List Line) : List Line := ls.filter fun l => passes l.text

/-- What the command prints for a station associated to `s`: `before` and `after` are the other
lines of `iw <dev> link`. -/
def linkOutput (before : List Line) (s : List UInt8) (after : List Line) : List UInt8 :=
  grepSsid ((before ++ [ssidLine s] ++ after).flatMap Line.printed)

/-! ## `find` -/

theorem find_some {pat : List UInt8} :
    ∀ {s : List UInt8} {i : Nat}, find pat s = some i →
      pat <+: s.drop i ∧ ∀ j, j < i → ¬ pat <+: s.drop j
  | [], i, h => by
      unfold find at h
      split at h
      · rename_i hp
        obtain rfl := Option.some.inj h
        exact ⟨by simp [hp], fun j hj => absurd hj (Nat.not_lt_zero j)⟩
      · cases h
  | c :: s, i, h => by
      unfold find at h
      split at h
      · rename_i hp
        obtain rfl := Option.some.inj h
        exact ⟨hp, fun j hj => absurd hj (Nat.not_lt_zero j)⟩
      · rename_i hp
        obtain ⟨k, hk, rfl⟩ := Option.map_eq_some_iff.mp h
        obtain ⟨hat, hbefore⟩ := find_some hk
        refine ⟨hat, fun j hj => ?_⟩
        cases j with
        | zero => exact hp
        | succ j => exact hbefore j (by omega)

theorem find_none {pat : List UInt8} :
    ∀ {s : List UInt8}, find pat s = none → ∀ j, ¬ pat <+: s.drop j
  | [], h, j => by
      unfold find at h
      split at h
      · cases h
      · simpa using ‹pat ≠ []›
  | c :: s, h, j => by
      unfold find at h
      split at h
      · cases h
      · cases j with
        | zero => assumption
        | succ j => exact find_none (Option.map_eq_none_iff.mp h) j

/-- The position that `GetSsid` reads from lies in the text, or it is what `npos` turns into. -/
theorem markerEnd_le (t : List UInt8) : markerEnd t ≤ t.length ∨ markerEnd t = 5 := by
  unfold markerEnd
  split
  · rename_i pos hpos
    have hle := (find_some hpos).1.length_le
    rw [List.length_drop, show (ascii "SSID: ").length = 6 from rfl] at hle
    exact .inl (by omega)
  · exact .inr rfl

/-- Of the text, `GetSsid` is left with `s`: behind the first `SSID: `, or from the sixth octet on
when there is none. -/
def ReadsOff (t s : List UInt8) : Prop :=
  (∃ i, t.drop i = ascii "SSID: " ++ s ∧ ∀ j, j < i → ¬ ascii "SSID: " <+: t.drop j) ∨
    ((∀ j, ¬ ascii "SSID: " <+: t.drop j) ∧ t.drop 5 = s)

theorem drop_markerEnd_iff {t s : List UInt8} : t.drop (markerEnd t) = s ↔ ReadsOff t s := by
  unfold markerEnd
  split
  · rename_i pos hpos
    obtain ⟨hat, hfirst⟩ := find_some hpos
    have hsplit : t.drop pos = ascii "SSID: " ++ t.drop (pos + 6) := by
      rw [← List.drop_drop]
      exact (List.prefix_iff_eq_append.mp hat).symm
    constructor
    · rintro rfl
      exact .inl ⟨pos, hsplit, hfirst⟩
    · rintro (⟨i, hi, hbefore⟩ | ⟨hno, -⟩)
      -- the marker found is the first one, and so is the one at `i`
      · have hpi : pos = i := by
          rcases Nat.lt_trichotomy pos i with h | h | h
          · exact absurd hat (hbefore pos h)
          · exact h
          · exact absurd ⟨s, hi.symm⟩ (hfirst i h)
        subst hpi
        exact List.append_cancel_left (hsplit.symm.trans hi)
      · exact absurd hat (hno pos)
  · rename_i hnone
    have hno := find_none hnone
    constructor
    · exact fun h => .inr ⟨hno, h⟩
    · rintro (⟨i, hi, -⟩ | ⟨-, h⟩)
      · exact absurd ⟨s, hi.symm⟩ (hno i)
      · exact h

/-! ## One read -/

/-- What the last read of a line of output takes. -/
def lastPiece (line : List UInt8) : List UInt8 := line.drop (255 * ((line.length - 1) / 255))

theorem lastPiece_short {line : List UInt8} (h : line.length ≤ 255) : lastPiece line = line := by
  have : (line.length - 1) / 255 = 0 := by omega
  simp [lastPiece, this]

theorem lastPiece_long {line : List UInt8} (h : 255 < line.length) :
    lastPiece line = lastPiece (line.drop 255) := by
  rw [lastPiece, lastPiece, List.length_drop, List.drop_drop]
  congr 1
  omega

/-- A text and its terminator at the start of a buffer. -/
theorem store_text {tmp t : List UInt8} (h : t.length < tmp.length) :
    store tmp 0 (t ++ [0]) = t ++ 0 :: tmp.drop (t.length + 1) := by
  simp only [store, List.take_zero, List.nil_append, Nat.sub_zero, Nat.zero_add, List.append_assoc,
    List.singleton_append, List.length_append, List.length_singleton]
  refine List.take_of_length_le ?_
  simp
  omega

/-- A text without zero octets in front of a zero is read from any position in it. -/
theorem cstr_text {t rest : List UInt8} {k : Nat} (hz : 0 ∉ t) (hk : k ≤ t.length) :
    cstr (t ++ 0 :: rest) k = t.drop k := by
  rw [cstr, List.drop_append_of_le_length hk, List.takeWhile_append_of_pos,
    List.takeWhile_cons_of_neg (by simp), List.append_nil]
  intro x hx
  exact decide_eq_true fun h0 => hz (h0 ▸ List.mem_of_mem_drop hx)

/-- What `GetSsid` makes of a piece: what stands behind the marker, or what older
reads have left. -/
theorem readOff_eq {tmp t : List UInt8} (hz : 0 ∉ t) (h : t.length < tmp.length) :
    cstr (store tmp 0 (t ++ [0])) (markerEnd (cstr (store tmp 0 (t ++ [0])) 0)) =
      if markerEnd t ≤ t.length then t.drop (markerEnd t) else cstr tmp (markerEnd t) := by
  rw [store_text h, cstr_text hz (Nat.zero_le _), List.drop_zero]
  split
  · exact cstr_text hz ‹_›
  · have hk : t.length + 1 ≤ markerEnd t := by omega
    rw [cstr, cstr, List.drop_append, List.drop_eq_nil_of_le (by omega), List.nil_append,
      show markerEnd t - t.length = (markerEnd t - t.length - 1) + 1 by omega, List.drop_succ_cons,
      List.drop_drop]
    congr 2
    omega

/-! ## One line -/

/-- What a read leaves in the name. -/
def readOff (tmp t : List UInt8) : List UInt8 :=
  if markerEnd t ≤ t.length then t.drop (markerEnd t) else cstr tmp (markerEnd t)

theorem readLink_piece {tmp ssid out t rest : List UInt8} (hout : out = t ++ rest) (hne : out ≠ [])
    (hn : fgetsLength 256 out = t.length) (hz : 0 ∉ t) (h : t.length < tmp.length) :
    readLink tmp ssid out = readLink (store tmp 0 (t ++ [0])) (readOff tmp t) rest := by
  rw [readLink, dif_neg hne]
  simp only [hn]
  rw [hout, List.take_left', List.drop_left', readOff_eq hz h, readOff]
  · rfl
  · rfl

theorem fgetsLength_line {l rest : List UInt8} (h : newline ∉ l) :
    fgetsLength 256 (l ++ newline :: rest) = min 255 (l.length + 1) := by
  rw [fgetsLength, List.takeWhile_append_of_pos, List.takeWhile_cons_of_neg (by simp),
    List.append_nil]
  intro x hx
  exact decide_eq_true fun h0 => h (h0 ▸ hx)

/-- A line that one read takes. -/
theorem readLink_short {tmp ssid l rest : List UInt8} (hz : 0 ∉ l) (hn : newline ∉ l)
    (hlen : l.length < 255) (htmp : tmp.length = 256) :
    readLink tmp ssid (l ++ newline :: rest) =
      readLink (store tmp 0 (l ++ [newline] ++ [0])) (readOff tmp (l ++ [newline])) rest := by
  refine readLink_piece (by simp) (by simp) ?_ ?_ (by simp; omega)
  · rw [fgetsLength_line hn]
    simp
    omega
  · simp [hz, newline]

/-- A line of which one read takes 255 octets. -/
theorem readLink_long {tmp ssid l rest : List UInt8} (hz : 0 ∉ l) (hn : newline ∉ l)
    (hlen : 255 ≤ l.length) (htmp : tmp.length = 256) :
    readLink tmp ssid (l ++ newline :: rest) =
      readLink (store tmp 0 (l.take 255 ++ [0])) (readOff tmp (l.take 255))
        (l.drop 255 ++ newline :: rest) := by
  refine readLink_piece ?_ (by simp) ?_ (fun h => hz (List.mem_of_mem_take h)) (by simp; omega)
  · rw [← List.append_assoc, List.take_append_drop]
  · rw [fgetsLength_line hn]
    simp
    omega

/-- Behind a line, the buffer has its size and the rest of the output is read. -/
theorem readLink_line (l : List UInt8) (hz : 0 ∉ l) (hn : newline ∉ l) (tmp ssid : List UInt8)
    (htmp : tmp.length = 256) :
    ∃ tmp' ssid', tmp'.length = 256 ∧
      ∀ rest, readLink tmp ssid (l ++ newline :: rest) = readLink tmp' ssid' rest := by
  induction hlen : l.length using Nat.strong_induction_on generalizing l tmp ssid with
  | _ n ih =>
      by_cases hshort : l.length < 255
      · exact ⟨_, _, by simp [htmp], fun rest => readLink_short hz hn hshort htmp⟩
      · have hdrop : (l.drop 255).length < n := by
          rw [List.length_drop]
          omega
        obtain ⟨tmp', ssid', htmp', hrest⟩ := ih _ hdrop (l.drop 255)
          (fun h => hz (List.mem_of_mem_drop h)) (fun h => hn (List.mem_of_mem_drop h))
          (store tmp 0 (l.take 255 ++ [0])) (readOff tmp (l.take 255)) (by simp [htmp]) rfl
        exact ⟨tmp', ssid', htmp', fun rest =>
          (readLink_long hz hn (by omega) htmp).trans (hrest rest)⟩

/-- Behind any number of lines. -/
theorem readLink_lines (ls : List Line) (tmp ssid : List UInt8) (htmp : tmp.length = 256) :
    ∃ tmp' ssid', tmp'.length = 256 ∧
      ∀ rest, readLink tmp ssid (ls.flatMap Line.printed ++ rest) = readLink tmp' ssid' rest := by
  induction ls generalizing tmp ssid with
  | nil => exact ⟨tmp, ssid, htmp, fun rest => rfl⟩
  | cons l ls ih =>
      obtain ⟨tmp₁, ssid₁, htmp₁, h₁⟩ := readLink_line l.text l.noZero l.noNewline tmp ssid htmp
      obtain ⟨tmp', ssid', htmp', h'⟩ := ih tmp₁ ssid₁ htmp₁
      refine ⟨tmp', ssid', htmp', fun rest => ?_⟩
      rw [List.flatMap_cons, Line.printed, List.append_assoc, List.append_assoc,
        List.singleton_append, h₁, h']

/-- The last line decides: a name of at most 31 octets is read from its last piece or not at all. -/
theorem readLink_last_iff {s : List UInt8} (hs : s ≠ []) (hslen : s.length ≤ 31) (l : List UInt8)
    (hz : 0 ∉ l) (hn : newline ∉ l) (tmp ssid : List UInt8) (htmp : tmp.length = 256)
    (hstart : 4 ≤ l.length ∨ 31 < (cstr tmp 5).length) :
    readLink tmp ssid (l ++ [newline]) = s ↔
      (lastPiece (l ++ [newline])).drop (markerEnd (lastPiece (l ++ [newline]))) = s := by
  induction hlen : l.length using Nat.strong_induction_on generalizing l tmp ssid with
  | _ n ih =>
      by_cases hshort : l.length < 255
      · rw [readLink_short hz hn hshort htmp, lastPiece_short (by simp; omega), readLink,
          dif_pos rfl, readOff]
        split
        · rfl
        -- the marker end lies behind the piece: the name is read from what older reads have left
        · have hfive : markerEnd (l ++ [newline]) = 5 :=
            (markerEnd_le (l ++ [newline])).resolve_left ‹_›
          have hold : 31 < (cstr tmp 5).length := by
            simp only [hfive, List.length_append, List.length_singleton] at *
            omega
          rw [hfive, List.drop_eq_nil_of_le (by simp at *; omega)]
          refine ⟨fun h => ?_, fun h => absurd h.symm hs⟩
          rw [h] at hold
          omega
      · rw [readLink_long hz hn (by omega) htmp, lastPiece_long (by simp; omega),
          List.drop_append_of_le_length (by omega)]
        have hdrop : (l.drop 255).length < n := by
          rw [List.length_drop]
          omega
        -- 254 octets are left in the buffer behind its first, so old content is too long for the
        -- name
        refine ih _ hdrop (l.drop 255)
          (fun h => hz (List.mem_of_mem_drop h)) (fun h => hn (List.mem_of_mem_drop h))
          (store tmp 0 (l.take 255 ++ [0])) (readOff tmp (l.take 255)) (by simp [htmp]) (.inr ?_)
            rfl
        have htake : (l.take 255).length = 255 := by simp; omega
        rw [store_text (by omega), cstr_text (fun h => hz (List.mem_of_mem_take h)) (by omega),
          List.length_drop, htake]
        omega

/-! ## The output of the command -/

theorem passes_ssidLine (s : List UInt8) : passes (ssidLine s).text = true := by
  unfold passes
  cases h : find (ascii "SSID") (ssidLine s).text with
  | none => exact absurd ⟨ascii ": " ++ printSsidEscaped s, rfl⟩ (find_none h 1)
  | some i => rfl

/-- Lines go through `grep` one by one. -/
theorem grepSsid_printed (ls : List Line) :
    grepSsid (ls.flatMap Line.printed) = (ssidLines ls).flatMap Line.printed := by
  have hunlines (ls : List Line) :
      ls.flatMap Line.printed = unlines newline (ls.map Line.text) := by
    rw [unlines, List.flatMap_map]
    rfl
  have hplain : ∀ t ∈ ls.map Line.text, newline ∉ t := by
    intro t ht
    obtain ⟨l, -, rfl⟩ := List.mem_map.mp ht
    exact l.noNewline
  have hsift := @sift_unlines _ _ newline passes _ hplain []
  have hnothing : sift newline passes [] = [] := rfl
  rw [List.append_nil, hnothing, List.append_nil] at hsift
  rw [grepSsid, hunlines, hsift, hunlines, ssidLines, List.filter_map]
  rfl

theorem ssidLines_append (before : List Line) (s : List UInt8) (after : List Line) :
    ssidLines (before ++ [ssidLine s] ++ after) =
      ssidLines before ++ ssidLine s :: ssidLines after := by
  simp [ssidLines, passes_ssidLine]

theorem four_le_of_mem_ssidLines {ls : List Line} {l : Line} (h : l ∈ ssidLines ls) :
    4 ≤ l.text.length := by
  obtain ⟨i, hi⟩ := Option.isSome_iff_exists.mp (List.mem_filter.mp h).2
  have hle := (find_some hi).1.length_le
  rw [List.length_drop, show (ascii "SSID").length = 4 from rfl] at hle
  omega

/-- From the line with the name, `GetSsid` is left with the escaped name and the line feed. -/
theorem not_readsOff_ssidLine {s : List UInt8} (hslen : s.length ≤ 31) :
    ¬ ReadsOff (lastPiece (ssidLine s).printed) s := by
  have hlen := length_escaped s
  have hprinted : (ssidLine s).printed = ascii "\tSSID: " ++ (printSsidEscaped s ++ [newline]) := by
    simp [ssidLine, Line.printed]
  have hshort : (ssidLine s).printed.length ≤ 255 := by
    rw [hprinted]
    simp [ascii]
    omega
  have hend : markerEnd (ssidLine s).printed = 7 := by
    have hfind : ∀ r, find (ascii "SSID: ") (ascii "\tSSID: " ++ r) = some 1 := fun r => by
      simp [find, ascii]
    rw [hprinted, markerEnd, hfind]
  rw [lastPiece_short hshort, ← drop_markerEnd_iff, hend]
  intro h
  have hl := congrArg List.length h
  rw [hprinted, List.length_drop] at hl
  simp [ascii] at hl
  omega

/-- What `GetSsid` reads from output that ends with a line that `grep` lets through. -/
theorem readLink_concat_iff {s : List UInt8} (hs : s ≠ []) (hslen : s.length ≤ 31)
    (ls : List Line) {l : Line} (hl : 4 ≤ l.text.length) :
    readLink (List.replicate 256 0) [] ((ls ++ [l]).flatMap Line.printed) = s ↔
      ReadsOff (lastPiece l.printed) s := by
  obtain ⟨tmp, ssid, htmp, hrest⟩ :=
    readLink_lines ls (List.replicate 256 0) [] List.length_replicate
  rw [List.flatMap_append, List.flatMap_singleton, hrest, Line.printed,
    readLink_last_iff hs hslen l.text l.noZero l.noNewline tmp ssid htmp (.inl hl),
    drop_markerEnd_iff]

theorem readLink_output_iff {s : List UInt8} (hs : s ≠ []) (hslen : s.length ≤ 31)
    (before after : List Line) :
    readLink (List.replicate 256 0) [] (linkOutput before s after) = s ↔
      ∃ l, (ssidLines after).getLast? = some l ∧ ReadsOff (lastPiece l.printed) s := by
  rw [linkOutput, grepSsid_printed, ssidLines_append]
  rcases List.eq_nil_or_concat (ssidLines after) with hnil | ⟨ls, l, hl⟩
  · rw [hnil, readLink_concat_iff hs hslen _ (by simp [ssidLine, ascii])]
    simp [not_readsOff_ssidLine hslen]
  · have hmem : l ∈ ssidLines after := by simp [hl]
    rw [hl, List.concat_eq_append, ← List.cons_append, ← List.append_assoc,
      readLink_concat_iff hs hslen _ (four_le_of_mem_ssidLines hmem)]
    simp

/-- Only a name that itself ends in a line feed is ever read. -/
theorem newline_of_readsOff {s : List UInt8} (hs : s ≠ []) {l : Line}
    (h : ReadsOff (lastPiece l.printed) s) : s.getLast? = some newline := by
  have hsuffix : s <:+ l.text ++ [newline] := by
    rw [← drop_markerEnd_iff.mpr h]
    exact (List.drop_suffix _ _).trans (List.drop_suffix _ _)
  obtain ⟨pre, hpre⟩ := hsuffix
  rw [← List.getLast?_append_of_ne_nil pre hs, hpre, List.getLast?_concat]

/-! ## The record -/

/-- The action returns this. -/
def Returns {α : Type} (x : Act α) (w : World) (a : α) : Prop := ∃ w', x w = .ok a w'

theorem getSsid_record {w : World} (h : cstr w.fields.wifi.mem Member.ssid.off ≠ [])
    (popen : Option (List UInt8)) :
    getSsid popen w = .ok (cstr w.fields.wifi.mem Member.ssid.off) w := by
  show (if cstr w.fields.wifi.mem Member.ssid.off ≠ [] then
    (pure (cstr w.fields.wifi.mem Member.ssid.off) : Act (List UInt8)) else _) w = _
  rw [if_pos h]
  rfl

/-- An object for the interface returns the name, whether its record holds it or is empty. -/
def SsidAgrees (dev s out : List UInt8) : Prop :=
  ∀ w : World, w.dev = dev →
    w.fields.wifi.text .ssid = s ∨ w.fields.wifi.text .ssid = [] →
      Returns (getSsid (some out)) w s

/-- Both ways give the name exactly when the command line fits and a later line that `grep` lets
through reads as the name. -/
theorem ssidAgrees_iff {s : List UInt8} (hs : s ≠ []) (hslen : s.length ≤ 31) (dev : List UInt8)
    (before after : List Line) :
    SsidAgrees dev s (linkOutput before s after) ↔
      (cText dev).length ≤ 43 ∧
        ∃ l, (ssidLines after).getLast? = some l ∧ ReadsOff (lastPiece l.printed) s := by
  constructor
  · intro h
    have hempty : cstr WifiMsg.init.mem Member.ssid.off = [] := by decide
    obtain ⟨w', hw'⟩ := h { dev } rfl (.inr (show WifiMsg.init.text .ssid = [] by decide))
    rw [getSsid_fallback hempty] at hw'
    split at hw'
    · rename_i hfit
      rw [linkCmd_length] at hfit
      refine ⟨?_, (readLink_output_iff hs hslen before after).mp (EStateM.Result.ok.inj hw').1⟩
      change (cText dev).length + 20 < 64 at hfit
      omega
    · cases hw'
  · rintro ⟨hfit, hread⟩ w rfl hrecord
    rcases hrecord with hrec | hrec
    · have hcstr : cstr w.fields.wifi.mem Member.ssid.off = s :=
        (cstr_eq_text (by rw [hrec]; exact Nat.lt_succ_of_le hslen)).trans hrec
      refine ⟨w, ?_⟩
      rw [getSsid_record (by rw [hcstr]; exact hs), hcstr]
    · have hcstr : cstr w.fields.wifi.mem Member.ssid.off = [] :=
        (cstr_eq_text (by rw [hrec]; decide)).trans hrec
      refine ⟨{ w with commands := w.commands ++ [linkCmd w.dev] }, ?_⟩
      rw [getSsid_fallback hcstr, if_pos (by rw [linkCmd_length]; omega),
        (readLink_output_iff hs hslen before after).mpr hread]

/-- A mesh id is printed behind the name, and can hold the marker. -/
def meshLine : Line := ⟨ascii "\tMESH ID: SSID: x", by decide, by decide⟩

theorem mesh_ssidAgrees :
    SsidAgrees (ascii "wlan0") (ascii "x\n") (linkOutput [] (ascii "x\n") [meshLine]) :=
  (ssidAgrees_iff (by decide) (by decide) (ascii "wlan0") [] [meshLine]).mpr
    ⟨by decide, meshLine, rfl, drop_markerEnd_iff.mp (by decide +kernel)⟩

/-- With nothing behind the line with the name, `home` is read with its line feed. -/
theorem home_not_ssidAgrees :
    ¬ SsidAgrees (ascii "wlan0") (ascii "home") (linkOutput [] (ascii "home") []) := by
  intro h
  have hempty : cstr WifiMsg.init.mem Member.ssid.off = [] := by decide
  obtain ⟨w', hw'⟩ :=
    h { dev := ascii "wlan0" } rfl (.inr (show WifiMsg.init.text .ssid = [] by decide))
  rw [getSsid_fallback hempty, if_pos (by decide)] at hw'
  have hread : readLink (List.replicate 256 0) [] (linkOutput [] (ascii "home") []) =
      ascii "home\n" := by decide +kernel
  rw [hread] at hw'
  cases hw'

end Nl80211.Wifi
