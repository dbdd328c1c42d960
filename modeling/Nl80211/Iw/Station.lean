/-
# Nl80211.Iw.Station — texts about a station, in blocks of fixed size.

`parse_bitrate` puts a rate together in a block of its caller, and `get_chain_signal` the signals of
the antennas in a block of its own, which outlives the call.  Both move a pointer on by what
`snprintf` would have written and neither looks whether it is still in the block.  A rate nest of
one generation of the standard stays inside (`parseBitrate_kept`), and so do up to ten antennas
(`getChainSignal_run`); what a nest without antennas is printed with is the text of a call before.
-/
import Nl80211.Iw.Ies
import Nl80211.Lib.LastReport
import Nl80211.Lib.Snprintf
import Nl80211.Wifi.Bitrate
import Mathlib

namespace Nl80211.Iw

open Lib Lib.Bytes Lib.Snprintf Libnl Wifi

/-! ## `parse_bitrate` -/

/-- The text of a rate, in units of 100 kbit/s. -/
def rateText (rate : Int) : List UInt8 :=
  if 0 < rate then
    decimal (rate.toNat / 10) ++ (ascii "." ++ (decimal (rate.toNat % 10) ++ ascii " MBit/s"))
  else ascii "(unknown)"

/-- One of the `if`s that follow the rate: the attribute, the text, and whether the number in the
attribute is printed behind it. -/
structure RatePiece where
  attr : Nat
  text : List UInt8
  number : Bool

def ratePieces : List RatePiece :=
  [⟨2, ascii " MCS ", true⟩,             -- MCS
   ⟨6, ascii " VHT-MCS ", true⟩,         -- VHT_MCS
   ⟨3, ascii " 40MHz", false⟩,           -- 40_MHZ_WIDTH
   ⟨8, ascii " 80MHz", false⟩,           -- 80_MHZ_WIDTH
   ⟨9, ascii " 80P80MHz", false⟩,        -- 80P80_MHZ_WIDTH
   ⟨10, ascii " 160MHz", false⟩,         -- 160_MHZ_WIDTH
   ⟨4, ascii " short GI", false⟩,        -- SHORT_GI
   ⟨7, ascii " VHT-NSS ", true⟩,         -- VHT_NSS
   ⟨13, ascii " HE-MCS ", true⟩,         -- HE_MCS
   ⟨14, ascii " HE-NSS ", true⟩,         -- HE_NSS
   ⟨15, ascii " HE-GI ", true⟩,          -- HE_GI
   ⟨16, ascii " HE-DCM ", true⟩,         -- HE_DCM
   ⟨17, ascii " HE-RU-ALLOC ", true⟩]    -- HE_RU_ALLOC

/-- What is printed for an attribute that is there. -/
def RatePiece.print (p : RatePiece) (mem : Mem) (nla : Nat) : List UInt8 :=
  if p.number then p.text ++ decimal (nlaGetU8 mem nla) else p.text

/-- `rinfo`, the attributes of a nest by type. -/
def rinfo (mem : Mem) (bitrateAttr : Nat) : Nat → Option Nat :=
  (nlaParseNested mem nl80211RateInfoMax bitrateAttr iwRatePolicy).val.tb

/-- `parse_bitrate`. -/
def parseBitrate (mem : Mem) (bitrateAttr buflen : Nat) (buf : Block) : Block :=
  match (Wifi.parsedBitrate mem bitrateAttr).val with
  | none => buf.append buflen (ascii "failed to parse nested rate attributes!")
  | some rate =>
      ratePieces.foldl (fun buf p =>
          match rinfo mem bitrateAttr p.attr with
          | some nla => buf.append buflen (p.print mem nla)
          | none => buf)
        (buf.append buflen (rateText rate))

/-- The pieces behind the rate. -/
def printed (mem : Mem) (tb : Nat → Option Nat) (ps : List RatePiece) : List (List UInt8) :=
  ps.filterMap fun p => (tb p.attr).map (p.print mem)

/-- All pieces. -/
def rateTexts (mem : Mem) (bitrateAttr : Nat) : List (List UInt8) :=
  match (Wifi.parsedBitrate mem bitrateAttr).val with
  | none => [ascii "failed to parse nested rate attributes!"]
  | some rate => rateText rate :: printed mem (rinfo mem bitrateAttr) ratePieces

/-- Attributes of 802.11ax beside some of an older standard. -/
def MixedModes (tb : Nat → Option Nat) : Prop :=
  (∃ t ∈ [13, 14, 15, 16, 17], tb t ≠ none) ∧ ∃ t ∈ [2, 6, 7], tb t ≠ none

/-- One channel width at most. -/
def OneWidth (tb : Nat → Option Nat) : Prop :=
  ∃ w ∈ [3, 8, 9, 10], ∀ t ∈ [3, 8, 9, 10], tb t ≠ none → t = w

section Bitrate

variable {mem : Mem} {bitrateAttr : Nat} {tb : Nat → Option Nat}

theorem foldl_printed (buflen : Nat) (ps : List RatePiece) (b : Block) :
    ps.foldl (fun buf p =>
        match tb p.attr with
        | some nla => buf.append buflen (p.print mem nla)
        | none => buf) b = b.appendAll buflen (printed mem tb ps) := by
  unfold printed
  induction ps generalizing b with
  | nil => rfl
  | cons p ps ih =>
      rw [List.foldl_cons, List.filterMap_cons]
      cases tb p.attr with
      | none => exact ih b
      | some nla => exact ih (b.append buflen (p.print mem nla))

theorem parseBitrate_eq (buflen : Nat) (buf : Block) :
    parseBitrate mem bitrateAttr buflen buf = buf.appendAll buflen (rateTexts mem bitrateAttr) := by
  unfold parseBitrate rateTexts
  cases (Wifi.parsedBitrate mem bitrateAttr).val with
  | none => rfl
  | some rate => exact foldl_printed buflen ratePieces (buf.append buflen (rateText rate))

/-- How long a piece gets. -/
def RatePiece.most (p : RatePiece) : Nat := p.text.length + if p.number then 3 else 0

theorem RatePiece.print_length_le (p : RatePiece) (nla : Nat) :
    (p.print mem nla).length ≤ p.most := by
  have hnum : (decimal (nlaGetU8 mem nla)).length ≤ 3 :=
    decimal_length_le (by decide) (Nat.lt_trans (rd8 mem (nlaData nla)).toNat_lt (by decide))
  unfold RatePiece.print RatePiece.most
  split
  · rw [List.length_append]
    omega
  · omega

/-- The pieces are no longer than those that can be there, each at its longest. -/
theorem printed_length_le {ps : List RatePiece} {may : RatePiece → Bool}
    (h : ∀ p ∈ ps, tb p.attr ≠ none → may p = true) :
    (printed mem tb ps).flatten.length ≤ ((ps.filter may).map RatePiece.most).sum := by
  induction ps with
  | nil => exact Nat.le_refl 0
  | cons p ps ih =>
      have ihp := ih fun q hq => h q (List.mem_cons_of_mem p hq)
      unfold printed at ihp ⊢
      rw [List.filterMap_cons]
      cases htb : tb p.attr with
      | none =>
          refine Nat.le_trans ihp ?_
          rw [List.filter_cons]
          split
          · rw [List.map_cons, List.sum_cons]
            omega
          · exact Nat.le_refl _
      | some nla =>
          have hmay := h p List.mem_cons_self (by rw [htb]; exact Option.some_ne_none nla)
          have hp := @RatePiece.print_length_le mem p nla
          rw [List.filter_cons_of_pos hmay, List.map_cons, List.sum_cons]
          show (p.print mem nla ++ _).length ≤ _
          rw [List.length_append]
          omega

theorem rateText_length_le {rate : Int} (h : rate < 2147483648) : (rateText rate).length ≤ 18 := by
  unfold rateText
  split
  · have hint : (decimal (rate.toNat / 10)).length ≤ 9 := decimal_length_le (by decide) (by omega)
    have hfrac : (decimal (rate.toNat % 10)).length ≤ 1 := decimal_length_le (by decide) (by omega)
    have hdot : (ascii ".").length = 1 := by decide
    have hunit : (ascii " MBit/s").length = 7 := by decide
    simp only [List.length_append]
    omega
  · decide

/-- The rate is an `int`. -/
theorem parseBitrate_lt {rate : Int} (h : (Wifi.parsedBitrate mem bitrateAttr).val = some rate) :
    rate < 2147483648 := by
  unfold Wifi.parsedBitrate at h
  simp only [Traced.val_bind] at h
  split at h
  · cases h
  · split at h
    · obtain rfl := Option.some.inj h
      unfold toInt32
      split <;> omega
    · split at h
      · rename_i nla _
        obtain rfl := Option.some.inj h
        have := rd16_lt mem (nlaData nla)
        unfold nlaGetU16
        omega
      · obtain rfl := Option.some.inj h
        decide

theorem zero_not_mem_decimal (n : Nat) : 0 ∉ decimal n := by
  intro h
  have hdigit := digit_of_mem_decimal h
  exact absurd hdigit.1 (by decide)

theorem zero_not_mem_rateText (rate : Int) : 0 ∉ rateText rate := by
  unfold rateText
  split
  · simp only [List.mem_append, not_or]
    exact ⟨zero_not_mem_decimal _, by decide, zero_not_mem_decimal _, by decide⟩
  · decide

/-- The pieces are texts. -/
theorem zero_not_mem_rateTexts : 0 ∉ (rateTexts mem bitrateAttr).flatten := by
  have hpieces : ∀ p ∈ ratePieces, 0 ∉ p.text := by
    decide +kernel
  have hprint (p : RatePiece) (hp : p ∈ ratePieces) (nla : Nat) : 0 ∉ p.print mem nla := by
    unfold RatePiece.print
    split
    · rw [List.mem_append, not_or]
      exact ⟨hpieces p hp, zero_not_mem_decimal _⟩
    · exact hpieces p hp
  unfold rateTexts
  split
  · decide
  · rw [List.flatten_cons, List.mem_append, not_or]
    refine ⟨zero_not_mem_rateText _, fun h => ?_⟩
    obtain ⟨t, ht, hx⟩ := List.mem_flatten.mp h
    obtain ⟨p, hp, hmap⟩ := List.mem_filterMap.mp ht
    obtain ⟨nla, -, rfl⟩ := Option.map_eq_some_iff.mp hmap
    exact hprint p hp nla hx

/-- A rate and the pieces behind it, by the attributes that can be there. -/
theorem rateText_printed_length_le {rate : Int} (hrate : rate < 2147483648) {ps : List RatePiece}
    {may : RatePiece → Bool} (h : ∀ p ∈ ps, tb p.attr ≠ none → may p = true) :
    (rateText rate :: printed mem tb ps).flatten.length ≤
      18 + ((ps.filter may).map RatePiece.most).sum := by
  have hlen := rateText_length_le hrate
  have hrest := @printed_length_le mem tb ps may h
  rw [List.flatten_cons, List.length_append]
  omega

theorem flatten_dropLast_append_le {α : Type} {as bs : List (List α)} (h : bs.length ≤ 1) :
    (as ++ bs).dropLast.flatten.length ≤ as.flatten.length := by
  match bs, h with
  | [], _ =>
      rw [List.append_nil]
      exact ((List.dropLast_sublist as).flatten).length_le
  | [b], _ =>
      rw [List.dropLast_concat]

theorem rateTexts_length_le {may : RatePiece → Bool}
    (h : ∀ p ∈ ratePieces, rinfo mem bitrateAttr p.attr ≠ none → may p = true) {n : Nat}
    (hn : 18 + ((ratePieces.filter may).map RatePiece.most).sum ≤ n) (h39 : 39 ≤ n) :
    (rateTexts mem bitrateAttr).flatten.length ≤ n := by
  unfold rateTexts
  split
  · have hfail : [ascii "failed to parse nested rate attributes!"].flatten.length = 39 := by decide
    omega
  · rename_i rate hrate
    exact Nat.le_trans (rateText_printed_length_le (parseBitrate_lt hrate) h) hn

/-- The last row is the last piece, if it is printed at all. -/
theorem rateTexts_dropLast_length_le {may : RatePiece → Bool}
    (h : ∀ p ∈ ratePieces.dropLast, rinfo mem bitrateAttr p.attr ≠ none → may p = true) {n : Nat}
    (hn : 18 + ((ratePieces.dropLast.filter may).map RatePiece.most).sum ≤ n) :
    (rateTexts mem bitrateAttr).dropLast.flatten.length ≤ n := by
  unfold rateTexts
  split
  · exact Nat.zero_le n
  · rename_i rate hrate
    have hrows : ratePieces = ratePieces.dropLast ++ [⟨17, ascii " HE-RU-ALLOC ", true⟩] := rfl
    have hsplit : rateText rate :: printed mem (rinfo mem bitrateAttr) ratePieces =
        (rateText rate :: printed mem (rinfo mem bitrateAttr) ratePieces.dropLast) ++
          printed mem (rinfo mem bitrateAttr) [⟨17, ascii " HE-RU-ALLOC ", true⟩] := by
      rw [List.cons_append, printed, printed, printed, ← List.filterMap_append, ← hrows]
    rw [hsplit]
    refine Nat.le_trans (flatten_dropLast_append_le ?_)
      (Nat.le_trans (rateText_printed_length_le (parseBitrate_lt hrate) h) hn)
    exact List.length_filterMap_le _ _

/-- Which pieces are printed for a nest without 802.11ax, or with nothing older. -/
theorem rateTexts_fit (h : ¬ MixedModes (rinfo mem bitrateAttr)) :
    (rateTexts mem bitrateAttr).dropLast.flatten.length ≤ 100 ∧
      (OneWidth (rinfo mem bitrateAttr) → (rateTexts mem bitrateAttr).flatten.length ≤ 99) := by
  unfold MixedModes at h
  rcases not_and_or.mp h with hax | hold
  · let may : RatePiece → Bool := fun p => p.attr ∉ [13, 14, 15, 16, 17]
    have hmay (p : RatePiece) (hp : rinfo mem bitrateAttr p.attr ≠ none) : may p = true :=
      decide_eq_true fun hmem => hax ⟨p.attr, hmem, hp⟩
    refine ⟨@rateTexts_dropLast_length_le mem bitrateAttr may (fun p _ => hmay p) _
      (by decide +kernel),
      fun _ => @rateTexts_length_le mem bitrateAttr may (fun p _ => hmay p) _
        (by decide +kernel) (by decide)⟩
  · refine ⟨?_, ?_⟩
    · let may : RatePiece → Bool := fun p => p.attr ∉ [2, 6, 7]
      exact @rateTexts_dropLast_length_le mem bitrateAttr may
        (fun p _ hp => decide_eq_true fun hmem => hold ⟨p.attr, hmem, hp⟩) _ (by decide +kernel)
    · rintro ⟨w, hw, hone⟩
      let may : RatePiece → Bool :=
        fun p => p.attr ∉ [2, 6, 7] ∧ (p.attr ∈ [3, 8, 9, 10] → p.attr = w)
      have hmay (p : RatePiece) (hp : rinfo mem bitrateAttr p.attr ≠ none) : may p = true :=
        decide_eq_true ⟨fun hmem => hold ⟨p.attr, hmem, hp⟩, fun hmem => hone p.attr hmem hp⟩
      refine @rateTexts_length_le mem bitrateAttr may (fun p _ => hmay p) _ ?_ (by decide)
      simp only [List.mem_cons, List.not_mem_nil, or_false] at hw
      rcases hw with rfl | rfl | rfl | rfl
      all_goals decide +kernel

theorem rateTexts_ne_nil : rateTexts mem bitrateAttr ≠ [] := by
  unfold rateTexts
  split
  · exact List.cons_ne_nil _ _
  · exact List.cons_ne_nil _ _

/-- Whether the calls leave the block. -/
theorem parseBitrate_outside {cells : Mem} (hcells : cells.length = 100) :
    (parseBitrate mem bitrateAttr 100 ⟨cells, 0, false⟩).outside = true ↔
      100 < (rateTexts mem bitrateAttr).dropLast.flatten.length := by
  have hmost : (rateTexts mem bitrateAttr).flatten.length ≤ 200 :=
    @rateTexts_length_le mem bitrateAttr (fun _ => true) (fun _ _ _ => rfl) _
      (by decide +kernel) (by decide)
  rw [parseBitrate_eq]
  exact appendAll_outside hcells (by decide) _ (Nat.lt_of_le_of_lt hmost (by decide))

/-- What the block holds if they do not. -/
theorem parseBitrate_cstr {cells : Mem} (hcells : cells.length = 100)
    (hin : (rateTexts mem bitrateAttr).dropLast.flatten.length ≤ 100) :
    cstr (parseBitrate mem bitrateAttr 100 ⟨cells, 0, false⟩).cells 0 =
      (rateTexts mem bitrateAttr).flatten.take 99 := by
  rw [parseBitrate_eq]
  exact cstr_appendAll hcells (by decide) (by decide) rateTexts_ne_nil hin fun x hx h0 =>
    zero_not_mem_rateTexts (h0 ▸ hx)

end Bitrate

/-- **A rate in its block.**  The calls leave the block if and only if the pieces before the last
have more than its 100 octets.  They never do for a nest that is not of 802.11ax and of an older
standard at once: the block then holds the text up to its last octet, and the whole text when the
nest names one width. -/
theorem parseBitrate_kept (mem : Mem) (bitrateAttr : Nat) {cells : Mem}
    (hcells : cells.length = 100) :
    ((parseBitrate mem bitrateAttr 100 ⟨cells, 0, false⟩).outside = true ↔
      100 < (rateTexts mem bitrateAttr).dropLast.flatten.length) ∧
    (¬ MixedModes (rinfo mem bitrateAttr) →
      (parseBitrate mem bitrateAttr 100 ⟨cells, 0, false⟩).outside = false ∧
      cstr (parseBitrate mem bitrateAttr 100 ⟨cells, 0, false⟩).cells 0 =
        (rateTexts mem bitrateAttr).flatten.take 99 ∧
      (OneWidth (rinfo mem bitrateAttr) →
        cstr (parseBitrate mem bitrateAttr 100 ⟨cells, 0, false⟩).cells 0 =
          (rateTexts mem bitrateAttr).flatten)) := by
  have houtside := @parseBitrate_outside mem bitrateAttr cells hcells
  refine ⟨houtside, fun hmodes => ?_⟩
  obtain ⟨hfit, hwhole⟩ := rateTexts_fit hmodes
  have htext := parseBitrate_cstr hcells hfit
  refine ⟨?_, htext, fun hwidth => ?_⟩
  · rw [← Bool.not_eq_true, houtside]
    omega
  · rw [htext, List.take_of_length_le (hwhole hwidth)]

/-- A nest with an attribute of every kind that is printed, every number at its largest. -/
def fullNest : Mem :=
  nlaPut nl80211StaInfoTxBitrate
    (nlaPut 5 (le32 2147483647) ++ [3, 8, 9, 10, 4].flatMap (fun t => nlaPut t []) ++
      [2, 6, 7, 13, 14, 15, 16, 17].flatMap fun t => nlaPut t [255])

theorem parseBitrate_kept_full :
    (parseBitrate fullNest 0 100 ⟨List.replicate 100 0, 0, false⟩).outside = true :=
  (parseBitrate_kept fullNest 0 List.length_replicate).1.mpr (by decide +kernel)

/-! ## `get_chain_signal` -/

/-- `%d` of an `int8_t`. -/
def signedDecimal (v : Int) : List UInt8 :=
  if v < 0 then 45 :: decimal v.natAbs else decimal v.natAbs

/-- The signal in an attribute. -/
def chainSignal (mem : Mem) (attr : Nat) : List UInt8 :=
  signedDecimal (int8OfU8 (nlaGetU8 mem attr))

/-- A turn of the loop, with the block and `i`. -/
def chainStep (mem : Mem) (s : Block × Nat) (attr : Nat) : Block × Nat :=
  (s.1.append 64 ((if 0 < s.2 then ascii ", " else ascii "[") ++ chainSignal mem attr), s.2 + 1)

/-- The loop, and what follows it. -/
def chainLoop (mem : Mem) (attrs : List Nat) (buf : Mem) : Block :=
  let s := attrs.foldl (chainStep mem) (⟨buf, 0, false⟩, 0)
  if s.2 ≠ 0 then s.1.append 64 (ascii "] ") else s.1

/-- `get_chain_signal`: the text it returns, and its static block. -/
def getChainSignal (mem : Mem) (attrList : Option Nat) (buf : Mem) : List UInt8 × Block :=
  match attrList with
  | none => ([], ⟨buf, 0, false⟩)
  | some attr =>
      let b := chainLoop mem (nlaWalk mem (nlaData attr) (nlaLen mem attr)) buf
      (cstr b.cells 0, b)

/-- The static block. -/
abbrev ChainBuf := { buf : Mem // buf.length = 64 }

/-- A call, with a nest of no more than ten antennas if there is one. -/
structure ChainCall where
  mem : Mem
  attrList : Option Nat
  few : ∀ attr, attrList = some attr → (nlaWalk mem (nlaData attr) (nlaLen mem attr)).length ≤ 10

/-- The pieces for a row of signals. -/
def chainTexts : List (List UInt8) → List (List UInt8)
  | [] => []
  | s :: ss => (ascii "[" ++ s) :: (ss.map (ascii ", " ++ ·) ++ [ascii "] "])

/-- The signals of a call. -/
def ChainCall.signals (c : ChainCall) : List (List UInt8) :=
  match c.attrList with
  | none => []
  | some attr => (nlaWalk c.mem (nlaData attr) (nlaLen c.mem attr)).map (chainSignal c.mem)

/-- What a call writes: nothing without antennas. -/
def ChainCall.text (c : ChainCall) : Option (List UInt8) :=
  if c.signals = [] then none else some (chainTexts c.signals).flatten

section Chain

variable {mem : Mem}

theorem chainStep_foldl (attrs : List Nat) (b : Block) {i : Nat} (hi : 0 < i) :
    attrs.foldl (chainStep mem) (b, i) =
      (b.appendAll 64 ((attrs.map (chainSignal mem)).map (ascii ", " ++ ·)), i + attrs.length) := by
  induction attrs generalizing b i with
  | nil => rfl
  | cons a attrs ih =>
      rw [List.foldl_cons, chainStep, if_pos hi]
      show List.foldl _ (Block.append _ _ _, i + 1) _ = _
      rw [ih _ (Nat.succ_pos i), List.length_cons, Nat.succ_add_eq_add_succ]
      rfl

theorem chainLoop_eq (attrs : List Nat) (buf : Mem) :
    chainLoop mem attrs buf =
      Block.appendAll 64 ⟨buf, 0, false⟩ (chainTexts (attrs.map (chainSignal mem))) := by
  cases attrs with
  | nil => rfl
  | cons a attrs =>
      unfold chainLoop
      rw [List.foldl_cons, chainStep, if_neg (Nat.lt_irrefl 0)]
      show (if (List.foldl _ (Block.append _ _ _, 0 + 1) _).2 ≠ 0 then _ else _) = _
      rw [chainStep_foldl attrs _ (Nat.succ_pos 0), if_pos (by omega), List.map_cons, chainTexts]
      show Block.append _ _ _ = Block.appendAll _ (Block.append _ _ _) _
      rw [Block.appendAll_append]
      rfl

/-- The calls of `snprintf` write the pieces. -/
theorem getChainSignal_eq (c : ChainCall) (buf : Mem) :
    (getChainSignal c.mem c.attrList buf).2 = Block.appendAll 64 ⟨buf, 0, false⟩
      (chainTexts c.signals) := by
  unfold getChainSignal ChainCall.signals
  split
  · rfl
  · exact chainLoop_eq _ buf

theorem signedDecimal_length_le {v : Int} (hl : -1000 < v) (hu : v < 1000) :
    (signedDecimal v).length ≤ 4 := by
  have hlen : (decimal v.natAbs).length ≤ 3 := decimal_length_le (by decide) (by omega)
  unfold signedDecimal
  split
  · rw [List.length_cons]
    omega
  · omega

theorem chainSignal_length_le (attr : Nat) : (chainSignal mem attr).length ≤ 4 := by
  have hlt : nlaGetU8 mem attr < 256 := (rd8 mem (nlaData attr)).toNat_lt
  unfold chainSignal int8OfU8
  refine signedDecimal_length_le ?_ ?_
  all_goals
    split <;> omega

theorem zero_not_mem_chainSignal (attr : Nat) : 0 ∉ chainSignal mem attr := by
  unfold chainSignal signedDecimal
  split
  · rw [List.mem_cons, not_or]
    exact ⟨by decide, zero_not_mem_decimal _⟩
  · exact zero_not_mem_decimal _

theorem ChainCall.signal_of_mem {c : ChainCall} {s : List UInt8} (h : s ∈ c.signals) :
    s.length ≤ 4 ∧ 0 ∉ s := by
  unfold ChainCall.signals at h
  split at h
  · cases h
  · obtain ⟨a, -, rfl⟩ := List.mem_map.mp h
    exact ⟨chainSignal_length_le a, zero_not_mem_chainSignal a⟩

theorem ChainCall.signals_length_le (c : ChainCall) : c.signals.length ≤ 10 := by
  unfold ChainCall.signals
  split
  · exact Nat.zero_le 10
  · rename_i attr hattr
    rw [List.length_map]
    exact c.few attr hattr

/-- Ten antennas are told in 61 octets. -/
theorem chainTexts_length_le {ss : List (List UInt8)} (h : ∀ s ∈ ss, s.length ≤ 4) :
    (chainTexts ss).flatten.length ≤ 6 * ss.length + 1 := by
  have hrest (ss : List (List UInt8)) (h : ∀ s ∈ ss, s.length ≤ 4) :
      (ss.map (ascii ", " ++ ·)).flatten.length ≤ 6 * ss.length := by
    induction ss with
    | nil => exact Nat.le_refl 0
    | cons s ss ih =>
        have hs := h s List.mem_cons_self
        have := ih fun t ht => h t (List.mem_cons_of_mem s ht)
        have hcomma : (ascii ", ").length = 2 := by decide
        rw [List.map_cons, List.flatten_cons, List.length_append, List.length_append,
          List.length_cons]
        omega
  cases ss with
  | nil => exact Nat.zero_le 1
  | cons s ss =>
      have hs := h s List.mem_cons_self
      have := hrest ss fun t ht => h t (List.mem_cons_of_mem s ht)
      have hopen : (ascii "[").length = 1 := by decide
      have hclose : [ascii "] "].flatten.length = 2 := by decide
      unfold chainTexts
      rw [List.flatten_cons, List.flatten_append, List.length_append, List.length_append,
        List.length_append, List.length_cons]
      omega

theorem zero_not_mem_chainTexts {ss : List (List UInt8)} (h : ∀ s ∈ ss, 0 ∉ s) :
    0 ∉ (chainTexts ss).flatten := by
  cases ss with
  | nil => exact List.not_mem_nil
  | cons s ss =>
      have hrest : 0 ∉ (ss.map (ascii ", " ++ ·)).flatten := by
        intro h0
        obtain ⟨t, ht, hx⟩ := List.mem_flatten.mp h0
        obtain ⟨u, hu, rfl⟩ := List.mem_map.mp ht
        rcases List.mem_append.mp hx with hx | hx
        · revert hx
          decide
        · exact h u (List.mem_cons_of_mem s hu) hx
      simp only [chainTexts, List.flatten_cons, List.flatten_append, List.mem_append, not_or]
      exact ⟨⟨by decide, h s List.mem_cons_self⟩, hrest, by decide⟩

/-- One call: what it writes stays in the block, and the block holds it, or still the text of
before. -/
theorem getChainSignal_spec (c : ChainCall) {buf : Mem} (hbuf : buf.length = 64) :
    (getChainSignal c.mem c.attrList buf).2.outside = false ∧
      (getChainSignal c.mem c.attrList buf).2.cells.length = 64 ∧
      cstr (getChainSignal c.mem c.attrList buf).2.cells 0 = c.text.getD (cstr buf 0) := by
  have hlen := chainTexts_length_le fun s hs => (c.signal_of_mem hs).1
  have hten := c.signals_length_le
  have hdrop := flatten_dropLast_length_le (chainTexts c.signals)
  have houtside := appendAll_outside hbuf (by decide) (chainTexts c.signals)
    (Nat.lt_of_le_of_lt (m := 61) (by omega) (by decide))
  rw [getChainSignal_eq]
  refine ⟨?_, (Block.appendAll_cells_length 64 _ _).trans hbuf, ?_⟩
  · rw [← Bool.not_eq_true, houtside]
    omega
  · unfold ChainCall.text
    split
    · rename_i hnone
      rw [hnone]
      rfl
    · rename_i hsome
      have hne : chainTexts c.signals ≠ [] := by
        cases hs : c.signals with
        | nil => exact absurd hs hsome
        | cons s ss => exact List.cons_ne_nil _ _
      rw [cstr_appendAll hbuf (by decide) (by decide) hne (by omega) fun x hx h0 =>
          zero_not_mem_chainTexts (fun s hs => (c.signal_of_mem hs).2) (h0 ▸ hx),
        List.take_of_length_le (by omega)]
      rfl

end Chain

/-- The block after a call. -/
def ChainBuf.after (buf : ChainBuf) (c : ChainCall) : ChainBuf :=
  ⟨(getChainSignal c.mem c.attrList buf.1).2.cells, (getChainSignal_spec c buf.2).2.1⟩

/-- **The signals of the antennas.**  After any calls, a call writes inside its block, and a nest is
told as the last nest with an antenna in it: its own, or that of a call before if it has none. -/
theorem getChainSignal_run (calls : List ChainCall) (c : ChainCall) (buf : ChainBuf) :
    let r := getChainSignal c.mem c.attrList (calls.foldl ChainBuf.after buf).1
    r.2.outside = false ∧
      r.1 = if c.attrList = none then []
        else lastReport ChainCall.text (cstr buf.1 0) (calls ++ [c]) := by
  have hfield := foldl_field ChainBuf.after (fun buf => cstr buf.1 0) ChainCall.text
    (fun buf c => (getChainSignal_spec c buf.2).2.2) calls buf
  obtain ⟨hinside, -, htext⟩ := getChainSignal_spec c (calls.foldl ChainBuf.after buf).2
  refine ⟨hinside, ?_⟩
  rw [lastReport_append_singleton, ← hfield, ← htext]
  unfold getChainSignal
  cases c.attrList with
  | none => rfl
  | some attr => rw [if_neg (Option.some_ne_none attr)]

/-- A nest of two antennas, and one without any. -/
def twoAntennas : ChainCall :=
  ⟨nlaPut 25 (nlaPut 0 [206] ++ nlaPut 1 [200]), some 0, by rintro _ ⟨⟩; decide +kernel⟩

def noAntenna : ChainCall := ⟨nlaPut 25 [], some 0, by rintro _ ⟨⟩; decide +kernel⟩

/-- The second is told as the first. -/
theorem getChainSignal_run_stale :
    let buf : ChainBuf := ⟨List.replicate 64 0, List.length_replicate⟩
    let r := getChainSignal noAntenna.mem noAntenna.attrList (buf.after twoAntennas).1
    r.2.outside = false ∧ r.1 = ascii "[-50, -56] " := by
  intro buf r
  obtain ⟨hinside, htext⟩ := getChainSignal_run [twoAntennas] noAntenna buf
  refine ⟨hinside, htext.trans ?_⟩
  decide +kernel

end Nl80211.Iw
