/-
# Nl80211.Libnl.Attr — netlink attributes as libnl-tiny reads them.

`attr.c` walks a stream of `struct nlattr` (two octets of length, two of type, then the payload)
with a signed count of remaining octets that `nla_ok` converts to `size_t`.  The functions below
follow it branch by branch, negative counts included; every header they look at is logged.  The
second half says once what a parse computes: the list of attributes the walk accepts (`nlaWalk`),
the table `nlaParse` fills from it and the error it stops with, so that no later proof unfolds the
loop.
-/
import Nl80211.Lib.Bytes
import Nl80211.Lib.Traced
import Mathlib

namespace Nl80211.Libnl

open Lib Lib.Bytes

/-! ## What the program touches -/

/-- One access of the program, logged where the code makes it. -/
inductive Access where
  /-- the `struct nlattr` at offset `nla` of the message is inspected -/
  | header (nla : Nat)
  /-- `width` octets at offset `off` of the message are read as one value -/
  | value (off width : Nat)
  /-- `strcpy` reads `len` octets, the terminator included, from the payload of the attribute at
  `nla` -/
  | text (nla len : Nat)
  /-- `len` octets are written at position `off` of a member of `size` octets at address `dst` -/
  | write (dst size off len : Nat)
  deriving DecidableEq, Repr

/-! ## Attribute headers -/

/-- `sizeof(struct nlattr)`, which is also `NLA_HDRLEN`. -/
def nlaHdrlen : Nat := 4

/-- `NLA_TYPE_MASK`: the type without the two flag bits. -/
def nlaTypeMask : Nat := 0x3fff

/-- The member `nla_len` of the attribute at `nla`. -/
def nlaLenField (mem : Mem) (nla : Nat) : Nat := rd16 mem nla

/-- `nla_type`. -/
def nlaType (mem : Mem) (nla : Nat) : Nat := rd16 mem (nla + 2) &&& nlaTypeMask

/-- `nla_data`: where the payload starts. -/
def nlaData (nla : Nat) : Nat := nla + nlaHdrlen

/-- `nla_len`: the length of the payload, as an `int`. -/
def nlaLen (mem : Mem) (nla : Nat) : Int := (nlaLenField mem nla : Int) - nlaHdrlen

/-- The octets of the payload. -/
def nlaPayload (mem : Mem) (nla : Nat) : List UInt8 :=
  octets mem (nlaData nla) (nlaLen mem nla).toNat

/-- `nla_get_u8`. -/
def nlaGetU8 (mem : Mem) (nla : Nat) : Nat := (rd8 mem (nlaData nla)).toNat

/-- `nla_get_u16`. -/
def nlaGetU16 (mem : Mem) (nla : Nat) : Nat := rd16 mem (nlaData nla)

/-- `nla_get_u32`. -/
def nlaGetU32 (mem : Mem) (nla : Nat) : Nat := rd32 mem (nlaData nla)

/-- The conversion of an `int` to `size_t`. -/
def sizeT (remaining : Int) : Nat := (remaining % 18446744073709551616).toNat

/-- `nla_ok`. -/
def nlaOk (mem : Mem) (nla : Nat) (remaining : Int) : Traced Access Bool :=
  let r := sizeT remaining
  if r ≥ nlaHdrlen then do
    Traced.emit (.header nla)
    return nlaLenField mem nla ≥ nlaHdrlen && nlaLenField mem nla ≤ r
  else
    return false

/-- `nla_next`: the offset of the next attribute and the octets that remain for it. -/
def nlaNext (mem : Mem) (nla : Nat) (remaining : Int) : Nat × Int :=
  let totlen := align4 (nlaLenField mem nla)
  (nla + totlen, remaining - totlen)

/-- The octets `nla_put` appends to a message: header, payload, padding. -/
def nlaPut (attrtype : Nat) (data : List UInt8) : Mem :=
  pad4 (le16 (nlaHdrlen + data.length) ++ (le16 attrtype ++ data))

/-! ## Policies -/

/-- The attribute types of `enum` `NLA_UNSPEC … NLA_NESTED`. -/
inductive NlaKind where
  | unspec | u8 | u16 | u32 | u64 | string | flag | msecs | nested
  deriving DecidableEq, Repr

/-- `struct nla_policy`. -/
structure NlaPolicy where
  type : NlaKind := .unspec
  minlen : Nat := 0
  maxlen : Nat := 0
  deriving DecidableEq, Repr

/-- `nla_attr_minlen`. -/
def nlaAttrMinlen : NlaKind → Nat
  | .u8 => 1
  | .u16 => 2
  | .u32 => 4
  | .u64 => 8
  | .string => 1
  | _ => 0

/-- `NLE_INVAL`. -/
def nleInval : Int := 7

/-- `NLE_RANGE`. -/
def nleRange : Int := 8

/-- `validate_nla`. -/
def validateNla (mem : Mem) (nla maxtype : Nat) (policy : Nat → NlaPolicy) : Int :=
  let type := nlaType mem nla
  if type = 0 ∨ type > maxtype then 0
  else
    let pt := policy type
    -- a length of the policy's own, or that of its type
    let minlen :=
      if pt.minlen ≠ 0 then pt.minlen
      else if pt.type ≠ .unspec then nlaAttrMinlen pt.type
      else 0
    if pt.type = .flag ∧ nlaLen mem nla > 0 then -nleRange
    else if nlaLen mem nla < minlen then -nleRange
    else if pt.maxlen ≠ 0 ∧ nlaLen mem nla > pt.maxlen then -nleRange
    else if pt.type = .string ∧ rd8 mem (nlaData nla + (nlaLen mem nla - 1).toNat) ≠ 0
      then -nleInval
    else 0

/-! ## Parsing -/

/-- The index array `tb`: for each type the attribute stored there. -/
abbrev NlaTable := Nat → Option Nat

/-- What a parse leaves behind: its return code and the index array. -/
structure NlaIndex where
  err : Int
  tb : NlaTable

theorem nlaOk_val {mem : Mem} {nla : Nat} {rem : Int} :
    (nlaOk mem nla rem).val = true ↔
      4 ≤ nlaLenField mem nla ∧ nlaLenField mem nla ≤ sizeT rem := by
  by_cases hr : 4 ≤ sizeT rem
  · simp [nlaOk, nlaHdrlen, hr]
  · simp only [nlaOk, nlaHdrlen, ge_iff_le, if_neg hr, Traced.val_pure, Bool.false_eq_true,
      false_iff]
    omega

theorem nlaOk_log {mem : Mem} {nla : Nat} {rem : Int} :
    (nlaOk mem nla rem).log = if 4 ≤ sizeT rem then [.header nla] else [] := by
  by_cases hr : 4 ≤ sizeT rem <;> simp [nlaOk, nlaHdrlen, hr]

/-- An accepted attribute starts inside memory, and the next one lies further on. -/
theorem lt_of_nlaOk {mem : Mem} {nla : Nat} {rem : Int} (h : (nlaOk mem nla rem).val = true) :
    nla < mem.length ∧ nla < (nlaNext mem nla rem).1 := by
  obtain ⟨hlen, -⟩ := nlaOk_val.mp h
  constructor
  · by_contra hout
    rw [nlaLenField, rd16_of_length_le (by omega)] at hlen
    omega
  · have := le_align4 (nlaLenField mem nla)
    simp only [nlaNext]
    omega

/-- The loop of `nla_parse`, from the attribute at `nla` on. -/
def nlaParseFrom (mem : Mem) (maxtype : Nat) (policy : Option (Nat → NlaPolicy)) (nla : Nat)
    (rem : Int) (tb : NlaTable) : Traced Access NlaIndex :=
  if _h : (nlaOk mem nla rem).val = true then do
    let _ ← nlaOk mem nla rem
    let type := nlaType mem nla
    let next := nlaNext mem nla rem
    -- type 0 and types the array has no room for are passed over
    if type = 0 then nlaParseFrom mem maxtype policy next.1 next.2 tb
    else if type ≤ maxtype then
      match policy with
      | some p =>
          let err := validateNla mem nla maxtype p
          if err < 0 then return ⟨err, tb⟩
          else nlaParseFrom mem maxtype policy next.1 next.2 (Function.update tb type (some nla))
      | none => nlaParseFrom mem maxtype policy next.1 next.2 (Function.update tb type (some nla))
    else nlaParseFrom mem maxtype policy next.1 next.2 tb
  else do
    let _ ← nlaOk mem nla rem
    return ⟨0, tb⟩
termination_by mem.length - nla
decreasing_by
  all_goals
    have := lt_of_nlaOk _h
    omega

/-- `nla_parse`. -/
def nlaParse (mem : Mem) (maxtype head : Nat) (len : Int) (policy : Option (Nat → NlaPolicy)) :
    Traced Access NlaIndex :=
  nlaParseFrom mem maxtype policy head len fun _ => none

/-- `nla_parse_nested`. -/
def nlaParseNested (mem : Mem) (maxtype nla : Nat) (policy : Nat → NlaPolicy) :
    Traced Access NlaIndex :=
  nlaParse mem maxtype (nlaData nla) (nlaLen mem nla) (some policy)

/-! ## What a parse computes -/

/-- The attributes the walk accepts, in order. -/
def nlaWalk (mem : Mem) (nla : Nat) (rem : Int) : List Nat :=
  if _h : (nlaOk mem nla rem).val = true then
    nla :: nlaWalk mem (nlaNext mem nla rem).1 (nlaNext mem nla rem).2
  else []
termination_by mem.length - nla
decreasing_by
  have := lt_of_nlaOk _h
  omega

theorem nlaWalk_of_ok {mem : Mem} {nla : Nat} {rem : Int} (h : (nlaOk mem nla rem).val = true) :
    nlaWalk mem nla rem = nla :: nlaWalk mem (nlaNext mem nla rem).1 (nlaNext mem nla rem).2 := by
  rw [nlaWalk, dif_pos h]

theorem nlaWalk_of_not_ok {mem : Mem} {nla : Nat} {rem : Int}
    (h : ¬ (nlaOk mem nla rem).val = true) : nlaWalk mem nla rem = [] := by
  rw [nlaWalk, dif_neg h]

/-- The rule for walks: to show something of every start of a walk, show it where the walk stops and
carry it back over one accepted attribute. -/
theorem nlaWalk_induction (mem : Mem) {motive : Nat → Int → Prop}
    (stop : ∀ nla rem, ¬ (nlaOk mem nla rem).val = true → motive nla rem)
    (step : ∀ nla rem, (nlaOk mem nla rem).val = true →
      motive (nlaNext mem nla rem).1 (nlaNext mem nla rem).2 → motive nla rem)
    (nla : Nat) (rem : Int) : motive nla rem := by
  induction nla, rem using nlaWalk.induct mem with
  | case1 nla rem h ih => exact step nla rem h ih
  | case2 nla rem h => exact stop nla rem h

/-- The effect of one accepted attribute on the index array. -/
def indexStep (mem : Mem) (maxtype : Nat) (tb : NlaTable) (nla : Nat) : NlaTable :=
  if nlaType mem nla = 0 ∨ maxtype < nlaType mem nla then tb
  else Function.update tb (nlaType mem nla) (some nla)

/-- The attribute at `nla` fails its policy. -/
def Rejected (mem : Mem) (maxtype : Nat) (policy : Nat → NlaPolicy) (nla : Nat) : Prop :=
  validateNla mem nla maxtype policy < 0

instance (mem : Mem) (maxtype : Nat) (policy : Nat → NlaPolicy) (nla : Nat) :
    Decidable (Rejected mem maxtype policy nla) :=
  inferInstanceAs (Decidable (_ < _))

theorem not_rejected_of_type {mem : Mem} {maxtype nla : Nat} {policy : Nat → NlaPolicy}
    (h : nlaType mem nla = 0 ∨ maxtype < nlaType mem nla) :
    ¬ Rejected mem maxtype policy nla := by
  simp [Rejected, validateNla, h]

/-- One turn of the loop without a policy. -/
theorem nlaParseFrom_none_of_ok {mem : Mem} {maxtype nla : Nat} {rem : Int} {tb : NlaTable}
    (h : (nlaOk mem nla rem).val = true) :
    nlaParseFrom mem maxtype none nla rem tb = (do
      let _ ← nlaOk mem nla rem
      nlaParseFrom mem maxtype none (nlaNext mem nla rem).1 (nlaNext mem nla rem).2
        (indexStep mem maxtype tb nla)) := by
  rw [nlaParseFrom, dif_pos h]
  unfold indexStep
  congr 1
  funext _
  by_cases h0 : nlaType mem nla = 0
  · simp [h0]
  · by_cases hm : nlaType mem nla ≤ maxtype
    · simp [h0, hm, Nat.not_lt.mpr hm]
    · simp [h0, hm, Nat.lt_of_not_le hm]

/-- One turn of the loop with a policy that the attribute satisfies. -/
theorem nlaParseFrom_some_of_ok {mem : Mem} {maxtype nla : Nat} {rem : Int} {tb : NlaTable}
    {policy : Nat → NlaPolicy} (h : (nlaOk mem nla rem).val = true)
    (hv : ¬ Rejected mem maxtype policy nla) :
    nlaParseFrom mem maxtype (some policy) nla rem tb = (do
      let _ ← nlaOk mem nla rem
      nlaParseFrom mem maxtype (some policy) (nlaNext mem nla rem).1 (nlaNext mem nla rem).2
        (indexStep mem maxtype tb nla)) := by
  rw [nlaParseFrom, dif_pos h]
  unfold indexStep
  congr 1
  funext _
  by_cases h0 : nlaType mem nla = 0
  · simp [h0]
  · by_cases hm : nlaType mem nla ≤ maxtype
    · simp only [Rejected] at hv
      simp [h0, hm, Nat.not_lt.mpr hm, hv]
    · simp [h0, hm, Nat.lt_of_not_le hm]

/-- One turn of the loop with a policy that the attribute violates: the parse ends. -/
theorem nlaParseFrom_some_of_rejected {mem : Mem} {maxtype nla : Nat} {rem : Int} {tb : NlaTable}
    {policy : Nat → NlaPolicy} (h : (nlaOk mem nla rem).val = true)
    (hv : Rejected mem maxtype policy nla) :
    nlaParseFrom mem maxtype (some policy) nla rem tb = (do
      let _ ← nlaOk mem nla rem
      return ⟨validateNla mem nla maxtype policy, tb⟩) := by
  have hty : ¬ (nlaType mem nla = 0 ∨ maxtype < nlaType mem nla) :=
    fun hty => not_rejected_of_type hty hv
  rw [nlaParseFrom, dif_pos h]
  congr 1
  funext _
  rw [not_or, Nat.not_lt] at hty
  simp only [Rejected] at hv
  simp [hty.1, hty.2, hv]

theorem nlaParseFrom_of_not_ok {mem : Mem} {maxtype nla : Nat} {rem : Int} {tb : NlaTable}
    {policy : Option (Nat → NlaPolicy)} (h : ¬ (nlaOk mem nla rem).val = true) :
    nlaParseFrom mem maxtype policy nla rem tb = (do
      let _ ← nlaOk mem nla rem
      return ⟨0, tb⟩) := by
  rw [nlaParseFrom, dif_neg h]

/-- Without a policy every accepted attribute is indexed, and the parse succeeds. -/
theorem nlaParseFrom_none_val (mem : Mem) (maxtype nla : Nat) (rem : Int) (tb : NlaTable) :
    (nlaParseFrom mem maxtype none nla rem tb).val =
      ⟨0, (nlaWalk mem nla rem).foldl (indexStep mem maxtype) tb⟩ := by
  induction nla, rem using nlaWalk_induction mem generalizing tb with
  | stop nla rem h => simp [nlaParseFrom_of_not_ok h, nlaWalk_of_not_ok h]
  | step nla rem h ih => simp [nlaParseFrom_none_of_ok h, nlaWalk_of_ok h, ih]

/-- With a policy that every accepted attribute satisfies, likewise. -/
theorem nlaParseFrom_some_val {mem : Mem} {maxtype nla : Nat} {rem : Int}
    {policy : Nat → NlaPolicy} (tb : NlaTable)
    (hv : ∀ a ∈ nlaWalk mem nla rem, ¬ Rejected mem maxtype policy a) :
    (nlaParseFrom mem maxtype (some policy) nla rem tb).val =
      ⟨0, (nlaWalk mem nla rem).foldl (indexStep mem maxtype) tb⟩ := by
  induction nla, rem using nlaWalk_induction mem generalizing tb with
  | stop nla rem h => simp [nlaParseFrom_of_not_ok h, nlaWalk_of_not_ok h]
  | step nla rem h ih =>
      rw [nlaWalk_of_ok h, List.forall_mem_cons] at hv
      simp [nlaParseFrom_some_of_ok h hv.1, nlaWalk_of_ok h, ih _ hv.2]

/-- With a policy that some accepted attribute violates, the parse fails. -/
theorem nlaParseFrom_some_err {mem : Mem} {maxtype nla : Nat} {rem : Int}
    {policy : Nat → NlaPolicy} (tb : NlaTable)
    (hv : ∃ a ∈ nlaWalk mem nla rem, Rejected mem maxtype policy a) :
    (nlaParseFrom mem maxtype (some policy) nla rem tb).val.err < 0 := by
  induction nla, rem using nlaWalk_induction mem generalizing tb with
  | stop nla rem h => simp [nlaWalk_of_not_ok h] at hv
  | step nla rem h ih =>
      by_cases hr : Rejected mem maxtype policy nla
      · simp only [nlaParseFrom_some_of_rejected h hr, Traced.val_bind, Traced.val_pure]
        exact hr
      · rw [nlaWalk_of_ok h] at hv
        simp only [List.exists_mem_cons_iff, hr, false_or] at hv
        simpa [nlaParseFrom_some_of_ok h hr] using ih _ hv

/-- The last attribute of type `t` in a list of attributes. -/
def lastOfType (mem : Mem) (t : Nat) (walk : List Nat) : Option Nat :=
  (walk.filter fun a => nlaType mem a = t).getLast?

theorem foldl_indexStep (mem : Mem) (maxtype t : Nat) (walk : List Nat) :
    walk.foldl (indexStep mem maxtype) (fun _ => none) t =
      if 0 < t ∧ t ≤ maxtype then lastOfType mem t walk else none := by
  induction walk using List.reverseRecOn with
  | nil => simp [lastOfType]
  | append_singleton walk a ih =>
      rw [List.foldl_append, List.foldl_cons, List.foldl_nil]
      by_cases hat : nlaType mem a = t
      · subst hat
        by_cases hty : nlaType mem a = 0 ∨ maxtype < nlaType mem a
        · rw [indexStep, if_pos hty, ih, if_neg (by omega), if_neg (by omega)]
        · simp only [indexStep, if_neg hty, Function.update_self]
          rw [if_pos (by omega)]
          simp [lastOfType]
      · have hl : lastOfType mem t (walk ++ [a]) = lastOfType mem t walk := by
          simp [lastOfType, hat]
        rw [hl, ← ih, indexStep]
        split
        · rfl
        · exact Function.update_of_ne (Ne.symm hat) _ _

/-- **Top level.** A parse without a policy succeeds, and its table holds for each type within
bounds the last attribute of that type. -/
theorem nlaParse_none_val (mem : Mem) (maxtype head : Nat) (len : Int) :
    (nlaParse mem maxtype head len none).val.err = 0 ∧
      ∀ t, (nlaParse mem maxtype head len none).val.tb t =
        if 0 < t ∧ t ≤ maxtype then lastOfType mem t (nlaWalk mem head len) else none := by
  rw [nlaParse, nlaParseFrom_none_val]
  exact ⟨rfl, fun t => foldl_indexStep mem maxtype t _⟩

/-- **Nests.** A parse with a policy fails exactly when some accepted attribute violates it. -/
theorem nlaParse_some_err_iff (mem : Mem) (maxtype head : Nat) (len : Int)
    (policy : Nat → NlaPolicy) :
    (nlaParse mem maxtype head len (some policy)).val.err ≠ 0 ↔
      ∃ a ∈ nlaWalk mem head len, Rejected mem maxtype policy a := by
  constructor
  · intro herr
    by_contra hv
    push Not at hv
    rw [nlaParse, nlaParseFrom_some_val _ hv] at herr
    exact herr rfl
  · intro hv
    have := nlaParseFrom_some_err (fun _ => none) hv
    rw [nlaParse]
    omega

/-- A parse with a policy that succeeds fills the table as one without. -/
theorem nlaParse_some_tb {mem : Mem} {maxtype head : Nat} {len : Int} {policy : Nat → NlaPolicy}
    (hv : ∀ a ∈ nlaWalk mem head len, ¬ Rejected mem maxtype policy a) (t : Nat) :
    (nlaParse mem maxtype head len (some policy)).val.tb t =
      if 0 < t ∧ t ≤ maxtype then lastOfType mem t (nlaWalk mem head len) else none := by
  rw [nlaParse, nlaParseFrom_some_val _ hv]
  exact foldl_indexStep mem maxtype t _

end Nl80211.Libnl
