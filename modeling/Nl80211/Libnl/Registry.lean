/-
# Nl80211.Libnl.Registry — the families a kernel has registered, and what a lookup finds of them.

The controller describes each family in a message of its own: its number and name, three more
numbers, and two nests of nests, one for its operations and one for its multicast groups.  Such a
message is read back whole (`familyOfMsg_message`), so a lookup in a dump of a registry finds the
number of the family with that name, or of the group (`genlCtrlResolve_registry`,
`genlCtrlResolveGrp_registry`).
-/
import Nl80211.Libnl.Lookup

namespace Nl80211.Libnl

open Lib Lib.Bytes

/-! ## Descriptions -/

/-- A name that fits `GENL_NAMSIZ` octets with its terminator. -/
structure GenlName where
  chars : List UInt8
  short : chars.length < genlNamsiz
  plain : ∀ c ∈ chars, c ≠ 0
  deriving DecidableEq

/-- The name in an array of `GENL_NAMSIZ` octets. -/
def GenlName.padded (s : GenlName) : Mem :=
  s.chars ++ List.replicate (genlNamsiz - s.chars.length) 0

/-- A name as `nla_put_string` puts it. -/
def GenlName.nla (s : GenlName) (attrtype : Nat) (type_lt : attrtype < 65536) : Nla where
  attrtype := attrtype
  data := s.chars ++ [0]
  type_lt := type_lt
  len_lt := by
    have := s.short
    simp only [genlNamsiz] at this
    simp only [List.length_append, List.length_singleton, nlaHdrlen]
    omega

/-- An operation and the type of the nest it is described in. -/
structure GenlOp where
  nest : UInt16
  id : UInt32
  flags : UInt32

def GenlOp.attrs (o : GenlOp) : List Nla :=
  [.u32 ctrlAttrOpId o.id.toNat (by decide), .u32 ctrlAttrOpFlags o.flags.toNat (by decide)]

def GenlOp.nla (o : GenlOp) : Nla where
  attrtype := o.nest.toNat
  data := putAll o.attrs
  type_lt := o.nest.toNat_lt
  len_lt := by
    simp only [attrs, putAll_cons, putAll_nil, List.length_append, Nla.octets_length,
      List.length_nil]
    show 4 + (align4 8 + (align4 8 + 0)) < 65536
    decide

/-- A multicast group and the type of the nest it is described in. -/
structure GenlGrp where
  nest : UInt16
  id : UInt32
  name : GenlName

def GenlGrp.attrs (g : GenlGrp) : List Nla :=
  [.u32 ctrlAttrMcastGrpId g.id.toNat (by decide), g.name.nla ctrlAttrMcastGrpName (by decide)]

def GenlGrp.nla (g : GenlGrp) : Nla where
  attrtype := g.nest.toNat
  data := putAll g.attrs
  type_lt := g.nest.toNat_lt
  len_lt := by
    have := g.name.short
    have := align4_lt (nlaHdrlen + (g.name.chars ++ [0]).length)
    simp only [attrs, putAll_cons, putAll_nil, List.length_append, Nla.octets_length,
      List.length_nil]
    show nlaHdrlen + (align4 8 + (align4 (nlaHdrlen + (g.name.chars ++ [0]).length) + 0)) < 65536
    simp only [genlNamsiz, nlaHdrlen, List.length_append, List.length_singleton] at *
    have : align4 8 = 8 := by decide
    omega

/-- A nest, left out when there is nothing to put into it. -/
def nestOf (attrtype : Nat) (type_lt : attrtype < 65536) (as : List Nla)
    (len_lt : nlaHdrlen + (putAll as).length < 65536) : List Nla :=
  if as = [] then [] else [⟨attrtype, putAll as, type_lt, len_lt⟩]

/-- A family as it is registered.  The controller may say more about it than this
library knows of. -/
structure Registered where
  id : UInt16
  name : GenlName
  version : UInt32
  hdrsize : UInt32
  maxattr : UInt32
  ops : List GenlOp
  grps : List GenlGrp
  others : List Nla
  ops_fit : nlaHdrlen + (putAll (ops.map GenlOp.nla)).length < 65536
  grps_fit : nlaHdrlen + (putAll (grps.map GenlGrp.nla)).length < 65536
  others_new : ∀ a ∈ others, ctrlAttrMcastGroups < a.type
  others_fit : (putAll others).length < 1073741824

namespace Registered

/-- The attributes of the description. -/
def attrs (f : Registered) : List Nla :=
  [f.name.nla ctrlAttrFamilyName (by decide), .u16 ctrlAttrFamilyId f.id.toNat (by decide),
    .u32 ctrlAttrVersion f.version.toNat (by decide), .u32 ctrlAttrHdrsize
      f.hdrsize.toNat (by decide),
    .u32 ctrlAttrMaxattr f.maxattr.toNat (by decide)] ++
  (nestOf ctrlAttrOps (by decide) (f.ops.map GenlOp.nla) f.ops_fit ++
    (nestOf ctrlAttrMcastGroups (by decide) (f.grps.map GenlGrp.nla) f.grps_fit ++ f.others))

/-- The family as the library keeps it; its version has one octet. -/
def family (f : Registered) : GenlFamily where
  ceMsgtype := genlIdCtrl
  ceMask := if f.ops = [] then 31 else 63
  gfId := f.id.toNat
  gfName := f.name.padded
  gfVersion := f.version.toNat % 256
  gfHdrsize := f.hdrsize.toNat
  gfMaxattr := f.maxattr.toNat
  gfOps := f.ops.map fun o => (o.id.toNat, o.flags.toNat)
  gfMcGrps := f.grps.map fun g => (g.name.padded, g.id.toNat)

theorem nestOf_length {attrtype : Nat} (type_lt : attrtype < 65536) {as : List Nla}
    (len_lt : nlaHdrlen + (putAll as).length < 65536) :
    (putAll (nestOf attrtype type_lt as len_lt)).length < 65540 := by
  rw [nestOf]
  split
  · simp
  · have := align4_lt (nlaHdrlen + (putAll as).length)
    simp only [putAll_cons, putAll_nil, List.append_nil, Nla.octets_length, Nla.span]
    omega

theorem attrs_length (f : Registered) : (putAll f.attrs).length < 1073873000 := by
  have hname : (f.name.nla ctrlAttrFamilyName (by decide)).span < 30 := by
    have hshort := f.name.short
    have := align4_lt (nlaHdrlen + (f.name.chars ++ [0]).length)
    simp only [Nla.span, GenlName.nla, genlNamsiz, nlaHdrlen, List.length_append,
      List.length_singleton] at *
    omega
  have hword (t n : Nat) (ht : t < 65536) : (Nla.u32 t n ht).span = 8 := by
    show align4 8 = 8
    decide
  have hhalf (t n : Nat) (ht : t < 65536) : (Nla.u16 t n ht).span = 8 := by
    show align4 6 = 8
    decide
  have hops := nestOf_length (by decide : ctrlAttrOps < 65536) f.ops_fit
  have hgrps := nestOf_length (by decide : ctrlAttrMcastGroups < 65536) f.grps_fit
  have hothers := f.others_fit
  simp only [attrs, putAll_append, putAll_cons, putAll_nil, List.length_append, Nla.octets_length,
    List.length_nil, hword, hhalf]
  omega

/-- The generic header of the description: `CTRL_CMD_NEWFAMILY` and the version
of the controller. -/
def genlhdr : Mem := [1, 2, 0, 0]

/-- The message of the description. -/
def message (f : Registered) (seq : UInt32) (flags : UInt16) (behind : Mem) : NetMsg :=
  .build genlIdCtrl flags.toNat seq (genlhdr ++ putAll f.attrs) behind (by
    have hlen := f.attrs_length
    simp only [genlhdr, nlmsgHdrlen, List.length_append, List.length_cons, List.length_nil]
    omega)

end Registered

/-! ## Streams and policies -/

theorem Stored.getU16 {mem : Mem} {nla t n : Nat} {h : t < 65536}
    (hs : Stored mem nla (.u16 t n h)) :
    nlaGetU16 mem nla = n % 65536 := by
  have hlow := hs.rd8_data (k := 0) (by simp [Nla.u16])
  have hhigh := hs.rd8_data (k := 1) (by simp [Nla.u16])
  have hread := rd16_le16 n []
  simp only [rd16, List.append_nil] at hread
  rw [nlaGetU16, rd16, ← hread, hhigh]
  congr 1
  exact congrArg UInt8.toNat hlow

section Index

variable {mem : Mem} {start maxtype : Nat} {policy : Nat → NlaPolicy} {as : List Nla}

/-- A stream that keeps to the policy is indexed. -/
theorem nlaParse_stream (h : Streams mem start as) (hsize : (putAll as).length < 2147483648)
    (hv : ¬ ∃ a ∈ as, Violates maxtype policy a) :
    (nlaParse mem maxtype start (putAll as).length (some policy)).val.err = 0 ∧
      ∀ t, 0 < t → t ≤ maxtype →
        (nlaParse mem maxtype start (putAll as).length (some policy)).val.tb t =
          lastOfType mem t (places start as) := by
  have hwalk := nlaWalk_stream h hsize
  have hok : ∀ nla ∈ nlaWalk mem start (putAll as).length, ¬ Rejected mem maxtype policy nla := by
    rw [hwalk]
    exact (not_rejected_iff h).mpr hv
  constructor
  · by_contra herr
    obtain ⟨nla, hnla, hrej⟩ := (nlaParse_some_err_iff ..).mp herr
    exact hok nla hnla hrej
  · intro t h0 hmax
    rw [nlaParse_some_tb hok, if_pos ⟨h0, hmax⟩, hwalk]

theorem found_some {t : Nat} {a : Nla} (h : Streams mem start as) (hlast : lastNla t as = some a) :
    ∃ nla, lastOfType mem t (places start as) = some nla ∧ Stored mem nla a := by
  have hfound := lastOfType_stream h t
  rwa [hlast] at hfound

end Index

/-- What lies behind has the say. -/
theorem lastNla_append (t : Nat) (as bs : List Nla) :
    lastNla t (as ++ bs) = (lastNla t bs).or (lastNla t as) := by
  rw [lastNla, List.filter_append, List.getLast?_append]
  rfl

theorem lastNla_cons (t : Nat) (a : Nla) (as : List Nla) :
    lastNla t (a :: as) = (lastNla t as).or (if a.type = t then some a else none) := by
  rw [← List.singleton_append, lastNla_append]
  congr 1
  by_cases h : a.type = t <;> simp [lastNla, h]

theorem lastNla_nil (t : Nat) : lastNla t [] = none := rfl

/-- A type without flag bits. -/
theorem Nla.type_of_lt {a : Nla} (h : a.attrtype < 16384) : a.type = a.attrtype :=
  Nat.and_two_pow_sub_one_of_lt_two_pow (n := 14) h

theorem type_u16 {t : Nat} (h : t < 16384) (n : Nat) (ht : t < 65536) : (Nla.u16 t n ht).type = t :=
  Nla.type_of_lt h

theorem type_u32 {t : Nat} (h : t < 16384) (n : Nat) (ht : t < 65536) : (Nla.u32 t n ht).type = t :=
  Nla.type_of_lt h

/-- Attributes of a fixed size keep to the policies of their size. -/
theorem accepts_u16 (n : Nat) : NlaPolicy.Accepts { type := .u16 } (le16 n) :=
  ⟨nofun, Nat.le_refl 2, nofun, nofun⟩

theorem accepts_u32 (n : Nat) : NlaPolicy.Accepts { type := .u32 } (le32 n) :=
  ⟨nofun, Nat.le_refl 4, nofun, nofun⟩

/-- A nest keeps to the policy for nests, whatever is in it. -/
theorem accepts_nested (data : Mem) : NlaPolicy.Accepts { type := .nested } data :=
  ⟨nofun, Nat.zero_le _, nofun, nofun⟩

theorem accepts_unspec (data : Mem) : NlaPolicy.Accepts {} data :=
  ⟨nofun, Nat.zero_le _, nofun, nofun⟩

namespace GenlName

variable {mem : Mem} {nla : Nat} {s : GenlName} {t : Nat} {ht : t < 65536}

/-- A name with its terminator keeps to a policy for strings that leaves it room. -/
theorem accepts (s : GenlName) {maxlen : Nat} (h : maxlen = 0 ∨ maxlen = genlNamsiz) :
    NlaPolicy.Accepts { type := .string, maxlen := maxlen } (s.chars ++ [0]) where
  empty := nofun
  least := by simp [nlaAttrMinlen]
  most := by
    intro hne
    have := s.short
    rcases h with h | h
    · exact absurd h hne
    · simp only [List.length_append, List.length_singleton, h]
      omega
  ended := by simp

theorem type_eq (h : t < 16384) : (s.nla t ht).type = t := Nla.type_of_lt h

/-- The reader finds the name. -/
theorem cstr_eq (h : Stored mem nla (s.nla t ht)) : cstr mem (nlaData nla) = s.chars := by
  refine cstr_of_octets s.plain ?_
  have hdata := h.data_eq
  simpa [GenlName.nla] using hdata

/-- Stored in a family, the name is padded. -/
theorem strncpy_eq (s : GenlName) :
    strncpy (List.replicate genlNamsiz 0) s.chars (genlNamsiz - 1) = s.padded := by
  have hshort := s.short
  simp only [genlNamsiz] at hshort
  have htake : s.chars.take (genlNamsiz - 1) = s.chars := List.take_of_length_le (by
    simp only [genlNamsiz]
    omega)
  have hdrop : (List.replicate genlNamsiz (0 : UInt8)).drop (0 + (s.chars ++
      List.replicate (genlNamsiz - 1 - s.chars.length) 0).length) = [0] := by
    simp only [List.drop_replicate, List.length_append, List.length_replicate, genlNamsiz]
    rw [show 16 - (0 + (s.chars.length + (16 - 1 - s.chars.length))) = 1 by omega]
    rfl
  rw [strncpy, store, htake, hdrop, List.take_zero, List.nil_append, List.append_assoc,
    ← List.replicate_succ', padded, List.take_of_length_le]
  · simp only [genlNamsiz]
    rw [show 16 - 1 - s.chars.length + 1 = 16 - s.chars.length by omega]
  · simp only [List.length_append, List.length_replicate, genlNamsiz]
    omega

/-- The search compares with the name. -/
theorem cstr_padded (s : GenlName) : cstr s.padded 0 = s.chars := by
  have hshort := s.short
  simp only [genlNamsiz] at hshort
  refine cstr_of_octets s.plain ?_
  have hsplit : s.padded = (s.chars ++ [0]) ++ List.replicate (15 - s.chars.length) 0 := by
    rw [padded, List.append_assoc, List.singleton_append, ← List.replicate_succ]
    simp only [genlNamsiz]
    rw [show 15 - s.chars.length + 1 = 16 - s.chars.length by omega]
  have hoct := octets_self_append (s.chars ++ [0]) (List.replicate (15 - s.chars.length) 0)
  rwa [List.length_append, List.length_singleton, ← hsplit] at hoct

end GenlName

/-! ## The nests -/

/-- A loop over a nest that adds what it reads, over a stream of what was written. -/
theorem foldlM_places {α β : Type} {mem : Mem} {write : α → Nla} {value : α → β}
    {read : Nat → Except Int β} (hread : ∀ x nla, Stored mem nla (write x) →
      read nla = .ok (value x))
    (add : GenlFamily → β → GenlFamily) :
    ∀ (xs : List α) (start : Nat) (f : GenlFamily), Streams mem start (xs.map write) →
      (places start (xs.map write)).foldlM (fun f nla => (read nla).map (add f)) f =
        .ok ((xs.map value).foldl add f)
  | [], _, _, _ => rfl
  | x :: xs, start, f, h => by
      obtain ⟨hstored, hrest⟩ := Streams.cons.mp h
      rw [List.map_cons, places, List.foldlM_cons, hread x start hstored]
      exact foldlM_places hread add xs _ _ hrest

/-- The loop over a nest that is there when there is something to put into it. -/
theorem foldlM_nestOf {α β : Type} {mem : Mem} {write : α → Nla} {value : α → β}
    {read : Nat → Except Int β} (hread : ∀ x nla, Stored mem nla (write x) →
      read nla = .ok (value x))
    (add : GenlFamily → β → GenlFamily) {xs : List α} {attrtype : Nat} {type_lt : attrtype < 65536}
    {len_lt : nlaHdrlen + (putAll (xs.map write)).length < 65536} {found : Option Nat}
    (h : match (if xs ≠ [] then some (⟨attrtype, putAll (xs.map write), type_lt, len_lt⟩ : Nla)
        else none) with
      | none => found = none
      | some a => ∃ nla, found = some nla ∧ Stored mem nla a) (f : GenlFamily) :
    (match found with
      | some a => (nlaWalk mem (nlaData a) (nlaLen mem a)).foldlM
          (fun f nla => (read nla).map (add f)) f
      | none => .ok f) = .ok ((xs.map value).foldl add f) := by
  by_cases hnil : xs = []
  · rw [if_neg (not_not_intro hnil)] at h
    rw [h, hnil]
    rfl
  · rw [if_pos hnil] at h
    obtain ⟨nla, rfl, hstored⟩ := h
    simp only
    rw [hstored.walk rfl]
    exact foldlM_places hread add xs _ f (hstored.streams rfl)

/-- Operations are appended, and the first sets the mask. -/
theorem foldl_addOp (ops : List (Nat × Nat)) (f : GenlFamily) :
    ops.foldl (fun f op => f.addOp op.1 op.2) f =
      { f with
        gfOps := f.gfOps ++ ops
        ceMask := if ops = [] then f.ceMask else f.ceMask ||| 32 } := by
  induction ops generalizing f with
  | nil => simp
  | cons op ops ih =>
      rw [List.foldl_cons, ih]
      by_cases hnil : ops = [] <;> simp [GenlFamily.addOp, hnil]

/-- Groups are appended, each with its name in an array. -/
theorem foldl_addGrp (grps : List (Nat × List UInt8)) (f : GenlFamily) :
    grps.foldl (fun f g => f.addGrp g.1 g.2) f =
      { f with gfMcGrps := f.gfMcGrps ++ grps.map fun g =>
          (strncpy (List.replicate genlNamsiz 0) g.2 (genlNamsiz - 1), g.1) } := by
  induction grps generalizing f with
  | nil => simp
  | cons g grps ih =>
      rw [List.foldl_cons, ih]
      simp [GenlFamily.addGrp]

/-- An operation is read back. -/
theorem ctrlOp_nla {mem : Mem} {nla : Nat} (o : GenlOp) (h : Stored mem nla o.nla) :
    ctrlOp mem nla = .ok (o.id.toNat, o.flags.toNat) := by
  have hstream : Streams mem (nlaData nla) o.attrs := h.streams rfl
  have hsize : (putAll o.attrs).length < 2147483648 := by
    have := o.nla.len_lt
    show o.nla.data.length < _
    omega
  have hid := type_u32 (by decide : ctrlAttrOpId < 16384) o.id.toNat (by decide)
  have hflags := type_u32 (by decide : ctrlAttrOpFlags < 16384) o.flags.toNat (by decide)
  have hvalid : ¬ ∃ a ∈ o.attrs, Violates ctrlAttrOpMax familyOpPolicy a := by
    rintro ⟨a, ha, -, -, hacc⟩
    simp only [GenlOp.attrs, List.mem_cons, List.not_mem_nil, or_false] at ha
    rcases ha with rfl | rfl
    · rw [hid] at hacc
      exact hacc (accepts_u32 _)
    · rw [hflags] at hacc
      exact hacc (accepts_u32 _)
  obtain ⟨herr, htb⟩ := nlaParse_stream hstream hsize hvalid
  have hne : ctrlAttrOpFlags ≠ ctrlAttrOpId := by decide
  obtain ⟨idAt, hidAt, hidStored⟩ := found_some hstream
    (show lastNla ctrlAttrOpId o.attrs = some (.u32 ctrlAttrOpId o.id.toNat (by decide)) by
      simp only [GenlOp.attrs, lastNla_cons, lastNla_nil, hid, hflags, if_neg hne, if_true,
        Option.or_none, Option.none_or])
  obtain ⟨flagsAt, hflagsAt, hflagsStored⟩ := found_some hstream
    (show lastNla ctrlAttrOpFlags o.attrs = some (.u32 ctrlAttrOpFlags o.flags.toNat (by decide)) by
      simp only [GenlOp.attrs, lastNla_cons, lastNla_nil, hid, hflags, if_neg hne.symm, if_true,
        Option.or_none, Option.none_or])
  have hlen : nlaLen mem nla = (putAll o.attrs).length := h.len_eq
  rw [ctrlOp, nlaParseNested, hlen]
  simp only [herr, htb _ (by decide : 0 < ctrlAttrOpId) (by decide), hidAt,
    htb _ (by decide : 0 < ctrlAttrOpFlags) (by decide), hflagsAt, hidStored.getU32,
    hflagsStored.getU32, Int.lt_irrefl, if_false]
  rw [Nat.mod_eq_of_lt o.id.toNat_lt, Nat.mod_eq_of_lt o.flags.toNat_lt]

/-- A group is read back. -/
theorem ctrlGrp_nla {mem : Mem} {nla : Nat} (g : GenlGrp) (h : Stored mem nla g.nla) :
    ctrlGrp mem nla = .ok (g.id.toNat, g.name.chars) := by
  have hstream : Streams mem (nlaData nla) g.attrs := h.streams rfl
  have hsize : (putAll g.attrs).length < 2147483648 := by
    have := g.nla.len_lt
    show g.nla.data.length < _
    omega
  have hid := type_u32 (by decide : ctrlAttrMcastGrpId < 16384) g.id.toNat (by decide)
  have hname : (g.name.nla ctrlAttrMcastGrpName (by decide)).type = ctrlAttrMcastGrpName :=
    GenlName.type_eq (by decide)
  have hvalid : ¬ ∃ a ∈ g.attrs, Violates ctrlAttrMcastGrpMax familyGrpPolicy a := by
    rintro ⟨a, ha, -, -, hacc⟩
    simp only [GenlGrp.attrs, List.mem_cons, List.not_mem_nil, or_false] at ha
    rcases ha with rfl | rfl
    · rw [hid] at hacc
      exact hacc (accepts_u32 _)
    · rw [hname] at hacc
      exact hacc (g.name.accepts (.inl rfl))
  obtain ⟨herr, htb⟩ := nlaParse_stream hstream hsize hvalid
  have hne : ctrlAttrMcastGrpName ≠ ctrlAttrMcastGrpId := by decide
  obtain ⟨idAt, hidAt, hidStored⟩ := found_some hstream
    (show lastNla ctrlAttrMcastGrpId g.attrs =
      some (.u32 ctrlAttrMcastGrpId g.id.toNat (by decide)) by
      simp only [GenlGrp.attrs, lastNla_cons, lastNla_nil, hid, hname, if_neg hne, if_true,
        Option.or_none, Option.none_or])
  obtain ⟨nameAt, hnameAt, hnameStored⟩ := found_some hstream
    (show lastNla ctrlAttrMcastGrpName g.attrs =
      some (g.name.nla ctrlAttrMcastGrpName (by decide)) by
      simp only [GenlGrp.attrs, lastNla_cons, lastNla_nil, hid, hname, if_neg hne.symm, if_true,
        Option.or_none, Option.none_or])
  have hlen : nlaLen mem nla = (putAll g.attrs).length := h.len_eq
  rw [ctrlGrp, nlaParseNested, hlen]
  simp only [herr, htb _ (by decide : 0 < ctrlAttrMcastGrpId) (by decide), hidAt,
    htb _ (by decide : 0 < ctrlAttrMcastGrpName) (by decide), hnameAt, hidStored.getU32,
    GenlName.cstr_eq hnameStored, Int.lt_irrefl, if_false]
  rw [Nat.mod_eq_of_lt g.id.toNat_lt]

/-! ## The description -/

theorem lastNla_nestOf {attrtype : Nat} (h : attrtype < 16384) (type_lt : attrtype < 65536)
    {as : List Nla} (len_lt : nlaHdrlen + (putAll as).length < 65536) (t : Nat) :
    lastNla t (nestOf attrtype type_lt as len_lt) =
      if as ≠ [] ∧ attrtype = t then some ⟨attrtype, putAll as, type_lt, len_lt⟩ else none := by
  have htype : (⟨attrtype, putAll as, type_lt, len_lt⟩ : Nla).type = attrtype := Nla.type_of_lt h
  rw [nestOf]
  by_cases has : as = []
  · rw [if_pos has, if_neg fun hne => hne.1 has, lastNla_nil]
  · rw [if_neg has, lastNla_cons, lastNla_nil, htype, Option.none_or]
    simp only [has, ne_eq, not_false_iff, true_and]

namespace Registered

variable (f : Registered)

/-- The attribute of each type that the library knows. -/
def said (f : Registered) : Nat → Option Nla
  | 1 => some (.u16 ctrlAttrFamilyId f.id.toNat (by decide))
  | 2 => some (f.name.nla ctrlAttrFamilyName (by decide))
  | 3 => some (.u32 ctrlAttrVersion f.version.toNat (by decide))
  | 4 => some (.u32 ctrlAttrHdrsize f.hdrsize.toNat (by decide))
  | 5 => some (.u32 ctrlAttrMaxattr f.maxattr.toNat (by decide))
  | 6 => if f.ops ≠ [] then some ⟨ctrlAttrOps, putAll (f.ops.map GenlOp.nla), by decide, f.ops_fit⟩
    else none
  | 7 => if f.grps ≠ [] then some ⟨ctrlAttrMcastGroups, putAll (f.grps.map GenlGrp.nla), by decide,
    f.grps_fit⟩ else none
  | _ => none

theorem lastNla_attrs {t : Nat} (ht : t ≤ ctrlAttrMcastGroups) : lastNla t f.attrs = f.said t := by
  have hothers : lastNla t f.others = none :=
    lastNla_eq_none.mpr fun a ha => Nat.ne_of_gt (Nat.lt_of_le_of_lt ht (f.others_new a ha))
  have hid := type_u16 (by decide : ctrlAttrFamilyId < 16384) f.id.toNat (by decide)
  have hname : (f.name.nla ctrlAttrFamilyName (by decide)).type = ctrlAttrFamilyName :=
    GenlName.type_eq (by decide)
  have hversion := type_u32 (by decide : ctrlAttrVersion < 16384) f.version.toNat (by decide)
  have hhdrsize := type_u32 (by decide : ctrlAttrHdrsize < 16384) f.hdrsize.toNat (by decide)
  have hmaxattr := type_u32 (by decide : ctrlAttrMaxattr < 16384) f.maxattr.toNat (by decide)
  have hops := lastNla_nestOf (by decide : ctrlAttrOps < 16384) (by decide) f.ops_fit t
  have hgrps := lastNla_nestOf (by decide : ctrlAttrMcastGroups < 16384) (by decide) f.grps_fit t
  rw [attrs, lastNla_append, lastNla_append, lastNla_append, hothers, hgrps, hops]
  simp only [lastNla_cons, lastNla_nil, hid, hname, hversion, hhdrsize, hmaxattr]
  rw [ctrlAttrMcastGroups] at ht
  interval_cases t <;> simp [said, ctrlAttrFamilyId, ctrlAttrFamilyName, ctrlAttrVersion,
    ctrlAttrHdrsize, ctrlAttrMaxattr, ctrlAttrOps, ctrlAttrMcastGroups]

/-- The description keeps to the policy of the parser. -/
theorem attrs_valid : ¬ ∃ a ∈ f.attrs, Violates ctrlAttrMax ctrlPolicy a := by
  rintro ⟨a, ha, -, -, hacc⟩
  have nest {attrtype : Nat} (h : attrtype = ctrlAttrOps ∨ attrtype = ctrlAttrMcastGroups)
      {type_lt : attrtype < 65536} {as : List Nla} {len_lt : nlaHdrlen + (putAll as).length < 65536}
      (ha : a ∈ nestOf attrtype type_lt as len_lt) : (ctrlPolicy a.type).Accepts a.data := by
    rw [nestOf] at ha
    split at ha
    · cases ha
    · rw [List.mem_singleton] at ha
      subst ha
      have hlt : attrtype < 16384 := by rcases h with rfl | rfl <;> decide
      have htype : (⟨attrtype, putAll as, type_lt, len_lt⟩ : Nla).type = attrtype :=
        Nla.type_of_lt hlt
      rw [htype]
      rcases h with rfl | rfl
      · exact accepts_nested _
      · exact accepts_nested _
  simp only [attrs, List.mem_append, List.mem_cons, List.not_mem_nil, or_false] at ha
  rcases ha with (rfl | rfl | rfl | rfl | rfl) | ha | ha | ha
  · rw [GenlName.type_eq (by decide)] at hacc
    exact hacc (f.name.accepts (.inr rfl))
  · rw [type_u16 (by decide)] at hacc
    exact hacc (accepts_u16 _)
  · rw [type_u32 (by decide)] at hacc
    exact hacc (accepts_u32 _)
  · rw [type_u32 (by decide)] at hacc
    exact hacc (accepts_u32 _)
  · rw [type_u32 (by decide)] at hacc
    exact hacc (accepts_u32 _)
  · exact hacc (nest (.inl rfl) ha)
  · exact hacc (nest (.inr rfl) ha)
  · have hnew := f.others_new a ha
    have hnone : ctrlPolicy a.type = {} := by
      simp only [ctrlAttrMcastGroups] at hnew
      rw [ctrlPolicy]
      all_goals omega
    rw [hnone] at hacc
    exact hacc (accepts_unspec _)

variable (seq : UInt32) (flags : UInt16) (behind : Mem)

/-- The header of the description. -/
def header : Nlmsghdr := ⟨UInt16.ofNat genlIdCtrl, flags, seq, 0⟩

theorem image_eq : (f.message seq flags behind).image =
    (header seq flags).octets (genlhdr ++ putAll f.attrs) ++ behind := by
  show buildOctets _ _ _ _ ++ behind = _
  simp [buildOctets, Nlmsghdr.octets, Nlmsghdr.front, header, genlIdCtrl]

/-- Behind the two headers lie the attributes. -/
theorem image_streams :
    Streams (f.message seq flags behind).image (nlmsgAttrdata 0 genlHdrlen) f.attrs := by
  have hsplit : (f.message seq flags behind).image =
      ((header seq flags).front (nlmsgHdrlen + (genlhdr ++ putAll f.attrs).length) ++ genlhdr) ++
        (putAll f.attrs ++ behind) := by
    simp [image_eq, Nlmsghdr.octets]
  have hstart : nlmsgAttrdata 0 genlHdrlen =
      ((header seq flags).front (nlmsgHdrlen + (genlhdr ++ putAll f.attrs).length) ++
        genlhdr).length + 0 := rfl
  rw [Streams, hsplit, hstart, octets_append_right]
  exact octets_self_append _ _

theorem image_len : nlmsgLenField (f.message seq flags behind).image 0 =
    nlmsgHdrlen + genlHdrlen + (putAll f.attrs).length := by
  have hlen := f.attrs_length
  rw [image_eq, nlmsgLenField, Nlmsghdr.octets, Nlmsghdr.front, List.append_assoc,
    List.append_assoc,
    rd32_le32, List.length_append, Nat.mod_eq_of_lt, Nat.add_assoc]
  · rfl
  · simp only [nlmsgHdrlen, genlhdr, List.length_cons, List.length_nil]
    omega

theorem image_type : nlmsgType (f.message seq flags behind).image 0 = genlIdCtrl := by
  rw [image_eq, Nlmsghdr.octets, List.append_assoc, ((header seq flags).front_read _ _).1]
  rfl

theorem image_cmd : genlCmd (f.message seq flags behind).image = ctrlCmdNewfamily := by
  have hsplit : (f.message seq flags behind).image =
      (header seq flags).front (nlmsgHdrlen + (genlhdr ++ putAll f.attrs).length) ++
        (genlhdr ++ (putAll f.attrs ++ behind)) := by
    simp [image_eq, Nlmsghdr.octets]
  have hread := rd8_append_right
    ((header seq flags).front (nlmsgHdrlen + (genlhdr ++ putAll f.attrs).length))
    (genlhdr ++ (putAll f.attrs ++ behind)) 0
  rw [← hsplit] at hread
  rw [genlCmd]
  exact (congrArg UInt8.toNat hread).trans rfl

theorem image_attrlen : nlmsgAttrlen (f.message seq flags behind).image 0 genlHdrlen =
    (putAll f.attrs).length := by
  have hlen := f.attrs_length
  have halign : align4 genlHdrlen = 4 := by decide
  have hmod : (nlmsgHdrlen + genlHdrlen + (putAll f.attrs).length + 4294967296 - nlmsgHdrlen) %
      4294967296 = 4 + (putAll f.attrs).length := by
    simp only [nlmsgHdrlen, genlHdrlen]
    omega
  rw [nlmsgAttrlen, image_len, halign, toInt32, hmod, if_pos (by omega)]
  omega

/-- The parser finds what the description says. -/
theorem parsed :
    (nlmsgParse (f.message seq flags behind).image genlHdrlen ctrlAttrMax
      (some ctrlPolicy)).err = 0 ∧
      ∀ t, 0 < t → t ≤ ctrlAttrMcastGroups → match f.said t with
        | none => (nlmsgParse (f.message seq flags behind).image genlHdrlen ctrlAttrMax
            (some ctrlPolicy)).tb t = none
        | some a => ∃ nla, (nlmsgParse (f.message seq flags behind).image genlHdrlen ctrlAttrMax
            (some ctrlPolicy)).tb t = some nla ∧
              Stored (f.message seq flags behind).image nla a := by
  have hvalid : nlmsgValidHdr (f.message seq flags behind).image genlHdrlen = true := by
    rw [nlmsgValidHdr, image_len]
    simp
  have hstream := f.image_streams seq flags behind
  have hsize : (putAll f.attrs).length < 2147483648 := Nat.lt_trans f.attrs_length (by decide)
  obtain ⟨herr, htb⟩ := nlaParse_stream hstream hsize f.attrs_valid
  rw [nlmsgParse, if_neg (not_not_intro hvalid), image_attrlen]
  refine ⟨herr, fun t h0 ht => ?_⟩
  rw [htb t h0 (Nat.le_trans ht (by decide))]
  have hfound := lastOfType_stream hstream t
  rwa [f.lastNla_attrs ht] at hfound

variable {f}

/-- The parser makes the family of what it finds. -/
theorem familyOf_said {mem : Mem} {tb : NlaTable} (htype : nlmsgType mem 0 = genlIdCtrl)
    (h : ∀ t, 0 < t → t ≤ ctrlAttrMcastGroups → match f.said t with
      | none => tb t = none
      | some a => ∃ nla, tb t = some nla ∧ Stored mem nla a) :
    familyOf mem tb = .ok f.family := by
  obtain ⟨idAt, hid, hidStored⟩ := h ctrlAttrFamilyId (by decide) (by decide)
  obtain ⟨nameAt, hname, hnameStored⟩ := h ctrlAttrFamilyName (by decide) (by decide)
  obtain ⟨versionAt, hversion, hversionStored⟩ := h ctrlAttrVersion (by decide) (by decide)
  obtain ⟨hdrsizeAt, hhdrsize, hhdrsizeStored⟩ := h ctrlAttrHdrsize (by decide) (by decide)
  obtain ⟨maxattrAt, hmaxattr, hmaxattrStored⟩ := h ctrlAttrMaxattr (by decide) (by decide)
  have hops := foldlM_nestOf (fun o nla => ctrlOp_nla o) (fun f op => f.addOp op.1 op.2)
    (h ctrlAttrOps (by decide) (by decide))
  have hgrps := foldlM_nestOf (fun g nla => ctrlGrp_nla g) (fun f g => f.addGrp g.1 g.2)
    (h ctrlAttrMcastGroups (by decide) (by decide))
  have hbound (n : UInt32) : n.toNat % 4294967296 = n.toNat := Nat.mod_eq_of_lt n.toNat_lt
  rw [familyOf, hname, hid]
  simp only [hversion, hhdrsize, hmaxattr, hidStored.getU16, hversionStored.getU32,
    hhdrsizeStored.getU32, hmaxattrStored.getU32, GenlName.cstr_eq hnameStored, hbound]
  refine (congrArg (· >>= _) (hops _)).trans ((hgrps _).trans ?_)
  have hmask : (if f.ops.map (fun o => (o.id.toNat, o.flags.toNat)) = [] then 0 ||| 1 ||| 2 |||
      4 ||| 8 ||| 16
      else 0 ||| 1 ||| 2 ||| 4 ||| 8 ||| 16 ||| 32) = if f.ops = [] then 31 else 63 := by
    simp only [List.map_eq_nil_iff]
    rfl
  have hgroups : (f.grps.map fun g => (g.id.toNat, g.name.chars)).map (fun g =>
      (strncpy (List.replicate genlNamsiz 0) g.2 (genlNamsiz - 1), g.1)) =
        f.grps.map fun g => (g.name.padded, g.id.toNat) := by
    rw [List.map_map]
    exact List.map_congr_left fun g _ => congrArg (·, g.id.toNat) g.name.strncpy_eq
  rw [foldl_addOp, foldl_addGrp, hgroups]
  simp only [GenlFamily.setId, GenlFamily.setName, GenlFamily.setVersion, GenlFamily.setHdrsize,
    GenlFamily.setMaxattr, htype, hmask, f.name.strncpy_eq, List.nil_append]
  have hid : f.id.toNat % 65536 % 65536 = f.id.toNat := by
    have := f.id.toNat_lt
    omega
  rw [hid]
  rfl

end Registered

/-- **A description is read back whole**, whatever follows the message in memory. -/
theorem familyOfMsg_message (f : Registered) (seq : UInt32) (flags : UInt16) (behind : Mem) :
    familyOfMsg (f.message seq flags behind).image = .ok f.family := by
  have hvalid : nlmsgValidHdr (f.message seq flags behind).image genlHdrlen = true := by
    rw [nlmsgValidHdr, f.image_len]
    simp
  obtain ⟨herr, hsaid⟩ := f.parsed seq flags behind
  rw [familyOfMsg, if_neg (not_not_intro hvalid),
    if_pos ⟨f.image_type seq flags behind, f.image_cmd seq flags behind⟩]
  simp only [herr, Int.lt_irrefl, if_false]
  exact Registered.familyOf_said (f.image_type seq flags behind) hsaid

/-! ## The lookup -/

section Lookup

variable {peer : Peer} {seq : UInt32} {a : Answer seq} {rest : List Incoming}
    {st : RecvState CacheState}

/-- The dump of a registry: a description of each family, in this order. -/
def Dumps (a : Answer seq) (fams : List Registered) : Prop :=
  List.Forall₂ (fun m f => ∃ flags behind, m = Registered.message f seq flags behind)
    a.messages fams

theorem familiesOf_dump {fams : List Registered} (h : Dumps a fams) :
    familiesOf a.messages = .ok (fams.map Registered.family) := by
  rw [Dumps] at h
  generalize a.messages = ms at h
  induction h with
  | nil => rfl
  | cons hm _ ih =>
      obtain ⟨flags, behind, rfl⟩ := hm
      rw [familiesOf_cons, familyOfMsg_message, ih]
      rfl

theorem family_name (f : Registered) : f.family.name = f.name.chars := f.name.cstr_padded

theorem family_getId (f : Registered) : f.family.getId = f.id.toNat := by
  have hset : f.family.ceMask &&& 1 ≠ 0 := by
    simp only [Registered.family]
    split_ifs <;> decide
  rw [GenlFamily.getId, if_pos hset]
  rfl

theorem family_grpByName (f : Registered) (grpName : List UInt8) :
    genlCtrlGrpByName grpName f.family = match f.grps.find? (·.name.chars = grpName) with
      | some g => toInt32 g.id.toNat
      | none => -nleObjNotfound := by
  have hfind : f.family.gfMcGrps.find? (fun grp => cstr grp.1 0 = grpName) =
      (f.grps.find? (·.name.chars = grpName)).map fun g => (g.name.padded, g.id.toNat) := by
    rw [Registered.family, List.find?_map]
    congr 2
    funext g
    exact congrArg (fun s => decide (s = grpName)) g.name.cstr_padded
  rw [genlCtrlGrpByName, hfind]
  cases f.grps.find? (·.name.chars = grpName) with
  | none => rfl
  | some g => rfl

/-- The family that is found is the first of its name. -/
theorem foundIn_dump (name : List UInt8) (read : GenlFamily → Int) (fams : List Registered) :
    foundIn name read (.ok (fams.map Registered.family)) =
      match fams.find? (·.name.chars = name) with
      | some f => read f.family
      | none => -nleObjNotfound := by
  have hfind : (fams.map Registered.family).find? (·.name = name) =
      (fams.find? (·.name.chars = name)).map Registered.family := by
    rw [List.find?_map]
    congr 2
    funext f
    exact congrArg (fun s => decide (s = name)) (family_name f)
  rw [foundIn, hfind]
  cases fams.find? (·.name.chars = name) with
  | none => rfl
  | some f => rfl

/-- **The lookup of a family.** From a kernel that dumps its registry, `genl_ctrl_resolve` returns
the number of the first family of that name, or says that there is none; it reads the dump to its
end and keeps the counters together. -/
theorem genlCtrlResolve_registry {fams : List Registered} (hdump : Dumps a fams)
    (ha : a.Multipart peer.page) (hblock : peer.block.length = NlMsg.defaultMsgSize)
    (hsend : peer.send (getfamily seq peer.pid) = .ok (incoming a.parcels ++ rest))
    (hst : At [] ⟨seq, seq⟩ [] st) (name : List UInt8) :
    ∃ st', genlCtrlResolve peer name st = .ok (match fams.find? (·.name.chars = name) with
        | some f => (f.id.toNat : Int)
        | none => -nleObjNotfound) st' ∧
      st'.sk = ⟨seq + 1, seq + 1⟩ ∧ st'.queue = rest := by
  obtain ⟨err, st', hrun, hlooked⟩ :=
    (genlCtrlResolveWith_lookedUp a ha hblock hsend name fun f => f.getId).returns hst
  rw [LookedUp, familiesOf_dump hdump, foundIn_dump] at hlooked
  obtain ⟨rfl, hsk, hqueue⟩ := hlooked
  refine ⟨st', hrun.trans ?_, hsk, hqueue⟩
  congr 1
  cases fams.find? (·.name.chars = name) with
  | none => rfl
  | some f => exact congrArg Int.ofNat (family_getId f)

/-- **The lookup of a group.** Likewise; the number of a group is returned as an `int`. -/
theorem genlCtrlResolveGrp_registry {fams : List Registered} (hdump : Dumps a fams)
    (ha : a.Multipart peer.page) (hblock : peer.block.length = NlMsg.defaultMsgSize)
    (hsend : peer.send (getfamily seq peer.pid) = .ok (incoming a.parcels ++ rest))
    (hst : At [] ⟨seq, seq⟩ [] st) (familyName grpName : List UInt8) :
    ∃ st', genlCtrlResolveGrp peer familyName grpName st =
        .ok (match fams.find? (·.name.chars = familyName) with
          | some f => match f.grps.find? (·.name.chars = grpName) with
            | some g => toInt32 g.id.toNat
            | none => -nleObjNotfound
          | none => -nleObjNotfound) st' ∧
      st'.sk = ⟨seq + 1, seq + 1⟩ ∧ st'.queue = rest := by
  obtain ⟨err, st', hrun, hlooked⟩ := (genlCtrlResolveWith_lookedUp a ha hblock hsend familyName
    (genlCtrlGrpByName grpName)).returns hst
  rw [LookedUp, familiesOf_dump hdump, foundIn_dump] at hlooked
  obtain ⟨rfl, hsk, hqueue⟩ := hlooked
  refine ⟨st', hrun.trans ?_, hsk, hqueue⟩
  congr 1
  cases fams.find? (·.name.chars = familyName) with
  | none => rfl
  | some f => exact family_grpByName f grpName

end Lookup

/-! ## A registry of two families -/

def nlctrlFamily : Registered where
  id := 16
  name := ⟨ascii "nlctrl", by decide +kernel, by decide +kernel⟩
  version := 2
  hdrsize := 0
  maxattr := 10
  ops := [⟨1, 3, 14⟩]
  grps := [⟨1, 16, ⟨ascii "notify", by decide +kernel, by decide +kernel⟩⟩]
  others := []
  ops_fit := by decide +kernel
  grps_fit := by decide +kernel
  others_new := nofun
  others_fit := by decide +kernel

def nl80211Family : Registered where
  id := 28
  name := ⟨ascii "nl80211", by decide +kernel, by decide +kernel⟩
  version := 1
  hdrsize := 0
  maxattr := 300
  ops := []
  grps := [⟨1, 5, ⟨ascii "config", by decide +kernel, by decide +kernel⟩⟩,
    ⟨2, 6, ⟨ascii "scan", by decide +kernel, by decide +kernel⟩⟩]
  others := []
  ops_fit := by decide +kernel
  grps_fit := by decide +kernel
  others_new := nofun
  others_fit := by decide +kernel

/-- Their dump in answer to the request of number 5. -/
def twoFamilies : Answer 5 :=
  .dump [nlctrlFamily.message 5 2 [], nl80211Family.message 5 2 []] (by decide +kernel)
    (by decide +kernel)

/-- A kernel that answers this request and no other. -/
def twoFamiliesPeer : Peer where
  pid := 7
  block := List.replicate NlMsg.defaultMsgSize 170
  send := fun m => if m = getfamily 5 7 then .ok (incoming twoFamilies.parcels ++ []) else .error 22
  page := 16384

theorem twoFamilies_dumps : Dumps twoFamilies [nlctrlFamily, nl80211Family] :=
  .cons ⟨2, [], rfl⟩ (.cons ⟨2, [], rfl⟩ .nil)

theorem twoFamilies_multipart : twoFamilies.Multipart twoFamiliesPeer.page where
  own := nofun
  multi := nofun
  fits := by
    intro p hp
    rw [List.mem_singleton.mp hp]
    show (packOctets _).length ≤ 16384
    decide +kernel
  done := by decide +kernel

theorem twoFamilies_send : twoFamiliesPeer.send (getfamily 5 twoFamiliesPeer.pid) =
    .ok (incoming twoFamilies.parcels ++ []) := by
  have hsame : getfamily 5 twoFamiliesPeer.pid = getfamily 5 7 := rfl
  rw [hsame]
  simp only [twoFamiliesPeer, if_true]

theorem twoFamilies_at : At [] ⟨5, 5⟩ [] ⟨⟨5, 5⟩, [], {}⟩ :=
  ⟨rfl, rfl, .start _ _, fun _ => rfl⟩

theorem genlCtrlResolve_registry_nl80211 : ∃ st',
    genlCtrlResolve twoFamiliesPeer (ascii "nl80211") ⟨⟨5, 5⟩, [], {}⟩ = .ok 28 st' ∧
      st'.sk = ⟨6, 6⟩ ∧ st'.queue = [] := by
  obtain ⟨st', hrun, hrest⟩ := genlCtrlResolve_registry twoFamilies_dumps twoFamilies_multipart
    List.length_replicate twoFamilies_send twoFamilies_at (ascii "nl80211")
  exact ⟨st', hrun.trans (congrArg (EStateM.Result.ok · st') (by decide +kernel)), hrest⟩

theorem genlCtrlResolveGrp_registry_scan : ∃ st',
    genlCtrlResolveGrp twoFamiliesPeer (ascii "nl80211") (ascii "scan") ⟨⟨5, 5⟩, [],
      {}⟩ = .ok 6 st' ∧
      st'.sk = ⟨6, 6⟩ ∧ st'.queue = [] := by
  obtain ⟨st', hrun, hrest⟩ := genlCtrlResolveGrp_registry twoFamilies_dumps twoFamilies_multipart
    List.length_replicate twoFamilies_send twoFamilies_at (ascii "nl80211") (ascii "scan")
  exact ⟨st', hrun.trans (congrArg (EStateM.Result.ok · st') (by decide +kernel)), hrest⟩

end Nl80211.Libnl
