/-
# Nl80211.Libnl.Encode — attributes as a sender writes them.

`nla_put` writes a header, the payload and zero octets up to a multiple of four; a nest is an
attribute whose payload is again such a stream, the padding of its last attribute included.  Over a
stream the walk of `nla_parse` visits exactly the attributes that were written (`nlaWalk_stream`),
each where the sender put it, and the index array holds the last one of each type
(`lastOfType_stream`).
-/
import Nl80211.Libnl.Msg

namespace Nl80211.Libnl

open Lib Lib.Bytes

/-! ## Attributes and streams -/

/-- An attribute to be written: the type as it stands in the header, flag bits included, and the
payload.  Both fit the header. -/
structure Nla where
  attrtype : Nat
  data : Mem
  type_lt : attrtype < 65536
  len_lt : nlaHdrlen + data.length < 65536
  deriving DecidableEq

namespace Nla

/-- The type without the flag bits. -/
def type (a : Nla) : Nat := a.attrtype &&& nlaTypeMask

/-- What `nla_put` writes. -/
def octets (a : Nla) : Mem := nlaPut a.attrtype a.data

/-- The octets the attribute takes up. -/
def span (a : Nla) : Nat := align4 (nlaHdrlen + a.data.length)

theorem octets_eq (a : Nla) :
    a.octets = le16 (nlaHdrlen + a.data.length) ++ (le16 a.attrtype ++ (a.data ++
      List.replicate (a.span - (nlaHdrlen + a.data.length)) 0)) := by
  have hlen : (le16 (nlaHdrlen + a.data.length) ++ (le16 a.attrtype ++ a.data)).length =
      nlaHdrlen + a.data.length := by
    simp [nlaHdrlen]
    omega
  rw [octets, nlaPut, pad4, hlen, List.append_assoc, List.append_assoc, span]

@[simp] theorem octets_length (a : Nla) : a.octets.length = a.span := by
  have := le_align4 (nlaHdrlen + a.data.length)
  rw [octets_eq]
  simp only [List.length_append, le16_length, List.length_replicate, span, nlaHdrlen] at this ⊢
  omega

theorem le_span (a : Nla) : nlaHdrlen + a.data.length ≤ a.span := le_align4 _

end Nla

theorem u16_len (n : Nat) : nlaHdrlen + (le16 n).length < 65536 := by simp [nlaHdrlen]

theorem u32_len (n : Nat) : nlaHdrlen + (le32 n).length < 65536 := by simp [nlaHdrlen]

/-- A 16-bit value as an attribute. -/
def Nla.u16 (attrtype n : Nat) (type_lt : attrtype < 65536) : Nla :=
  ⟨attrtype, le16 n, type_lt, u16_len n⟩

/-- A 32-bit value as an attribute. -/
def Nla.u32 (attrtype n : Nat) (type_lt : attrtype < 65536) : Nla :=
  ⟨attrtype, le32 n, type_lt, u32_len n⟩

/-- The stream of a list of attributes. -/
def putAll (as : List Nla) : Mem := as.flatMap Nla.octets

@[simp] theorem putAll_nil : putAll [] = [] := rfl

@[simp] theorem putAll_cons (a : Nla) (as : List Nla) :
    putAll (a :: as) = a.octets ++ putAll as := rfl

theorem putAll_append (as bs : List Nla) : putAll (as ++ bs) = putAll as ++ putAll bs := by
  simp [putAll]

/-- The attribute lies at `nla`. -/
def Stored (mem : Mem) (nla : Nat) (a : Nla) : Prop := octets mem nla a.span = a.octets

/-- The stream lies at `start`. -/
def Streams (mem : Mem) (start : Nat) (as : List Nla) : Prop :=
  octets mem start (putAll as).length = putAll as

/-- Where the attributes of a stream lie. -/
def places : Nat → List Nla → List Nat
  | _, [] => []
  | start, a :: as => start :: places (start + a.span) as

theorem places_append (start : Nat) (as bs : List Nla) :
    places start (as ++ bs) = places start as ++ places (start + (putAll as).length) bs := by
  induction as generalizing start with
  | nil => rfl
  | cons a as ih =>
      simp only [List.cons_append, places, ih, putAll_cons, List.length_append, Nla.octets_length,
        Nat.add_assoc]

theorem Streams.append {mem : Mem} {start : Nat} {as bs : List Nla} :
    Streams mem start (as ++ bs) ↔
      Streams mem start as ∧ Streams mem (start + (putAll as).length) bs := by
  rw [Streams, putAll_append, List.length_append, octets_add]
  constructor
  · exact fun h => List.append_inj h (by simp)
  · rintro ⟨has, hbs⟩
    rw [has, hbs]

theorem Streams.cons {mem : Mem} {start : Nat} {a : Nla} {as : List Nla} :
    Streams mem start (a :: as) ↔ Stored mem start a ∧ Streams mem (start + a.span) as := by
  rw [← List.singleton_append, Streams.append]
  simp [Streams, Stored]

/-! ## What the reader finds -/

namespace Stored

variable {mem : Mem} {nla : Nat} {a : Nla}

theorem rd8_eq (h : Stored mem nla a) {k : Nat} (hk : k < a.span) :
    rd8 mem (nla + k) = rd8 a.octets k := by
  have hget := congrArg (rd8 · k) h
  simpa [rd8, Lib.Bytes.octets, hk] using hget

theorem rd16_eq (h : Stored mem nla a) {k : Nat} (hk : k + 1 < a.span) :
    rd16 mem (nla + k) = rd16 a.octets k := by
  rw [rd16, rd16, Nat.add_assoc, h.rd8_eq (Nat.lt_of_succ_lt hk), h.rd8_eq hk]

theorem lenField (h : Stored mem nla a) : nlaLenField mem nla = nlaHdrlen + a.data.length := by
  have hspan := a.le_span
  simp only [nlaHdrlen] at hspan
  have hread := h.rd16_eq (k := 0) (by omega)
  rw [Nat.add_zero, Nla.octets_eq, rd16_le16, Nat.mod_eq_of_lt a.len_lt] at hread
  exact hread

theorem type_eq (h : Stored mem nla a) : nlaType mem nla = a.type := by
  have hspan := a.le_span
  simp only [nlaHdrlen] at hspan
  have hread := h.rd16_eq (k := 2) (by omega)
  have hskip := rd16_append_right (le16 (nlaHdrlen + a.data.length)) (le16 a.attrtype ++ (a.data ++
      List.replicate (a.span - (nlaHdrlen + a.data.length)) 0)) 0
  rw [le16_length, rd16_le16, Nat.mod_eq_of_lt a.type_lt] at hskip
  rw [Nla.octets_eq, hskip] at hread
  rw [nlaType, hread, Nla.type]

theorem len_eq (h : Stored mem nla a) : nlaLen mem nla = a.data.length := by
  rw [nlaLen, h.lenField]
  omega

/-- Behind the header lie the payload and the padding. -/
theorem body (h : Stored mem nla a) :
    octets mem (nlaData nla) (a.span - nlaHdrlen) =
      a.data ++ List.replicate (a.span - (nlaHdrlen + a.data.length)) 0 := by
  have hspan := a.le_span
  have hsplit : octets mem nla (nlaHdrlen + (a.span - nlaHdrlen)) = a.octets := by
    rw [Nat.add_sub_cancel' (by omega)]
    exact h
  rw [octets_add, Nla.octets_eq, ← List.append_assoc] at hsplit
  exact (List.append_inj hsplit rfl).2

theorem payload_eq (h : Stored mem nla a) : nlaPayload mem nla = a.data := by
  have hspan := a.le_span
  have hbody := h.body
  rw [nlaPayload, h.len_eq, Int.toNat_natCast]
  rw [show a.span - nlaHdrlen = a.data.length + (a.span - (nlaHdrlen + a.data.length)) by omega,
    octets_add] at hbody
  exact (List.append_inj hbody (by simp)).1

theorem data_eq (h : Stored mem nla a) : octets mem (nlaData nla) a.data.length = a.data := by
  have hpay := h.payload_eq
  rwa [nlaPayload, h.len_eq, Int.toNat_natCast] at hpay

/-- An octet of the payload. -/
theorem rd8_data (h : Stored mem nla a) {k : Nat} (hk : k < a.data.length) :
    rd8 mem (nlaData nla + k) = a.data[k] := by
  have hget := congrArg (·[k]?) h.data_eq
  simpa [Lib.Bytes.octets, hk] using hget

/-- The octet behind the payload is padding, unless the payload ends on a multiple of four. -/
theorem rd8_padding (h : Stored mem nla a) (hmod : a.data.length % 4 ≠ 0) :
    rd8 mem (nlaData nla + a.data.length) = 0 := by
  have hspan : a.span = nlaHdrlen + align4 a.data.length := align4_add _ rfl
  have hlt : a.data.length < align4 a.data.length := by
    have := align4_mod a.data.length
    have := le_align4 a.data.length
    omega
  have hget := congrArg (·[a.data.length]?) h.body
  rw [hspan, Nat.add_sub_cancel_left] at hget
  simpa [Lib.Bytes.octets, hlt, List.getElem?_append_right, List.getElem?_replicate,
    Nat.sub_pos_of_lt hlt] using hget

theorem getU32 {t n : Nat} {h : t < 65536} (hs : Stored mem nla (.u32 t n h)) :
    nlaGetU32 mem nla = n % 4294967296 := rd32_of_octets hs.data_eq

end Stored

/-- **The walk over a stream.** It visits the attributes that were written and stops behind them. -/
theorem nlaWalk_stream {mem : Mem} {start : Nat} {as : List Nla} (h : Streams mem start as)
    (hsize : (putAll as).length < 2147483648) :
    nlaWalk mem start (putAll as).length = places start as := by
  induction as generalizing start with
  | nil =>
      have hstop : ¬ (nlaOk mem start ((putAll []).length : Nat)).val = true := by
        rw [nlaOk_val]
        simp [sizeT]
        omega
      exact nlaWalk_of_not_ok hstop
  | cons a as ih =>
      obtain ⟨hstored, hrest⟩ := Streams.cons.mp h
      have hspan := a.le_span
      simp only [putAll_cons, List.length_append, Nla.octets_length] at hsize ⊢
      have hok : (nlaOk mem start ((a.span + (putAll as).length : Nat) : Int)).val = true := by
        rw [nlaOk_val, hstored.lenField, sizeT]
        simp only [nlaHdrlen] at hspan ⊢
        omega
      have hnext : nlaNext mem start ((a.span + (putAll as).length : Nat) : Int) =
          (start + a.span, ((putAll as).length : Int)) := by
        rw [nlaNext, hstored.lenField, ← Nla.span]
        simp
      rw [nlaWalk_of_ok hok, hnext, ih hrest (by omega), places]

/-- At every place of a stream lies one of its attributes. -/
theorem stored_of_mem_places {mem : Mem} {start nla : Nat} {as : List Nla}
    (h : Streams mem start as) (hnla : nla ∈ places start as) : ∃ a ∈ as, Stored mem nla a := by
  induction as generalizing start with
  | nil => cases hnla
  | cons a as ih =>
      obtain ⟨hstored, hrest⟩ := Streams.cons.mp h
      rcases List.mem_cons.mp hnla with rfl | hnla
      · exact ⟨a, List.mem_cons_self, hstored⟩
      · obtain ⟨b, hb, hstored⟩ := ih hrest hnla
        exact ⟨b, List.mem_cons_of_mem a hb, hstored⟩

/-- Every attribute of a stream lies at one of its places. -/
theorem exists_place {mem : Mem} {start : Nat} {as : List Nla} {a : Nla}
    (h : Streams mem start as) (ha : a ∈ as) : ∃ nla ∈ places start as, Stored mem nla a := by
  induction as generalizing start with
  | nil => cases ha
  | cons b as ih =>
      obtain ⟨hstored, hrest⟩ := Streams.cons.mp h
      rcases List.mem_cons.mp ha with rfl | ha
      · exact ⟨start, List.mem_cons_self, hstored⟩
      · obtain ⟨nla, hnla, hstored⟩ := ih hrest ha
        exact ⟨nla, List.mem_cons_of_mem start hnla, hstored⟩

/-- The last attribute of type `t` in a list. -/
def lastNla (t : Nat) (as : List Nla) : Option Nla := (as.filter fun a => a.type = t).getLast?

theorem lastNla_eq_none {t : Nat} {as : List Nla} :
    lastNla t as = none ↔ ∀ a ∈ as, a.type ≠ t := by
  simp [lastNla]

/-- The last attribute of a type splits the list. -/
theorem lastNla_eq_some {t : Nat} {as : List Nla} {a : Nla} (h : lastNla t as = some a) :
    a.type = t ∧ ∃ before after, as = before ++ a :: after ∧ ∀ b ∈ after, b.type ≠ t := by
  induction as using List.reverseRecOn with
  | nil => cases h
  | append_singleton as b ih =>
      by_cases hb : b.type = t
      · have heq : lastNla t (as ++ [b]) = some b := by simp [lastNla, hb]
        cases heq.symm.trans h
        exact ⟨hb, as, [], rfl, by simp⟩
      · have heq : lastNla t (as ++ [b]) = lastNla t as := by simp [lastNla, hb]
        obtain ⟨ha, before, after, rfl, hafter⟩ := ih (heq.symm.trans h)
        refine ⟨ha, before, after ++ [b], by simp, ?_⟩
        intro c hc
        rcases List.mem_append.mp hc with hc | hc
        · exact hafter c hc
        · exact List.mem_singleton.mp hc ▸ hb

/-- Nothing of type `t` is found where nothing of type `t` was written. -/
theorem lastOfType_none {mem : Mem} {start t : Nat} {as : List Nla} (h : Streams mem start as)
    (hne : ∀ a ∈ as, a.type ≠ t) : lastOfType mem t (places start as) = none := by
  have hfilter : (places start as).filter (fun nla => nlaType mem nla = t) = [] := by
    rw [List.filter_eq_nil_iff]
    intro nla hnla
    obtain ⟨a, ha, hstored⟩ := stored_of_mem_places h hnla
    simp [hstored.type_eq, hne a ha]
  rw [lastOfType, hfilter, List.getLast?_nil]

/-- An attribute with no other of its type behind it is the one that is found. -/
theorem lastOfType_split {mem : Mem} {start : Nat} {before after : List Nla} {a : Nla}
    (h : Streams mem start (before ++ a :: after)) (hafter : ∀ b ∈ after, b.type ≠ a.type) :
    lastOfType mem a.type (places start (before ++ a :: after)) =
        some (start + (putAll before).length) ∧
      Stored mem (start + (putAll before).length) a := by
  obtain ⟨-, hsuffix⟩ := Streams.append.mp h
  obtain ⟨hstored, hrest⟩ := Streams.cons.mp hsuffix
  have hnone := lastOfType_none hrest hafter
  rw [lastOfType, List.getLast?_eq_none_iff] at hnone
  refine ⟨?_, hstored⟩
  rw [lastOfType, places_append, places, List.filter_append,
    List.filter_cons_of_pos (by simpa using hstored.type_eq), hnone]
  simp

/-- **The index over a stream.** The reader finds the last attribute of each type, and none where
none was written. -/
theorem lastOfType_stream {mem : Mem} {start : Nat} {as : List Nla} (h : Streams mem start as)
    (t : Nat) :
    match lastNla t as with
    | none => lastOfType mem t (places start as) = none
    | some a => ∃ nla, lastOfType mem t (places start as) = some nla ∧ Stored mem nla a := by
  split
  · next hnone => exact lastOfType_none h (lastNla_eq_none.mp hnone)
  · next a ha =>
      obtain ⟨rfl, before, after, rfl, hafter⟩ := lastNla_eq_some ha
      exact ⟨_, lastOfType_split h hafter⟩

/-! ## Nests -/

/-- A nest's payload is a stream of its own. -/
theorem Stored.streams {mem : Mem} {nla : Nat} {a : Nla} {as : List Nla} (h : Stored mem nla a)
    (hdata : a.data = putAll as) : Streams mem (nlaData nla) as := by
  have hstream := h.data_eq
  rwa [hdata] at hstream

/-- The walk through a nest. -/
theorem Stored.walk {mem : Mem} {nla : Nat} {a : Nla} {as : List Nla} (h : Stored mem nla a)
    (hdata : a.data = putAll as) :
    nlaWalk mem (nlaData nla) (nlaLen mem nla) = places (nlaData nla) as := by
  have hlt := a.len_lt
  simp only [nlaHdrlen] at hlt
  rw [h.len_eq, hdata]
  exact nlaWalk_stream (h.streams hdata) (by rw [← hdata]; omega)

/-- A nest of type `t` as `nla_nest_start` and `nla_nest_end` write it around its attributes. -/
structure NlaNest (t : Nat) {α : Type} (nla : α → Nla) where
  attrtype : Nat
  attrs : List α
  type_lt : attrtype < 65536
  type_eq : attrtype &&& nlaTypeMask = t
  len_lt : nlaHdrlen + (putAll (attrs.map nla)).length < 65536

/-- An attribute of a message that has nests of type `t`. -/
inductive NestOr (t : Nat) {α : Type} (nla : α → Nla) where
  | nest (n : NlaNest t nla)
  | other (a : Nla) (type_ne : a.type ≠ t)

namespace NestOr

variable {t : Nat} {α : Type} {write : α → Nla}

/-- The attribute as it is written. -/
def nla : NestOr t write → Nla
  | nest n => ⟨n.attrtype, putAll (n.attrs.map write), n.type_lt, n.len_lt⟩
  | other a _ => a

/-- What a nest holds. -/
def inside : NestOr t write → Option (List α)
  | nest n => some n.attrs
  | other _ _ => none

/-- The attributes of the last nest. -/
def last (as : List (NestOr t write)) : Option (List α) := (as.filterMap inside).getLast?

/-- The last attribute of type `t` is the last nest. -/
theorem lastNla_map (as : List (NestOr t write)) :
    match last as with
    | none => lastNla t (as.map nla) = none
    | some bs => ∃ a, lastNla t (as.map nla) = some a ∧ a.data = putAll (bs.map write) := by
  induction as using List.reverseRecOn with
  | nil => rfl
  | append_singleton as a ih =>
      cases a with
      | nest n =>
          have hlast : last (as ++ [nest n]) = some n.attrs := by simp [last, inside]
          rw [hlast]
          exact ⟨(nest n).nla, by simp [lastNla, nla, Nla.type, n.type_eq], rfl⟩
      | other a hne =>
          have hlast : last (as ++ [other a hne]) = last as := by simp [last, inside]
          have hnla : lastNla t ((as ++ [other a hne]).map nla) = lastNla t (as.map nla) := by
            simp [lastNla, nla, hne]
          rw [hlast, hnla]
          exact ih

end NestOr

/-! ## Messages -/

/-- A message of a generic netlink family, its attributes given as values of `α`, and what lies in
memory behind it.  What the two headers say beside the length is arbitrary. -/
structure GenlMsg {α : Type} (nla : α → Nla) where
  head : Mem
  attrs : List α
  behind : Mem
  head_len : head.length = nlmsgHdrlen + genlHdrlen
  len : nlmsgLenField head 0 = nlmsgHdrlen + genlHdrlen + (putAll (attrs.map nla)).length
  size : nlmsgHdrlen + genlHdrlen + (putAll (attrs.map nla)).length < 2147483648

namespace GenlMsg

variable {α : Type} {nla : α → Nla}

/-- The message as a callback sees it. -/
def image (m : GenlMsg nla) : Mem := m.head ++ (putAll (m.attrs.map nla) ++ m.behind)

theorem streams (m : GenlMsg nla) :
    Streams m.image (genlmsgAttrdata (nlmsgData 0) 0) (m.attrs.map nla) := by
  have hstart : genlmsgAttrdata (nlmsgData 0) 0 = m.head.length + 0 := by
    rw [m.head_len]
    rfl
  rw [Streams, hstart, image, octets_append_right]
  exact octets_self_append _ _

theorem attrlen (m : GenlMsg nla) :
    genlmsgAttrlen m.image (nlmsgData 0) 0 = (putAll (m.attrs.map nla)).length := by
  have hlen : nlmsgLenField m.image 0 =
      nlmsgHdrlen + genlHdrlen + (putAll (m.attrs.map nla)).length := by
    rw [← m.len, nlmsgLenField, nlmsgLenField, image, rd32_append_left]
    rw [m.head_len]
    decide
  have hsize := m.size
  rw [genlmsgAttrlen_eq (by rw [hlen, nlmsgHdrlen]; omega) (by rw [hlen]; exact hsize), hlen]
  simp only [nlmsgHdrlen, genlHdrlen]
  omega

/-- The walk through a message. -/
theorem walk (m : GenlMsg nla) :
    nlaWalk m.image (genlmsgAttrdata (nlmsgData 0) 0) (genlmsgAttrlen m.image (nlmsgData 0) 0) =
      places (genlmsgAttrdata (nlmsgData 0) 0) (m.attrs.map nla) := by
  have hsize := m.size
  rw [m.attrlen]
  exact nlaWalk_stream m.streams (by omega)

/-- What lies behind an attribute: the rest of the message, then the rest of the memory. -/
theorem rd8_behind (m : GenlMsg nla) {before after : List α} {a : α}
    (h : m.attrs = before ++ a :: after) (k : Nat) :
    rd8 m.image (genlmsgAttrdata (nlmsgData 0) 0 + (putAll (before.map nla)).length +
      (nla a).span + k) = rd8 (putAll (after.map nla) ++ m.behind) k := by
  have himage : m.image = (m.head ++ putAll (before.map nla) ++ (nla a).octets) ++
      (putAll (after.map nla) ++ m.behind) := by
    simp [image, h, putAll_append]
  have hlen : genlmsgAttrdata (nlmsgData 0) 0 + (putAll (before.map nla)).length + (nla a).span =
      (m.head ++ putAll (before.map nla) ++ (nla a).octets).length := by
    rw [List.length_append, List.length_append, m.head_len, Nla.octets_length]
    rfl
  rw [himage, hlen, rd8_append_right]

end GenlMsg

/-! ## Policies -/

/-- What a policy asks of a payload. -/
structure NlaPolicy.Accepts (p : NlaPolicy) (data : Mem) : Prop where
  empty : p.type = .flag → data = []
  least : (if p.minlen ≠ 0 then p.minlen else nlaAttrMinlen p.type) ≤ data.length
  most : p.maxlen ≠ 0 → data.length ≤ p.maxlen
  ended : p.type = .string → data.getLast? = some 0

instance (p : NlaPolicy) (data : Mem) : Decidable (p.Accepts data) :=
  decidable_of_iff ((p.type = .flag → data = []) ∧
      (if p.minlen ≠ 0 then p.minlen else nlaAttrMinlen p.type) ≤ data.length ∧
        (p.maxlen ≠ 0 → data.length ≤ p.maxlen) ∧ (p.type = .string → data.getLast? = some 0))
    ⟨fun ⟨h₁, h₂, h₃, h₄⟩ => ⟨h₁, h₂, h₃, h₄⟩, fun ⟨h₁, h₂, h₃, h₄⟩ => ⟨h₁, h₂, h₃, h₄⟩⟩

/-- The policy says something about the type of the attribute, and the attribute does not keep to
it. -/
def Violates (maxtype : Nat) (policy : Nat → NlaPolicy) (a : Nla) : Prop :=
  0 < a.type ∧ a.type ≤ maxtype ∧ ¬ (policy a.type).Accepts a.data

instance (maxtype : Nat) (policy : Nat → NlaPolicy) (a : Nla) :
    Decidable (Violates maxtype policy a) :=
  inferInstanceAs (Decidable (_ ∧ _ ∧ _))

/-- The check that `validate_nla` makes for string attributes looks at the last octet. -/
theorem rd8_last {mem : Mem} {nla : Nat} {a : Nla} (h : Stored mem nla a) (hne : a.data ≠ []) :
    rd8 mem (nlaData nla + ((a.data.length : Int) - 1).toNat) = 0 ↔ a.data.getLast? = some 0 := by
  have hpos := List.length_pos_iff.mpr hne
  have hidx : ((a.data.length : Int) - 1).toNat = a.data.length - 1 := by omega
  rw [hidx, h.rd8_data (by omega), List.getLast?_eq_some_getLast hne, List.getLast_eq_getElem,
    Option.some.injEq]

/-- `validate_nla` rejects what violates the policy, and nothing else. -/
theorem rejected_iff {mem : Mem} {nla maxtype : Nat} {policy : Nat → NlaPolicy} {a : Nla}
    (h : Stored mem nla a) : Rejected mem maxtype policy nla ↔ Violates maxtype policy a := by
  rw [Rejected, validateNla, h.type_eq, h.len_eq, Violates]
  by_cases htype : a.type = 0 ∨ a.type > maxtype
  · rw [if_pos htype]
    omega
  rw [if_neg htype]
  have hcover : 0 < a.type ∧ a.type ≤ maxtype := by omega
  simp only [hcover, true_and]
  generalize policy a.type = p
  have hleast : (if p.minlen ≠ 0 then p.minlen
      else if p.type ≠ .unspec then nlaAttrMinlen p.type else 0) =
        if p.minlen ≠ 0 then p.minlen else nlaAttrMinlen p.type := by
    by_cases hunspec : p.type = .unspec <;> simp [hunspec, nlaAttrMinlen]
  rw [hleast]
  -- the checks in the order of the code, each against the field of `Accepts` it stands for
  by_cases hflag : p.type = .flag ∧ (a.data.length : Int) > 0
  · rw [if_pos hflag]
    apply iff_of_true (by decide)
    intro hacc
    simp [hacc.empty hflag.1] at hflag
  rw [if_neg hflag]
  by_cases hmin : (a.data.length : Int) <
      (if p.minlen ≠ 0 then p.minlen else nlaAttrMinlen p.type : Nat)
  · rw [if_pos hmin]
    apply iff_of_true (by decide)
    intro hacc
    have := hacc.least
    omega
  rw [if_neg hmin]
  by_cases hmax : p.maxlen ≠ 0 ∧ (a.data.length : Int) > p.maxlen
  · rw [if_pos hmax]
    apply iff_of_true (by decide)
    intro hacc
    have := hacc.most hmax.1
    omega
  rw [if_neg hmax]
  have hne : p.type = .string → a.data ≠ [] := by
    rintro hstring hnil
    rw [hnil, hstring] at hmin
    split at hmin <;> simp [nlaAttrMinlen] at hmin
    omega
  by_cases hend : p.type = .string ∧
      rd8 mem (nlaData nla + ((a.data.length : Int) - 1).toNat) ≠ 0
  · rw [if_pos hend]
    apply iff_of_true (by decide)
    intro hacc
    exact hend.2 ((rd8_last h (hne hend.1)).mpr (hacc.ended hend.1))
  rw [if_neg hend]
  refine iff_of_false (by decide) (not_not_intro ⟨?_, by omega, by omega, ?_⟩)
  · intro hf
    have : ¬ (a.data.length : Int) > 0 := fun hpos => hflag ⟨hf, hpos⟩
    exact List.length_eq_zero_iff.mp (by omega)
  · intro hs
    by_contra hlast
    exact hend ⟨hs, fun h0 => hlast ((rd8_last h (hne hs)).mp h0)⟩

/-- A stream passes `validate_nla` as a whole when none of its attributes violates the policy. -/
theorem not_rejected_iff {mem : Mem} {start maxtype : Nat} {policy : Nat → NlaPolicy}
    {as : List Nla}
    (h : Streams mem start as) :
    (∀ nla ∈ places start as, ¬ Rejected mem maxtype policy nla) ↔
      ¬ ∃ a ∈ as, Violates maxtype policy a := by
  constructor
  · rintro hall ⟨a, ha, hviol⟩
    obtain ⟨nla, hnla, hstored⟩ := exists_place h ha
    exact hall nla hnla ((rejected_iff hstored).mpr hviol)
  · intro hno nla hnla hrej
    obtain ⟨a, ha, hstored⟩ := stored_of_mem_places h hnla
    exact hno ⟨a, ha, (rejected_iff hstored).mp hrej⟩

end Nl80211.Libnl
