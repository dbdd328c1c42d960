/-
# Nl80211.Libnl.Compose — programs that compose messages, and what a reader finds in the result.

A sender puts attributes one behind the other and opens and closes nests around some of them.  Such
a program succeeds exactly when its last attribute finds room (`composed_iff`), which `nla_reserve`
makes narrower than the block is; and when it succeeds, the reader's loops, nest by nest, find what
was put, whatever was in the memory the block was made from (`composed_found`).
-/
import Nl80211.Libnl.Build

namespace Nl80211.Libnl

open Lib Lib.Bytes

/-! ## Programs -/

/-- What a sender puts: an attribute with its payload, or a nest around what it puts between
`nla_nest_start` and `nla_nest_end`, and then the rest. -/
inductive Attrs where
  | nil
  | put (attrtype : UInt16) (data : Mem) (rest : Attrs)
  | nest (attrtype : UInt16) (inside rest : Attrs)
  deriving DecidableEq

namespace Attrs

/-- The calls, one behind the other; the first that fails ends it, as
`goto nla_put_failure` does. -/
def compose : Attrs → NlMsg → Option NlMsg
  | nil, m => some m
  | put attrtype data rest, m =>
      match m.nlaPut attrtype.toNat data with
      | none => none
      | some m => rest.compose m
  | nest attrtype inside rest, m =>
      match m.nlaNestStart attrtype.toNat with
      | none => none
      | some (m, start) =>
          match inside.compose m with
          | none => none
          | some m => rest.compose (m.nlaNestEnd start)

/-- The octets they are meant to leave. -/
def octets : Attrs → Mem
  | nil => []
  | put attrtype data rest => nlaPut attrtype.toNat data ++ rest.octets
  | nest attrtype inside rest =>
      NlMsg.nlaHead attrtype.toNat inside.octets.length ++ (inside.octets ++ rest.octets)

/-- Every call finds room in a message that takes up `used` octets of a block of `size`. -/
def Fits (size : Nat) : Nat → Attrs → Prop
  | _, nil => True
  | used, put _ data rest =>
      NlMsg.NlaFits size used data.length ∧ rest.Fits size (used + align4 (nlaHdrlen + data.length))
  | used, nest _ inside rest =>
      NlMsg.NlaFits size used 0 ∧ inside.Fits size (used + nlaHdrlen) ∧
        rest.Fits size (used + (nlaHdrlen + inside.octets.length))

instance fitsDecidable (size : Nat) : (used : Nat) → (as : Attrs) → Decidable (as.Fits size used)
  | _, nil => isTrue trivial
  | used, put _ data rest =>
      have := fitsDecidable size (used + align4 (nlaHdrlen + data.length)) rest
      inferInstanceAs (Decidable (_ ∧ _))
  | used, nest _ inside rest =>
      have := fitsDecidable size (used + nlaHdrlen) inside
      have := fitsDecidable size (used + (nlaHdrlen + inside.octets.length)) rest
      inferInstanceAs (Decidable (_ ∧ _ ∧ _))

theorem nlaPut_length (attrtype : Nat) (data : Mem) :
    (nlaPut attrtype data).length = align4 (nlaHdrlen + data.length) := by
  rw [nlaPut, pad4_length]
  congr 1
  simp [nlaHdrlen]
  omega

theorem nlaHead_length (attrtype n : Nat) : (NlMsg.nlaHead attrtype n).length = nlaHdrlen := rfl

theorem octets_mod (as : Attrs) : as.octets.length % 4 = 0 := by
  induction as with
  | nil => rfl
  | put attrtype data rest ih =>
      have := align4_mod (nlaHdrlen + data.length)
      rw [octets, List.length_append, nlaPut_length]
      omega
  | nest attrtype inside rest ihInside ihRest =>
      simp only [octets, List.length_append, nlaHead_length, nlaHdrlen]
      omega

/-- What `nla_nest_end` leaves is aligned again. -/
theorem nest_mod {body : Mem} (hmod : body.length % 4 = 0) (attrtype n : Nat) (inside : Attrs) :
    (body ++ (NlMsg.nlaHead attrtype n ++ inside.octets)).length % 4 = 0 := by
  have := octets_mod inside
  simp only [List.length_append, nlaHead_length, nlaHdrlen]
  omega

theorem put_mod {body : Mem} (hmod : body.length % 4 = 0) (attrtype : Nat) (data : Mem) :
    (body ++ nlaPut attrtype data).length % 4 = 0 := by
  have := align4_mod (nlaHdrlen + data.length)
  rw [List.length_append, nlaPut_length]
  omega

/-- **A program that finds room does what it is meant to.** -/
theorem compose_holds {as : Attrs} {m : NlMsg} {h : Nlmsghdr} {body : Mem} (hm : m.Holds h body)
    (hmod : body.length % 4 = 0) (hfits : as.Fits m.nlh.length (nlmsgHdrlen + body.length)) :
    ∃ m', as.compose m = some m' ∧ m'.nlh.length = m.nlh.length ∧
      m'.Holds h (body ++ as.octets) := by
  induction as generalizing m body with
  | nil => exact ⟨m, rfl, rfl, by simpa [octets] using hm⟩
  | put attrtype data rest ih =>
      obtain ⟨hput, hrest⟩ := hfits
      obtain ⟨m₁, hsome, hsize, hm₁⟩ := NlMsg.nlaPut_holds hm hmod attrtype.toNat hput
      obtain ⟨m₂, hdone, hsize₂, hm₂⟩ := ih hm₁ (put_mod hmod _ data)
        (by rwa [hsize, List.length_append, nlaPut_length, ← Nat.add_assoc])
      refine ⟨m₂, ?_, hsize₂.trans hsize, ?_⟩
      · simp only [compose, hsome, hdone]
      · simpa only [octets, List.append_assoc] using hm₂
  | nest attrtype inside rest ihInside ihRest =>
      obtain ⟨hstart, hinside, hrest⟩ := hfits
      obtain ⟨m₁, hsome, hsize, hm₁⟩ := NlMsg.nlaNestStart_holds hm hmod attrtype.toNat hstart
      obtain ⟨m₂, hfull, hsize₂, hm₂⟩ := ihInside hm₁
        (by rw [List.length_append, nlaHead_length, nlaHdrlen]; omega)
        (by rwa [hsize, List.length_append, nlaHead_length, ← Nat.add_assoc])
      rw [List.append_assoc] at hm₂
      have hclosed := NlMsg.nlaNestEnd_holds hm₂ (nest_mod hmod _ 0 inside)
      obtain ⟨m₃, hdone, hsize₃, hm₃⟩ := ihRest hclosed (nest_mod hmod _ _ inside)
        (by
          rw [NlMsg.nlaNestEnd, NlMsg.poke_length, hsize₂, hsize]
          simpa only [List.length_append, nlaHead_length, Nat.add_assoc] using hrest)
      refine ⟨m₃, ?_, ?_, ?_⟩
      · simp only [compose, hsome, hfull, hdone]
      · rw [hsize₃, NlMsg.nlaNestEnd, NlMsg.poke_length, hsize₂, hsize]
      · simpa only [octets, List.append_assoc] using hm₃

/-- **A program that does not is given up.** -/
theorem compose_none {as : Attrs} {m : NlMsg} {h : Nlmsghdr} {body : Mem} (hm : m.Holds h body)
    (hmod : body.length % 4 = 0) (hfull : ¬ as.Fits m.nlh.length (nlmsgHdrlen + body.length)) :
    as.compose m = none := by
  induction as generalizing m body with
  | nil => exact absurd trivial hfull
  | put attrtype data rest ih =>
      by_cases hput : NlMsg.NlaFits m.nlh.length (nlmsgHdrlen + body.length) data.length
      · obtain ⟨m₁, hsome, hsize, hm₁⟩ := NlMsg.nlaPut_holds hm hmod attrtype.toNat hput
        simp only [compose, hsome]
        refine ih hm₁ (put_mod hmod _ data) fun hrest => hfull ⟨hput, ?_⟩
        rwa [hsize, List.length_append, nlaPut_length, ← Nat.add_assoc] at hrest
      · simp only [compose, NlMsg.nlaPut_none hm hmod _ hput]
  | nest attrtype inside rest ihInside ihRest =>
      by_cases hstart : NlMsg.NlaFits m.nlh.length (nlmsgHdrlen + body.length) 0
      swap
      · have hnone := NlMsg.nlaPut_none (d := []) hm hmod attrtype.toNat hstart
        simp only [compose, NlMsg.nlaNestStart, hnone]
      obtain ⟨m₁, hsome, hsize, hm₁⟩ := NlMsg.nlaNestStart_holds hm hmod attrtype.toNat hstart
      have hmod₁ : (body ++ NlMsg.nlaHead attrtype.toNat 0).length % 4 = 0 := by
        rw [List.length_append, nlaHead_length, nlaHdrlen]
        omega
      have hused : nlmsgHdrlen + (body ++ NlMsg.nlaHead attrtype.toNat 0).length =
          nlmsgHdrlen + body.length + nlaHdrlen := by
        rw [List.length_append, nlaHead_length, Nat.add_assoc]
      by_cases hinside : inside.Fits m.nlh.length (nlmsgHdrlen + body.length + nlaHdrlen)
      swap
      · have hnone := ihInside hm₁ hmod₁ (by rwa [hsize, hused])
        simp only [compose, hsome, hnone]
      obtain ⟨m₂, hdone, hsize₂, hm₂⟩ := compose_holds hm₁ hmod₁ (by rwa [hsize, hused])
      rw [List.append_assoc] at hm₂
      have hclosed := NlMsg.nlaNestEnd_holds hm₂ (nest_mod hmod _ 0 inside)
      simp only [compose, hsome, hdone]
      refine ihRest hclosed (nest_mod hmod _ _ inside) fun hrest => hfull ⟨hstart, hinside, ?_⟩
      rw [NlMsg.nlaNestEnd, NlMsg.poke_length, hsize₂, hsize] at hrest
      simpa only [List.length_append, nlaHead_length, Nat.add_assoc] using hrest

/-- The octets of the attribute that is put last; a nest is put when it is opened. -/
def lastSpan : Attrs → Nat
  | nil => 0
  | put _ data rest => if rest = nil then align4 (nlaHdrlen + data.length) else rest.lastSpan
  | nest _ inside rest =>
      if rest ≠ nil then rest.lastSpan else if inside ≠ nil then inside.lastSpan else nlaHdrlen

theorem lastSpan_le (as : Attrs) : as.lastSpan ≤ as.octets.length := by
  induction as with
  | nil => exact Nat.le_refl 0
  | put attrtype data rest ih =>
      rw [lastSpan, octets, List.length_append, nlaPut_length]
      split_ifs
      · exact Nat.le_add_right _ _
      · exact Nat.le_trans ih (Nat.le_add_left _ _)
  | nest attrtype inside rest ihInside ihRest =>
      simp only [lastSpan, octets, List.length_append, nlaHead_length]
      split_ifs <;> omega

/-- The last attribute decides: the room up to its end and the room up to its start, taken together,
must not exceed the block. -/
theorem fits_iff {as : Attrs} (hne : as ≠ nil) (size used : Nat) :
    as.Fits size used ↔ 2 * (used + as.octets.length) ≤ size + as.lastSpan := by
  induction as generalizing used with
  | nil => exact absurd rfl hne
  | put attrtype data rest ih =>
      rw [lastSpan, octets, List.length_append, nlaPut_length]
      simp only [Fits, NlMsg.NlaFits]
      split_ifs with hrest
      · subst hrest
        simp only [Fits, octets, List.length_nil, and_true]
        omega
      · have := lastSpan_le rest
        rw [ih hrest]
        omega
  | nest attrtype inside rest ihInside ihRest =>
      have hopen : align4 (nlaHdrlen + 0) = nlaHdrlen := rfl
      have hinsideSpan := lastSpan_le inside
      have hrestSpan := lastSpan_le rest
      simp only [lastSpan, octets, List.length_append, nlaHead_length, Fits, NlMsg.NlaFits, hopen]
      by_cases hinside : inside = nil <;> by_cases hrest : rest = nil
      · subst hinside hrest
        simp only [Fits, octets, List.length_nil, and_true, ne_eq, not_true_eq_false, if_false]
        omega
      · rw [ihRest hrest]
        subst hinside
        simp only [Fits, octets, List.length_nil, true_and, ne_eq, hrest,
          not_false_eq_true, if_true]
        omega
      · rw [ihInside hinside]
        subst hrest
        simp only [Fits, octets, List.length_nil, and_true, ne_eq, hinside,
          not_true_eq_false, if_false,
          not_false_eq_true, if_true]
        omega
      · rw [ihInside hinside, ihRest hrest]
        simp only [ne_eq, hrest, not_false_eq_true, if_true]
        omega

/-! ## The reader -/

/-- The attributes that a loop of the reader stops at are those that were put, and a loop over a
nest finds what was put inside. -/
def Found (mem : Mem) : Attrs → List Nat → Prop
  | nil, nlas => nlas = []
  | put attrtype data rest, nlas =>
      ∃ nla nlas', nlas = nla :: nlas' ∧ nlaType mem nla = attrtype.toNat &&& nlaTypeMask ∧
        nlaPayload mem nla = data ∧ rest.Found mem nlas'
  | nest attrtype inside rest, nlas =>
      ∃ nla nlas', nlas = nla :: nlas' ∧ nlaType mem nla = attrtype.toNat &&& nlaTypeMask ∧
        inside.Found mem (nlaWalk mem (nlaData nla) (nlaLen mem nla)) ∧ rest.Found mem nlas'

/-- One attribute, written as a whole, moves the walk on. -/
theorem nlaWalk_stored {mem : Mem} {start n : Nat} {a : Nla} (h : Stored mem start a)
    (hsize : a.span + n < 2147483648) :
    nlaWalk mem start ((a.span + n : Nat) : Int) =
      start :: nlaWalk mem (start + a.span) (n : Int) := by
  have hspan := a.le_span
  have hok : (nlaOk mem start ((a.span + n : Nat) : Int)).val = true := by
    rw [nlaOk_val, h.lenField, sizeT]
    simp only [nlaHdrlen] at hspan ⊢
    omega
  have hnext : nlaNext mem start ((a.span + n : Nat) : Int) = (start + a.span, (n : Int)) := by
    rw [nlaNext, h.lenField, ← Nla.span]
    simp
  rw [nlaWalk_of_ok hok, hnext]

theorem nlaWalk_nil (mem : Mem) (start : Nat) : nlaWalk mem start 0 = [] := by
  apply nlaWalk_of_not_ok
  rw [nlaOk_val]
  simp [sizeT]
  omega

/-- Where the octets of a program lie, the reader finds its attributes. -/
theorem found_of_octets {mem : Mem} {start : Nat} {as : Attrs}
    (h : Bytes.octets mem start as.octets.length = as.octets) (hsize : as.octets.length < 65536) :
    as.Found mem (nlaWalk mem start as.octets.length) := by
  induction as generalizing start with
  | nil => exact nlaWalk_nil mem start
  | put attrtype data rest ih =>
      have hle := le_align4 (nlaHdrlen + data.length)
      have hlen := nlaPut_length attrtype.toNat data
      simp only [octets, List.length_append, hlen] at h hsize ⊢
      let a : Nla := ⟨attrtype.toNat, data, attrtype.toNat_lt, by omega⟩
      rw [octets_add] at h
      obtain ⟨hstored, hrest⟩ := List.append_inj h (by rw [octets_length, hlen])
      have ha : Stored mem start a := hstored
      refine ⟨start, _, nlaWalk_stored ha (by simp only [a, Nla.span]; omega), ha.type_eq,
        ha.payload_eq, ih hrest (by omega)⟩
  | nest attrtype inside rest ihInside ihRest =>
      have hmod := octets_mod inside
      simp only [octets, List.length_append, nlaHead_length, ← Nat.add_assoc] at h hsize ⊢
      let a : Nla := ⟨attrtype.toNat, inside.octets, attrtype.toNat_lt, by omega⟩
      have hspan : a.span = nlaHdrlen + inside.octets.length :=
        align4_of_mod (by show (nlaHdrlen + inside.octets.length) % 4 = 0; rw [nlaHdrlen]; omega)
      -- the payload of a nest needs no padding
      have hoctets : a.octets = NlMsg.nlaHead attrtype.toNat inside.octets.length ++
          inside.octets := by
        rw [Nla.octets_eq, hspan, Nat.sub_self]
        simp [NlMsg.nlaHead, a]
      rw [octets_add, ← List.append_assoc] at h
      obtain ⟨hstored, hrest⟩ := List.append_inj h
        (by simp only [octets_length, List.length_append, nlaHead_length])
      have ha : Stored mem start a := by rw [Stored, hspan, hoctets, hstored]
      have hwalk := nlaWalk_stored (n := rest.octets.length) ha (by rw [hspan]; omega)
      rw [hspan] at hwalk
      refine ⟨start, _, hwalk, ha.type_eq, ?_, ihRest hrest (by omega)⟩
      rw [ha.len_eq]
      exact ihInside ha.data_eq (by omega)

/-! ## Whole messages -/

/-- A message of a generic netlink family: `nlmsg_alloc`, `genlmsg_put`, and the attributes. -/
def message (block : Mem) (hdr : Nlmsghdr) (cmd version : UInt8) (as : Attrs) : Option NlMsg :=
  match (NlMsg.nlmsgAllocSize block).genlmsgPut hdr 0 cmd version with
  | none => none
  | some m => as.compose m

section Whole

variable {block : Mem} {hdr : Nlmsghdr} {cmd version : UInt8} {as : Attrs}

theorem message_holds (hdr : Nlmsghdr) (cmd version : UInt8)
    (hmin : nlmsgHdrlen + genlHdrlen ≤ block.length) (hmax : block.length < 65536)
    (hfits : as.Fits block.length (nlmsgHdrlen + genlHdrlen)) :
    ∃ m, message block hdr cmd version as = some m ∧
      m.Holds hdr ([cmd, version, 0, 0] ++ as.octets) := by
  have hempty := NlMsg.nlmsgAllocSize_holds (Nat.le_trans (Nat.le_add_right _ _) hmin) hmax
  have hsize : (NlMsg.nlmsgAllocSize block).nlh.length = block.length := by
    simp [NlMsg.nlmsgAllocSize]
  obtain ⟨m₁, hput, hsize₁, hm₁⟩ :=
    NlMsg.genlmsgPut_holds hempty hdr cmd version (by rwa [hsize])
  obtain ⟨m₂, hdone, -, hm₂⟩ := compose_holds hm₁ (by simp) (by rw [hsize₁, hsize]; exact hfits)
  exact ⟨m₂, by simp only [message, hput, hdone], hm₂⟩

theorem message_none (hmin : nlmsgHdrlen + genlHdrlen ≤ block.length) (hmax : block.length < 65536)
    (hfull : ¬ as.Fits block.length (nlmsgHdrlen + genlHdrlen)) :
    message block hdr cmd version as = none := by
  have hempty := NlMsg.nlmsgAllocSize_holds (Nat.le_trans (Nat.le_add_right _ _) hmin) hmax
  have hsize : (NlMsg.nlmsgAllocSize block).nlh.length = block.length := by
    simp [NlMsg.nlmsgAllocSize]
  obtain ⟨m₁, hput, hsize₁, hm₁⟩ :=
    NlMsg.genlmsgPut_holds hempty hdr cmd version (by rwa [hsize])
  have hnone := compose_none hm₁ (by simp) (by rw [hsize₁, hsize]; exact hfull)
  simp only [message, hput, hnone]

/-- A message that could be composed, completed for sending. -/
theorem composed_holds (hmin : nlmsgHdrlen + genlHdrlen ≤ block.length)
    (hmax : block.length < 65536) {m : NlMsg} (hm : message block hdr cmd version as = some m)
    (pid : UInt32) (proto : Int) (noAck : Bool) (seqNext : UInt32) :
    (m.nlSendAutoComplete pid proto noAck seqNext).1.Holds (NlMsg.completed hdr pid noAck seqNext)
      ([cmd, version, 0, 0] ++ as.octets) := by
  have hfits : as.Fits block.length (nlmsgHdrlen + genlHdrlen) := by
    by_contra hfull
    rw [message_none hmin hmax hfull] at hm
    cases hm
  obtain ⟨m', hsome, hholds⟩ := message_holds hdr cmd version hmin hmax hfits
  cases hsome.symm.trans hm
  exact (NlMsg.nlSendAutoComplete_holds hholds pid proto noAck seqNext).1

/-- The reader's loops find the attributes of a message that is sent. -/
theorem found_of_holds {m : NlMsg} (hm : m.Holds hdr ([cmd, version, 0, 0] ++ as.octets)) :
    as.Found m.sent (nlaWalk m.sent (genlmsgAttrdata (nlmsgData 0) 0)
      (genlmsgAttrlen m.sent (nlmsgData 0) 0)) := by
  have hsent := hm.sent_eq
  have hle := hm.le_size
  have hsmall := hm.small
  have hbody : ([cmd, version, 0, 0] ++ as.octets).length = genlHdrlen + as.octets.length := by
    simp [genlHdrlen]
    omega
  rw [hbody, ← Nat.add_assoc] at hle
  have hfield : nlmsgLenField m.sent 0 = nlmsgHdrlen + genlHdrlen + as.octets.length := by
    rw [hsent, Nlmsghdr.octets, Nlmsghdr.front, hbody, nlmsgLenField, List.append_assoc, rd32_le32,
      Nat.add_assoc]
    exact Nat.mod_eq_of_lt (by omega)
  have hattrlen : genlmsgAttrlen m.sent (nlmsgData 0) 0 = (as.octets.length : Int) := by
    rw [genlmsgAttrlen_eq (by rw [hfield, Nat.add_assoc]; exact Nat.le_add_right _ _)
      (by rw [hfield]; omega), hfield]
    simp only [nlmsgHdrlen, genlHdrlen]
    omega
  rw [hattrlen]
  refine found_of_octets ?_ (by omega)
  -- the attributes lie behind the twenty octets of the two headers
  have hsplit : m.sent = (hdr.front (nlmsgHdrlen + (genlHdrlen + as.octets.length)) ++
      [cmd, version, 0, 0]) ++ as.octets := by
    rw [hsent, Nlmsghdr.octets, hbody, List.append_assoc]
  have hstart : genlmsgAttrdata (nlmsgData 0) 0 =
      (hdr.front (nlmsgHdrlen + (genlHdrlen + as.octets.length)) ++
        [cmd, version, 0, 0]).length + 0 :=
    rfl
  have hself := octets_self_append as.octets []
  rw [List.append_nil] at hself
  rw [hsplit, hstart, octets_append_right]
  exact hself

/-- **What a composed message says.** Whatever was in the block, every write stays inside it, the
octets that are sent are the completed header, the generic header and the attributes, and the loops
of the reader find, nest by nest, what was put. -/
theorem composed_found (hmin : nlmsgHdrlen + genlHdrlen ≤ block.length)
    (hmax : block.length < 65536) {m : NlMsg} (hm : message block hdr cmd version as = some m)
    (pid : UInt32) (proto : Int) (noAck : Bool) (seqNext : UInt32) :
    let done := (m.nlSendAutoComplete pid proto noAck seqNext).1
    done.fault = false ∧
      done.sent = (NlMsg.completed hdr pid noAck seqNext).octets
        ([cmd, version, 0, 0] ++ as.octets) ∧
      as.Found done.sent (nlaWalk done.sent (genlmsgAttrdata (nlmsgData 0) 0)
        (genlmsgAttrlen done.sent (nlmsgData 0) 0)) := by
  have hdone := composed_holds hmin hmax hm pid proto noAck seqNext
  exact ⟨hdone.sound, hdone.sent_eq, found_of_holds hdone⟩

theorem composed_found_nest : ∃ m,
    message (List.replicate 88 170) ⟨30, 768, 0, 0⟩ 17 0
        (nest 5 (put 1 [1] (put 2 [2, 3] nil)) (put 3 [4, 0, 0, 0] nil)) = some m ∧
      let done := (m.nlSendAutoComplete 77 16 false 9).1
      done.fault = false ∧
        done.sent = (NlMsg.completed ⟨30, 768, 0, 0⟩ 77 false 9).octets ([17, 0, 0, 0] ++
          (nest 5 (put 1 [1] (put 2 [2, 3] nil)) (put 3 [4, 0, 0, 0] nil)).octets) ∧
        (nest 5 (put 1 [1] (put 2 [2, 3] nil)) (put 3 [4, 0, 0, 0] nil)).Found done.sent
          (nlaWalk done.sent (genlmsgAttrdata (nlmsgData 0) 0)
            (genlmsgAttrlen done.sent (nlmsgData 0) 0)) := by
  have hfits : (nest 5 (put 1 [1] (put 2 [2, 3] nil)) (put 3 [4, 0, 0, 0] nil)).Fits
      (List.replicate 88 (170 : UInt8)).length (nlmsgHdrlen + genlHdrlen) := by decide
  obtain ⟨m, hm, -⟩ := message_holds ⟨30, 768, 0, 0⟩ 17 0 (by decide) (by decide) hfits
  exact ⟨m, hm, composed_found (by decide) (by decide) hm 77 16 false 9⟩

end Whole

end Attrs

end Nl80211.Libnl
