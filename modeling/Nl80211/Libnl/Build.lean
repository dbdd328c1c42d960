/-
# Nl80211.Libnl.Build — messages as libnl-tiny builds them.

A message is one block from `malloc`, `nm_size` octets long, with whatever was in memory there.  The
functions of `msg.c`, `genl.c` and `attr.c` write into it: the header first, then attribute behind
attribute, each behind the aligned length in the header.  `Holds` says what a block holds, and every
function below has one lemma that says what it makes of that.
-/
import Nl80211.Libnl.Encode

namespace Nl80211.Libnl

open Lib Lib.Bytes

/-! ## The block -/

/-- The members of `struct nlmsghdr` behind the length. -/
structure Nlmsghdr where
  type : UInt16
  flags : UInt16
  seq : UInt32
  pid : UInt32
  deriving DecidableEq, Repr

/-- The sixteen octets of the header, with `n` for the length. -/
def Nlmsghdr.front (h : Nlmsghdr) (n : Nat) : Mem :=
  le32 n ++ (le16 h.type.toNat ++ (le16 h.flags.toNat ++ (le32 h.seq.toNat ++ le32 h.pid.toNat)))

@[simp] theorem Nlmsghdr.front_length (h : Nlmsghdr) (n : Nat) : (h.front n).length = nlmsgHdrlen :=
  rfl

/-- The four members are read back. -/
theorem Nlmsghdr.front_read (h : Nlmsghdr) (n : Nat) (rest : Mem) :
    nlmsgType (h.front n ++ rest) 0 = h.type.toNat ∧
      nlmsgFlags (h.front n ++ rest) 0 = h.flags.toNat ∧
      nlmsgSeq (h.front n ++ rest) 0 = h.seq ∧ rd32 (h.front n ++ rest) 12 = h.pid.toNat := by
  have htype := rd16_append_right (le32 n) (le16 h.type.toNat ++ (le16 h.flags.toNat ++
    (le32 h.seq.toNat ++ (le32 h.pid.toNat ++ rest)))) 0
  have hflags := rd16_append_right (le32 n ++ le16 h.type.toNat) (le16 h.flags.toNat ++
    (le32 h.seq.toNat ++ (le32 h.pid.toNat ++ rest))) 0
  have hseq := rd32_append_right (le32 n ++ (le16 h.type.toNat ++ le16 h.flags.toNat))
    (le32 h.seq.toNat ++ (le32 h.pid.toNat ++ rest)) 0
  have hpid := rd32_append_right (le32 n ++ (le16 h.type.toNat ++ (le16 h.flags.toNat ++
    le32 h.seq.toNat))) (le32 h.pid.toNat ++ rest) 0
  rw [rd16_le16, Nat.mod_eq_of_lt h.type.toNat_lt] at htype
  rw [rd16_le16, Nat.mod_eq_of_lt h.flags.toNat_lt] at hflags
  rw [rd32_le32, Nat.mod_eq_of_lt h.seq.toNat_lt] at hseq
  rw [rd32_le32, Nat.mod_eq_of_lt h.pid.toNat_lt] at hpid
  simp only [List.append_assoc, List.length_append, le32_length,
    le16_length] at htype hflags hseq hpid
  simp only [front, nlmsgType, nlmsgFlags, nlmsgSeq, List.append_assoc]
  refine ⟨htype, hflags, ?_, hpid⟩
  exact (congrArg UInt32.ofNat hseq).trans UInt32.ofNat_toNat

/-- A message with this header and what is in it. -/
def Nlmsghdr.octets (h : Nlmsghdr) (body : Mem) : Mem :=
  h.front (nlmsgHdrlen + body.length) ++ body

@[simp] theorem Nlmsghdr.octets_length (h : Nlmsghdr) (body : Mem) :
    (h.octets body).length = nlmsgHdrlen + body.length := by
  simp [octets]

/-- `struct nl_msg`, as far as building looks at it: the block behind `nm_nlh`, `nm_size` octets of
it, and `nm_protocol`.  `fault` is set by a write that does not stay in the block and by `BUG`. -/
structure NlMsg where
  nlh : Mem
  protocol : Int := -1
  fault : Bool := false

namespace NlMsg

/-- The member `nlmsg_len`. -/
def len (m : NlMsg) : Nat := nlmsgLenField m.nlh 0

/-- A write at offset `off` of the block. -/
def poke (m : NlMsg) (off : Nat) (bs : List UInt8) : NlMsg :=
  { m with nlh := store m.nlh off bs, fault := m.fault || m.nlh.length < off + bs.length }

/-- `nlmsg_tail`. -/
def nlmsgTail (m : NlMsg) : Nat := align4 m.len

/-! ## `msg.c` -/

/-- `__nlmsg_alloc`; `block` is what `malloc` returns. -/
def nlmsgAllocSize (block : Mem) : NlMsg :=
  let m : NlMsg := { nlh := block }
  let m := m.poke 0 (List.replicate nlmsgHdrlen 0)
  m.poke 0 (le32 (align4 nlmsgHdrlen))

/-- `default_msg_size`. -/
def defaultMsgSize : Nat := 4096

/-- `nlmsg_inherit`, of a message that is there. -/
def nlmsgInherit (m : NlMsg) (hdr : Nlmsghdr) : NlMsg :=
  let m := m.poke 4 (le16 hdr.type.toNat)
  let m := m.poke 6 (le16 hdr.flags.toNat)
  let m := m.poke 8 (le32 hdr.seq.toNat)
  m.poke 12 (le32 hdr.pid.toNat)

/-- `nlmsg_reserve`: `none` is `NULL`, otherwise the message and where the room in it starts.  The
mask `~(pad - 1)` is an `int` that is converted to `size_t`. -/
def nlmsgReserve (m : NlMsg) (len pad : Nat) : Option (NlMsg × Nat) :=
  let nlmsgLen := m.len
  let tlen := if pad ≠ 0 then (len + (pad - 1)) &&& (18446744073709551616 - pad) else len
  if tlen + nlmsgLen > m.nlh.length then none
  else
    let m := m.poke 0 (le32 (m.len + tlen))
    let m := if tlen > len then m.poke (nlmsgLen + len) (List.replicate (tlen - len) 0) else m
    some (m, nlmsgLen)

/-- `NLMSG_ALIGNTO`. -/
def nlmsgAlignto : Nat := 4

/-- `nlmsg_append`: `none` is `-NLE_NOMEM`. -/
def nlmsgAppend (m : NlMsg) (data : Mem) (pad : Nat) : Option NlMsg :=
  match m.nlmsgReserve data.length pad with
  | none => none
  | some (m, tmp) => some (m.poke tmp data)

/-- `nlmsg_put`; the header it returns is the start of the block. -/
def nlmsgPut (m : NlMsg) (hdr : Nlmsghdr) (payload : Nat) : Option NlMsg :=
  let m := if m.len < nlmsgHdrlen then { m with fault := true } else m
  let m := m.poke 4 (le16 hdr.type.toNat)
  let m := m.poke 6 (le16 hdr.flags.toNat)
  let m := m.poke 12 (le32 hdr.pid.toNat)
  let m := m.poke 8 (le32 hdr.seq.toNat)
  if payload > 0 then (m.nlmsgReserve payload nlmsgAlignto).map Prod.fst else some m

/-! ## `genl.c` -/

/-- `genlmsg_put`: the netlink header, room for the generic one and the header of the family, then
the generic one.  The rest of the room stays as it is. -/
def genlmsgPut (m : NlMsg) (hdr : Nlmsghdr) (hdrlen : Nat) (cmd version : UInt8) : Option NlMsg :=
  (m.nlmsgPut hdr (genlHdrlen + hdrlen)).map fun m => m.poke (nlmsgData 0) [cmd, version, 0, 0]

/-! ## `attr.c` -/

/-- `nla_reserve`.  The room that is asked for is that up to the end of the attribute and as much
again as the message already takes up. -/
def nlaReserve (m : NlMsg) (attrtype attrlen : Nat) : Option (NlMsg × Nat) :=
  let tlen := align4 m.len + align4 (nlaHdrlen + attrlen)
  if tlen + m.len > m.nlh.length then none
  else
    let nla := m.nlmsgTail
    let m := m.poke (nla + 2) (le16 attrtype)
    let m := m.poke nla (le16 (nlaHdrlen + attrlen))
    let m := m.poke (nla + (nlaHdrlen + attrlen))
      (List.replicate (align4 (nlaHdrlen + attrlen) - (nlaHdrlen + attrlen)) 0)
    some (m.poke 0 (le32 tlen), nla)

/-- `nla_put`: `none` is `-NLE_NOMEM`. -/
def nlaPut (m : NlMsg) (attrtype : Nat) (data : Mem) : Option NlMsg :=
  match m.nlaReserve attrtype data.length with
  | none => none
  | some (m, nla) => some (m.poke (nlaData nla) data)

/-- `nla_nest_start`: the message with an empty attribute behind it, and where that starts. -/
def nlaNestStart (m : NlMsg) (attrtype : Nat) : Option (NlMsg × Nat) :=
  let start := m.nlmsgTail
  match m.nlaPut attrtype [] with
  | none => none
  | some m => some (m, start)

/-- `nla_nest_end`. -/
def nlaNestEnd (m : NlMsg) (start : Nat) : NlMsg := m.poke start (le16 (m.nlmsgTail - start))

/-! ## `nl.c` -/

/-- `nl_send_auto_complete` up to the send: the completed message and the counter of the socket.
`pid` and `proto` are `s_local.nl_pid` and `s_proto`, and `noAck` is the flag `NL_NO_AUTO_ACK`. -/
def nlSendAutoComplete (m : NlMsg) (pid : UInt32) (proto : Int) (noAck : Bool) (seqNext : UInt32) :
    NlMsg × UInt32 :=
  let m := if rd32 m.nlh 12 = 0 then m.poke 12 (le32 pid.toNat) else m
  let (m, seqNext) :=
    if nlmsgSeq m.nlh 0 = 0 then (m.poke 8 (le32 seqNext.toNat), seqNext + 1) else (m, seqNext)
  let m := if m.protocol = -1 then { m with protocol := proto } else m
  let m := m.poke 6 (le16 (nlmsgFlags m.nlh 0 ||| nlmFRequest))
  let m := if noAck then m else m.poke 6 (le16 (nlmsgFlags m.nlh 0 ||| nlmFAck))
  (m, seqNext)

/-- `nl_sendmsg` hands the first `nlmsg_len` octets of the block to the socket. -/
def sent (m : NlMsg) : Mem := Bytes.octets m.nlh 0 m.len

/-! ## What a block holds -/

/-- The block starts with the message of header `h` and contents `body`, and every write so far has
stayed in it.  A block is shorter than 64 KiB, so that no attribute in it outgrows its header. -/
structure Holds (m : NlMsg) (h : Nlmsghdr) (body : Mem) : Prop where
  sound : m.fault = false
  small : m.nlh.length < 65536
  block : ∃ rest, m.nlh = h.octets body ++ rest

@[simp] theorem poke_length (m : NlMsg) (off : Nat) (bs : List UInt8) :
    (m.poke off bs).nlh.length = m.nlh.length := store_length ..

/-- A write over a stretch of the block. -/
theorem poke_stretch {m : NlMsg} {a b c w : Mem} {i : Nat} (hm : m.nlh = a ++ (b ++ c))
    (hi : i = a.length) (hlen : w.length = b.length) :
    (m.poke i w).nlh = a ++ (w ++ c) ∧ (m.poke i w).fault = m.fault := by
  subst hi
  constructor
  · show store m.nlh a.length w = _
    rw [hm, store_stretch hlen]
  · show (m.fault || decide (m.nlh.length < a.length + w.length)) = m.fault
    rw [decide_eq_false, Bool.or_false]
    rw [hm, List.length_append, List.length_append, hlen]
    omega

theorem exists_stretch {k : Nat} {l : Mem} (h : k ≤ l.length) :
    ∃ a b, l = a ++ b ∧ a.length = k :=
  ⟨l.take k, l.drop k, (List.take_append_drop k l).symm, List.length_take_of_le h⟩

/-- Writes that do not meet can be made in either order. -/
theorem poke_comm {m : NlMsg} {i j : Nat} {a b : List UInt8} (h : i + a.length ≤ j) :
    (m.poke j b).poke i a = (m.poke i a).poke j b := by
  simp only [poke, store_comm h, store_length, Bool.or_right_comm]

namespace Holds

variable {m : NlMsg} {h : Nlmsghdr} {body : Mem}

theorem le_size (hm : m.Holds h body) : nlmsgHdrlen + body.length ≤ m.nlh.length := by
  obtain ⟨rest, hblock⟩ := hm.block
  rw [hblock, List.length_append, Nlmsghdr.octets_length]
  omega

theorem len_eq (hm : m.Holds h body) : m.len = nlmsgHdrlen + body.length := by
  have hle := hm.le_size
  have hsmall := hm.small
  obtain ⟨rest, hblock⟩ := hm.block
  rw [len, nlmsgLenField, hblock, Nlmsghdr.octets, Nlmsghdr.front, List.append_assoc,
    List.append_assoc, rd32_le32]
  exact Nat.mod_eq_of_lt (by omega)

/-- What is sent is the message. -/
theorem sent_eq (hm : m.Holds h body) : m.sent = h.octets body := by
  have hlen := hm.len_eq
  obtain ⟨rest, hblock⟩ := hm.block
  rw [sent, hlen, hblock, ← Nlmsghdr.octets_length h, octets_self_append]

/-- A write that leaves a message there. -/
theorem of_poke {off : Nat} {bs : List UInt8} {h' : Nlmsghdr} {body' : Mem} (hm : m.Holds h body)
    {a b c : Mem} (hblock : m.nlh = a ++ (b ++ c)) (hoff : off = a.length)
    (hlen : bs.length = b.length) (rest : Mem) (hnew : a ++ (bs ++ c) = h'.octets body' ++ rest) :
    (m.poke off bs).Holds h' body' := by
  obtain ⟨hnlh, hfault⟩ := poke_stretch hblock hoff hlen
  exact ⟨hfault.trans hm.sound, by rw [poke_length]; exact hm.small, rest, hnlh.trans hnew⟩

theorem poke_type (hm : m.Holds h body) (type : UInt16) :
    (m.poke 4 (le16 type.toNat)).Holds { h with type := type } body := by
  obtain ⟨rest, hblock⟩ := hm.block
  have hsplit : m.nlh = le32 (nlmsgHdrlen + body.length) ++ (le16 h.type.toNat ++
      (le16 h.flags.toNat ++ (le32 h.seq.toNat ++ (le32 h.pid.toNat ++ (body ++ rest))))) := by
    simp [hblock, Nlmsghdr.octets, Nlmsghdr.front]
  refine hm.of_poke hsplit rfl rfl rest ?_
  simp [Nlmsghdr.octets, Nlmsghdr.front]

theorem poke_flags (hm : m.Holds h body) (flags : UInt16) :
    (m.poke 6 (le16 flags.toNat)).Holds { h with flags := flags } body := by
  obtain ⟨rest, hblock⟩ := hm.block
  have hsplit : m.nlh = (le32 (nlmsgHdrlen + body.length) ++ le16 h.type.toNat) ++
      (le16 h.flags.toNat ++ (le32 h.seq.toNat ++ (le32 h.pid.toNat ++ (body ++ rest)))) := by
    simp [hblock, Nlmsghdr.octets, Nlmsghdr.front]
  refine hm.of_poke hsplit rfl rfl rest ?_
  simp [Nlmsghdr.octets, Nlmsghdr.front]

theorem poke_seq (hm : m.Holds h body) (seq : UInt32) :
    (m.poke 8 (le32 seq.toNat)).Holds { h with seq := seq } body := by
  obtain ⟨rest, hblock⟩ := hm.block
  have hsplit : m.nlh = (le32 (nlmsgHdrlen + body.length) ++ (le16 h.type.toNat ++
      le16 h.flags.toNat)) ++ (le32 h.seq.toNat ++ (le32 h.pid.toNat ++ (body ++ rest))) := by
    simp [hblock, Nlmsghdr.octets, Nlmsghdr.front]
  refine hm.of_poke hsplit rfl rfl rest ?_
  simp [Nlmsghdr.octets, Nlmsghdr.front]

theorem poke_pid (hm : m.Holds h body) (pid : UInt32) :
    (m.poke 12 (le32 pid.toNat)).Holds { h with pid := pid } body := by
  obtain ⟨rest, hblock⟩ := hm.block
  have hsplit : m.nlh = (le32 (nlmsgHdrlen + body.length) ++ (le16 h.type.toNat ++
      (le16 h.flags.toNat ++ le32 h.seq.toNat))) ++ (le32 h.pid.toNat ++ (body ++ rest)) := by
    simp [hblock, Nlmsghdr.octets, Nlmsghdr.front]
  refine hm.of_poke hsplit rfl rfl rest ?_
  simp [Nlmsghdr.octets, Nlmsghdr.front]

/-- A write inside the contents. -/
theorem poke_body {a b c w : Mem} {i : Nat} (hm : m.Holds h (a ++ (b ++ c)))
    (hi : i = nlmsgHdrlen + a.length) (hlen : w.length = b.length) :
    (m.poke i w).Holds h (a ++ (w ++ c)) := by
  obtain ⟨rest, hblock⟩ := hm.block
  have hsplit : m.nlh = (h.front (nlmsgHdrlen + (a ++ (b ++ c)).length) ++ a) ++
      (b ++ (c ++ rest)) := by
    simp [hblock, Nlmsghdr.octets]
  refine hm.of_poke hsplit (by simp [hi]) hlen rest ?_
  simp [Nlmsghdr.octets, hlen]

/-- The message grows over what lies behind it in the block. -/
theorem poke_len {k : Nat} (hm : m.Holds h body)
    (hk : nlmsgHdrlen + body.length + k ≤ m.nlh.length) :
    ∃ room, room.length = k ∧
      (m.poke 0 (le32 (nlmsgHdrlen + body.length + k))).Holds h (body ++ room) := by
  obtain ⟨rest, hblock⟩ := hm.block
  have hrest : k ≤ rest.length := by
    rw [hblock, List.length_append, Nlmsghdr.octets_length] at hk
    omega
  have hsplit : m.nlh = [] ++ (le32 (nlmsgHdrlen + body.length) ++ ((le16 h.type.toNat ++
      (le16 h.flags.toNat ++ (le32 h.seq.toNat ++ le32 h.pid.toNat))) ++ (body ++ rest))) := by
    simp [hblock, Nlmsghdr.octets, Nlmsghdr.front]
  have hlen : (rest.take k).length = k := by simp [hrest]
  refine ⟨rest.take k, hlen, hm.of_poke hsplit rfl rfl (rest.drop k) ?_⟩
  simp only [Nlmsghdr.octets, Nlmsghdr.front, List.nil_append, List.append_assoc,
    List.length_append, hlen, Nat.add_assoc, List.take_append_drop]

end Holds

/-! ## What the functions make of it -/

section Spec

variable {m : NlMsg} {h : Nlmsghdr} {body : Mem}

/-- A new message is empty. -/
theorem nlmsgAllocSize_holds {block : Mem} (hmin : nlmsgHdrlen ≤ block.length)
    (hmax : block.length < 65536) : (nlmsgAllocSize block).Holds ⟨0, 0, 0, 0⟩ [] := by
  have hzero := poke_stretch (m := ⟨block, -1, false⟩) (a := []) (b := block.take nlmsgHdrlen)
    (c := block.drop nlmsgHdrlen) (w := List.replicate nlmsgHdrlen 0)
    (by simp) rfl (by simp [hmin])
  have hlen := poke_stretch (a := []) (b := [0, 0, 0, 0])
    (c := List.replicate 12 0 ++ block.drop nlmsgHdrlen) (w := le32 (align4 nlmsgHdrlen))
    hzero.1 rfl rfl
  exact ⟨hlen.2.trans hzero.2, by simpa [nlmsgAllocSize] using hmax, block.drop nlmsgHdrlen, hlen.1⟩

theorem nlmsgInherit_holds (hm : m.Holds h body) (hdr : Nlmsghdr) :
    (m.nlmsgInherit hdr).Holds hdr body :=
  (((hm.poke_type hdr.type).poke_flags hdr.flags).poke_seq hdr.seq).poke_pid hdr.pid

/-- With `NLMSG_ALIGNTO` the room is rounded up to four octets. -/
theorem aligned_mask {n : Nat} (hn : n < 4294967296) :
    (n + (nlmsgAlignto - 1)) &&& (18446744073709551616 - nlmsgAlignto) = align4 n := by
  have hmask : 18446744073709551616 - nlmsgAlignto = (2 ^ 62 - 1) <<< 2 := by decide
  have hshift (x y : Nat) : x &&& y <<< 2 = (x >>> 2 &&& y) <<< 2 := by
    apply Nat.eq_of_testBit_eq
    intro i
    by_cases hi : 2 ≤ i <;> simp [Nat.testBit_shiftLeft, Nat.testBit_shiftRight, hi]
  rw [hmask, hshift, Nat.and_two_pow_sub_one_eq_mod, Nat.shiftLeft_eq, Nat.shiftRight_eq_div_pow,
    align4, nlmsgAlignto]
  omega

/-- `nlmsg_reserve` with `NLMSG_ALIGNTO`: there is room when what is asked for fits the block. -/
theorem nlmsgReserve_holds (hm : m.Holds h body) {n : Nat} (hn : n < 4294967296)
    (hfits : align4 n + (nlmsgHdrlen + body.length) ≤ m.nlh.length) :
    ∃ m' room, m.nlmsgReserve n nlmsgAlignto = some (m', nlmsgHdrlen + body.length) ∧
      m'.nlh.length = m.nlh.length ∧ room.length = n ∧
      m'.Holds h (body ++ (room ++ List.replicate (align4 n - n) 0)) := by
  have hle := le_align4 n
  obtain ⟨room, hroom, hgrown⟩ := hm.poke_len (k := align4 n) (by omega)
  have hsplit : room = room.take n ++ (room.drop n ++ []) := by simp
  rw [hsplit, ← List.append_assoc] at hgrown
  have hpad : nlmsgAlignto ≠ 0 := by decide
  simp only [nlmsgReserve, if_pos hpad, aligned_mask hn, hm.len_eq, if_neg (Nat.not_lt.mpr hfits)]
  by_cases hpad : align4 n > n
  · have hzero := hgrown.poke_body (i := nlmsgHdrlen + body.length + n)
      (w := List.replicate (align4 n - n) 0) (by simp [hroom, hle]; omega) (by simp [hroom])
    rw [if_pos hpad]
    exact ⟨_, room.take n, rfl, by simp, by simp [hroom, hle], by simpa using hzero⟩
  · have hnil : room.drop n = [] := List.drop_of_length_le (by omega)
    rw [if_neg hpad, Nat.sub_eq_zero_of_le (Nat.not_lt.mp hpad)]
    rw [hnil] at hgrown
    exact ⟨_, room.take n, rfl, by simp, by simp [hroom, hle], by simpa using hgrown⟩

/-- `nlmsg_append` pads what it appends. -/
theorem nlmsgAppend_holds (hm : m.Holds h body) {data : Mem} (hn : data.length < 4294967296)
    (hfits : align4 data.length + (nlmsgHdrlen + body.length) ≤ m.nlh.length) :
    ∃ m', m.nlmsgAppend data nlmsgAlignto = some m' ∧ m'.nlh.length = m.nlh.length ∧
      m'.Holds h (body ++ pad4 data) := by
  obtain ⟨m', room, hsome, hsize, hroom, hgrown⟩ := nlmsgReserve_holds hm hn hfits
  rw [nlmsgAppend, hsome]
  exact ⟨_, rfl, by rw [poke_length, hsize], hgrown.poke_body rfl hroom.symm⟩

/-- `nlmsg_put` rewrites the header and makes room for the payload. -/
theorem nlmsgPut_holds (hm : m.Holds h body) (hdr : Nlmsghdr) {n : Nat} (hpos : 0 < n)
    (hn : n < 4294967296)
    (hfits : align4 n + (nlmsgHdrlen + body.length) ≤ m.nlh.length) :
    ∃ m' room, m.nlmsgPut hdr n = some m' ∧ m'.nlh.length = m.nlh.length ∧
      room.length = n ∧
      m'.Holds hdr (body ++ (room ++ List.replicate (align4 n - n) 0)) := by
  have hput := (((hm.poke_type hdr.type).poke_flags hdr.flags).poke_pid hdr.pid).poke_seq hdr.seq
  obtain ⟨m', room, hsome, hsize, hroom, hgrown⟩ :=
    nlmsgReserve_holds hput hn (by simpa using hfits)
  have hlen : ¬ nlmsgHdrlen + body.length < nlmsgHdrlen := Nat.not_lt.mpr (Nat.le_add_right _ _)
  refine ⟨m', room, ?_, by simpa using hsize, hroom, hgrown⟩
  rw [nlmsgPut, hm.len_eq, if_neg hlen]
  simp only [if_pos hpos, hsome, Option.map_some]

/-- `genlmsg_put` without a header of the family. -/
theorem genlmsgPut_holds (hm : m.Holds h []) (hdr : Nlmsghdr) (cmd version : UInt8)
    (hfits : nlmsgHdrlen + genlHdrlen ≤ m.nlh.length) :
    ∃ m', m.genlmsgPut hdr 0 cmd version = some m' ∧ m'.nlh.length = m.nlh.length ∧
      m'.Holds hdr [cmd, version, 0, 0] := by
  obtain ⟨m', room, hsome, hsize, hroom, hgrown⟩ :=
    nlmsgPut_holds hm hdr (n := genlHdrlen + 0) (by decide) (by decide) (by exact hfits)
  refine ⟨_, by rw [genlmsgPut, hsome]; rfl, by rw [poke_length, hsize], ?_⟩
  exact hgrown.poke_body (i := nlmsgData 0) (w := [cmd, version, 0, 0]) rfl (by rw [hroom]; rfl)

/-- The header of an attribute. -/
def nlaHead (attrtype n : Nat) : Mem := le16 (nlaHdrlen + n) ++ le16 attrtype

/-- An attribute with a payload of `n` octets finds room when this holds. -/
def NlaFits (size used n : Nat) : Prop := used + align4 (nlaHdrlen + n) + used ≤ size

instance (size used n : Nat) : Decidable (NlaFits size used n) :=
  inferInstanceAs (Decidable (_ ≤ _))

/-- `nla_reserve` behind aligned contents. -/
theorem nlaReserve_holds (hm : m.Holds h body) (hmod : body.length % 4 = 0)
    (attrtype : Nat) {n : Nat}
    (hfits : NlaFits m.nlh.length (nlmsgHdrlen + body.length) n) :
    ∃ m' room, m.nlaReserve attrtype n = some (m', nlmsgHdrlen + body.length) ∧
      m'.nlh.length = m.nlh.length ∧ room.length = n ∧
      m'.Holds h (body ++ (nlaHead attrtype n ++ (room ++
        List.replicate (align4 (nlaHdrlen + n) - (nlaHdrlen + n)) 0))) := by
  have hle := le_align4 (nlaHdrlen + n)
  have htail : align4 (nlmsgHdrlen + body.length) = nlmsgHdrlen + body.length :=
    align4_of_mod (by simp only [nlmsgHdrlen]; omega)
  unfold NlaFits at hfits
  obtain ⟨room, hroom, hgrown⟩ := hm.poke_len (k := align4 (nlaHdrlen + n)) (by omega)
  simp only [nlaHdrlen] at hle hroom
  -- the four stretches of what the message grows over: length, type, payload, padding
  obtain ⟨r₁, room, rfl, h₁⟩ := exists_stretch (k := 2) (l := room) (by omega)
  rw [List.length_append] at hroom
  obtain ⟨r₂, room, rfl, h₂⟩ := exists_stretch (k := 2) (l := room) (by omega)
  rw [List.length_append] at hroom
  obtain ⟨r₃, r₄, rfl, h₃⟩ := exists_stretch (k := n) (l := room) (by omega)
  rw [List.length_append] at hroom
  rw [← List.append_assoc] at hgrown
  have htype := hgrown.poke_body (i := nlmsgHdrlen + body.length + 2) (w := le16 attrtype)
    (by simp [h₁, Nat.add_assoc]) (by simp [h₂])
  rw [List.append_assoc] at htype
  have hlen := htype.poke_body (i := nlmsgHdrlen + body.length) (w := le16 (nlaHdrlen + n)) rfl
    (by simp [h₁])
  have hsplit : body ++ (le16 (nlaHdrlen + n) ++ (le16 attrtype ++ (r₃ ++ r₄))) =
      (body ++ (nlaHead attrtype n ++ r₃)) ++ (r₄ ++ []) := by
    simp [nlaHead]
  rw [hsplit] at hlen
  have hpad := hlen.poke_body (i := nlmsgHdrlen + body.length + (nlaHdrlen + n))
    (w := List.replicate (align4 (nlaHdrlen + n) - (nlaHdrlen + n)) 0)
    (by simp [nlaHead, nlaHdrlen, h₃]; omega) (by simp [nlaHdrlen]; omega)
  -- the code writes the length of the message last
  have hlast (m : NlMsg) (j n : Nat) (b : Mem) (hj : nlmsgHdrlen ≤ j) :
      (m.poke j b).poke 0 (le32 n) = (m.poke 0 (le32 n)).poke j b :=
    poke_comm (Nat.le_trans (by rw [le32_length, nlmsgHdrlen]; omega) hj)
  refine ⟨_, r₃, ?_, ?_, h₃, by simpa using hpad⟩
  · simp only [nlaReserve, nlmsgTail, hm.len_eq, htail]
    rw [if_neg (by omega), hlast _ _ _ _ (by omega), hlast _ _ _ _ (by omega),
      hlast _ _ _ _ (by omega)]
  · simp

/-- `nla_put` behind aligned contents. -/
theorem nlaPut_holds (hm : m.Holds h body) (hmod : body.length % 4 = 0) (attrtype : Nat) {d : Mem}
    (hfits : NlaFits m.nlh.length (nlmsgHdrlen + body.length) d.length) :
    ∃ m', m.nlaPut attrtype d = some m' ∧ m'.nlh.length = m.nlh.length ∧
      m'.Holds h (body ++ Libnl.nlaPut attrtype d) := by
  obtain ⟨m', room, hsome, hsize, hroom, hgrown⟩ := nlaReserve_holds hm hmod attrtype hfits
  refine ⟨_, by rw [nlaPut, hsome], by rw [poke_length, hsize], ?_⟩
  rw [← List.append_assoc] at hgrown
  have hput := hgrown.poke_body (i := nlaData (nlmsgHdrlen + body.length)) (w := d)
    (by simp [nlaHead, nlaData, nlaHdrlen, Nat.add_assoc]) hroom.symm
  have hlen : (le16 (nlaHdrlen + d.length) ++ (le16 attrtype ++ d)).length =
      nlaHdrlen + d.length := by
    simp [nlaHdrlen]
    omega
  rw [Libnl.nlaPut, pad4, hlen]
  simpa [nlaHead] using hput

/-- An attribute that finds no room is not written. -/
theorem nlaPut_none (hm : m.Holds h body) (hmod : body.length % 4 = 0) (attrtype : Nat) {d : Mem}
    (hfull : ¬ NlaFits m.nlh.length (nlmsgHdrlen + body.length) d.length) :
    m.nlaPut attrtype d = none := by
  have htail : align4 (nlmsgHdrlen + body.length) = nlmsgHdrlen + body.length :=
    align4_of_mod (by simp only [nlmsgHdrlen]; omega)
  unfold NlaFits at hfull
  simp only [nlaPut, nlaReserve, hm.len_eq, htail]
  rw [if_pos (by omega)]

/-- `nla_nest_start` behind aligned contents. -/
theorem nlaNestStart_holds (hm : m.Holds h body) (hmod : body.length % 4 = 0) (attrtype : Nat)
    (hfits : NlaFits m.nlh.length (nlmsgHdrlen + body.length) 0) :
    ∃ m', m.nlaNestStart attrtype = some (m', nlmsgHdrlen + body.length) ∧
      m'.nlh.length = m.nlh.length ∧ m'.Holds h (body ++ nlaHead attrtype 0) := by
  have htail : align4 (nlmsgHdrlen + body.length) = nlmsgHdrlen + body.length :=
    align4_of_mod (by simp only [nlmsgHdrlen]; omega)
  obtain ⟨m', hsome, hsize, hput⟩ := nlaPut_holds hm hmod attrtype (d := []) hfits
  have hempty : Libnl.nlaPut attrtype [] = nlaHead attrtype 0 := by
    simp [Libnl.nlaPut, pad4, nlaHead, nlaHdrlen, align4]
  refine ⟨m', ?_, hsize, hempty ▸ hput⟩
  rw [nlaNestStart, nlmsgTail, hm.len_eq, htail, hsome]

/-- `nla_nest_end` writes the length of what has been put since. -/
theorem nlaNestEnd_holds {before inside : Mem} {attrtype n : Nat}
    (hm : m.Holds h (before ++ (nlaHead attrtype n ++ inside)))
    (hmod : (before ++ (nlaHead attrtype n ++ inside)).length % 4 = 0) :
    (m.nlaNestEnd (nlmsgHdrlen + before.length)).Holds h
      (before ++ (nlaHead attrtype inside.length ++ inside)) := by
  have htail : align4 (nlmsgHdrlen + (before ++ (nlaHead attrtype n ++ inside)).length) -
      (nlmsgHdrlen + before.length) = nlaHdrlen + inside.length := by
    rw [align4_of_mod (by simp only [nlmsgHdrlen]; omega)]
    simp [nlaHead, nlaHdrlen]
    omega
  rw [nlaNestEnd, nlmsgTail, hm.len_eq, htail]
  rw [nlaHead, List.append_assoc] at hm ⊢
  exact hm.poke_body rfl rfl

/-- The header that `nl_send_auto_complete` completes. -/
def completed (h : Nlmsghdr) (pid : UInt32) (noAck : Bool) (seqNext : UInt32) : Nlmsghdr where
  type := h.type
  flags := h.flags ||| 1 ||| if noAck then 0 else 4
  seq := if h.seq = 0 then seqNext else h.seq
  pid := if h.pid = 0 then pid else h.pid

/-- `nl_send_auto_complete` fills in what has been left zero and counts the numbers it gives out. -/
theorem nlSendAutoComplete_holds (hm : m.Holds h body) (pid : UInt32) (proto : Int) (noAck : Bool)
    (seqNext : UInt32) :
    (m.nlSendAutoComplete pid proto noAck seqNext).1.Holds (completed h pid noAck seqNext) body ∧
      (m.nlSendAutoComplete pid proto noAck seqNext).2 =
        if h.seq = 0 then seqNext + 1 else seqNext := by
  have read {m : NlMsg} {h : Nlmsghdr} (hm : m.Holds h body) :
      nlmsgFlags m.nlh 0 = h.flags.toNat ∧ nlmsgSeq m.nlh 0 = h.seq ∧
        rd32 m.nlh 12 = h.pid.toNat := by
    obtain ⟨rest, hblock⟩ := hm.block
    rw [hblock, Nlmsghdr.octets, List.append_assoc]
    exact (h.front_read _ _).2
  have hpid : (if rd32 m.nlh 12 = 0 then m.poke 12 (le32 pid.toNat) else m).Holds
      { h with pid := if h.pid = 0 then pid else h.pid } body := by
    have hiff : rd32 m.nlh 12 = 0 ↔ h.pid = 0 := by
      rw [(read hm).2.2, ← UInt32.toNat_inj]
      rfl
    simp only [hiff]
    split_ifs
    · exact hm.poke_pid pid
    · exact hm
  -- behind the number: the protocol is no part of the block, the flags are or'ed into it
  have hflags {m : NlMsg} {h : Nlmsghdr} (hm : m.Holds h body) (flag : UInt16) :
      (m.poke 6 (le16 (nlmsgFlags m.nlh 0 ||| flag.toNat))).Holds
        { h with flags := h.flags ||| flag } body := by
    rw [(read hm).1, ← UInt16.toNat_or]
    exact hm.poke_flags _
  have hrest {m : NlMsg} {h : Nlmsghdr} (hm : m.Holds h body) :
      (let m := if m.protocol = -1 then { m with protocol := proto } else m
       let m := m.poke 6 (le16 (nlmsgFlags m.nlh 0 ||| nlmFRequest))
       if noAck then m else m.poke 6 (le16 (nlmsgFlags m.nlh 0 ||| nlmFAck))).Holds
        { h with flags := h.flags ||| 1 ||| if noAck then 0 else 4 } body := by
    have hproto : (if m.protocol = -1 then { m with protocol := proto } else m).Holds h body := by
      split_ifs
      · exact ⟨hm.sound, hm.small, hm.block⟩
      · exact hm
    cases noAck with
    | true => simpa [nlmFRequest] using hflags hproto 1
    | false => exact hflags (hflags hproto 1) 4
  unfold nlSendAutoComplete
  generalize (if rd32 m.nlh 12 = 0 then m.poke 12 (le32 pid.toNat) else m) = m' at hpid ⊢
  simp only [(read hpid).2.1]
  by_cases h0 : h.seq = 0
  · simp only [if_pos h0]
    refine ⟨?_, trivial⟩
    have hdone := hrest (hpid.poke_seq seqNext)
    simpa only [completed, if_pos h0] using hdone
  · simp only [if_neg h0]
    refine ⟨?_, trivial⟩
    have hdone := hrest hpid
    simpa only [completed, if_neg h0] using hdone

end Spec

end NlMsg

end Nl80211.Libnl
