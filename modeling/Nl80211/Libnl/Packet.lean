/-
# Nl80211.Libnl.Packet — datagrams built from messages.

A sender packs whole messages into a datagram, each padded to four octets.  For such a datagram the
walk of `recvmsgs` over octets is a walk over the list of messages (`recvWalk_parcel`), whatever the
callbacks do.  For a callback set with only `NL_CB_VALID` and `NL_CB_FINISH`, as this program's are,
the last section says what each kind of message does.
-/
import Nl80211.Libnl.Recv

namespace Nl80211.Libnl

open Lib Lib.Bytes

/-! ## Messages and parcels -/

/-- A well-formed message, and what lies in memory behind the copy the receiver makes of it. -/
structure NetMsg where
  octets : Mem
  behind : Mem
  hdr : nlmsgHdrlen ≤ octets.length
  len : nlmsgLenField octets 0 = octets.length
  deriving DecidableEq

namespace NetMsg

/-- The message as a callback sees it. -/
def image (m : NetMsg) : Mem := m.octets ++ m.behind

def type (m : NetMsg) : Nat := nlmsgType m.octets 0
def flags (m : NetMsg) : Nat := nlmsgFlags m.octets 0
def seq (m : NetMsg) : UInt32 := nlmsgSeq m.octets 0

/-- `NLM_F_MULTI` is set. -/
def multi (m : NetMsg) : Bool := m.flags &&& nlmFMulti ≠ 0

/-- The octets a message takes up in a datagram. -/
def span (m : NetMsg) : Nat := align4 m.octets.length

theorem span_pos (m : NetMsg) : 0 < m.span := by
  have h := m.hdr
  have := le_align4 m.octets.length
  simp only [nlmsgHdrlen] at h
  unfold span
  omega

end NetMsg

/-- A message as a sender lays it out: the header, then the payload. -/
def buildOctets (type flags : Nat) (seq : UInt32) (payload : Mem) : Mem :=
  le32 (nlmsgHdrlen + payload.length) ++
    (le16 type ++ (le16 flags ++ (le32 seq.toNat ++ (le32 0 ++ payload))))

theorem buildOctets_length (type flags : Nat) (seq : UInt32) (payload : Mem) :
    (buildOctets type flags seq payload).length = nlmsgHdrlen + payload.length := by
  simp [buildOctets, nlmsgHdrlen]
  omega

theorem buildOctets_hdr (type flags : Nat) (seq : UInt32) (payload : Mem) :
    nlmsgHdrlen ≤ (buildOctets type flags seq payload).length := by
  rw [buildOctets_length]
  exact Nat.le_add_right _ _

theorem buildOctets_len (type flags : Nat) (seq : UInt32) {payload : Mem}
    (h : nlmsgHdrlen + payload.length < 4294967296) :
    nlmsgLenField (buildOctets type flags seq payload) 0 =
      (buildOctets type flags seq payload).length := by
  rw [buildOctets_length, nlmsgLenField, buildOctets, rd32_le32, Nat.mod_eq_of_lt h]

/-- The message of these octets. -/
def NetMsg.build (type flags : Nat) (seq : UInt32) (payload behind : Mem)
    (h : nlmsgHdrlen + payload.length < 4294967296) : NetMsg :=
  ⟨buildOctets type flags seq payload, behind, buildOctets_hdr type flags seq payload,
    buildOctets_len type flags seq h⟩

theorem NetMsg.build_seq (type flags : Nat) (seq : UInt32) (payload behind : Mem)
    (h : nlmsgHdrlen + payload.length < 4294967296) :
    (NetMsg.build type flags seq payload behind h).seq = seq := by
  show UInt32.ofNat (rd32 (buildOctets type flags seq payload) (0 + 8)) = seq
  have hoff : buildOctets type flags seq payload =
      (le32 (nlmsgHdrlen + payload.length) ++ (le16 type ++ le16 flags)) ++
        (le32 seq.toNat ++ (le32 0 ++ payload)) := by
    simp [buildOctets]
  rw [hoff, show (0 + 8 : Nat) =
      (le32 (nlmsgHdrlen + payload.length) ++ (le16 type ++ le16 flags)).length + 0 by simp,
    rd32_append_right, rd32_le32, Nat.mod_eq_of_lt seq.toNat_lt]
  exact UInt32.ofNat_toNat

theorem NetMsg.build_type {type : Nat} (htype : type < 65536) (flags : Nat) (seq : UInt32)
    (payload behind : Mem) (h : nlmsgHdrlen + payload.length < 4294967296) :
    (NetMsg.build type flags seq payload behind h).type = type := by
  have hread := rd16_append_right (le32 (nlmsgHdrlen + payload.length))
    (le16 type ++ (le16 flags ++ (le32 seq.toNat ++ (le32 0 ++ payload)))) 0
  rw [rd16_le16, Nat.mod_eq_of_lt htype] at hread
  exact hread

/-- `NLMSG_DONE` as the kernel ends a dump. -/
def NetMsg.done (seq : UInt32) : NetMsg :=
  .build nlmsgDone nlmFMulti seq (le32 0) [] (by decide)

theorem NetMsg.done_seq (seq : UInt32) : (NetMsg.done seq).seq = seq := build_seq ..

/-- `NLMSG_ERROR` with the error `n`, given as its 32-bit pattern. -/
def NetMsg.error (seq : UInt32) (n : Nat) : NetMsg :=
  .build nlmsgError 0 seq (le32 n ++ List.replicate 16 0) [] (by simp [nlmsgHdrlen])

/-- The octets of a datagram that holds the messages `ms`. -/
def packOctets (ms : List NetMsg) : Mem := ms.flatMap fun m => pad4 m.octets

/-- What lies behind the copy of the message at offset `o`. -/
def behindAt : List NetMsg → Nat → Option Mem
  | [], _ => none
  | m :: ms, o => if o = 0 then some m.behind else behindAt ms (o - m.span)

/-- Messages that are sent in one datagram. -/
structure Parcel where
  msgs : List NetMsg
  size : (packOctets msgs).length < 2147483648

/-- The datagram of a parcel. -/
def Parcel.datagram (p : Parcel) : Datagram := ⟨packOctets p.msgs, behindAt p.msgs, p.size⟩

theorem packOctets_cons (m : NetMsg) (ms : List NetMsg) :
    packOctets (m :: ms) = pad4 m.octets ++ packOctets ms := rfl

theorem packOctets_append (as bs : List NetMsg) :
    packOctets (as ++ bs) = packOctets as ++ packOctets bs := by
  simp [packOctets]

theorem packOctets_cons_length (m : NetMsg) (ms : List NetMsg) :
    (packOctets (m :: ms)).length = m.span + (packOctets ms).length := by
  rw [packOctets_cons, List.length_append, pad4_length, NetMsg.span]

theorem packOctets_length_pos {ms : List NetMsg} (h : ms ≠ []) : 0 < (packOctets ms).length := by
  cases ms with
  | nil => exact absurd rfl h
  | cons m ms =>
      have := m.span_pos
      rw [packOctets_cons_length]
      omega

theorem behindAt_append (as : List NetMsg) (m : NetMsg) (ms : List NetMsg) :
    behindAt (as ++ m :: ms) (packOctets as).length = some m.behind := by
  induction as with
  | nil => simp [behindAt, packOctets]
  | cons a as ih =>
      have := a.span_pos
      rw [packOctets_cons_length, List.cons_append, behindAt, if_neg (by omega),
        Nat.add_sub_cancel_left, ih]

/-- Inside a datagram a message is found octet by octet. -/
theorem rd8_packOctets (as : List NetMsg) (m : NetMsg) (ms : List NetMsg) {k : Nat}
    (hk : k < m.octets.length) :
    rd8 (packOctets (as ++ m :: ms)) ((packOctets as).length + k) = rd8 m.octets k := by
  rw [packOctets_append, packOctets_cons, rd8_append_right, pad4, List.append_assoc,
    rd8_append_left hk]

/-! ## The walk over a parcel -/

variable {σ : Type}

/-- The body of the loop, for a message of its own. -/
def msgStep (cb : NlCb σ) (m : NetMsg) (st : WalkState σ) : Jump × WalkState σ :=
  recvMsg cb m.octets 0 m.image st

/-- The walk over a list of messages. -/
def walkMsgs (cb : NlCb σ) : List NetMsg → WalkState σ → Jump × WalkState σ
  | [], st => (.next, st)
  | m :: ms, st =>
      match msgStep cb m st with
      | (.next, st) => walkMsgs cb ms st
      | stopped => stopped

/-- A message is the same wherever it lies. -/
theorem recvMsg_congr {buf buf' : Mem} {hdr hdr' : Nat}
    (h16 : nlmsgHdrlen ≤ nlmsgLenField buf hdr)
    (h : ∀ k, k < nlmsgLenField buf hdr → rd8 buf (hdr + k) = rd8 buf' (hdr' + k))
    (cb : NlCb σ) (msg : Mem) (st : WalkState σ) :
    recvMsg cb buf hdr msg st = recvMsg cb buf' hdr' msg st := by
  have word (o : Nat) (ho : o + 4 ≤ nlmsgLenField buf hdr) :
      rd32 buf (hdr + o) = rd32 buf' (hdr' + o) :=
    rd32_congr (octets_congr fun k hk => by
      rw [Nat.add_assoc, h (o + k) (by omega), Nat.add_assoc])
  have half (o : Nat) (ho : o + 2 ≤ nlmsgLenField buf hdr) :
      rd16 buf (hdr + o) = rd16 buf' (hdr' + o) := by
    simp only [rd16, Nat.add_assoc, h o (by omega), h (o + 1) (by omega)]
  simp only [nlmsgHdrlen] at h16
  have hlen : nlmsgLenField buf' hdr' = nlmsgLenField buf hdr := (word 0 (by omega)).symm
  have htype : nlmsgType buf' hdr' = nlmsgType buf hdr := (half 4 (by omega)).symm
  have hflags : nlmsgFlags buf' hdr' = nlmsgFlags buf hdr := (half 6 (by omega)).symm
  have hseq : nlmsgSeq buf' hdr' = nlmsgSeq buf hdr := by
    rw [nlmsgSeq, nlmsgSeq, word 8 (by omega)]
  have herror : ∀ st, recvError cb buf' hdr' msg st = recvError cb buf hdr msg st := by
    intro st
    by_cases h36 : nlmsgLenField buf hdr < nlmsgHdrlen + nlmsgerrSize
    · simp only [recvError, hlen, if_pos h36]
    · have : nlmsgerrError buf' hdr' = nlmsgerrError buf hdr := by
        simp only [nlmsgHdrlen, nlmsgerrSize] at h36
        rw [nlmsgerrError, nlmsgerrError, nlmsgData, nlmsgData, nlmsgHdrlen, word 16 (by omega)]
      simp only [recvError, hlen, this]
  have hdispatch : recvDispatch cb buf' hdr' msg = recvDispatch cb buf hdr msg := by
    funext st
    simp only [recvDispatch, htype, hflags, herror]
  simp only [recvMsg, hdispatch, hseq]

namespace Parcel

variable {p : Parcel} {as ms : List NetMsg} {m : NetMsg}

/-- The octets of a message of the parcel, where it lies. -/
theorem rd8_msg (hp : p.msgs = as ++ m :: ms) {k : Nat} (hk : k < m.octets.length) :
    rd8 p.datagram.octets ((packOctets as).length + k) = rd8 m.octets k := by
  rw [show p.datagram.octets = packOctets (as ++ m :: ms) from congrArg packOctets hp,
    rd8_packOctets as m ms hk]

theorem lenField_msg (hp : p.msgs = as ++ m :: ms) :
    nlmsgLenField p.datagram.octets (packOctets as).length = m.octets.length := by
  have h16 := m.hdr
  simp only [nlmsgHdrlen] at h16
  rw [← m.len, nlmsgLenField, nlmsgLenField]
  apply rd32_congr
  exact octets_congr fun k hk => by rw [rd8_msg hp (by omega), Nat.zero_add]

/-- The walk accepts the message. -/
theorem ok_msg (hp : p.msgs = as ++ m :: ms) :
    nlmsgOk p.datagram.octets (packOctets as).length (packOctets (m :: ms)).length = true := by
  have hsize := p.size
  rw [hp, packOctets_append, List.length_append, packOctets_cons_length] at hsize
  have hspan : m.octets.length ≤ m.span := le_align4 _
  have h16 := m.hdr
  simp only [nlmsgHdrlen] at h16
  rw [packOctets_cons_length]
  simp only [nlmsgOk, lenField_msg hp, nlmsgHdrlen, sizeT, Bool.and_eq_true, decide_eq_true_eq,
    ge_iff_le]
  omega

/-- The copy handed to the callbacks is the message with what lies behind it. -/
theorem convert_msg (hp : p.msgs = as ++ m :: ms) :
    nlmsgConvert p.datagram (packOctets as).length = some m.image := by
  have hcopy : octets p.datagram.octets (packOctets as).length m.octets.length = m.octets := by
    refine Eq.trans ?_ (octets_self_append m.octets [])
    rw [List.append_nil]
    exact octets_congr fun k hk => by rw [rd8_msg hp hk, Nat.zero_add]
  have hbehind : p.datagram.behind (packOctets as).length = some m.behind :=
    (congrArg (behindAt · (packOctets as).length) hp).trans (behindAt_append as m ms)
  rw [nlmsgConvert, hbehind, lenField_msg hp, hcopy]
  rfl

/-- The walk goes on at the next message with what is left. -/
theorem next_msg (hp : p.msgs = as ++ m :: ms) :
    nlmsgNext p.datagram.octets (packOctets as).length (packOctets (m :: ms)).length =
      ((packOctets (as ++ [m])).length, ((packOctets ms).length : Int)) := by
  have hspan : m.octets.length ≤ m.span := le_align4 _
  rw [nlmsgNext, lenField_msg hp, Prod.mk.injEq]
  constructor
  · rw [packOctets_append, List.length_append]
    simp [packOctets]
  · rw [packOctets_cons_length, NetMsg.span]
    omega

/-- What the walk does there is what the message does by itself. -/
theorem recvMsg_msg {σ : Type} (cb : NlCb σ) (hp : p.msgs = as ++ m :: ms) (st : WalkState σ) :
    recvMsg cb p.datagram.octets (packOctets as).length m.image st = msgStep cb m st := by
  apply recvMsg_congr
  · rw [lenField_msg hp]
    exact m.hdr
  · intro k hk
    rw [lenField_msg hp] at hk
    rw [rd8_msg hp hk, Nat.zero_add]

end Parcel

/-- In a datagram of whole messages the walk is the walk over the messages. -/
theorem recvWalk_parcel (cb : NlCb σ) (p : Parcel) :
    ∀ (as ms : List NetMsg), p.msgs = as ++ ms → ∀ st : WalkState σ,
      recvWalk cb p.datagram (packOctets as).length (packOctets ms).length st =
        walkMsgs cb ms st := by
  intro as ms
  -- `as` is what the walk has behind it, `ms` what it has ahead
  induction ms generalizing as with
  | nil =>
      intro _ st
      rw [recvWalk, dif_neg (by simp [nlmsgOk, packOctets, sizeT, nlmsgHdrlen]), walkMsgs]
  | cons m ms ih =>
      intro hp st
      rw [recvWalk, dif_pos (Parcel.ok_msg hp), Parcel.convert_msg hp, walkMsgs]
      simp only [Parcel.recvMsg_msg cb hp]
      cases msgStep cb m st with
      | mk jump w =>
          cases jump with
          | next =>
              simp only [Parcel.next_msg hp]
              exact ih (as ++ [m]) (by simp [hp]) w
          | stop => rfl
          | out err => rfl

/-! ## What the messages of an answer do -/

/-- A callback set that leaves the sequence check to the library: data goes to `valid`, which
neither stops nor fails, the end of a dump to `finish`.  It may hear of an acknowledgement and of
errors as well. -/
structure DataCb (cb : NlCb σ) (valid : Mem → σ → Int × σ) (finish : σ → σ) : Prop where
  goes : ∀ msg u, (valid msg u).1 = nlOk ∨ (valid msg u).1 = nlSkip
  valid : cb.cbSet .valid = some valid
  finish : cb.cbSet .finish = some fun _ u => (nlSkip, finish u)
  unset : ∀ t, t ≠ .valid → t ≠ .finish → t ≠ .ack → cb.cbSet t = none

/-- A callback set as this program sets them up: `valid` for data messages and `finish` for the end
of a dump, both returning `NL_SKIP`, and nothing else. -/
structure DumpCb (cb : NlCb σ) (valid : Mem → σ → σ) (finish : σ → σ) : Prop
    extends DataCb cb (fun msg u => (nlSkip, valid msg u)) finish where
  ack : cb.cbSet .ack = none
  err : cb.cbErr = none

namespace NetMsg

/-- A message that belongs to no control type. -/
def IsData (m : NetMsg) : Prop :=
  m.type ≠ nlmsgDone ∧ m.type ≠ nlmsgError ∧ m.type ≠ nlmsgNoop ∧ m.type ≠ nlmsgOverrun

instance (m : NetMsg) : Decidable m.IsData := inferInstanceAs (Decidable (_ ∧ _))

/-- `NLMSG_DONE`. -/
def IsDone (m : NetMsg) : Prop := m.type = nlmsgDone

instance (m : NetMsg) : Decidable m.IsDone := inferInstanceAs (Decidable (_ = _))

/-- `NLMSG_ERROR` with a whole `struct nlmsgerr` that carries an error. -/
def IsError (m : NetMsg) : Prop :=
  m.type = nlmsgError ∧ nlmsgHdrlen + nlmsgerrSize ≤ m.octets.length ∧ nlmsgerrError m.octets 0 ≠ 0

instance (m : NetMsg) : Decidable m.IsError := inferInstanceAs (Decidable (_ ∧ _))

end NetMsg

/-- What the data messages do, handed over one by one. -/
def handOver (valid : Mem → σ → Int × σ) (ms : List NetMsg) (u : σ) : σ :=
  ms.foldl (fun u m => (valid m.image u).2) u

theorem handOver_append (valid : Mem → σ → Int × σ) (ms ms' : List NetMsg) (u : σ) :
    handOver valid (ms ++ ms') u = handOver valid ms' (handOver valid ms u) := List.foldl_append

section Step

variable {cb : NlCb σ} {valid : Mem → σ → Int × σ} {finish : σ → σ} {m : NetMsg} {st : WalkState σ}

theorem msgStep_eq (hcb : DataCb cb valid finish) :
    msgStep cb m st =
      if m.seq ≠ st.sk.seqExpect then (.out (-nleSeqMismatch), st)
      else recvDispatch cb m.octets 0 m.image st := by
  have hnone (t : NlCbType) (h : t = .msgIn ∨ t = .seqCheck ∨ t = .invalid) :
      cb.cbSet t = none := by
    rcases h with rfl | rfl | rfl <;> exact hcb.unset _ (by decide) (by decide) (by decide)
  simp only [msgStep, recvMsg, nlCbCallIfSet, hnone .msgIn (.inl rfl),
    hnone .seqCheck (.inr (.inl rfl)), hnone .invalid (.inr (.inr rfl))]
  rfl

/-- A message with another sequence number breaks the walk off and changes nothing. -/
theorem msgStep_foreign (hcb : DataCb cb valid finish) (hseq : m.seq ≠ st.sk.seqExpect) :
    msgStep cb m st = (.out (-nleSeqMismatch), st) := by
  rw [msgStep_eq hcb, if_pos hseq]

/-- Behind the sequence check; nobody is asked for an acknowledgement. -/
theorem msgStep_own (hcb : DataCb cb valid finish) (hseq : m.seq = st.sk.seqExpect) :
    msgStep cb m st = recvDispatch cb m.octets 0 m.image st ∧ cb.cbSet .sendAck = none :=
  ⟨by rw [msgStep_eq hcb, if_neg (not_not_intro hseq)],
    hcb.unset .sendAck (by decide) (by decide) (by decide)⟩

/-- A data message goes to the `NL_CB_VALID` callback. -/
theorem msgStep_data (hcb : DataCb cb valid finish) (hseq : m.seq = st.sk.seqExpect)
    (hm : m.IsData) :
    msgStep cb m st =
      (.next, { st with
        multipart := st.multipart || m.multi
        user := (valid m.image st.user).2 }) := by
  obtain ⟨h3, h2, h1, h4⟩ := hm
  simp only [NetMsg.type] at h1 h2 h3 h4
  obtain ⟨hstep, hsend⟩ := msgStep_own hcb hseq
  have hcall (st : WalkState σ) (k : WalkState σ → Jump × WalkState σ) (hk : ∀ st,
      k st = (.next, st)) :
      nlCbCall valid m.image st k = (.next, { st with user := (valid m.image st.user).2 }) := by
    unfold nlCbCall
    rcases hcb.goes m.image st.user with h | h
    · simp only [h, if_true, hk]
    · simp only [h, nlSkip, nlOk, one_ne_zero, if_true, if_false]
  rw [hstep]
  by_cases hmulti : nlmsgFlags m.octets 0 &&& nlmFMulti = 0 <;>
    simp [NetMsg.multi, NetMsg.flags, recvDispatch, nlCbCallIfSet, hcb.valid, hsend,
      hcall, h1, h2, h3,
      h4, hmulti]

/-- `NLMSG_DONE` advances the counter, closes the multipart message and goes to the `NL_CB_FINISH`
callback. -/
theorem msgStep_done (hcb : DataCb cb valid finish) (hseq : m.seq = st.sk.seqExpect)
    (hm : m.IsDone) :
    msgStep cb m st =
      (.next, ⟨{ st.sk with seqExpect := st.sk.seqExpect + 1 }, false, finish st.user⟩) := by
  obtain ⟨hstep, hsend⟩ := msgStep_own hcb hseq
  have htype : nlmsgType m.octets 0 = nlmsgDone := hm
  rw [hstep]
  by_cases hmulti : nlmsgFlags m.octets 0 &&& nlmFMulti = 0 <;>
    simp [recvDispatch, nlCbCallIfSet, nlCbCall, hcb.finish, hsend, htype, hmulti, nlSkip, nlOk]

/-- `NLMSG_ERROR` advances the counter; what becomes of the walk is up to the branch for errors. -/
theorem msgStep_nlmsgerr (hcb : DataCb cb valid finish) (hseq : m.seq = st.sk.seqExpect)
    (hm : m.type = nlmsgError) :
    msgStep cb m st = recvError cb m.octets 0 m.image
      ⟨{ st.sk with seqExpect := st.sk.seqExpect + 1 }, st.multipart || m.multi, st.user⟩ := by
  obtain ⟨hstep, hsend⟩ := msgStep_own hcb hseq
  have htype : nlmsgType m.octets 0 = nlmsgError := hm
  rw [hstep]
  by_cases hmulti : nlmsgFlags m.octets 0 &&& nlmFMulti = 0 <;>
    simp [NetMsg.multi, NetMsg.flags, recvDispatch, htype, hmulti, nlCbCallIfSet, hsend, nlmsgDone,
      nlmsgNoop, nlmsgOverrun, nlmsgError]

/-- The data messages of a datagram are handed over one by one, in order. -/
theorem walkMsgs_data (hcb : DataCb cb valid finish) (ms rest : List NetMsg)
    (h : ∀ m ∈ ms, m.seq = st.sk.seqExpect ∧ m.IsData) :
    walkMsgs cb (ms ++ rest) st =
      walkMsgs cb rest
        { st with
          multipart := st.multipart || ms.any NetMsg.multi
          user := handOver valid ms st.user } := by
  induction ms generalizing st with
  | nil => simp [handOver]
  | cons m ms ih =>
      obtain ⟨⟨hseq, hm⟩, hms⟩ := List.forall_mem_cons.mp h
      have hrest := @ih { st with
        multipart := st.multipart || m.multi
        user := (valid m.image st.user).2 } hms
      rw [List.cons_append, walkMsgs, msgStep_data hcb hseq hm]
      simp only [hrest]
      simp [handOver, Bool.or_assoc]

end Step

/-- Where nobody hears of errors, one advances the counter and breaks the walk off. -/
theorem msgStep_error {cb : NlCb σ} {valid : Mem → σ → σ} {finish : σ → σ} {m : NetMsg}
    (st : WalkState σ) (hcb : DumpCb cb valid finish) (hseq : m.seq = st.sk.seqExpect)
    (hm : m.IsError) :
    ∃ err multipart, msgStep cb m st =
      (.out err, ⟨{ st.sk with seqExpect := st.sk.seqExpect + 1 }, multipart, st.user⟩) := by
  obtain ⟨htype, hlen, herr⟩ := hm
  have h36 : ¬ nlmsgLenField m.octets 0 < nlmsgHdrlen + nlmsgerrSize := by
    rw [m.len]
    omega
  refine ⟨-nlSyserr2nlerr (nlmsgerrError m.octets 0), st.multipart || m.multi, ?_⟩
  rw [msgStep_nlmsgerr hcb.toDataCb hseq htype]
  simp only [recvError, if_neg h36, if_pos herr, hcb.err]

end Nl80211.Libnl
