/-
# Nl80211.Libnl.Dump — reading the answer to a request.

An answer is a stream of datagrams: data messages that carry the number of the request, in any
packing, and at last a terminator; datagrams of other requests may come in between.  The theorems
say what the loop `while (flag > 0) nl_recvmsgs(..)` makes of it: with `NLMSG_DONE` it hands over
the data messages it received, in order, and leaves the queue behind the terminator
(`recvWhile_done`); with an error, or when the terminator's datagram did not fit its buffer, it
reads on and never returns (`recvWhile_stuck`).

How a single call of `recvmsgs` cuts the stream up does not matter: whether it goes on to the next
datagram itself or is called again, the next datagram is read in the same state (`readOn`).
-/
import Nl80211.Libnl.Packet

namespace Nl80211.Libnl

open Lib Lib.Bytes

/-! ## Answers -/

namespace Parcel

/-- The size of the datagram. -/
def length (p : Parcel) : Nat := (packOctets p.msgs).length

/-- Only data messages of the request `seq`. -/
def Own (p : Parcel) (seq : UInt32) : Prop := ∀ m ∈ p.msgs, m.seq = seq ∧ m.IsData

/-- Only messages of other requests. -/
def Foreign (p : Parcel) (seq : UInt32) : Prop := ∀ m ∈ p.msgs, m.seq ≠ seq

instance (p : Parcel) (seq : UInt32) : Decidable (p.Own seq) :=
  inferInstanceAs (Decidable (∀ m ∈ p.msgs, _))

instance (p : Parcel) (seq : UInt32) : Decidable (p.Foreign seq) :=
  inferInstanceAs (Decidable (∀ m ∈ p.msgs, _))

/-- The data messages of the request `seq` in a datagram. -/
def ownMsgs (p : Parcel) (seq : UInt32) : List NetMsg :=
  p.msgs.filter fun m => m.seq = seq ∧ m.IsData

theorem ownMsgs_of_own {p : Parcel} {seq : UInt32} (h : p.Own seq) : p.ownMsgs seq = p.msgs :=
  List.filter_eq_self.mpr fun m hm => by simpa using h m hm

theorem ownMsgs_of_foreign {p : Parcel} {seq : UInt32} (h : p.Foreign seq) :
    p.ownMsgs seq = [] :=
  List.filter_eq_nil_iff.mpr fun m hm => by simp [h m hm]

end Parcel

/-- The answer to the request `seq`. -/
structure Answer (seq : UInt32) where
  /-- the datagrams before the last -/
  before : List Parcel
  last : Parcel
  /-- the data messages in the last datagram -/
  tail : List NetMsg
  terminator : NetMsg
  before_ok : ∀ p ∈ before, p.Own seq ∨ p.Foreign seq
  last_msgs : last.msgs = tail ++ [terminator]
  tail_own : ∀ m ∈ tail, m.seq = seq ∧ m.IsData
  seq_ok : terminator.seq = seq

/-- An answer in a single datagram. -/
def Answer.single {seq : UInt32} (ms : List NetMsg) (t : NetMsg)
    (size : (packOctets (ms ++ [t])).length < 2147483648)
    (own : ∀ m ∈ ms, m.seq = seq ∧ m.IsData) (seq_ok : t.seq = seq) : Answer seq where
  before := []
  last := ⟨ms ++ [t], size⟩
  tail := ms
  terminator := t
  before_ok := by simp
  last_msgs := rfl
  tail_own := own
  seq_ok := seq_ok

/-- A dump in a single datagram. -/
def Answer.dump {seq : UInt32} (ms : List NetMsg)
    (size : (packOctets (ms ++ [.done seq])).length < 2147483648)
    (own : ∀ m ∈ ms, m.seq = seq ∧ m.IsData) : Answer seq :=
  .single ms (.done seq) size own (NetMsg.done_seq seq)

theorem packOctets_done_length (seq : UInt32) :
    (packOctets ([] ++ [.done seq])).length < 2147483648 := by
  simp [NetMsg.done, NetMsg.build, buildOctets_length, packOctets,
    nlmsgHdrlen, align4]

/-- A dump without messages. -/
def Answer.empty (seq : UInt32) : Answer seq :=
  .dump [] (packOctets_done_length seq) fun _ h => absurd h List.not_mem_nil

/-- The datagrams of a list of parcels, as the socket delivers them. -/
def incoming (ps : List Parcel) : List Incoming := ps.map fun p => .datagram p.datagram

theorem incoming_append (ps qs : List Parcel) :
    incoming (ps ++ qs) = incoming ps ++ incoming qs := List.map_append

/-- The data messages of the request in the datagrams that are read whole; `iovLen` is the buffer
for the next one. -/
def received (page : Nat) (seq : UInt32) : Nat → List Parcel → List NetMsg
  | _, [] => []
  | iovLen, p :: ps =>
      if p.length = 0 then received page seq page ps
      else if iovLen < p.length then received page seq (iovLen * 2) ps
      else p.ownMsgs seq ++ received page seq page ps

/-- The buffer that is ready when the datagrams `ps` have been read. -/
def iovLenAfter (page : Nat) : Nat → List Parcel → Nat
  | iovLen, [] => iovLen
  | iovLen, p :: ps =>
      if p.length ≠ 0 ∧ iovLen < p.length then iovLenAfter page (iovLen * 2) ps
      else iovLenAfter page page ps

namespace Answer

variable {seq : UInt32}

/-- All datagrams of the answer. -/
def parcels (a : Answer seq) : List Parcel := a.before ++ [a.last]

/-- The data messages the answer is made of. -/
def messages (a : Answer seq) : List NetMsg := a.before.flatMap (·.ownMsgs seq) ++ a.tail

/-- The data messages that the loop gets to see. -/
def delivered (a : Answer seq) (page : Nat) : List NetMsg :=
  received page seq page a.before ++ a.tail

/-- The datagram with the terminator fits the buffer it is read into. -/
def Fits (a : Answer seq) (page : Nat) : Prop := a.last.length ≤ iovLenAfter page page a.before

instance (a : Answer seq) (page : Nat) : Decidable (a.Fits page) :=
  inferInstanceAs (Decidable (_ ≤ _))

/-- When every datagram of the request fits the first buffer, all its messages are delivered. -/
theorem received_of_fit {page : Nat} :
    ∀ (ps : List Parcel), (∀ p ∈ ps, p.Own seq ∨ p.Foreign seq) →
      (∀ p ∈ ps, p.Own seq → p.length ≤ page) → ∀ {iovLen}, page ≤ iovLen →
      received page seq iovLen ps = ps.flatMap (·.ownMsgs seq)
  | [], _, _, _, _ => rfl
  | p :: ps, hps, hfit, iovLen, hlen => by
      obtain ⟨hp, hps⟩ := List.forall_mem_cons.mp hps
      obtain ⟨hfp, hfit⟩ := List.forall_mem_cons.mp hfit
      have ih {n : Nat} (hn : page ≤ n) := received_of_fit ps hps hfit hn
      rw [received, List.flatMap_cons]
      split_ifs with h0 hbig
      · have hnil : p.msgs = [] := by
          by_contra hne
          exact absurd h0 (Nat.ne_of_gt (packOctets_length_pos hne))
        rw [ih (Nat.le_refl page), Parcel.ownMsgs, hnil, List.filter_nil, List.nil_append]
      · have hforeign : p.Foreign seq := by
          apply hp.resolve_left
          intro hown
          have := hfp hown
          omega
        rw [ih (by omega), Parcel.ownMsgs_of_foreign hforeign, List.nil_append]
      · rw [ih (Nat.le_refl page)]

theorem iovLenAfter_ge {page : Nat} :
    ∀ (ps : List Parcel) {iovLen : Nat}, page ≤ iovLen → page ≤ iovLenAfter page iovLen ps
  | [], _, h => h
  | p :: ps, iovLen, h => by
      rw [iovLenAfter]
      split_ifs
      · exact iovLenAfter_ge ps (by omega)
      · exact iovLenAfter_ge ps (Nat.le_refl page)

end Answer

/-! ## The next read -/

variable {σ : Type}

section Read

variable (cb : NlCb σ) (page : Nat) (flag : σ → Int)

/-- The loop goes on after a call of `recvmsgs`. -/
def resume (r : Option (Int × RecvState σ)) : Option (RecvState σ) :=
  r.bind fun r => recvWhile cb page flag r.2

/-- The rest of the loop when the next `nl_recv` has a buffer of `iovLen` octets. -/
def readOn (iovLen : Nat) (multipart : Bool) (st : RecvState σ) : Option (RecvState σ) :=
  match nlRecv iovLen st.queue with
  | none => none
  | some (.empty, queue) => recvWhile cb page flag { st with queue := queue }
  | some (.error _, queue) => recvWhile cb page flag { st with queue := queue }
  | some (.data d, queue) =>
      let walked := recvWalk cb d 0 d.octets.length ⟨st.sk, multipart, st.user⟩
      let st : RecvState σ := ⟨walked.2.sk, queue, walked.2.user⟩
      match walked.1 with
      | .next => if walked.2.multipart then resume cb page flag (recvmsgsFrom cb page true st)
          else recvWhile cb page flag st
      | _ => recvWhile cb page flag st

end Read

variable {cb : NlCb σ} {page : Nat} {flag : σ → Int}

theorem recvWhile_of_pos {st : RecvState σ} (h : 0 < flag st.user) :
    recvWhile cb page flag st = resume cb page flag (nlRecvmsgs cb page st) := by
  rw [recvWhile, if_pos h, resume]
  split
  · next hn => rw [hn, Option.bind_none]
  · next hs => rw [hs, Option.bind_some]

theorem recvWhile_of_le {st : RecvState σ} (h : flag st.user ≤ 0) :
    recvWhile cb page flag st = some st := by
  rw [recvWhile, if_neg (by omega)]

theorem resume_recvmsgsFrom (multipart : Bool) (st : RecvState σ) :
    resume cb page flag (recvmsgsFrom cb page multipart st) =
      readOn cb page flag page multipart st := by
  rw [readOn]
  cases hq : nlRecv page st.queue with
  | none => rw [recvmsgsFrom_of_none hq, resume, Option.bind_none]
  | some r =>
      obtain ⟨r, queue⟩ := r
      cases r with
      | empty => rw [recvmsgsFrom_of_empty hq, resume, Option.bind_some]
      | error nle => rw [recvmsgsFrom_of_error hq, resume, Option.bind_some]
      | data d =>
          obtain ⟨⟨jump, w⟩, hw⟩ :
              ∃ r, recvWalk cb d 0 d.octets.length ⟨st.sk, multipart, st.user⟩ = r := ⟨_, rfl⟩
          cases jump with
          | stop => simp only [recvmsgsFrom_of_stop hq hw, hw, resume, Option.bind_some]
          | out err => simp only [recvmsgsFrom_of_out hq hw, hw, resume, Option.bind_some]
          | next =>
              rw [recvmsgsFrom_of_next hq hw]
              simp only [hw]
              split <;> rfl

theorem recvWhile_eq_readOn {st : RecvState σ} (h : 0 < flag st.user) :
    recvWhile cb page flag st = readOn cb page flag page false st := by
  rw [recvWhile_of_pos h, nlRecvmsgs, resume_recvmsgsFrom]

/-- With nothing left to arrive the loop blocks. -/
theorem readOn_nil {iovLen : Nat} {multipart : Bool} {st : RecvState σ} (h : st.queue = []) :
    readOn cb page flag iovLen multipart st = none := by
  rw [readOn, h, nlRecv]

section Parcels

variable {p : Parcel} {q : List Incoming} {iovLen : Nat} {multipart : Bool} {sk : NlSock} {u : σ}

/-- A datagram that does not fit is lost. -/
theorem readOn_truncated (h0 : p.length ≠ 0) (h : iovLen < p.length) :
    readOn cb page flag iovLen multipart ⟨sk, .datagram p.datagram :: q, u⟩ =
      readOn cb page flag (iovLen * 2) multipart ⟨sk, q, u⟩ := by
  have hrecv : nlRecv iovLen (.datagram p.datagram :: q) = nlRecv (iovLen * 2) q := by
    rw [nlRecv]
    exact (if_neg h0).trans (if_pos h)
  simp only [readOn, hrecv]

/-- An empty datagram changes nothing. -/
theorem readOn_empty (h0 : p.length = 0) (hflag : 0 < flag u) :
    readOn cb page flag iovLen multipart ⟨sk, .datagram p.datagram :: q, u⟩ =
      readOn cb page flag page false ⟨sk, q, u⟩ := by
  have hrecv : nlRecv iovLen (.datagram p.datagram :: q) = some (.empty, q) := by
    rw [nlRecv]
    exact if_pos h0
  simp only [readOn, hrecv]
  exact recvWhile_eq_readOn hflag

/-- A datagram that fits is walked message by message. -/
theorem readOn_fits (h0 : p.length ≠ 0) (h : p.length ≤ iovLen) {w : WalkState σ} {jump : Jump}
    (hw : walkMsgs cb p.msgs ⟨sk, multipart, u⟩ = (jump, w)) :
    readOn cb page flag iovLen multipart ⟨sk, .datagram p.datagram :: q, u⟩ =
      if jump = .next ∧ w.multipart = true then readOn cb page flag page true ⟨w.sk, q, w.user⟩
      else recvWhile cb page flag ⟨w.sk, q, w.user⟩ := by
  have hrecv : nlRecv iovLen (.datagram p.datagram :: q) = some (.data p.datagram, q) := by
    rw [nlRecv]
    exact (if_neg h0).trans (if_neg (Nat.not_lt.mpr h))
  have hwalk : recvWalk cb p.datagram 0 p.datagram.octets.length ⟨sk, multipart, u⟩ = (jump, w) :=
    (recvWalk_parcel cb p [] p.msgs rfl ⟨sk, multipart, u⟩).trans hw
  rw [readOn, hrecv]
  simp only [hwalk]
  cases jump with
  | next => simp only [true_and, resume_recvmsgsFrom]
  | stop => simp
  | out err => simp

end Parcels

/-! ## The loop over an answer -/

section Loop

variable {seq : UInt32}

section Before

variable {valid : Mem → σ → Int × σ} {finish : σ → σ}

/-- Data messages leave the flag of the loop as it is. -/
theorem flag_handOver (hvalid : ∀ m u, flag (valid m u).2 = flag u) (ms : List NetMsg) (u : σ) :
    flag (handOver valid ms u) = flag u := by
  induction ms generalizing u with
  | nil => rfl
  | cons m ms ih => exact (ih _).trans (hvalid _ _)

/-- What the datagrams before the last leave behind, from any point of a read on. -/
theorem readOn_before (hcb : DataCb cb valid finish)
    (hvalid : ∀ m u, flag (valid m u).2 = flag u) (rest : List Incoming) (ps : List Parcel)
    (hps : ∀ p ∈ ps, p.Own seq ∨ p.Foreign seq) (iovLen : Nat) (multipart : Bool)
      {sk : NlSock} {u : σ}
    (hseq : sk.seqExpect = seq) (hflag : 0 < flag u) :
    ∃ multipart',
      readOn cb page flag iovLen multipart ⟨sk, incoming ps ++ rest, u⟩ =
        readOn cb page flag (iovLenAfter page iovLen ps) multipart'
          ⟨sk, rest, handOver valid (received page seq iovLen ps) u⟩ := by
  induction ps generalizing iovLen multipart u with
  | nil => exact ⟨multipart, rfl⟩
  | cons p ps ih =>
      obtain ⟨hp, hps⟩ := List.forall_mem_cons.mp hps
      rw [show incoming (p :: ps) ++ rest = .datagram p.datagram :: (incoming ps ++ rest) from rfl,
        iovLenAfter, received]
      -- an empty datagram ends the read, a long one is lost and doubles the buffer
      by_cases h0 : p.length = 0
      · rw [if_neg (by simp [h0]), if_pos h0, readOn_empty h0 hflag]
        exact ih hps page false hflag
      by_cases hbig : iovLen < p.length
      · rw [if_pos ⟨h0, hbig⟩, if_neg h0, if_pos hbig, readOn_truncated h0 hbig]
        exact ih hps (iovLen * 2) multipart hflag
      rw [if_neg (fun h => hbig h.2), if_neg h0, if_neg hbig, handOver_append]
      rcases hp with hown | hforeign
      · have hwalk := @walkMsgs_data _ _ _ _ ⟨sk, multipart, u⟩ hcb p.msgs []
          (by subst hseq; exact hown)
        rw [List.append_nil, walkMsgs] at hwalk
        rw [readOn_fits h0 (Nat.not_lt.mp hbig) hwalk, Parcel.ownMsgs_of_own hown]
        have hflag' : 0 < flag (handOver valid p.msgs u) := by rwa [flag_handOver hvalid]
        simp only [true_and]
        split_ifs
        -- an open multipart message keeps the call reading, otherwise the loop calls again
        · exact ih hps page true hflag'
        · rw [recvWhile_eq_readOn hflag']
          exact ih hps page false hflag'
      -- its first message already breaks the walk off
      · have hne : p.msgs ≠ [] := fun hnil => h0 (by simp [Parcel.length, hnil, packOctets])
        obtain ⟨m, ms, hmsgs⟩ := List.exists_cons_of_ne_nil hne
        have hm : m.seq ≠ sk.seqExpect := by
          rw [hseq]
          exact hforeign m (by simp [hmsgs])
        have hwalk : walkMsgs cb p.msgs ⟨sk, multipart, u⟩ =
            (.out (-nleSeqMismatch), ⟨sk, multipart, u⟩) := by
          rw [hmsgs, walkMsgs, msgStep_foreign hcb hm]
        rw [readOn_fits h0 (Nat.not_lt.mp hbig) hwalk, Parcel.ownMsgs_of_foreign hforeign,
          if_neg (by simp), recvWhile_eq_readOn hflag]
        exact ih hps page false hflag

end Before

variable {valid : Mem → σ → σ} {finish : σ → σ}
variable {sk : NlSock} {u : σ}

/-- **The answer ends with `NLMSG_DONE`.** The loop hands over the messages it received, in order,
advances the counter and stops behind the terminator. -/
theorem recvWhile_done (hcb : DumpCb cb valid finish) (hvalid : ∀ m u, flag (valid m u) = flag u)
    (hfinish : ∀ u, flag (finish u) ≤ 0) (a : Answer seq) (hdone : a.terminator.IsDone)
    (hfits : a.Fits page) (rest : List Incoming) (hseq : sk.seqExpect = seq) (hflag : 0 < flag u) :
    recvWhile cb page flag ⟨sk, incoming a.parcels ++ rest, u⟩ =
      some ⟨{ sk with seqExpect := seq + 1 }, rest,
        finish ((a.delivered page).foldl (fun u m => valid m.image u) u)⟩ := by
  obtain ⟨multipart, hbefore⟩ :=
    readOn_before hcb.toDataCb hvalid (incoming [a.last] ++ rest) a.before
    a.before_ok page false hseq hflag
  have hne : a.last.length ≠ 0 := Nat.ne_of_gt (packOctets_length_pos (by simp [a.last_msgs]))
  generalize hu' : handOver _ (received page seq page a.before) u = u' at hbefore
  -- the last datagram: its data messages, then the terminator
  have hwalk : walkMsgs cb a.last.msgs ⟨sk, multipart, u'⟩ =
      (.next, ⟨{ sk with seqExpect := seq + 1 }, false,
        finish (a.tail.foldl (fun u m => valid m.image u) u')⟩) := by
    rw [a.last_msgs, walkMsgs_data hcb.toDataCb _ _ (by subst hseq; exact a.tail_own), walkMsgs,
      msgStep_done hcb.toDataCb (by rw [hseq]; exact a.seq_ok) hdone]
    simp only [walkMsgs, hseq]
    rfl
  rw [recvWhile_eq_readOn hflag, Answer.parcels, incoming_append, List.append_assoc, hbefore]
  show readOn cb page flag _ multipart ⟨sk, .datagram a.last.datagram :: rest, u'⟩ = _
  rw [readOn_fits hne hfits hwalk, if_neg (by simp), recvWhile_of_le (hfinish _),
    Answer.delivered, List.foldl_append, ← hu']
  rfl

/-- **The answer ends with an error, or its end is lost.** The loop reads on and blocks. -/
theorem recvWhile_stuck (hcb : DumpCb cb valid finish) (hvalid : ∀ m u, flag (valid m u) = flag u)
    (a : Answer seq) (hbad : a.terminator.IsError ∨ ¬ a.Fits page) (hseq : sk.seqExpect = seq)
    (hflag : 0 < flag u) :
    recvWhile cb page flag ⟨sk, incoming a.parcels, u⟩ = none := by
  obtain ⟨multipart, hbefore⟩ := readOn_before hcb.toDataCb hvalid (incoming [a.last]) a.before
    a.before_ok page false hseq hflag
  have hne : a.last.length ≠ 0 := Nat.ne_of_gt (packOctets_length_pos (by simp [a.last_msgs]))
  generalize hu' : handOver _ (received page seq page a.before) u = u' at hbefore
  rw [recvWhile_eq_readOn hflag, Answer.parcels, incoming_append, hbefore]
  show readOn cb page flag _ multipart ⟨sk, [.datagram a.last.datagram], u'⟩ = none
  -- the error breaks the walk off without touching the flag; what does not fit never arrives
  by_cases hfits : a.Fits page
  · obtain ⟨err, multipart', hstep⟩ := msgStep_error (m := a.terminator)
      ⟨sk, multipart || a.tail.any NetMsg.multi,
        handOver (fun msg u => (nlSkip, valid msg u)) a.tail u'⟩ hcb
      (by rw [hseq]; exact a.seq_ok) (hbad.resolve_right (not_not_intro hfits))
    have hwalk : walkMsgs cb a.last.msgs ⟨sk, multipart, u'⟩ =
        (.out err, ⟨{ sk with seqExpect := sk.seqExpect + 1 }, multipart',
          handOver (fun msg u => (nlSkip, valid msg u)) a.tail u'⟩) := by
      rw [a.last_msgs, walkMsgs_data hcb.toDataCb _ _ (by subst hseq; exact a.tail_own), walkMsgs]
      simp only [hstep]
    rw [readOn_fits hne hfits hwalk, if_neg (by simp), recvWhile_eq_readOn, readOn_nil rfl]
    have hkeep (ms : List NetMsg) (u : σ) :=
      @flag_handOver σ flag (fun msg u => (nlSkip, valid msg u)) hvalid ms u
    rw [hkeep, ← hu', hkeep]
    exact hflag
  · rw [Answer.Fits, Nat.not_le] at hfits
    rw [readOn_truncated hne hfits, readOn_nil rfl]

end Loop

end Nl80211.Libnl
