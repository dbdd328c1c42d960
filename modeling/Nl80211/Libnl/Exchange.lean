/-
# Nl80211.Libnl.Exchange — a request and the whole of its answer.

The loop `while (err > 0) nl_recvmsgs(sk, cb)` with a callback set that hears of every way an answer
can end: `NLMSG_DONE`, an acknowledgement, an error.  Whatever is left on the socket of earlier
requests is passed over, the data messages of the answer go to the `NL_CB_VALID` callback one by
one, and the loop ends with the terminator, with the counter of the socket behind it
(`recvWhile_ends`).
-/
import Nl80211.Libnl.Dump
import Mathlib

namespace Nl80211.Libnl

open Lib Lib.Bytes

variable {σ : Type}

namespace NetMsg

/-- `NLMSG_DONE`, or an `NLMSG_ERROR` with a whole `struct nlmsgerr`: an error or an
acknowledgement. -/
def Closes (m : NetMsg) : Prop :=
  m.type = nlmsgDone ∨ (m.type = nlmsgError ∧ nlmsgHdrlen + nlmsgerrSize ≤ m.octets.length)

instance (m : NetMsg) : Decidable m.Closes := inferInstanceAs (Decidable (_ ∨ _))

end NetMsg

/-- A callback set that hears of data and of every end of an answer, and of nothing else. -/
structure CmdCb (cb : NlCb σ) (valid : Mem → σ → Int × σ) (finish ack : σ → σ)
    (error : Int → σ → σ) : Prop extends DataCb cb valid finish where
  ack : cb.cbSet .ack = some fun _ u => (nlStop, ack u)
  err : cb.cbErr = some fun msg u => (nlStop, error (nlmsgerrError msg 0) u)

/-- What the terminator of an answer does to the state of the callbacks. -/
def closing (finish ack : σ → σ) (error : Int → σ → σ) (t : NetMsg) (u : σ) : σ :=
  if t.type = nlmsgDone then finish u
  else if nlmsgerrError t.octets 0 = 0 then ack u
  else error (nlmsgerrError t.octets 0) u

/-- The error in a message is the error in the copy of it. -/
theorem nlmsgerrError_image {m : NetMsg} (h : nlmsgHdrlen + nlmsgerrSize ≤ m.octets.length) :
    nlmsgerrError m.image 0 = nlmsgerrError m.octets 0 := by
  simp only [nlmsgHdrlen, nlmsgerrSize] at h
  have hword : rd32 m.image (nlmsgData 0) = rd32 m.octets (nlmsgData 0) := by
    refine rd32_congr (octets_congr fun k hk => ?_)
    rw [NetMsg.image, rd8_append_left (by simp only [nlmsgData, nlmsgHdrlen]; omega)]
  rw [nlmsgerrError, nlmsgerrError, hword]

/-- An error or an acknowledgement breaks the walk off, wherever it stands. -/
theorem msgStep_closing {cb : NlCb σ} {valid : Mem → σ → Int × σ} {finish ack : σ → σ}
    {error : Int → σ → σ} {m : NetMsg} (st : WalkState σ) (hcb : CmdCb cb valid finish ack error)
    (hseq : m.seq = st.sk.seqExpect) (hm : m.type = nlmsgError)
    (hlen : nlmsgHdrlen + nlmsgerrSize ≤ m.octets.length) :
    ∃ jump multipart, jump ≠ .next ∧ msgStep cb m st =
      (jump, ⟨{ st.sk with seqExpect := st.sk.seqExpect + 1 }, multipart,
        closing finish ack error m st.user⟩) := by
  have hlong : ¬ nlmsgLenField m.octets 0 < nlmsgHdrlen + nlmsgerrSize := by
    rw [m.len]
    omega
  have hdone : ¬ m.type = nlmsgDone := by
    rw [hm]
    decide
  rw [msgStep_nlmsgerr hcb.toDataCb hseq hm]
  unfold closing recvError
  by_cases herr : nlmsgerrError m.octets 0 = 0
  · refine ⟨.stop, st.multipart || m.multi, by decide, ?_⟩
    simp only [if_neg hlong, if_neg hdone, herr, ne_eq, not_true_eq_false, if_false, if_true,
      nlCbCallIfSet, hcb.ack, nlCbCall, nlStop, nlOk, nlSkip]
    rfl
  · refine ⟨.out (-nlSyserr2nlerr (nlmsgerrError m.octets 0)), st.multipart || m.multi, by simp, ?_⟩
    simp only [if_neg hlong, if_neg hdone, herr, ne_eq, not_false_eq_true, if_true,
      if_false, hcb.err,
      nlmsgerrError_image hlen, nlStop, nlSkip]
    rfl

/-! ## The loop over an answer -/

section Loop

variable {cb : NlCb σ} {valid : Mem → σ → Int × σ} {finish ack : σ → σ} {error : Int → σ → σ}
  {flag : σ → Int} {seq : UInt32} {page : Nat}

/-- The last datagram: its data messages, then the terminator. -/
theorem walkMsgs_last (hcb : CmdCb cb valid finish ack error) (a : Answer seq)
    (hcloses : a.terminator.Closes) {sk : NlSock} {multipart : Bool} {u : σ}
    (hseq : sk.seqExpect = seq) :
    ∃ jump multipart', ¬ (jump = .next ∧ multipart' = true) ∧
      walkMsgs cb a.last.msgs ⟨sk, multipart, u⟩ =
        (jump, ⟨{ sk with seqExpect := seq + 1 }, multipart',
          closing finish ack error a.terminator (handOver valid a.tail u)⟩) := by
  have hown : ∀ m ∈ a.tail, m.seq = sk.seqExpect ∧ m.IsData := by
    subst hseq
    exact a.tail_own
  have hterm : a.terminator.seq = sk.seqExpect := hseq ▸ a.seq_ok
  rw [a.last_msgs, walkMsgs_data hcb.toDataCb a.tail [a.terminator] hown, walkMsgs]
  rcases hcloses with hdone | ⟨herr, hlen⟩
  · refine ⟨.next, false, by simp, ?_⟩
    rw [msgStep_done hcb.toDataCb hterm hdone, closing, if_pos hdone]
    simp only [walkMsgs, hseq]
  · obtain ⟨jump, multipart', hjump, hstep⟩ :=
      msgStep_closing ⟨sk, multipart || a.tail.any NetMsg.multi, handOver valid a.tail u⟩
        hcb hterm herr
        hlen
    refine ⟨jump, multipart', fun h => hjump h.1, ?_⟩
    rw [hstep]
    simp only [hseq]
    cases jump with
    | next => exact absurd rfl hjump
    | stop => rfl
    | out err => rfl

/-- The loop ends with the answer, whichever way the answer ends. -/
theorem recvWhile_ends (hcb : CmdCb cb valid finish ack error)
    (hvalid : ∀ m u, flag (valid m u).2 = flag u)
    (hends : ∀ t u, flag (closing finish ack error t u) ≤ 0) (a : Answer seq)
    (hcloses : a.terminator.Closes) (hfits : a.Fits page) (rest : List Incoming)
      {sk : NlSock} {u : σ}
    (hseq : sk.seqExpect = seq) (hflag : 0 < flag u) :
    recvWhile cb page flag ⟨sk, incoming a.parcels ++ rest, u⟩ =
      some ⟨{ sk with seqExpect := seq + 1 }, rest,
        closing finish ack error a.terminator (handOver valid (a.delivered page) u)⟩ := by
  obtain ⟨multipart, hbefore⟩ :=
    readOn_before hcb.toDataCb hvalid (incoming [a.last] ++ rest) a.before
    a.before_ok page false hseq hflag
  have hne : a.last.length ≠ 0 := Nat.ne_of_gt (packOctets_length_pos (by simp [a.last_msgs]))
  obtain ⟨jump, multipart', hstop, hwalk⟩ := walkMsgs_last hcb a hcloses hseq
  rw [recvWhile_eq_readOn hflag, Answer.parcels, incoming_append, List.append_assoc, hbefore]
  show readOn cb page flag _ multipart ⟨sk, .datagram a.last.datagram :: rest, _⟩ = _
  rw [readOn_fits hne hfits hwalk, if_neg hstop, recvWhile_of_le (hends _ _), Answer.delivered,
    handOver_append]

end Loop

end Nl80211.Libnl
