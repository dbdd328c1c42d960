/-
# Nl80211.Libnl.Recv — the receive loop of libnl-tiny.

`nl_recv` takes one datagram from the socket, `recvmsgs` walks the messages in it and hands each to
a callback chosen by its type, and goes on to the next datagram while a multipart message is open.
The socket is blocking: what arrives is a list of events, and asking for more than the list holds
never returns (`none`).

The callback set is a parameter, so is the state `σ` its callbacks work on.
-/
import Nl80211.Libnl.Msg
import Mathlib

namespace Nl80211.Libnl

open Lib Lib.Bytes

/-! ## The socket -/

/-- The sequence counters of `struct nl_sock`; both wrap. -/
structure NlSock where
  seqNext : UInt32
  seqExpect : UInt32
  deriving DecidableEq, Repr

/-- A datagram, and for each offset of it what lies in memory behind the copy that `nlmsg_convert`
makes of the message there; `none` where that copy cannot be allocated.  `recvmsg` returns the size
as an `int`. -/
structure Datagram where
  octets : Mem
  behind : Nat → Option Mem
  size : octets.length < 2147483648

/-- What one `recvmsg` on the socket meets. -/
inductive Incoming where
  | datagram (d : Datagram)
  /-- `EINTR` -/
  | interrupted
  /-- `EAGAIN` -/
  | again
  /-- any other failure, as the error `nl_recv` makes of it -/
  | failed (nle : Nat)

/-- What `nl_recv` returns: nothing (an empty read), an error, or the octets it read. -/
inductive Received where
  | empty
  | error (nle : Nat)
  | data (d : Datagram)

/-- `nl_recv`, with a buffer of `iovLen` octets.  A datagram that does not fit is gone when the call
reports `MSG_TRUNC`; the retry reads the one after it into a buffer twice as long. -/
def nlRecv (iovLen : Nat) : List Incoming → Option (Received × List Incoming)
  | [] => none
  | .interrupted :: queue => nlRecv iovLen queue
  -- `EAGAIN` is reported as an empty read
  | .again :: queue => some (.empty, queue)
  | .failed nle :: queue => some (.error nle, queue)
  | .datagram d :: queue =>
      if d.octets.length = 0 then some (.empty, queue)
      else if iovLen < d.octets.length then nlRecv (iovLen * 2) queue
      else some (.data d, queue)

/-- Every read takes something off the queue. -/
theorem nlRecv_length {queue rest : List Incoming} {iovLen : Nat} {r : Received}
    (h : nlRecv iovLen queue = some (r, rest)) : rest.length < queue.length := by
  induction queue generalizing iovLen with
  | nil => simp [nlRecv] at h
  | cons e queue ih =>
      cases e with
      | interrupted => exact Nat.lt_succ_of_lt (ih h)
      | again => simp_all [nlRecv]
      | failed nle => simp_all [nlRecv]
      | datagram d =>
          simp only [nlRecv] at h
          split at h
          · simp_all
          · split at h
            · exact Nat.lt_succ_of_lt (ih h)
            · simp_all

/-! ## Callbacks -/

/-- The members of `enum nl_cb_type` that `recvmsgs` calls. -/
inductive NlCbType where
  | valid | finish | overrun | skipped | ack | msgIn | invalid | seqCheck | sendAck
  deriving DecidableEq, Repr

/-- `struct nl_cb`: a callback takes the message and the state behind its argument.  The error
callback gets the `struct nlmsgerr` where it lies in the receive buffer; here it is given the copy
of the message with the same octets. -/
structure NlCb (σ : Type) where
  cbSet : NlCbType → Option (Mem → σ → Int × σ)
  cbErr : Option (Mem → σ → Int × σ)

/-- `NL_OK`, `NL_SKIP` and `NL_STOP` of `enum nl_cb_action`. -/
def nlOk : Int := 0
def nlSkip : Int := 1
def nlStop : Int := 2

/-! ## Errors -/

def nleNomem : Int := 5
def nleSeqMismatch : Int := 16
def nleMsgOverflow : Int := 17
def nleMsgTrunc : Int := 18

/-- `nl_syserr2nlerr`, which takes the error of the kernel with either sign. -/
def nlSyserr2nlerr (error : Int) : Int :=
  match error.natAbs with
  | 9 => 3           -- EBADF, NLE_BAD_SOCK
  | 98 => 6          -- EADDRINUSE, NLE_EXIST
  | 17 => 6          -- EEXIST
  | 99 => 19         -- EADDRNOTAVAIL, NLE_NOADDR
  | 3 => 12          -- ESRCH, NLE_OBJ_NOTFOUND
  | 2 => 12          -- ENOENT
  | 4 => 2           -- EINTR, NLE_INTR
  | 11 => 4          -- EAGAIN, NLE_AGAIN
  | 88 => 3          -- ENOTSOCK, NLE_BAD_SOCK
  | 92 => 7          -- ENOPROTOOPT, NLE_INVAL
  | 14 => 7          -- EFAULT
  | 13 => 27         -- EACCES, NLE_NOACCESS
  | 22 => 7          -- EINVAL, NLE_INVAL
  | 105 => 5         -- ENOBUFS, NLE_NOMEM
  | 12 => 5          -- ENOMEM
  | 97 => 11         -- EAFNOSUPPORT, NLE_AF_NOSUPPORT
  | 93 => 26         -- EPROTONOSUPPORT, NLE_PROTO_MISMATCH
  | 95 => 10         -- EOPNOTSUPP, NLE_OPNOTSUPP
  | 1 => 28          -- EPERM, NLE_PERM
  | 16 => 25         -- EBUSY, NLE_BUSY
  | 34 => 8          -- ERANGE, NLE_RANGE
  | 19 => 31         -- ENODEV, NLE_NODEV
  | _ => 1           -- NLE_FAILURE

/-! ## One message -/

variable {σ : Type}

/-- The state of `recvmsgs` while it walks a datagram. -/
structure WalkState (σ : Type) where
  sk : NlSock
  multipart : Bool
  user : σ

/-- Where the code goes after a message: on to the next one (`skip`), to `stop`, or to `out` with
`err`. -/
inductive Jump where
  | next
  | stop
  | out (err : Int)
  deriving DecidableEq, Repr

/-- `NL_CB_CALL`: `k` is the code behind the call. -/
def nlCbCall (f : Mem → σ → Int × σ) (msg : Mem) (st : WalkState σ)
    (k : WalkState σ → Jump × WalkState σ) : Jump × WalkState σ :=
  let (err, user) := f msg st.user
  let st := { st with user := user }
  if err = nlOk then k st
  else if err = nlSkip then (.next, st)
  else if err = nlStop then (.stop, st)
  else (.out err, st)

/-- `if (cb->cb_set[type]) NL_CB_CALL(cb, type, msg);` and otherwise `unset`. -/
def nlCbCallIfSet (cb : NlCb σ) (type : NlCbType) (msg : Mem) (st : WalkState σ)
    (unset k : WalkState σ → Jump × WalkState σ) : Jump × WalkState σ :=
  match cb.cbSet type with
  | some f => nlCbCall f msg st k
  | none => unset st

/-- `sizeof(struct nlmsgerr)`: the error and the header it is about. -/
def nlmsgerrSize : Nat := 20

/-- The member `error` of the `struct nlmsgerr` in the message at `hdr`. -/
def nlmsgerrError (buf : Mem) (hdr : Nat) : Int := toInt32 (rd32 buf (nlmsgData hdr))

/-- The branch of `recvmsgs` for a message of type `NLMSG_ERROR`. -/
def recvError (cb : NlCb σ) (buf : Mem) (hdr : Nat) (msg : Mem) (st : WalkState σ) :
    Jump × WalkState σ :=
  -- too short for a `struct nlmsgerr`: the error is not looked at
  if nlmsgLenField buf hdr < nlmsgHdrlen + nlmsgerrSize then
    nlCbCallIfSet cb .invalid msg st (fun st => (.out (-nleMsgTrunc), st)) fun st => (.next, st)
  else if nlmsgerrError buf hdr ≠ 0 then
    let code := -nlSyserr2nlerr (nlmsgerrError buf hdr)
    match cb.cbErr with
    | some f =>
        let (err, user) := f msg st.user
        let st := { st with user := user }
        if err < 0 then (.out err, st)
        else if err = nlSkip then (.next, st)
        else if err = nlStop then (.out code, st)
        else (.next, st)
    | none => (.out code, st)
  else
    nlCbCallIfSet cb .ack msg st (fun st => (.next, st)) fun st => (.next, st)

/-- `recvmsgs` behind the sequence check: the counter, the flags, and the branch for the type. -/
def recvDispatch (cb : NlCb σ) (buf : Mem) (hdr : Nat) (msg : Mem) (st : WalkState σ) :
    Jump × WalkState σ :=
  let type := nlmsgType buf hdr
  let st :=
    -- the answer to a request ends with a message of one of these types
    if type = nlmsgDone ∨ type = nlmsgError ∨ type = nlmsgNoop ∨ type = nlmsgOverrun then
      { st with sk := { st.sk with seqExpect := st.sk.seqExpect + 1 } }
    else st
  let st := if nlmsgFlags buf hdr &&& nlmFMulti ≠ 0 then { st with multipart := true } else st
  let branch (st : WalkState σ) : Jump × WalkState σ :=
    if type = nlmsgDone then
      nlCbCallIfSet cb .finish msg { st with multipart := false } (fun st => (.next, st))
        fun st => (.next, st)
    else if type = nlmsgNoop then
      nlCbCallIfSet cb .skipped msg st (fun st => (.next, st)) fun st => (.next, st)
    else if type = nlmsgOverrun then
      nlCbCallIfSet cb .overrun msg st (fun st => (.out (-nleMsgOverflow), st)) fun st =>
        (.next, st)
    else if type = nlmsgError then recvError cb buf hdr msg st
    else nlCbCallIfSet cb .valid msg st (fun st => (.next, st)) fun st => (.next, st)
  -- an acknowledgement is asked for
  if nlmsgFlags buf hdr &&& nlmFAck ≠ 0 then
    nlCbCallIfSet cb .sendAck msg st branch branch
  else branch st

/-- The body of the loop of `recvmsgs`, for the message at `hdr` and its copy `msg`. -/
def recvMsg (cb : NlCb σ) (buf : Mem) (hdr : Nat) (msg : Mem) (st : WalkState σ) :
    Jump × WalkState σ :=
  let seqCheck (st : WalkState σ) : Jump × WalkState σ :=
    match cb.cbSet .seqCheck with
    -- a callback of its own replaces the comparison
    | some f => nlCbCall f msg st (recvDispatch cb buf hdr msg)
    | none =>
        if nlmsgSeq buf hdr ≠ st.sk.seqExpect then
          nlCbCallIfSet cb .invalid msg st (fun st => (.out (-nleSeqMismatch), st))
            (recvDispatch cb buf hdr msg)
        else recvDispatch cb buf hdr msg st
  nlCbCallIfSet cb .msgIn msg st seqCheck seqCheck

/-! ## One datagram -/

/-- `nlmsg_convert`: the copy of the message at `hdr`, followed by what lies behind it. -/
def nlmsgConvert (d : Datagram) (hdr : Nat) : Option Mem :=
  (d.behind hdr).map fun tail => octets d.octets hdr (nlmsgLenField d.octets hdr) ++ tail

/-- The loop of `recvmsgs` over a datagram, from the header at `hdr` on. -/
def recvWalk (cb : NlCb σ) (d : Datagram) (hdr : Nat) (n : Int) (st : WalkState σ) :
    Jump × WalkState σ :=
  if _h : nlmsgOk d.octets hdr n = true then
    match nlmsgConvert d hdr with
    | none => (.out (-nleNomem), st)
    | some msg =>
        match recvMsg cb d.octets hdr msg st with
        | (.next, st) =>
            let next := nlmsgNext d.octets hdr n
            recvWalk cb d next.1 next.2 st
        | stopped => stopped
  else (.next, st)
termination_by d.octets.length - hdr
decreasing_by
  have := lt_of_nlmsgOk _h
  omega

/-! ## The whole call -/

/-- The socket, what has yet to arrive on it, and the state of the callbacks. -/
structure RecvState (σ : Type) where
  sk : NlSock
  queue : List Incoming
  user : σ

/-- `recvmsgs` from the label `continue_reading` on. -/
def recvmsgsFrom (cb : NlCb σ) (page : Nat) (multipart : Bool) (st : RecvState σ) :
    Option (Int × RecvState σ) :=
  match _h : nlRecv page st.queue with
  | none => none
  | some (.empty, queue) => some (0, { st with queue := queue })
  | some (.error nle, queue) => some (-nle, { st with queue := queue })
  | some (.data d, queue) =>
      let walked := recvWalk cb d 0 d.octets.length ⟨st.sk, multipart, st.user⟩
      let st : RecvState σ := ⟨walked.2.sk, queue, walked.2.user⟩
      match walked.1 with
      | .stop => some (0, st)
      | .out err => some (err, st)
      | .next => if walked.2.multipart then recvmsgsFrom cb page true st else some (0, st)
termination_by st.queue.length
decreasing_by exact nlRecv_length _h

/-- `nl_recvmsgs`; `page` is the size of the first buffer, `getpagesize() * 4`. -/
def nlRecvmsgs (cb : NlCb σ) (page : Nat) (st : RecvState σ) : Option (Int × RecvState σ) :=
  recvmsgsFrom cb page false st

section Unfold

variable {cb : NlCb σ} {page : Nat} {multipart : Bool} {st : RecvState σ} {queue : List Incoming}

theorem recvmsgsFrom_of_none (h : nlRecv page st.queue = none) :
    recvmsgsFrom cb page multipart st = none := by
  rw [recvmsgsFrom, h]

theorem recvmsgsFrom_of_empty (h : nlRecv page st.queue = some (.empty, queue)) :
    recvmsgsFrom cb page multipart st = some (0, { st with queue := queue }) := by
  rw [recvmsgsFrom, h]

theorem recvmsgsFrom_of_error {nle : Nat} (h : nlRecv page st.queue = some (.error nle, queue)) :
    recvmsgsFrom cb page multipart st = some (-(nle : Int), { st with queue := queue }) := by
  rw [recvmsgsFrom, h]

/-- A datagram whose walk is broken off ends the call. -/
theorem recvmsgsFrom_of_out {d : Datagram} {err : Int} {w : WalkState σ}
    (h : nlRecv page st.queue = some (.data d, queue))
    (hw : recvWalk cb d 0 d.octets.length ⟨st.sk, multipart, st.user⟩ = (.out err, w)) :
    recvmsgsFrom cb page multipart st = some (err, ⟨w.sk, queue, w.user⟩) := by
  rw [recvmsgsFrom, h]
  simp only [hw]

theorem recvmsgsFrom_of_stop {d : Datagram} {w : WalkState σ}
    (h : nlRecv page st.queue = some (.data d, queue))
    (hw : recvWalk cb d 0 d.octets.length ⟨st.sk, multipart, st.user⟩ = (.stop, w)) :
    recvmsgsFrom cb page multipart st = some (0, ⟨w.sk, queue, w.user⟩) := by
  rw [recvmsgsFrom, h]
  simp only [hw]

/-- A datagram walked to its end is followed by the next one exactly while a multipart message is
open. -/
theorem recvmsgsFrom_of_next {d : Datagram} {w : WalkState σ}
    (h : nlRecv page st.queue = some (.data d, queue))
    (hw : recvWalk cb d 0 d.octets.length ⟨st.sk, multipart, st.user⟩ = (.next, w)) :
    recvmsgsFrom cb page multipart st =
      if w.multipart then recvmsgsFrom cb page true ⟨w.sk, queue, w.user⟩
      else some (0, ⟨w.sk, queue, w.user⟩) := by
  rw [recvmsgsFrom, h]
  simp only [hw]

end Unfold

/-- Every call that returns has taken something off the queue. -/
theorem recvmsgsFrom_length {cb : NlCb σ} {page : Nat} {multipart : Bool} {st st' : RecvState σ}
    {err : Int} (h : recvmsgsFrom cb page multipart st = some (err, st')) :
    st'.queue.length < st.queue.length := by
  -- on the length of the queue: every datagram read shortens it, also one that is thrown away
  induction hn : st.queue.length using Nat.strongRecOn generalizing multipart st with
  | _ n ih =>
      subst hn
      cases hq : nlRecv page st.queue with
      | none => simp [recvmsgsFrom_of_none hq] at h
      | some r =>
          obtain ⟨r, queue⟩ := r
          have hlt := nlRecv_length hq
          cases r with
          | empty =>
              cases (recvmsgsFrom_of_empty hq).symm.trans h
              exact hlt
          | error nle =>
              cases (recvmsgsFrom_of_error hq).symm.trans h
              exact hlt
          | data d =>
              obtain ⟨⟨jump, w⟩, hw⟩ :
                  ∃ r, recvWalk cb d 0 d.octets.length ⟨st.sk, multipart, st.user⟩ = r := ⟨_, rfl⟩
              cases jump with
              | stop =>
                  cases (recvmsgsFrom_of_stop hq hw).symm.trans h
                  exact hlt
              | out err =>
                  cases (recvmsgsFrom_of_out hq hw).symm.trans h
                  exact hlt
              | next =>
                  rw [recvmsgsFrom_of_next hq hw] at h
                  split at h
                  · exact Nat.lt_trans (ih _ hlt h rfl) hlt
                  · cases h
                    exact hlt

theorem nlRecvmsgs_length {cb : NlCb σ} {page : Nat} {st st' : RecvState σ} {err : Int}
    (h : nlRecvmsgs cb page st = some (err, st')) : st'.queue.length < st.queue.length :=
  recvmsgsFrom_length h

/-! ## The loop around it -/

/-- `while (flag > 0) { nl_recvmsgs(sk, cb); }`, where the callbacks write the flag. -/
def recvWhile (cb : NlCb σ) (page : Nat) (flag : σ → Int) (st : RecvState σ) :
    Option (RecvState σ) :=
  if flag st.user > 0 then
    match _h : nlRecvmsgs cb page st with
    | none => none
    | some (_, st') => recvWhile cb page flag st'
  else some st
termination_by st.queue.length
decreasing_by exact nlRecvmsgs_length _h

end Nl80211.Libnl
