/-
# Nl80211.Libnl.Sequence — what the receive loop guarantees its callbacks, whatever arrives.

The octets on the socket are arbitrary here: whole messages or broken ones, of this program's
requests or of somebody else's.  As long as a callback set leaves the sequence check to the library,
a message reaches a callback only when it carries the number expected at that moment, and that
number moves on by one with each control message and never otherwise.  `recvWhile_keeps` is the rule
that follows: a property of the state behind the callbacks, indexed by how far the count has moved,
is kept by every run of the loop when each callback keeps it.
-/
import Nl80211.Libnl.Dump

namespace Nl80211.Libnl

open Lib Lib.Bytes

/-! ## Control messages -/

/-- The types after which `recvmsgs` expects the next number. -/
def IsControlType (type : Nat) : Prop :=
  type = nlmsgDone ∨ type = nlmsgError ∨ type = nlmsgNoop ∨ type = nlmsgOverrun

instance (type : Nat) : Decidable (IsControlType type) := inferInstanceAs (Decidable (_ ∨ _))

/-- The headers that a walk over a datagram visits when nothing breaks it off. -/
def msgWalk (mem : Mem) (hdr : Nat) (n : Int) : List Nat :=
  if _h : nlmsgOk mem hdr n = true then
    hdr :: msgWalk mem (nlmsgNext mem hdr n).1 (nlmsgNext mem hdr n).2
  else []
termination_by mem.length - hdr
decreasing_by
  have := lt_of_nlmsgOk _h
  omega

/-- The control messages in the rest of a datagram. -/
def controlsFrom (mem : Mem) (hdr : Nat) (n : Int) : Nat :=
  (msgWalk mem hdr n).countP fun h => IsControlType (nlmsgType mem h)

/-- The control messages in what has yet to arrive. -/
def controls : List Incoming → Nat
  | [] => 0
  | .datagram d :: queue => controlsFrom d.octets 0 d.octets.length + controls queue
  | _ :: queue => controls queue

theorem controlsFrom_of_ok {mem : Mem} {hdr : Nat} {n : Int} (h : nlmsgOk mem hdr n = true) :
    controlsFrom mem hdr n = (if IsControlType (nlmsgType mem hdr) then 1 else 0) +
      controlsFrom mem (nlmsgNext mem hdr n).1 (nlmsgNext mem hdr n).2 := by
  rw [controlsFrom, msgWalk, dif_pos h, List.countP_cons]
  simp only [decide_eq_true_eq]
  exact Nat.add_comm _ _

/-- What is read holds the control messages that are no longer to come. -/
theorem controls_of_data {queue rest : List Incoming} {iovLen : Nat} {d : Datagram}
    (h : nlRecv iovLen queue = some (.data d, rest)) :
    controlsFrom d.octets 0 d.octets.length + controls rest ≤ controls queue := by
  induction queue generalizing iovLen with
  | nil => simp [nlRecv] at h
  | cons e queue ih =>
      cases e with
      | interrupted => exact ih h
      | again => simp [nlRecv] at h
      | failed nle => simp [nlRecv] at h
      | datagram d' =>
          simp only [nlRecv] at h
          split at h
          · simp at h
          · split at h
            · exact Nat.le_trans (ih h) (Nat.le_add_left _ _)
            · simp only [Option.some.injEq, Prod.mk.injEq, Received.data.injEq] at h
              obtain ⟨rfl, rfl⟩ := h
              exact Nat.le_refl _

theorem controls_le {queue rest : List Incoming} {iovLen : Nat} {r : Received}
    (h : nlRecv iovLen queue = some (r, rest)) : controls rest ≤ controls queue := by
  induction queue generalizing iovLen with
  | nil => simp [nlRecv] at h
  | cons e queue ih =>
      cases e with
      | interrupted => exact ih h
      | again =>
          simp only [nlRecv, Option.some.injEq, Prod.mk.injEq] at h
          exact Nat.le_of_eq (by rw [← h.2]; rfl)
      | failed nle =>
          simp only [nlRecv, Option.some.injEq, Prod.mk.injEq] at h
          exact Nat.le_of_eq (by rw [← h.2]; rfl)
      | datagram d =>
          have hle : controls queue ≤ controls (.datagram d :: queue) := Nat.le_add_left _ _
          simp only [nlRecv] at h
          split at h
          · simp only [Option.some.injEq, Prod.mk.injEq] at h
            exact h.2 ▸ hle
          · split at h
            · exact Nat.le_trans (ih h) hle
            · simp only [Option.some.injEq, Prod.mk.injEq] at h
              exact h.2 ▸ hle

/-! ## The rule -/

variable {σ : Type}

/-- The callbacks of `cb` keep `I`, and leave the sequence check to the library.  `I n` is meant to
hold when the count has moved on by `n` from `first`: then a callback is called with messages of the
number `first + n` only. -/
structure KeepsCount (cb : NlCb σ) (first : UInt32) (I : Nat → σ → Prop) : Prop where
  seqCheck : cb.cbSet .seqCheck = none
  invalid : cb.cbSet .invalid = none
  msgIn : ∀ f, cb.cbSet .msgIn = some f → ∀ msg n u, I n u → I n (f msg u).2
  call : ∀ t f, cb.cbSet t = some f → t ≠ .msgIn →
    ∀ msg n u, nlmsgSeq msg 0 = first + UInt32.ofNat n → I n u → I n (f msg u).2
  error : ∀ f, cb.cbErr = some f →
    ∀ msg n u, nlmsgSeq msg 0 = first + UInt32.ofNat n → I n u → I n (f msg u).2
  advance : ∀ n u, I n u → I (n + 1) u

section Message

variable {cb : NlCb σ} {first : UInt32} {I : Nat → σ → Prop} {n : Nat}

/-- While a message of the number `first + n` is dealt with: the counter may have
moved on already. -/
structure During (I : Nat → σ → Prop) (n : Nat) (seqNext expect : UInt32)
    (st : WalkState σ) : Prop where
  keeps : I n st.user
  seqNext : st.sk.seqNext = seqNext
  expect : st.sk.seqExpect = expect

variable {seqNext expect : UInt32} {st : WalkState σ} {msg : Mem}

/-- The rule for a callback: what holds before it and is kept by it holds behind it. -/
theorem nlCbCallIfSet_rule {P Q : WalkState σ → Prop} {t : NlCbType}
    {unset k : WalkState σ → Jump × WalkState σ}
    (hf : ∀ f, cb.cbSet t = some f → ∀ st, P st → P { st with user := (f msg st.user).2 })
    (hPQ : ∀ st, P st → Q st) (hunset : ∀ st, P st → Q (unset st).2)
    (hk : ∀ st, P st → Q (k st).2) (h : P st) : Q (nlCbCallIfSet cb t msg st unset k).2 := by
  rw [nlCbCallIfSet]
  split
  · next f hset =>
      have hcalled := hf f hset st h
      simp only [nlCbCall]
      split_ifs
      · exact hk _ hcalled
      all_goals exact hPQ _ hcalled
  · exact hunset st h

theorem nlCbCallIfSet_during {t : NlCbType} {unset k : WalkState σ → Jump × WalkState σ}
    (hf : ∀ f, cb.cbSet t = some f → ∀ u, I n u → I n (f msg u).2)
    (hunset : ∀ st, During I n seqNext expect st →
      During I n seqNext expect (unset st).2)
    (hk : ∀ st, During I n seqNext expect st → During I n seqNext expect (k st).2)
    (h : During I n seqNext expect st) :
    During I n seqNext expect (nlCbCallIfSet cb t msg st unset k).2 :=
  nlCbCallIfSet_rule (fun f hset st h => ⟨hf f hset st.user h.keeps, h.seqNext, h.expect⟩)
    (fun _ => id) hunset hk h

theorem recvError_during (hcb : KeepsCount cb first I) (hmsg : nlmsgSeq msg 0 = first +
    UInt32.ofNat n)
    (buf : Mem) (hdr : Nat) (h : During I n seqNext expect st) :
    During I n seqNext expect (recvError cb buf hdr msg st).2 := by
  have hcall (t : NlCbType) (ht : t ≠ .msgIn) :
      ∀ f, cb.cbSet t = some f → ∀ u, I n u → I n (f msg u).2 :=
    fun f hset u => hcb.call t f hset ht msg n u hmsg
  rw [recvError]
  split_ifs
  · exact nlCbCallIfSet_during (hcall .invalid (by decide)) (fun _ => id) (fun _ => id) h
  · split
    · next f herr =>
        have hcalled : During I n seqNext expect
            { st with user := (f msg st.user).2 } :=
          ⟨hcb.error f herr msg n _ hmsg h.keeps, h.seqNext, h.expect⟩
        simp only
        split_ifs
        all_goals exact hcalled
    · exact h
  · exact nlCbCallIfSet_during (hcall .ack (by decide)) (fun _ => id) (fun _ => id) h

/-- `recvmsgs` from the sequence check on. -/
def recvSeqCheck (cb : NlCb σ) (buf : Mem) (hdr : Nat) (msg : Mem) (st : WalkState σ) :
    Jump × WalkState σ :=
  match cb.cbSet .seqCheck with
  | some f => nlCbCall f msg st (recvDispatch cb buf hdr msg)
  | none =>
      if nlmsgSeq buf hdr ≠ st.sk.seqExpect then
        nlCbCallIfSet cb .invalid msg st (fun st => (.out (-nleSeqMismatch), st))
          (recvDispatch cb buf hdr msg)
      else recvDispatch cb buf hdr msg st

theorem recvMsg_eq (cb : NlCb σ) (buf : Mem) (hdr : Nat) (msg : Mem) (st : WalkState σ) :
    recvMsg cb buf hdr msg st =
      nlCbCallIfSet cb .msgIn msg st (recvSeqCheck cb buf hdr msg)
        (recvSeqCheck cb buf hdr msg) := rfl

/-- The state with which `recvmsgs` looks at the type of the message. -/
def recvCounted (buf : Mem) (hdr : Nat) (st : WalkState σ) : WalkState σ :=
  let st := if IsControlType (nlmsgType buf hdr) then
    { st with sk := { st.sk with seqExpect := st.sk.seqExpect + 1 } } else st
  if nlmsgFlags buf hdr &&& nlmFMulti ≠ 0 then { st with multipart := true } else st

/-- The branch of `recvmsgs` for the type of the message. -/
def recvBranch (cb : NlCb σ) (buf : Mem) (hdr : Nat) (msg : Mem) (st : WalkState σ) :
    Jump × WalkState σ :=
  let type := nlmsgType buf hdr
  if type = nlmsgDone then
    nlCbCallIfSet cb .finish msg { st with multipart := false } (fun st => (.next, st))
      fun st => (.next, st)
  else if type = nlmsgNoop then
    nlCbCallIfSet cb .skipped msg st (fun st => (.next, st)) fun st => (.next, st)
  else if type = nlmsgOverrun then
    nlCbCallIfSet cb .overrun msg st (fun st => (.out (-nleMsgOverflow), st)) fun st => (.next, st)
  else if type = nlmsgError then recvError cb buf hdr msg st
  else nlCbCallIfSet cb .valid msg st (fun st => (.next, st)) fun st => (.next, st)

theorem recvDispatch_eq (cb : NlCb σ) (buf : Mem) (hdr : Nat) (msg : Mem) (st : WalkState σ) :
    recvDispatch cb buf hdr msg st =
      if nlmsgFlags buf hdr &&& nlmFAck ≠ 0 then
        nlCbCallIfSet cb .sendAck msg (recvCounted buf hdr st) (recvBranch cb buf hdr msg)
          (recvBranch cb buf hdr msg)
      else recvBranch cb buf hdr msg (recvCounted buf hdr st) := rfl

theorem recvBranch_during (hcb : KeepsCount cb first I)
    (hmsg : nlmsgSeq msg 0 = first + UInt32.ofNat n) (buf : Mem) (hdr : Nat)
    (h : During I n seqNext expect st) :
    During I n seqNext expect (recvBranch cb buf hdr msg st).2 := by
  have branch (t : NlCbType) (ht : t ≠ .msgIn) {st : WalkState σ} {jump : Jump}
      (h : During I n seqNext expect st) :
      During I n seqNext expect
        (nlCbCallIfSet cb t msg st (fun st => (jump, st)) fun st => (.next, st)).2 :=
    nlCbCallIfSet_during (fun f hset u => hcb.call t f hset ht msg n u hmsg) (fun _ => id)
      (fun _ => id) h
  rw [recvBranch]
  split_ifs
  · exact branch .finish (by decide) ⟨h.keeps, h.seqNext, h.expect⟩
  · exact branch .skipped (by decide) h
  · exact branch .overrun (by decide) h
  · exact recvError_during hcb hmsg buf hdr h
  · exact branch .valid (by decide) h

/-- The number expected once the message at `hdr` has been accepted. -/
def expectAfter (buf : Mem) (hdr : Nat) (expect : UInt32) : UInt32 :=
  if IsControlType (nlmsgType buf hdr) then expect + 1 else expect

theorem recvCounted_during (buf : Mem) (hdr : Nat) (h : During I n seqNext expect st) :
    During I n seqNext (expectAfter buf hdr expect) (recvCounted buf hdr st) := by
  rw [recvCounted, expectAfter]
  split_ifs
  all_goals exact ⟨h.keeps, h.seqNext, by simp [h.expect]⟩

/-- Behind the sequence check the callbacks get a message of the expected number. -/
theorem recvDispatch_during (hcb : KeepsCount cb first I)
    (hmsg : nlmsgSeq msg 0 = first + UInt32.ofNat n) (buf : Mem) (hdr : Nat)
    (h : During I n seqNext expect st) :
    During I n seqNext (expectAfter buf hdr expect) (recvDispatch cb buf hdr msg st).2 := by
  have hcounted := recvCounted_during buf hdr h
  have hbranch (st : WalkState σ) (h : During I n seqNext (expectAfter buf hdr expect) st) :=
    recvBranch_during hcb hmsg buf hdr h
  rw [recvDispatch_eq]
  split_ifs
  · exact nlCbCallIfSet_during (fun f hset u => hcb.call .sendAck f hset (by decide) msg n u hmsg)
      hbranch hbranch hcounted
  · exact hbranch _ hcounted

/-- Between two messages: the count has moved on from `lo` to at most `hi`, and the expected number
with it. -/
def Accounted (first : UInt32) (I : Nat → σ → Prop) (seqNext : UInt32) (lo hi : Nat) (sk : NlSock)
    (u : σ) : Prop :=
  ∃ n, lo ≤ n ∧ n ≤ hi ∧ I n u ∧ sk = ⟨seqNext, first + UInt32.ofNat n⟩

theorem Accounted.mono {lo lo' hi hi' : Nat} {sk : NlSock} {u : σ} (hlo : lo' ≤ lo) (hhi : hi ≤ hi')
    (h : Accounted first I seqNext lo hi sk u) : Accounted first I seqNext lo' hi' sk u := by
  obtain ⟨n, h₁, h₂, h⟩ := h
  exact ⟨n, Nat.le_trans hlo h₁, Nat.le_trans h₂ hhi, h⟩

theorem During.accounted (h : During I n seqNext (first + UInt32.ofNat n) st) :
    Accounted first I seqNext n n st.sk st.user := by
  refine ⟨n, Nat.le_refl n, Nat.le_refl n, h.keeps, ?_⟩
  rw [← h.seqNext, ← h.expect]

/-- The step of the count at the message at `hdr`. -/
def controlAt (buf : Mem) (hdr : Nat) : Nat := if IsControlType (nlmsgType buf hdr) then 1 else 0

theorem recvSeqCheck_accounted (hcb : KeepsCount cb first I) {buf : Mem} {hdr : Nat}
    (hmsg : nlmsgSeq msg 0 = nlmsgSeq buf hdr)
    (h : During I n seqNext (first + UInt32.ofNat n) st) :
    Accounted first I seqNext n (n + controlAt buf hdr) (recvSeqCheck cb buf hdr msg st).2.sk
      (recvSeqCheck cb buf hdr msg st).2.user := by
  rw [recvSeqCheck, hcb.seqCheck, nlCbCallIfSet, hcb.invalid]
  by_cases hseq : nlmsgSeq buf hdr = st.sk.seqExpect
  · rw [if_neg (not_not_intro hseq)]
    have hdone := recvDispatch_during hcb (hmsg.trans (hseq.trans h.expect)) buf hdr h
    rw [expectAfter] at hdone
    rw [controlAt]
    split_ifs at hdone ⊢
    · refine ⟨n + 1, Nat.le_succ n, Nat.le_refl _, hcb.advance n _ hdone.keeps, ?_⟩
      rw [UInt32.ofNat_add, ← UInt32.add_assoc, ← hdone.seqNext]
      exact congrArg (NlSock.mk _) hdone.expect
    · exact hdone.accounted
  · -- the message is somebody else's: `out` with nothing changed
    rw [if_pos hseq]
    exact h.accounted.mono (Nat.le_refl n) (Nat.le_add_right n _)

/-- A message moves the count on by one at most, and only when it is a control message. -/
theorem recvMsg_accounted (hcb : KeepsCount cb first I) {buf : Mem} {hdr : Nat}
    (hmsg : nlmsgSeq msg 0 = nlmsgSeq buf hdr) (hI : I n st.user)
    (hsk : st.sk = ⟨seqNext, first + UInt32.ofNat n⟩) :
    Accounted first I seqNext n (n + controlAt buf hdr) (recvMsg cb buf hdr msg st).2.sk
      (recvMsg cb buf hdr msg st).2.user := by
  have hcheck (st : WalkState σ) (h : During I n seqNext (first + UInt32.ofNat n) st) :=
    recvSeqCheck_accounted hcb hmsg h
  rw [recvMsg_eq]
  exact nlCbCallIfSet_rule (P := During I n seqNext (first + UInt32.ofNat n))
    (Q := fun st => Accounted first I seqNext n (n + controlAt buf hdr) st.sk st.user)
    (fun f hset st h => ⟨hcb.msgIn f hset msg n _ h.keeps, h.seqNext, h.expect⟩)
    (fun st h => h.accounted.mono (Nat.le_refl n) (Nat.le_add_right n _)) hcheck hcheck
    ⟨hI, by rw [hsk], by rw [hsk]⟩

end Message

/-! ## The loops -/

section Loops

variable {cb : NlCb σ} {first : UInt32} {I : Nat → σ → Prop} {seqNext : UInt32}

/-- The copy a callback gets carries the number of the message it is a copy of. -/
theorem nlmsgSeq_convert {d : Datagram} {hdr : Nat} {n : Int} {msg : Mem}
    (hok : nlmsgOk d.octets hdr n = true) (hmsg : nlmsgConvert d hdr = some msg) :
    nlmsgSeq msg 0 = nlmsgSeq d.octets hdr := by
  obtain ⟨tail, -, rfl⟩ := Option.map_eq_some_iff.mp hmsg
  simp only [nlmsgOk, nlmsgHdrlen, ge_iff_le, Bool.and_eq_true, decide_eq_true_eq] at hok
  unfold nlmsgSeq
  congr 1
  apply rd32_congr
  apply octets_congr
  intro k hk
  rw [rd8_append_left (by rw [octets_length]; omega),
    rd8_of_lt (by rw [octets_length]; omega), octets_getElem]
  congr 1
  omega

theorem recvWalk_accounted (hcb : KeepsCount cb first I) (d : Datagram) (hdr : Nat) (rem : Int)
    (st : WalkState σ) {n : Nat} (hI : I n st.user)
    (hsk : st.sk = ⟨seqNext, first + UInt32.ofNat n⟩) :
    Accounted first I seqNext n (n + controlsFrom d.octets hdr rem) (recvWalk cb d hdr rem st).2.sk
      (recvWalk cb d hdr rem st).2.user := by
  have hstay {hi : Nat} {sk : NlSock} {u : σ} {n : Nat} (hI : I n u)
      (hsk : sk = ⟨seqNext, first + UInt32.ofNat n⟩) (h : n ≤ hi) :
      Accounted first I seqNext n hi sk u := ⟨n, Nat.le_refl n, h, hI, hsk⟩
  induction hdr, rem, st using recvWalk.induct cb d generalizing n with
  | case1 hdr rem st hok hconv =>
      rw [recvWalk, dif_pos hok, hconv]
      exact hstay hI hsk (Nat.le_add_right n _)
  | case2 hdr rem st hok msg hconv w hstep next =>
      rename_i ih
      obtain ⟨m, hle, hm, hIm, hskm⟩ :=
        recvMsg_accounted hcb (nlmsgSeq_convert hok hconv) hI hsk
      rw [hstep] at hIm hskm
      rw [recvWalk, dif_pos hok, hconv, controlsFrom_of_ok hok]
      simp only [hstep]
      refine (ih hIm hskm).mono hle ?_
      rw [controlAt] at hm
      show m + controlsFrom d.octets (nlmsgNext d.octets hdr rem).1
        (nlmsgNext d.octets hdr rem).2 ≤ _
      omega
  | case3 hdr rem st hok msg hconv hstop =>
      have hcase := recvMsg_accounted hcb (nlmsgSeq_convert hok hconv) hI hsk
      have hle : n + controlAt d.octets hdr ≤ n + controlsFrom d.octets hdr rem := by
        rw [controlsFrom_of_ok hok, controlAt]
        omega
      rw [recvWalk, dif_pos hok, hconv]
      simp only
      cases hstep : recvMsg cb d.octets hdr msg st with
      | mk jump w =>
          rw [hstep] at hcase
          cases jump with
          | next => exact absurd hstep (hstop w)
          | stop => exact hcase.mono (Nat.le_refl n) hle
          | out err => exact hcase.mono (Nat.le_refl n) hle
  | case4 hdr rem st hok =>
      rw [recvWalk, dif_neg hok]
      exact hstay hI hsk (Nat.le_add_right n _)

/-- What is left of the count between two calls: the control messages seen and those still to come
are no more than there were. -/
def Balanced (first : UInt32) (I : Nat → σ → Prop) (seqNext : UInt32) (n : Nat)
    (queue : List Incoming) (st : RecvState σ) : Prop :=
  ∃ n', n ≤ n' ∧ n' + controls st.queue ≤ n + controls queue ∧ I n' st.user ∧
    st.sk = ⟨seqNext, first + UInt32.ofNat n'⟩

theorem Balanced.trans {n n' : Nat} {queue queue' : List Incoming} {st : RecvState σ} (hle : n ≤ n')
    (hqueue : n' + controls queue' ≤ n + controls queue)
    (h : Balanced first I seqNext n' queue' st) : Balanced first I seqNext n queue st := by
  obtain ⟨m, h₁, h₂, h⟩ := h
  exact ⟨m, Nat.le_trans hle h₁, Nat.le_trans h₂ hqueue, h⟩

theorem recvmsgsFrom_balanced {page : Nat} (hcb : KeepsCount cb first I) {multipart : Bool}
    {st st' : RecvState σ} {n : Nat} {err : Int} (hI : I n st.user)
    (hsk : st.sk = ⟨seqNext, first + UInt32.ofNat n⟩)
    (h : recvmsgsFrom cb page multipart st = some (err, st')) :
    Balanced first I seqNext n st.queue st' := by
  -- on the length of the queue, as the loop itself
  induction hlen : st.queue.length using Nat.strongRecOn generalizing multipart st n with
  | _ len ih =>
      subst hlen
      cases hq : nlRecv page st.queue with
      | none => simp [recvmsgsFrom_of_none hq] at h
      | some r =>
          obtain ⟨r, queue⟩ := r
          have hlt := nlRecv_length hq
          have hle := controls_le hq
          cases r with
          | empty =>
              cases (recvmsgsFrom_of_empty hq).symm.trans h
              exact ⟨n, Nat.le_refl n, Nat.add_le_add_left hle n, hI, hsk⟩
          | error nle =>
              cases (recvmsgsFrom_of_error hq).symm.trans h
              exact ⟨n, Nat.le_refl n, Nat.add_le_add_left hle n, hI, hsk⟩
          | data d =>
              have hread := controls_of_data hq
              obtain ⟨⟨jump, w⟩, hw⟩ :
                  ∃ r, recvWalk cb d 0 d.octets.length ⟨st.sk, multipart, st.user⟩ = r := ⟨_, rfl⟩
              obtain ⟨m, hnm, hm, hIm, hskm⟩ :=
                recvWalk_accounted hcb d 0 d.octets.length ⟨st.sk, multipart, st.user⟩ hI hsk
              rw [hw] at hIm hskm
              cases jump with
              | stop =>
                  cases (recvmsgsFrom_of_stop hq hw).symm.trans h
                  exact ⟨m, hnm, by simp only; omega, hIm, hskm⟩
              | out err =>
                  cases (recvmsgsFrom_of_out hq hw).symm.trans h
                  exact ⟨m, hnm, by simp only; omega, hIm, hskm⟩
              | next =>
                  rw [recvmsgsFrom_of_next hq hw] at h
                  split at h
                  · exact (ih _ hlt hIm hskm h rfl).trans hnm (by simp only; omega)
                  · cases h
                    exact ⟨m, hnm, by simp only; omega, hIm, hskm⟩

/-- **The rule.** What the callbacks keep, a run of the loop keeps, and the count moves on by no
more than the control messages it has taken off the socket. -/
theorem recvWhile_balanced {page : Nat} {flag : σ → Int} (hcb : KeepsCount cb first I)
    {st st' : RecvState σ} {n : Nat} (hI : I n st.user)
    (hsk : st.sk = ⟨seqNext, first + UInt32.ofNat n⟩) (h : recvWhile cb page flag st = some st') :
    Balanced first I seqNext n st.queue st' := by
  induction st using recvWhile.induct cb page flag generalizing n with
  | case1 st hflag hcall =>
      rw [recvWhile_of_pos hflag, hcall] at h
      cases h
  | case2 st hflag err w hcall ih =>
      rw [recvWhile_of_pos hflag, hcall] at h
      obtain ⟨m, hnm, hm, hIm, hskm⟩ := recvmsgsFrom_balanced hcb hI hsk hcall
      exact (ih hIm hskm h).trans hnm hm
  | case3 st hflag =>
      rw [recvWhile_of_le (Int.not_lt.mp hflag)] at h
      cases h
      exact ⟨n, Nat.le_refl n, Nat.le_refl _, hI, hsk⟩

end Loops

/-! ## What the callbacks get to see -/

/-- What `recvmsgs` calls: a member of `cb_set`, or `cb_err`. -/
inductive Callee where
  | set (type : NlCbType)
  | err
  deriving DecidableEq, Repr

/-- The callbacks of `cb`, and beside their state the list of calls: which callback, and the number
of the message it was given. -/
def NlCb.watched (cb : NlCb σ) : NlCb (σ × List (Callee × UInt32)) where
  cbSet := fun t => (cb.cbSet t).map fun f msg u =>
    ((f msg u.1).1, (f msg u.1).2, u.2 ++ [(.set t, nlmsgSeq msg 0)])
  cbErr := cb.cbErr.map fun f msg u =>
    ((f msg u.1).1, (f msg u.1).2, u.2 ++ [(.err, nlmsgSeq msg 0)])

/-- The calls but those of `NL_CB_MSG_IN`, which comes before the sequence check. -/
def accepted (log : List (Callee × UInt32)) : List (Callee × UInt32) :=
  log.filter fun c => c.1 ≠ .set .msgIn

theorem accepted_append_msgIn (log : List (Callee × UInt32)) (seq : UInt32) :
    accepted (log ++ [(.set .msgIn, seq)]) = accepted log := by
  simp [accepted]

theorem accepted_append_of_ne {c : Callee} (hc : c ≠ .set .msgIn) (log : List (Callee × UInt32))
    (seq : UInt32) : accepted (log ++ [(c, seq)]) = accepted log ++ [(c, seq)] := by
  simp [accepted, hc]

/-- The numbers of the accepted calls are `first + k` for growing `k`, none beyond `n`. -/
def Numbered (first : UInt32) (n : Nat) (log : List (Callee × UInt32)) : Prop :=
  ∃ ks : List Nat, ks.Pairwise (· ≤ ·) ∧ (∀ k ∈ ks, k ≤ n) ∧
    (accepted log).map Prod.snd = ks.map fun k => first + UInt32.ofNat k

theorem Numbered.mono {first : UInt32} {n m : Nat} {log : List (Callee × UInt32)} (hle : n ≤ m)
    (h : Numbered first n log) : Numbered first m log := by
  obtain ⟨ks, hsorted, hbound, hnumbers⟩ := h
  exact ⟨ks, hsorted, fun k hk => Nat.le_trans (hbound k hk) hle, hnumbers⟩

/-- A call with the number of the moment comes last. -/
theorem Numbered.snoc {first : UInt32} {n : Nat} {log : List (Callee × UInt32)} {c : Callee}
    (hc : c ≠ .set .msgIn) (h : Numbered first n log) :
    Numbered first n (log ++ [(c, first + UInt32.ofNat n)]) := by
  obtain ⟨ks, hsorted, hbound, hnumbers⟩ := h
  refine ⟨ks ++ [n], ?_, ?_, ?_⟩
  · rw [List.pairwise_append]
    refine ⟨hsorted, List.pairwise_singleton _ _, fun k hk m hm => ?_⟩
    rw [List.mem_singleton] at hm
    exact hm ▸ hbound k hk
  · intro k hk
    rcases List.mem_append.mp hk with hk | hk
    · exact hbound k hk
    · exact Nat.le_of_eq (List.mem_singleton.mp hk)
  · rw [accepted_append_of_ne hc, List.map_append, List.map_append, hnumbers]
    rfl

theorem watched_keepsCount {cb : NlCb σ} (hseq : cb.cbSet .seqCheck = none)
    (hinvalid : cb.cbSet .invalid = none) (first : UInt32) :
    KeepsCount cb.watched first fun n u => Numbered first n u.2 where
  seqCheck := by simp [NlCb.watched, hseq]
  invalid := by simp [NlCb.watched, hinvalid]
  msgIn := by
    intro f hf msg n u hu
    obtain ⟨g, -, rfl⟩ := Option.map_eq_some_iff.mp hf
    obtain ⟨ks, hsorted, hbound, hnumbers⟩ := hu
    exact ⟨ks, hsorted, hbound, by rw [accepted_append_msgIn, hnumbers]⟩
  call := by
    intro t f hf ht msg n u hmsg hu
    obtain ⟨g, -, rfl⟩ := Option.map_eq_some_iff.mp hf
    simp only [hmsg]
    exact hu.snoc fun h => ht (Callee.set.inj h)
  error := by
    intro f hf msg n u hmsg hu
    obtain ⟨g, -, rfl⟩ := Option.map_eq_some_iff.mp hf
    simp only [hmsg]
    exact hu.snoc (by decide)
  advance := fun n u hu => hu.mono (Nat.le_succ n)

/-- **No message of an earlier request reaches a callback** other than that of `NL_CB_MSG_IN`.
Whatever arrives, the numbers of the messages handed over never fall behind the one expected at the
start, they do not go back, they grow by no more than there are control messages, and the counter of
the next request stays. -/
theorem handed_in_order (cb : NlCb σ) (hseq : cb.cbSet .seqCheck = none)
    (hinvalid : cb.cbSet .invalid = none) (page : Nat) (flag : σ → Int) (st : RecvState σ)
    {st' : RecvState (σ × List (Callee × UInt32))}
    (h : recvWhile cb.watched page (fun u => flag u.1) ⟨st.sk, st.queue, (st.user, [])⟩ =
      some st') :
    ∃ ks : List Nat, ∃ n, (accepted st'.user.2).map Prod.snd =
        ks.map (fun k => st.sk.seqExpect + UInt32.ofNat k) ∧
      ks.Pairwise (· ≤ ·) ∧ (∀ k ∈ ks, k ≤ n) ∧
      st'.sk = ⟨st.sk.seqNext, st.sk.seqExpect + UInt32.ofNat n⟩ ∧
      n + controls st'.queue ≤ controls st.queue := by
  have hstart : Numbered st.sk.seqExpect 0 ([] : List (Callee × UInt32)) :=
    ⟨[], List.Pairwise.nil, nofun, rfl⟩
  have hsk : st.sk = ⟨st.sk.seqNext, st.sk.seqExpect + UInt32.ofNat 0⟩ := by
    cases st.sk
    simp
  obtain ⟨n, -, hn, ⟨ks, hsorted, hbound, hnumbers⟩, hsk⟩ :=
    recvWhile_balanced (watched_keepsCount hseq hinvalid st.sk.seqExpect) hstart hsk h
  exact ⟨ks, n, hnumbers, hsorted, hbound, hsk, by simpa using hn⟩

/-- A message of the request, then the error its answer ends with. -/
def refusedParcel : Parcel :=
  ⟨[.build 30 2 7 [3, 0, 0, 0] [] (by decide), .error 7 4294967295], by decide⟩

/-- Both go to the callbacks, the second to the one for errors, which ends the loop. -/
theorem handed_in_order_refused :
    ∃ st' : RecvState (Int × List (Callee × UInt32)),
      st'.user.2 = [(.set .valid, 7), (.err, 7)] ∧ ∃ ks : List Nat, ∃ n,
        (accepted st'.user.2).map Prod.snd = ks.map (fun k => 7 + UInt32.ofNat k) ∧
        ks.Pairwise (· ≤ ·) ∧ (∀ k ∈ ks, k ≤ n) ∧ st'.sk = ⟨8, 7 + UInt32.ofNat n⟩ ∧
        n + controls st'.queue ≤ controls (incoming [refusedParcel]) := by
  let cb : NlCb Int := ⟨fun t => match t with
    | .valid => some fun _ u => (nlSkip, u)
    | _ => none, some fun _ _ => (nlStop, 0)⟩
  have hwalk : walkMsgs cb.watched refusedParcel.msgs ⟨⟨8, 7⟩, false, ((1 : Int), [])⟩ =
      (.out (-28), ⟨⟨8, 8⟩, true, (0, [(.set .valid, 7), (.err, 7)])⟩) := by rfl
  have hrun : recvWhile cb.watched 16384 (fun u => u.1)
      ⟨⟨8, 7⟩, incoming [refusedParcel], ((1 : Int), [])⟩ =
        some ⟨⟨8, 8⟩, [], (0, [(.set .valid, 7), (.err, 7)])⟩ := by
    rw [recvWhile_eq_readOn (by decide)]
    show readOn _ _ _ _ _ ⟨⟨8, 7⟩, .datagram refusedParcel.datagram :: [], _⟩ = _
    rw [readOn_fits (by decide) (by decide) hwalk, if_neg (by decide), recvWhile_of_le (by decide)]
  exact ⟨_, rfl, handed_in_order cb rfl rfl 16384 id ⟨⟨8, 7⟩, incoming [refusedParcel], 1⟩ hrun⟩

end Nl80211.Libnl
