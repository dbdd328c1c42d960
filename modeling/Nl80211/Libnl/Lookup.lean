/-
# Nl80211.Libnl.Lookup — what a lookup makes of the answer to its request.

The controller answers `CTRL_CMD_GETFAMILY` with a dump, a message for each family, in as many
datagrams as it likes.  One call of `nl_recvmsgs` reads them all; each message goes to the parser,
and the first that is no family ends the call (`recvmsgsFrom_update`).
`genlCtrlResolveWith_lookedUp` says what the lookup returns, and that after such an error the
counters of the socket do not fit each other any more.
-/
import Nl80211.Libnl.Dump
import Nl80211.Libnl.Resolve

namespace Nl80211.Libnl

open Lib Lib.Bytes Lib.Counted

/-! ## A dump read by the parser -/

section Steps

variable {m : NetMsg} {st : WalkState CacheState}

theorem msgStep_update (hseq : m.seq = st.sk.seqExpect) :
    msgStep updateCb m st = recvDispatch updateCb m.octets 0 m.image st := by
  have hne : ¬ nlmsgSeq m.octets 0 ≠ st.sk.seqExpect := not_not_intro hseq
  simp only [msgStep, recvMsg, nlCbCallIfSet, updateCb, reduceCtorEq, if_false, if_neg hne]

/-- A data message goes to the parser. -/
theorem msgStep_update_data (hseq : m.seq = st.sk.seqExpect) (hm : m.IsData) :
    msgStep updateCb m st =
      nlCbCall updateMsgParser m.image { st with multipart := st.multipart || m.multi }
        fun st => (.next, st) := by
  obtain ⟨h3, h2, h1, h4⟩ := hm
  simp only [NetMsg.type] at h1 h2 h3 h4
  rw [msgStep_update hseq]
  by_cases hmulti : nlmsgFlags m.octets 0 &&& nlmFMulti = 0 <;>
    simp [recvDispatch, nlCbCallIfSet, updateCb, NetMsg.multi, NetMsg.flags, h1, h2, h3, h4, hmulti]

/-- `NLMSG_DONE` is for nobody. -/
theorem msgStep_update_done (hseq : m.seq = st.sk.seqExpect) (hm : m.IsDone) :
    msgStep updateCb m st =
      (.next, ⟨{ st.sk with seqExpect := st.sk.seqExpect + 1 }, false, st.user⟩) := by
  simp only [NetMsg.IsDone, NetMsg.type] at hm
  rw [msgStep_update hseq]
  by_cases hmulti : nlmsgFlags m.octets 0 &&& nlmFMulti = 0 <;>
    simp [recvDispatch, nlCbCallIfSet, updateCb, hm, hmulti]

end Steps

/-- The families in a list of messages, or the error of the first that has none. -/
def familiesOf (ms : List NetMsg) : Except Int (List GenlFamily) :=
  ms.mapM fun m => familyOfMsg m.image

theorem familiesOf_cons (m : NetMsg) (ms : List NetMsg) :
    familiesOf (m :: ms) = (do
      let f ← familyOfMsg m.image
      let fs ← familiesOf ms
      return f :: fs) := by
  rw [familiesOf, List.mapM_cons]
  rfl

theorem familiesOf_append (ms ms' : List NetMsg) :
    familiesOf (ms ++ ms') = (do
      let fs ← familiesOf ms
      let fs' ← familiesOf ms'
      return fs ++ fs') := by
  rw [familiesOf, List.mapM_append]
  rfl

/-- Memory never runs out. -/
def CacheState.Roomy (s : CacheState) : Prop := ∀ n, s.memory n = true

/-- Where a part of the dump leaves the cache: with its families behind those it had, or with some
of them and the error. -/
def Filled (fs : List GenlFamily) (r : Except Int (List GenlFamily)) (done : CacheState → Prop)
    (failed : Int → CacheState → Prop) : Prop :=
  ∃ s : CacheState, s.Roomy ∧
    match r with
    | .ok gs => s.Caches (fs ++ gs) ∧ done s
    | .error e => e < 0 ∧ (∃ gs, s.Caches gs) ∧ failed e s

theorem Filled.append {fs gs : List GenlFamily} {r : Except Int (List GenlFamily)}
    {done done' : CacheState → Prop} {failed failed' : Int → CacheState → Prop}
    (h : Filled (fs ++ gs) r done' failed') (hdone : ∀ s, done' s → done s)
    (hfailed : ∀ e s, failed' e s → failed e s) :
    Filled fs (do let hs ← r; return gs ++ hs) done failed := by
  obtain ⟨s, hroomy, h⟩ := h
  refine ⟨s, hroomy, ?_⟩
  cases r with
  | ok hs => exact ⟨by rw [← List.append_assoc]; exact h.1, hdone s h.2⟩
  | error e => exact ⟨h.1, h.2.1, hfailed e s h.2.2⟩

/-- The data messages of a datagram are parsed one by one, up to the first that is none. -/
theorem walkMsgs_update (rest : List NetMsg) (sk : NlSock) :
    ∀ (ms : List NetMsg) (multipart : Bool) (s : CacheState) (fs : List GenlFamily), s.Caches fs →
      s.Roomy → (∀ m ∈ ms, m.seq = sk.seqExpect ∧ m.IsData) →
      Filled fs (familiesOf ms)
        (fun s' => walkMsgs updateCb (ms ++ rest) ⟨sk, multipart, s⟩ =
          walkMsgs updateCb rest ⟨sk, multipart || ms.any NetMsg.multi, s'⟩)
        fun e s' => ∃ multipart', walkMsgs updateCb (ms ++ rest) ⟨sk, multipart, s⟩ =
          (.out e, ⟨sk, multipart', s'⟩)
  | [], multipart, s, fs, hcaches, hroomy, _ =>
      ⟨s, hroomy, by simpa using hcaches, by simp⟩
  | m :: ms, multipart, s, fs, hcaches, hroomy, hms => by
      obtain ⟨⟨hseq, hm⟩, hms⟩ := List.forall_mem_cons.mp hms
      have hstep : msgStep updateCb m ⟨sk, multipart, s⟩ = nlCbCall updateMsgParser m.image
          ⟨sk, multipart || m.multi, s⟩ fun st => (.next, st) := msgStep_update_data hseq hm
      obtain ⟨-, hmemory, hcase⟩ := updateMsgParser_caches hcaches m.image
      have hroomy' : (updateMsgParser m.image s).2.Roomy := by
        intro n
        rw [hmemory]
        exact hroomy n
      rw [familiesOf_cons]
      rcases hcase with ⟨f, hf, hzero, hgrown⟩ | ⟨hneg, hkept, herror⟩
      · -- the parser says 0, and the walk goes on
        have hnext : walkMsgs updateCb (m :: ms ++ rest) ⟨sk, multipart, s⟩ =
            walkMsgs updateCb (ms ++ rest)
              ⟨sk, multipart || m.multi, (updateMsgParser m.image s).2⟩ := by
          rw [List.cons_append, walkMsgs, hstep, nlCbCall]
          simp only [hzero, nlOk, if_true]
        rw [hf]
        refine Filled.append
          (walkMsgs_update rest sk ms (multipart || m.multi) _ _ hgrown hroomy' hms) ?_ ?_
        · intro s' hs'
          rw [hnext, hs', List.any_cons, Bool.or_assoc]
        · intro e s' hs'
          rwa [hnext]
      · rw [herror hroomy]
        refine ⟨_, hroomy', hneg, ⟨fs, hkept⟩, multipart || m.multi, ?_⟩
        have hne (n : Int) (hn : 0 ≤ n) : (updateMsgParser m.image s).1 ≠ n := by omega
        rw [List.cons_append, walkMsgs, hstep, nlCbCall]
        simp only [if_neg (hne nlOk (by decide)), if_neg (hne nlSkip (by decide)),
          if_neg (hne nlStop (by decide))]

/-- A dump as the kernel sends it: data messages of the request marked as parts of one answer, in
datagrams that fit the first buffer, and `NLMSG_DONE` at the end. -/
structure Answer.Multipart {seq : UInt32} (a : Answer seq) (page : Nat) : Prop where
  own : ∀ p ∈ a.before, p.Own seq
  multi : ∀ p ∈ a.before, p.msgs.any NetMsg.multi = true
  fits : ∀ p ∈ a.parcels, p.length ≤ page
  done : a.terminator.IsDone

theorem nlRecv_parcel {p : Parcel} {page : Nat} {q : List Incoming} (hne : p.msgs ≠ [])
    (hfits : p.length ≤ page) :
    nlRecv page (.datagram p.datagram :: q) = some (.data p.datagram, q) := by
  have hpos : p.datagram.octets.length ≠ 0 := Nat.ne_of_gt (packOctets_length_pos hne)
  have hle : ¬ page < p.datagram.octets.length := Nat.not_lt.mpr hfits
  rw [nlRecv, if_neg hpos, if_neg hle]

theorem recvWalk_whole {σ : Type} (cb : NlCb σ) (p : Parcel) (st : WalkState σ) :
    recvWalk cb p.datagram 0 p.datagram.octets.length st = walkMsgs cb p.msgs st :=
  recvWalk_parcel cb p [] p.msgs rfl st

/-- One call of `nl_recvmsgs` reads the whole dump, or stops at the first message that
is no family. -/
theorem recvmsgsFrom_update {seq : UInt32} (a : Answer seq) {page : Nat} (ha : a.Multipart page)
    (sk : NlSock) (hseq : sk.seqExpect = seq) (rest : List Incoming) :
    ∀ (ps : List Parcel), (∀ p ∈ ps, p ∈ a.before) → ∀ (multipart : Bool) (s : CacheState)
      (fs : List GenlFamily), s.Caches fs → s.Roomy →
      Filled fs (familiesOf (ps.flatMap (·.msgs) ++ a.tail))
        (fun s' => recvmsgsFrom updateCb page multipart
          ⟨sk, incoming (ps ++ [a.last]) ++ rest, s⟩ =
            some (0, ⟨{ sk with seqExpect := seq + 1 }, rest, s'⟩))
        fun e s' => ∃ queue, recvmsgsFrom updateCb page multipart
          ⟨sk, incoming (ps ++ [a.last]) ++ rest, s⟩ = some (e, ⟨sk, queue, s'⟩)
  | [], _, multipart, s, fs, hcaches, hroomy => by
      have hrecv : nlRecv page
          (⟨sk, incoming ([] ++ [a.last]) ++ rest, s⟩ : RecvState CacheState).queue =
            some (.data a.last.datagram, rest) :=
        nlRecv_parcel (by simp [a.last_msgs]) (ha.fits a.last (by simp [Answer.parcels]))
      obtain ⟨s', hroomy', h⟩ := walkMsgs_update [a.terminator] sk a.tail multipart s fs
        hcaches hroomy (by rw [hseq]; exact a.tail_own)
      refine ⟨s', hroomy', ?_⟩
      have hwalk : recvWalk updateCb a.last.datagram 0 a.last.datagram.octets.length
          ⟨sk, multipart, s⟩ = walkMsgs updateCb (a.tail ++ [a.terminator]) ⟨sk, multipart, s⟩ := by
        rw [recvWalk_whole, a.last_msgs]
      rw [List.flatMap_nil, List.nil_append]
      cases hfs : familiesOf a.tail with
      | ok gs =>
          rw [hfs] at h
          refine ⟨h.1, ?_⟩
          have hend (multipart : Bool) : walkMsgs updateCb [a.terminator] ⟨sk, multipart, s'⟩ =
              (.next, ⟨{ sk with seqExpect := seq + 1 }, false, s'⟩) := by
            rw [walkMsgs, msgStep_update_done (by rw [hseq]; exact a.seq_ok) ha.done]
            simp only [walkMsgs, hseq]
          rw [recvmsgsFrom_of_next hrecv (hwalk.trans (h.2.trans (hend _)))]
          exact if_neg Bool.false_ne_true
      | error e =>
          rw [hfs] at h
          obtain ⟨hneg, hgs, multipart', hout⟩ := h
          exact ⟨hneg, hgs, rest, recvmsgsFrom_of_out hrecv (hwalk.trans hout)⟩
  | p :: ps, hps, multipart, s, fs, hcaches, hroomy => by
      obtain ⟨hp, hps⟩ := List.forall_mem_cons.mp hps
      have hmulti := ha.multi p hp
      have hne : p.msgs ≠ [] := by
        intro hnil
        rw [hnil] at hmulti
        cases hmulti
      have hrecv : nlRecv page
          (⟨sk, incoming (p :: ps ++ [a.last]) ++ rest, s⟩ : RecvState CacheState).queue =
            some (.data p.datagram, incoming (ps ++ [a.last]) ++ rest) :=
        nlRecv_parcel hne (ha.fits p (List.mem_append_left _ hp))
      obtain ⟨s', hroomy', h⟩ := walkMsgs_update [] sk p.msgs multipart s fs hcaches hroomy
        (by rw [hseq]; exact ha.own p hp)
      rw [List.append_nil, ← recvWalk_whole] at h
      rw [List.flatMap_cons, List.append_assoc, familiesOf_append]
      cases hfs : familiesOf p.msgs with
      | ok gs =>
          rw [hfs] at h
          obtain ⟨hgrown, hwalk⟩ := h
          -- the datagram marks the answer as open, so the call reads on
          rw [hmulti, Bool.or_true, walkMsgs] at hwalk
          have hnext := recvmsgsFrom_of_next hrecv hwalk
          simp only [if_true] at hnext
          refine Filled.append
            (recvmsgsFrom_update a ha sk hseq rest ps hps true s' _ hgrown hroomy') ?_ ?_
          · intro t ht
            rw [hnext, ht]
          · intro e t ht
            rwa [hnext]
      | error e =>
          rw [hfs] at h
          obtain ⟨hneg, hgs, multipart', hout⟩ := h
          exact ⟨s', hroomy', hneg, hgs, _, recvmsgsFrom_of_out hrecv hout⟩

/-! ## The lookup -/

/-- A socket with these counters and this queue, the families `fs` in the cache,
and memory enough. -/
def At (fs : List GenlFamily) (sk : NlSock) (queue : List Incoming) (st : RecvState CacheState) :
    Prop :=
  st.sk = sk ∧ st.queue = queue ∧ st.user.Caches fs ∧ st.user.Roomy

/-- From `P`, the call returns, in `Q`. -/
abbrev Completes {α : Type} (P : RecvState CacheState → Prop) (x : Ctl α)
    (Q : α → RecvState CacheState → Prop) : Prop :=
  Triple P x Q fun _ _ => False

section Calls

variable {fs : List GenlFamily} {sk : NlSock} {queue : List Incoming}

theorem blockAlloc_at : Completes (At fs sk queue) (onCache CacheState.blockAlloc) fun r st =>
    (∃ b, r = some b) ∧ At fs sk queue st := by
  intro st ⟨hsk, hqueue, hcaches, hroomy⟩
  show (∃ b, st.user.blockAlloc.1 = some b) ∧
    At fs sk queue { st with user := st.user.blockAlloc.2 }
  rw [CacheState.blockAlloc, if_pos (hroomy _)]
  exact ⟨⟨_, rfl⟩, hsk, hqueue, hcaches.congr rfl rfl rfl rfl, hroomy⟩

theorem freeBlock_at (b : Nat) :
    Completes (At fs sk queue) (freeBlock b) fun _ => At fs sk queue := by
  intro st ⟨hsk, hqueue, hcaches, hroomy⟩
  exact ⟨hsk, hqueue, hcaches.congr rfl rfl rfl rfl, hroomy⟩

theorem nlmsgAlloc_at : Completes (At fs sk queue) nlmsgAlloc fun r st =>
    (∃ nm nlh, r = some (nm, nlh)) ∧ At fs sk queue st := by
  refine .andThen blockAlloc_at fun r => .given ?_
  rintro ⟨nm, rfl⟩
  refine .andThen blockAlloc_at fun r => .given ?_
  rintro ⟨nlh, rfl⟩
  exact .ret fun _ h => ⟨⟨nm, nlh, rfl⟩, h⟩

theorem nlmsgFree_at (nm nlh : Nat) :
    Completes (At fs sk queue) (nlmsgFree nm nlh) fun _ => At fs sk queue :=
  .andThen (freeBlock_at nlh) fun _ => freeBlock_at nm

theorem clear_at :
    Completes (At fs sk queue) (onCache fun s => ((), s.nlCacheClear)) fun _ => At [] sk queue := by
  intro st ⟨hsk, hqueue, hcaches, hroomy⟩
  obtain ⟨hclear, -, hmemory⟩ := hcaches.clear
  refine ⟨hsk, hqueue, hclear, fun n => ?_⟩
  show st.user.nlCacheClear.memory n = true
  rw [hmemory]
  exact hroomy n

end Calls

/-- The message of `genl_send_simple`, in any block `nlmsg_alloc` returns. -/
theorem simpleMessage_holds {block : Mem} (hblock : block.length = NlMsg.defaultMsgSize)
    (type flags : UInt16) (cmd version : UInt8) :
    ∃ m, simpleMessage block type flags [cmd, version, 0, 0] = some m ∧
      m.Holds ⟨type, flags, 0, 0⟩ [cmd, version, 0, 0] := by
  have hmin : nlmsgHdrlen ≤ block.length := by rw [hblock]; decide
  have hmax : block.length < 65536 := by rw [hblock]; decide
  have hnew := NlMsg.nlmsgInherit_holds (NlMsg.nlmsgAllocSize_holds hmin hmax) ⟨type, flags, 0, 0⟩
  have hsize : ((NlMsg.nlmsgAllocSize block).nlmsgInherit ⟨type, flags, 0, 0⟩).nlh.length =
      NlMsg.defaultMsgSize := by
    simp [NlMsg.nlmsgInherit, NlMsg.nlmsgAllocSize, hblock]
  have hpad : pad4 [cmd, version, 0, 0] = [cmd, version, 0, 0] := by simp [pad4, align4]
  have hfits : align4 [cmd, version, 0, 0].length + (nlmsgHdrlen + ([] : Mem).length) ≤
      ((NlMsg.nlmsgAllocSize block).nlmsgInherit ⟨type, flags, 0, 0⟩).nlh.length := by
    rw [hsize]
    show align4 4 + 16 ≤ 4096
    decide
  obtain ⟨m, hsome, -, hm⟩ := NlMsg.nlmsgAppend_holds hnew (by simp) hfits
  rw [hpad, List.nil_append] at hm
  refine ⟨m, ?_, hm⟩
  rw [simpleMessage, if_pos (List.cons_ne_nil _ _)]
  exact hsome

/-- The request of `ctrl_request_update`, as it goes out. -/
def getfamily (seq pid : UInt32) : Mem :=
  Nlmsghdr.octets ⟨UInt16.ofNat genlIdCtrl, UInt16.ofNat (nlmFDump ||| nlmFRequest ||| nlmFAck),
    seq,
    pid⟩ [ctrlCmdGetfamily, ctrlVersion, 0, 0]

theorem ctrlRequestUpdate_at {peer : Peer} (hblock : peer.block.length = NlMsg.defaultMsgSize)
    {fs : List GenlFamily} {sk : NlSock} {queue answer : List Incoming}
    (hsend : peer.send (getfamily sk.seqNext peer.pid) = .ok answer) :
    Completes (At fs sk queue) (ctrlRequestUpdate peer) fun err st =>
      0 ≤ err ∧ At fs { sk with seqNext := sk.seqNext + 1 } (queue ++ answer) st := by
  obtain ⟨m, hm, hholds⟩ := simpleMessage_holds hblock (UInt16.ofNat genlIdCtrl)
    (UInt16.ofNat nlmFDump) ctrlCmdGetfamily ctrlVersion
  obtain ⟨hdone, hcount⟩ :=
    NlMsg.nlSendAutoComplete_holds hholds peer.pid netlinkGeneric false sk.seqNext
  have hsent : (m.nlSendAutoComplete peer.pid netlinkGeneric false sk.seqNext).1.sent =
      getfamily sk.seqNext peer.pid := hdone.sent_eq
  have hsending : Completes (At fs sk queue) (nlSendAutoComplete peer m) fun err st =>
      0 ≤ err ∧ At fs { sk with seqNext := sk.seqNext + 1 } (queue ++ answer) st := by
    intro st ⟨hsk, hqueue, hcaches, hroomy⟩
    subst hsk hqueue
    rw [nlSendAutoComplete]
    simp only [bind, EStateM.bind, modifyGet, MonadStateOf.modifyGet, EStateM.modifyGet, hsent,
      hsend]
    refine ⟨Int.natCast_nonneg _, ?_, rfl, hcaches, hroomy⟩
    show NlSock.mk _ _ = _
    rw [hcount, if_pos rfl]
  rw [ctrlRequestUpdate, genlSendSimple, nlSendSimple, hm]
  refine .andThen nlmsgAlloc_at fun r => .given ?_
  rintro ⟨nm, nlh, rfl⟩
  refine .andThen hsending fun err => .given fun hpos => ?_
  exact .andThen (nlmsgFree_at nm nlh) fun _ => .ret fun _ h => ⟨hpos, h⟩

/-- What the caller reads from the families in the cache, or the error. -/
def foundIn (name : List UInt8) (read : GenlFamily → Int) : Except Int (List GenlFamily) → Int
  | .error e => e
  | .ok fs =>
      match fs.find? (·.name = name) with
      | some f => read f
      | none => -nleObjNotfound

section Dump

variable {peer : Peer} {seq : UInt32} (a : Answer seq) {rest : List Incoming}

theorem Answer.messages_of_own {page : Nat} (ha : a.Multipart page) :
    a.before.flatMap (·.msgs) ++ a.tail = a.messages := by
  rw [messages]
  congr 1
  exact List.flatMap_congr fun p hp => (Parcel.ownMsgs_of_own (ha.own p hp)).symm

/-- Where reading the answer leaves the socket and the cache. -/
def Picked (a : Answer seq) (seqNext : UInt32) (rest : List Incoming) (err : Int)
    (st : RecvState CacheState) : Prop :=
  match familiesOf a.messages with
  | .ok fs => err = 0 ∧ At fs ⟨seqNext, seq + 1⟩ rest st
  | .error e => err = e ∧ e < 0 ∧ ∃ fs queue, At fs ⟨seqNext, seq⟩ queue st

theorem nlRecvmsgsCall_at {page : Nat} (ha : a.Multipart page) (seqNext : UInt32) :
    Completes (At [] ⟨seqNext, seq⟩ (incoming a.parcels ++ rest)) (nlRecvmsgsCall updateCb page)
      (Picked a seqNext rest) := by
  rintro ⟨sk, queue, s⟩ ⟨rfl, rfl, hcaches, hroomy⟩
  obtain ⟨s', hroomy', h⟩ := recvmsgsFrom_update a ha ⟨seqNext, seq⟩ rfl rest a.before
    (fun _ => id) false s [] hcaches hroomy
  rw [a.messages_of_own ha] at h
  rw [nlRecvmsgsCall, nlRecvmsgs, Answer.parcels]
  cases hfs : familiesOf a.messages with
  | ok fs =>
      rw [hfs] at h
      obtain ⟨hgrown, hrun⟩ := h
      rw [hrun]
      show Picked a seqNext rest 0 _
      rw [Picked, hfs]
      exact ⟨rfl, rfl, rfl, hgrown, hroomy'⟩
  | error e =>
      rw [hfs] at h
      obtain ⟨hneg, ⟨gs, hgs⟩, queue, hrun⟩ := h
      rw [hrun]
      show Picked a seqNext rest e _
      rw [Picked, hfs]
      exact ⟨rfl, hneg, gs, queue, rfl, rfl, hgs, hroomy'⟩

theorem Picked.freeBlock (b : Nat) (seqNext : UInt32) (err : Int) :
    Completes (Picked a seqNext rest err) (freeBlock b) fun _ => Picked a seqNext rest err := by
  intro st h
  show Picked a seqNext rest err _
  rw [Picked] at h ⊢
  cases hfs : familiesOf a.messages with
  | ok fs =>
      rw [hfs] at h
      exact ⟨h.1, freeBlock_at b st h.2⟩
  | error e =>
      rw [hfs] at h
      obtain ⟨herr, hneg, gs, queue, hst⟩ := h
      exact ⟨herr, hneg, gs, queue, freeBlock_at b st hst⟩

theorem nlCacheRefill_picked {fs : List GenlFamily} (ha : a.Multipart peer.page)
    (hblock : peer.block.length = NlMsg.defaultMsgSize)
    (hsend : peer.send (getfamily seq peer.pid) = .ok (incoming a.parcels ++ rest)) :
    Completes (At fs ⟨seq, seq⟩ []) (nlCacheRefill peer) (Picked a (seq + 1) rest) := by
  refine .andThen (ctrlRequestUpdate_at hblock hsend) fun err => .given fun hpos => ?_
  refine .choose (fun hneg => absurd hpos (Int.not_le.mpr hneg)) fun _ => ?_
  refine .andThen clear_at fun _ => ?_
  refine .andThen blockAlloc_at fun r => .given ?_
  rintro ⟨cb, rfl⟩
  exact .andThen (nlRecvmsgsCall_at a ha _) fun err =>
    .andThen (Picked.freeBlock a cb _ err) fun _ => .ret fun _ h => h

theorem nlCacheFree_at {fs : List GenlFamily} {sk : NlSock} {queue : List Incoming} (cache : Nat) :
    Completes (At fs sk queue) (nlCacheFree cache) fun _ => At [] sk queue :=
  .andThen clear_at fun _ => freeBlock_at cache

/-- What the lookup returns and where it leaves the socket.  After an error the number expected
stays behind the one the next request will carry. -/
def LookedUp (a : Answer seq) (rest : List Incoming) (name : List UInt8) (read : GenlFamily → Int)
    (err : Int) (st : RecvState CacheState) : Prop :=
  err = foundIn name read (familiesOf a.messages) ∧
    match familiesOf a.messages with
    | .ok _ => st.sk = ⟨seq + 1, seq + 1⟩ ∧ st.queue = rest
    | .error _ => st.sk = ⟨seq + 1, seq⟩

/-- **The lookup in a dump.** -/
theorem genlCtrlResolveWith_lookedUp (ha : a.Multipart peer.page)
    (hblock : peer.block.length = NlMsg.defaultMsgSize)
    (hsend : peer.send (getfamily seq peer.pid) = .ok (incoming a.parcels ++ rest))
    (name : List UInt8) (read : GenlFamily → Int) :
    Completes (At [] ⟨seq, seq⟩ []) (genlCtrlResolveWith peer name read)
      (LookedUp a rest name read) := by
  rw [genlCtrlResolveWith, genlCtrlAllocCache, bind_assoc]
  refine .andThen blockAlloc_at fun r => .given ?_
  rintro ⟨cache, rfl⟩
  simp only [bind_assoc]
  refine .andThen (nlCacheRefill_picked a ha hblock hsend) fun err => ?_
  intro st hpicked
  rw [Picked] at hpicked
  cases hfs : familiesOf a.messages with
  | ok fs =>
      rw [hfs] at hpicked
      obtain ⟨rfl, hst⟩ := hpicked
      rw [if_neg (by decide), pure_bind]
      have hread : Completes (At fs ⟨seq + 1, seq + 1⟩ rest) (readFamily name read) fun err st =>
          err = foundIn name read (.ok fs) ∧ At fs ⟨seq + 1, seq + 1⟩ rest st := by
        intro st hst
        rw [hst.2.2.1.readFamily]
        exact ⟨rfl, hst⟩
      refine Triple.andThen hread (fun err => .given fun herr => ?_) st hst
      refine .andThen (nlCacheFree_at cache) fun _ => .ret fun st h => ?_
      rw [LookedUp, hfs]
      exact ⟨herr, h.1, h.2.1⟩
  | error e =>
      rw [hfs] at hpicked
      obtain ⟨rfl, hneg, gs, queue, hst⟩ := hpicked
      rw [if_pos hneg]
      simp only [bind_assoc, pure_bind]
      have hfree : Completes (At gs ⟨seq + 1, seq⟩ queue) (nlCacheFree cache >>= fun _ => pure err)
          (LookedUp a rest name read) := by
        refine .andThen (nlCacheFree_at cache) fun _ => .ret fun st h => ?_
        rw [LookedUp, hfs]
        exact ⟨rfl, h.1⟩
      exact hfree st hst

/-- **The answer decides.** For every dump, whatever is in its messages: the lookup returns the
error of the first message that is no family, and otherwise what it reads from the first family of
that name. Only in the second case is the answer read to its end; after an error the socket expects
the number of this request still, while the next one will carry another. -/
theorem genlCtrlResolve_answer (ha : a.Multipart peer.page)
    (hblock : peer.block.length = NlMsg.defaultMsgSize)
    (hsend : peer.send (getfamily seq peer.pid) = .ok (incoming a.parcels ++ rest))
    {st : RecvState CacheState} (hst : At [] ⟨seq, seq⟩ [] st) (name : List UInt8) :
    ∃ st', genlCtrlResolve peer name st = .ok (match familiesOf a.messages with
        | .error e => e
        | .ok fs => match fs.find? (·.name = name) with
          | some f => (f.getId : Int)
          | none => -nleObjNotfound) st' ∧
      match familiesOf a.messages with
      | .ok _ => st'.sk = ⟨seq + 1, seq + 1⟩ ∧ st'.queue = rest
      | .error _ => st'.sk = ⟨seq + 1, seq⟩ := by
  obtain ⟨err, st', hrun, rfl, hsocket⟩ :=
    (genlCtrlResolveWith_lookedUp a ha hblock hsend name fun f => f.getId).returns hst
  refine ⟨st', hrun.trans ?_, hsocket⟩
  cases familiesOf a.messages with
  | error e => rfl
  | ok fs => rfl

end Dump

/-- A dump that holds a message of another type. -/
def strangeDump : Answer 5 :=
  .dump [.build 17 nlmFMulti 5 [1, 2, 0, 0] [] (by decide)] (by decide) (by decide)

/-- A kernel that sends it, whatever it is asked. -/
def strangePeer : Peer :=
  ⟨7, List.replicate NlMsg.defaultMsgSize 170, fun _ => .ok (incoming strangeDump.parcels ++ []),
    16384⟩

theorem genlCtrlResolve_answer_strange : ∃ st',
    genlCtrlResolve strangePeer (ascii "nl80211") ⟨⟨5, 5⟩, [], {}⟩ = .ok (-nleMsgtypeNosupport)
      st' ∧
      st'.sk = ⟨6, 5⟩ := by
  have hmulti : strangeDump.Multipart strangePeer.page := by
    refine ⟨nofun, nofun, fun p hp => ?_, by decide⟩
    rw [List.mem_singleton.mp hp]
    show (packOctets _).length ≤ 16384
    decide
  have hst : At [] ⟨5, 5⟩ [] ⟨⟨5, 5⟩, [], {}⟩ := ⟨rfl, rfl, .start _ _, fun _ => rfl⟩
  have herror : familiesOf strangeDump.messages = .error (-nleMsgtypeNosupport) := by rfl
  obtain ⟨st', hrun, hsocket⟩ := genlCtrlResolve_answer strangeDump hmulti List.length_replicate rfl
    hst (ascii "nl80211")
  rw [herror] at hrun hsocket
  exact ⟨st', hrun, hsocket⟩

end Nl80211.Libnl
