/-
# Nl80211.Wifi.Rounds — the two halves of an update, for every way the kernel can answer.

A request is either not sent, or answered by data messages and a terminator (`Reply`).  With a reply
that is good (sent, ended by `NLMSG_DONE`, the end received) a phase folds its handler over the data
messages received and leaves queue and counters as a fresh request wants them, unless a string was
copied past the end of the record; with any other reply it blocks.
-/
import Nl80211.Wifi.Accesses
import Nl80211.Wifi.Phases

namespace Nl80211.Wifi

open Lib Lib.Bytes Libnl

/-! ## Handlers over a list of messages -/

/-- The record after `get_wifi_name` has had the messages `ms`. -/
def nameRecord (r : WifiMsg) (ms : List NetMsg) : WifiMsg :=
  ms.foldl (fun r m => (getWifiName m.image r).val.2) r

/-- The record after `get_wifi_info` has had the messages `ms`. -/
def infoRecord (r : WifiMsg) (ms : List NetMsg) : WifiMsg :=
  ms.foldl (fun r m => (getWifiInfo m.image r).val.2) r

theorem nameCbSet_dump :
    DumpCb nameCbSet (fun msg o => (onName msg o).2) fun o => { o with nameResult := 0 } where
  goes := fun _ _ => .inr rfl
  valid := by
    have hskip (msg : Mem) (o : Fields) : onName msg o = (nlSkip, (onName msg o).2) := by
      simp [onName, getWifiName_val]
    exact congrArg some (funext fun msg => funext (hskip msg))
  finish := rfl
  unset := by
    intro t hv hf _
    simp [nameCbSet, nlCbSet, nlCbDefault, hv, hf]
  ack := rfl
  err := rfl

theorem infoCbSet_dump :
    DumpCb infoCbSet (fun msg o => (onInfo msg o).2) fun o => { o with infoResult := 0 } where
  goes := fun _ _ => .inr rfl
  valid := by
    have hskip (msg : Mem) (o : Fields) : onInfo msg o = (nlSkip, (onInfo msg o).2) := by
      simp [onInfo, getWifiInfo_val]
    exact congrArg some (funext fun msg => funext (hskip msg))
  finish := rfl
  unset := by
    intro t hv hf _
    simp [infoCbSet, nlCbSet, nlCbDefault, hv, hf]
  ack := rfl
  err := rfl

/-- Every string that is copied from the messages ends inside the record. -/
def AllBounded (ms : List NetMsg) : Prop := ∀ m ∈ ms, (nameReport m.image).Bounded

instance (ms : List NetMsg) : Decidable (AllBounded ms) :=
  inferInstanceAs (Decidable (∀ m ∈ ms, _))

theorem foldl_onName (ms : List NetMsg) (o : Fields) :
    ms.foldl (fun o m => (onName m.image o).2) o =
      { o with
        wifi := nameRecord o.wifi ms
        calls := o.calls ++ ms.map fun m => .name m.image
        overrun := o.overrun || !decide (AllBounded ms) } := by
  induction ms generalizing o with
  | nil => simp [nameRecord, AllBounded]
  | cons m ms ih =>
      have hall : decide (AllBounded (m :: ms)) =
          (decide (nameReport m.image).Bounded && decide (AllBounded ms)) := by
        rw [← Bool.decide_and]
        exact decide_eq_decide.mpr List.forall_mem_cons
      rw [List.foldl_cons, ih, hall]
      simp [onName, nameRecord, overruns_getWifiName, Bool.or_assoc]

theorem foldl_onInfo (ms : List NetMsg) (o : Fields) :
    ms.foldl (fun o m => (onInfo m.image o).2) o =
      { o with
        wifi := infoRecord o.wifi ms
        calls := o.calls ++ ms.map fun m => .info m.image } := by
  induction ms generalizing o with
  | nil => simp [infoRecord]
  | cons m ms ih =>
      rw [List.foldl_cons, ih]
      simp [onInfo, infoRecord, not_overruns_getWifiInfo]

/-! ## Replies -/

/-- What becomes of a request: it is not sent, or the kernel answers it and ends the answer with
`NLMSG_DONE` or an error. -/
inductive Reply (seq : UInt32) where
  | failed (nle : Nat)
  | answered (a : Answer seq) (ended : a.terminator.IsDone ∨ a.terminator.IsError)

namespace Reply

variable {seq : UInt32}

/-- The reply as the send and the socket show it. -/
def outcome : Reply seq → SendOutcome
  | .failed nle => .failed nle
  | .answered a _ => .sent (incoming a.parcels)

/-- The request was sent, the answer ends with `NLMSG_DONE`, and that end fits the buffer it is read
into. -/
def Good (page : Nat) : Reply seq → Prop
  | .failed _ => False
  | .answered a _ => a.terminator.IsDone ∧ a.Fits page

instance (page : Nat) : (r : Reply seq) → Decidable (r.Good page)
  | .failed _ => isFalse id
  | .answered a _ => inferInstanceAs (Decidable (a.terminator.IsDone ∧ a.Fits page))

/-- The send failed or the terminator is an error. -/
def Failed : Reply seq → Prop
  | .failed _ => True
  | .answered a _ => a.terminator.IsError

/-- The data messages that are received. -/
def delivered (page : Nat) : Reply seq → List NetMsg
  | .failed _ => []
  | .answered a _ => a.delivered page

theorem not_failed_of_good {page : Nat} {r : Reply seq} (h : r.Good page) : ¬ r.Failed := by
  cases r with
  | failed nle => exact absurd h id
  | answered a ended =>
      intro herr
      have hdone : a.terminator.type = nlmsgDone := h.1
      have herr : a.terminator.type = nlmsgError := herr.1
      rw [hdone] at herr
      exact absurd herr (by decide)

end Reply

/-! ## One phase -/

/-- The object between requests: in working order, nothing unread, both counters the same, and
nothing written behind the record. -/
structure Idle (w : World) : Prop where
  ready : Ready w
  queue : w.queue = []
  sync : w.sk.seqExpect = w.sk.seqNext
  intact : w.fields.overrun = false

/-- The events of a successful `InitNl80211`. -/
def openedTrace : List Event :=
  [.acquire 0, .acquire 1, .use .setBufferSize (some 1), .use .connect (some 1), .acquire 2,
    .use .send (some 1), .release .msgFree (some 2), .use .cbClone (some 0), .acquire 3,
    .use .cbSet (some 3), .use .recv (some 1), .release .cbPut (some 3), .acquire 4, .acquire 5,
    .use .cbSet (some 4), .use .cbSet (some 4), .use .cbSet (some 5), .use .cbSet (some 5)]

/-- The object as a successful `InitNl80211` leaves it: family `id`, both counters at `seq`. -/
def World.opened (id : Int) (seq : UInt32) : World where
  nl := ⟨some id, .obj 1, .obj 4, .obj 5⟩
  sk := ⟨seq, seq⟩
  sCb := .obj 0
  handles := 6
  trace := openedTrace

theorem initNl80211_opened {id : Int} (hid : 0 ≤ id) (time : UInt32) (sk : NlSock)
    (dev : List UInt8) :
    initNl80211 ⟨.ok time, 0, .answered id sk, true, true⟩ { dev := dev } =
      .ok true { World.opened id sk.seqNext with dev := dev, sk := sk } := by
  simp [initNl80211, nlSocketAlloc, genlCtrlResolve, allocate, acquire, touch, dispose, note,
    nlmsgFree, nlCbPut, World.IsLive, Ownership.Live, Ownership.Event.acquires,
    Ownership.Event.releases, Ptr.handle, Int.not_lt.mpr hid, World.opened, openedTrace, bind,
    EStateM.bind, pure, EStateM.pure, get, getThe, MonadStateOf.get, EStateM.get, set,
    MonadStateOf.set, EStateM.set, modify, modifyGet, MonadStateOf.modifyGet, EStateM.modifyGet]

theorem opened_idle (id : Int) (seq : UInt32) : Idle (World.opened id seq) where
  ready := {
    socket := show Ownership.Live 1 openedTrace by decide
    nameCb := show Ownership.Live 4 openedTrace by decide
    infoCb := show Ownership.Live 5 openedTrace by decide
    fresh := by
      intro h hle
      simp only [World.opened] at hle ⊢
      have hne : ∀ k, k < 6 → k ≠ h := by omega
      simp [openedTrace, Ownership.Event.acquires, Ownership.Event.releases, hne] }
  queue := rfl
  sync := rfl
  intact := rfl

/-- The object after an exchange that came to its end: the next request gets the next number. -/
structure Exchanged (w w' : World) (msg : Request) (fields : Fields) : Prop where
  idle : Idle w'
  nl : w'.nl = w.nl
  sk : w'.sk = ⟨w.sk.seqNext + 1, w.sk.seqNext + 1⟩
  fields : w'.fields = fields
  requests : w'.requests = w.requests ++ [w.completed msg]

section Phase

variable (page : Nat) (msg : World → Request) (cbPtr : NetLink → Ptr) {cb : NlCb Fields}
  (flag : Fields → Int) {w : World} {valid : Mem → Fields → Fields} {finish : Fields → Fields}
  (m : Request)

/-- An exchange whose reply is good: the handler has had every message, and the exchange returns
unless the handler has written behind the record. -/
theorem exchange_done (hw : Idle w) (hc : w.IsLive (cbPtr w.nl)) (hcb : DumpCb cb valid finish)
    (hvalid : ∀ m u, flag (valid m u) = flag u) (hfinish : ∀ u, flag (finish u) ≤ 0)
    (hflag : 0 < flag w.fields)
    (hm : ∀ w' : World, w'.nl = w.nl → w'.fields = w.fields → msg w' = m) (hseq : m.seq = 0)
    {r : Reply w.sk.seqNext} (hr : r.Good page) {u : Fields}
    (hu : finish ((r.delivered page).foldl (fun u m => valid m.image u) w.fields) = u) :
    (u.overrun = false →
      ∃ w', exchange page true msg r.outcome cbPtr cb flag w = .ok true w' ∧ Exchanged w w' m u) ∧
    (u.overrun = true →
      ∃ w', exchange page true msg r.outcome cbPtr cb flag w = .error .undefined w') := by
  cases r with
  | failed nle => exact absurd hr id
  | answered a ended =>
      have hloop : recvWhile cb page flag
          ⟨{ w.sk with seqNext := w.sk.seqNext + 1 }, incoming a.parcels ++ [], w.fields⟩ =
            some ⟨⟨w.sk.seqNext + 1, w.sk.seqNext + 1⟩, [], u⟩ :=
        hu ▸ recvWhile_done hcb hvalid hfinish a hr.1 hr.2 [] hw.sync hflag
      -- the object is idle: nothing but the answer is on the queue
      have hasked : w.asked (.sent (incoming a.parcels)) =
          ⟨{ w.sk with seqNext := w.sk.seqNext + 1 }, incoming a.parcels ++ [], w.fields⟩ := by
        simp [World.asked, SendOutcome.answer, hw.queue]
      have hrun : exchange page true msg (.sent (incoming a.parcels)) cbPtr cb flag w = _ :=
        exchange_true hw.ready hc hm hseq
      rw [hasked, hloop] at hrun
      dsimp only at hrun
      constructor
      · intro hover
        rw [if_neg (by simp [hover])] at hrun
        refine ⟨_, hrun, ?_⟩
        exact {
          idle := {
            ready := hw.ready.exchanged rfl rfl rfl
            queue := rfl
            sync := rfl
            intact := hover }
          nl := rfl
          sk := rfl
          fields := rfl
          requests := rfl }
      · intro hover
        rw [if_pos hover] at hrun
        exact ⟨_, hrun⟩

/-- An exchange whose reply is not good never returns. -/
theorem exchange_bad (hw : Idle w) (hc : w.IsLive (cbPtr w.nl)) (hcb : DumpCb cb valid finish)
    (hvalid : ∀ m u, flag (valid m u) = flag u) (hflag : 0 < flag w.fields)
    (hm : ∀ w' : World, w'.nl = w.nl → w'.fields = w.fields → msg w' = m) (hseq : m.seq = 0)
    {r : Reply w.sk.seqNext} (hr : ¬ r.Good page) :
    ∃ w', exchange page true msg r.outcome cbPtr cb flag w = .error .blocked w' := by
  have hloop : recvWhile cb page flag (w.asked r.outcome) = none := by
    cases r with
    | failed nle =>
        rw [recvWhile_eq_readOn hflag]
        exact readOn_nil (by simp [World.asked, Reply.outcome, SendOutcome.answer, hw.queue])
    | answered a ended =>
        have hbad : a.terminator.IsError ∨ ¬ a.Fits page := by
          by_contra h
          push Not at h
          exact hr ⟨ended.resolve_right h.1, h.2⟩
        have : recvWhile cb page flag
            ⟨{ w.sk with seqNext := w.sk.seqNext + 1 }, incoming a.parcels, w.fields⟩ = none :=
          recvWhile_stuck hcb hvalid a hbad hw.sync hflag
        simpa [World.asked, Reply.outcome, SendOutcome.answer, hw.queue] using this
  have hrun : exchange page true msg r.outcome cbPtr cb flag w = _ :=
    exchange_true hw.ready hc hm hseq
  rw [hloop] at hrun
  exact ⟨_, hrun⟩

end Phase

/-- The fields when an update begins. -/
def Fields.armed (o : Fields) : Fields := { o with nameResult := 1, infoResult := 1 }

/-- The fields after an interface phase that has received the messages `ms`, if their strings ended
inside the record. -/
def Fields.named (o : Fields) (ms : List NetMsg) : Fields :=
  { nameResult := 0
    infoResult := 1
    wifi := nameRecord o.wifi ms
    calls := o.calls ++ ms.map fun m => .name m.image }

/-- The fields after a station phase that has received the messages `ms`. -/
def Fields.informed (o : Fields) (ms : List NetMsg) : Fields :=
  { o with
    infoResult := 0
    wifi := infoRecord o.wifi ms
    calls := o.calls ++ ms.map fun m => .info m.image }

section Phases

variable (page : Nat) (env : UpdateEnv) {w : World}

/-- The world in which the exchange of the interface phase starts. -/
def World.armed (w : World) : World := { w with fields := w.fields.armed }

theorem interfacePhase_eq :
    interfacePhase page env w =
      exchange page env.msg1 interfaceRequest env.send1 NetLink.nameCb nameCbSet Fields.nameResult
        w.armed := rfl

theorem Idle.armed (hw : Idle w) : Idle w.armed :=
  ⟨⟨hw.ready.socket, hw.ready.nameCb, hw.ready.infoCb, hw.ready.fresh⟩, hw.queue,
    hw.sync, hw.intact⟩

/-- An interface phase whose reply is good, in general. -/
theorem interfacePhase_done (hw : Idle w) (hmsg : env.msg1 = true) {r : Reply w.sk.seqNext}
    (hsend : env.send1 = r.outcome) (hr : r.Good page) :
    (AllBounded (r.delivered page) → ∃ w', interfacePhase page env w = .ok true w' ∧
      Exchanged w w' (interfaceRequest w) (w.fields.named (r.delivered page))) ∧
    (¬ AllBounded (r.delivered page) →
      ∃ w', interfacePhase page env w = .error .undefined w') := by
  have hdone :=
    exchange_done page interfaceRequest NetLink.nameCb Fields.nameResult (interfaceRequest w)
    hw.armed hw.ready.nameCb nameCbSet_dump (fun _ _ => rfl) (fun _ => Int.le_refl 0) Int.one_pos
    (fun w' hnl _ => by rw [interfaceRequest, hnl]; rfl) rfl hr rfl
  have hover : w.armed.fields.overrun = false := hw.intact
  rw [foldl_onName, hover, Bool.false_or] at hdone
  rw [interfacePhase_eq, hmsg, hsend]
  constructor
  · intro hb
    have hnone : (!decide (AllBounded (r.delivered page))) = false := by simpa using hb
    obtain ⟨w', hrun, h⟩ := hdone.1 hnone
    refine ⟨w', hrun, h.idle, h.nl, h.sk, ?_, h.requests⟩
    rw [h.fields]
    simp [Fields.named, World.armed, Fields.armed, hb]
  · intro hb
    have hsome : (!decide (AllBounded (r.delivered page))) = true := by simpa using hb
    exact hdone.2 hsome

theorem interfacePhase_good (hw : Idle w) (hmsg : env.msg1 = true) {r : Reply w.sk.seqNext}
    (hsend : env.send1 = r.outcome) (hr : r.Good page) (hb : AllBounded (r.delivered page)) :
    ∃ w', interfacePhase page env w = .ok true w' ∧
      Exchanged w w' (interfaceRequest w) (w.fields.named (r.delivered page)) :=
  (interfacePhase_done page env hw hmsg hsend hr).1 hb

/-- A string that leaves the record leaves the behaviour of the phase undefined. -/
theorem interfacePhase_overrun (hw : Idle w) (hmsg : env.msg1 = true) {r : Reply w.sk.seqNext}
    (hsend : env.send1 = r.outcome) (hr : r.Good page) (hb : ¬ AllBounded (r.delivered page)) :
    ∃ w', interfacePhase page env w = .error .undefined w' :=
  (interfacePhase_done page env hw hmsg hsend hr).2 hb

theorem interfacePhase_bad (hw : Idle w) (hmsg : env.msg1 = true) {r : Reply w.sk.seqNext}
    (hsend : env.send1 = r.outcome) (hr : ¬ r.Good page) :
    ∃ w', interfacePhase page env w = .error .blocked w' := by
  obtain ⟨w', hrun⟩ := exchange_bad page interfaceRequest NetLink.nameCb
    Fields.nameResult (interfaceRequest w)
    hw.armed hw.ready.nameCb nameCbSet_dump (fun _ _ => rfl) Int.one_pos
    (fun w' hnl _ => by rw [interfaceRequest, hnl]; rfl) rfl hr
  exact ⟨w', by rw [interfacePhase_eq, hmsg, hsend]; exact hrun⟩

theorem stationPhase_good (hw : Idle w) (hflag : 0 < w.fields.infoResult) (hmsg : env.msg2 = true)
    {seq : UInt32} (hseq : w.sk.seqNext = seq) {r : Reply seq} (hsend : env.send2 = r.outcome)
    (hr : r.Good page) :
    ∃ w', stationPhase page env w = .ok true w' ∧
      Exchanged w w' (stationRequest w) (w.fields.informed (r.delivered page)) := by
  subst hseq
  have hdone :=
    exchange_done page stationRequest NetLink.infoCb Fields.infoResult (stationRequest w)
    hw hw.ready.infoCb infoCbSet_dump (fun _ _ => rfl) (fun _ => Int.le_refl 0) hflag
    (fun w' hnl hf => by rw [stationRequest, hnl, hf]; rfl) rfl hr rfl
  rw [foldl_onInfo] at hdone
  obtain ⟨w', hrun, h⟩ := hdone.1 hw.intact
  exact ⟨w', by rw [stationPhase, hmsg, hsend]; exact hrun, h⟩

theorem stationPhase_bad (hw : Idle w) (hflag : 0 < w.fields.infoResult) (hmsg : env.msg2 = true)
    {seq : UInt32} (hseq : w.sk.seqNext = seq) {r : Reply seq} (hsend : env.send2 = r.outcome)
    (hr : ¬ r.Good page) :
    ∃ w', stationPhase page env w = .error .blocked w' := by
  subst hseq
  obtain ⟨w', hrun⟩ := exchange_bad page stationRequest NetLink.infoCb
    Fields.infoResult (stationRequest w)
    hw hw.ready.infoCb infoCbSet_dump (fun _ _ => rfl) hflag
    (fun w' hnl hf => by rw [stationRequest, hnl, hf]; rfl) rfl hr
  exact ⟨w', by rw [stationPhase, hmsg, hsend]; exact hrun⟩

end Phases

end Nl80211.Wifi
