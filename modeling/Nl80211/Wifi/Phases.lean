/-
# Nl80211.Wifi.Phases — what one exchange with the kernel does to the object.

On an object whose pointers are live (`Ready`) an exchange is: complete the header with the next
sequence number, append the answer to the queue, run the receive loop.  Everything the later results
say about `WifiInfoUpdate` goes through `exchange_returns` and `exchange_blocks`.
-/
import Nl80211.Wifi.Update

namespace Nl80211.Wifi

open Lib Lib.Bytes Libnl

/-! ## Running actions -/

section Run

variable {α β : Type} {x : Act α} {f : α → Act β} {w w' : World} {a : α} {e : Stop}

theorem bind_ok (h : x w = .ok a w') : (x >>= f) w = f a w' := by
  simp only [bind, EStateM.bind, h]

theorem bind_error (h : x w = .error e w') : (x >>= f) w = .error e w' := by
  simp only [bind, EStateM.bind, h]

end Run

/-- The world after one more event. -/
def World.noted (w : World) (e : Event) : World := { w with trace := w.trace ++ [e] }

section Operations

variable {w : World} {p : Ptr} {op : Op}

theorem touch_live (h : w.IsLive p) : touch op p w = .ok () (w.noted (.use op p.handle)) := by
  simp only [touch, note, bind, EStateM.bind, get, getThe, MonadStateOf.get, EStateM.get, modify,
    modifyGet, MonadStateOf.modifyGet, EStateM.modifyGet]
  rw [if_pos h]
  rfl

theorem touch_dead (h : ¬ w.IsLive p) :
    touch op p w = .error .undefined (w.noted (.use op p.handle)) := by
  simp only [touch, note, bind, EStateM.bind, get, getThe, MonadStateOf.get, EStateM.get, modify,
    modifyGet, MonadStateOf.modifyGet, EStateM.modifyGet]
  rw [if_neg h]
  rfl

theorem dispose_live (h : w.IsLive p) :
    dispose op p w = .ok () (w.noted (.release op p.handle)) := by
  simp only [dispose, note, bind, EStateM.bind, get, getThe, MonadStateOf.get, EStateM.get, modify,
    modifyGet, MonadStateOf.modifyGet, EStateM.modifyGet]
  rw [if_pos h]
  rfl

theorem dispose_dead (h : ¬ w.IsLive p) :
    dispose op p w = .error .undefined (w.noted (.release op p.handle)) := by
  simp only [dispose, note, bind, EStateM.bind, get, getThe, MonadStateOf.get, EStateM.get, modify,
    modifyGet, MonadStateOf.modifyGet, EStateM.modifyGet]
  rw [if_neg h]
  rfl

theorem acquire_eq (w : World) :
    acquire w = .ok (.obj w.handles)
      { w with handles := w.handles + 1, trace := w.trace ++ [.acquire w.handles] } := rfl

end Operations

/-! ## Liveness along the trace -/

/-- A handle stays live while nothing releases it. -/
theorem World.IsLive.mono {w w' : World} {p : Ptr} {t : List Event} (h : w.IsLive p)
    (ht : w'.trace = w.trace ++ t)
    (hrel : ∀ k, p = .obj k → t.countP (Ownership.Event.releases k) = 0) : w'.IsLive p := by
  cases p with
  | unassigned => exact h
  | null => exact h
  | obj k =>
      obtain ⟨hacq, hnone⟩ := h
      refine ⟨?_, ?_⟩
      · rw [ht, List.any_append, hacq, Bool.true_or]
      · rw [ht, List.countP_append, hnone, hrel k rfl]

/-- The pointers of the object are live, and no event names a handle that has not been given out. -/
structure Ready (w : World) : Prop where
  socket : w.IsLive w.nl.socket
  nameCb : w.IsLive w.nl.nameCb
  infoCb : w.IsLive w.nl.infoCb
  fresh : ∀ h, w.handles ≤ h →
    w.trace.any (Ownership.Event.acquires h) = false ∧
      w.trace.countP (Ownership.Event.releases h) = 0

/-- A live handle has been given out. -/
theorem Ready.lt_handles {w : World} (hw : Ready w) {k : Nat} (h : w.IsLive (.obj k)) :
    k < w.handles := by
  by_contra hk
  have := (hw.fresh k (Nat.not_lt.mp hk)).1
  simp [h.1] at this

/-- The events of an exchange that comes to its end. -/
def exchangeTrace (w : World) (cbPtr : Ptr) : List Event :=
  [.acquire w.handles, .use .send w.nl.socket.handle, .use .recv w.nl.socket.handle,
    .use .recv cbPtr.handle, .release .msgFree (some w.handles)]

/-- After an exchange the object is in working order again. -/
theorem Ready.exchanged {w w' : World} (hw : Ready w) {cbPtr : Ptr} (hnl : w'.nl = w.nl)
    (hh : w'.handles = w.handles + 1) (ht : w'.trace = w.trace ++ exchangeTrace w cbPtr) :
    Ready w' := by
  have live {p : Ptr} (hp : w.IsLive p) : w'.IsLive p := by
    apply hp.mono ht
    intro k hk
    have hlt := hw.lt_handles (hk ▸ hp)
    simp only [exchangeTrace, List.countP_cons, List.countP_nil, Ownership.Event.releases]
    simp [Nat.ne_of_gt hlt]
  refine ⟨hnl ▸ live hw.socket, hnl ▸ live hw.nameCb, hnl ▸ live hw.infoCb, fun h hle => ?_⟩
  obtain ⟨hacq, hrel⟩ := hw.fresh h (by omega)
  have hne : w.handles ≠ h := by omega
  rw [ht]
  refine ⟨?_, ?_⟩
  · simp [exchangeTrace, hacq, Ownership.Event.acquires, hne]
  · simp [exchangeTrace, hrel, Ownership.Event.releases, hne]

/-! ## One exchange -/

/-- What a send puts on the queue. -/
def SendOutcome.answer : SendOutcome → List Incoming
  | .failed _ => []
  | .sent answer => answer

/-- The request as `nl_send_auto_complete` sends it. -/
def World.completed (w : World) (msg : Request) : Request :=
  { msg with seq := w.sk.seqNext, flags := msg.flags ||| nlmFRequest ||| nlmFAck }

/-- The state in which the receive loop of an exchange starts. -/
def World.asked (w : World) (outcome : SendOutcome) : RecvState Fields :=
  ⟨{ w.sk with seqNext := w.sk.seqNext + 1 }, w.queue ++ outcome.answer, w.fields⟩

theorem nlSendAutoComplete_eq {w : World} {socket : Ptr} {msg : Request} (outcome : SendOutcome)
    (hs : w.IsLive socket) (hseq : msg.seq = 0) :
    ∃ rc, nlSendAutoComplete socket msg outcome w =
      .ok rc
        { w with
          trace := w.trace ++ [.use .send socket.handle]
          sk := (w.asked outcome).sk
          queue := (w.asked outcome).queue
          requests := w.requests ++ [w.completed msg] } := by
  cases outcome with
  | failed nle =>
      refine ⟨-(nle + 1 : Int), ?_⟩
      rw [nlSendAutoComplete, bind_ok (touch_live hs)]
      simp only [bind, EStateM.bind, get, getThe, MonadStateOf.get, EStateM.get, hseq, if_true, set,
        MonadStateOf.set, EStateM.set, World.asked, SendOutcome.answer, List.append_nil]
      rfl
  | sent answer =>
      refine ⟨(w.completed msg).length, ?_⟩
      rw [nlSendAutoComplete, bind_ok (touch_live hs)]
      simp only [bind, EStateM.bind, get, getThe, MonadStateOf.get, EStateM.get, hseq, if_true, set,
        MonadStateOf.set, EStateM.set, World.asked, SendOutcome.answer]
      rfl

/-- The world behind a receive loop that has ended in `st`. -/
def World.received (w : World) (socket cbPtr : Ptr) (st : RecvState Fields) : World :=
  { w with
    trace := w.trace ++ [.use .recv socket.handle, .use .recv cbPtr.handle]
    sk := st.sk
    queue := st.queue
    fields := st.user }

theorem recvLoop_eq {w : World} (page : Nat) {socket cbPtr : Ptr} (cb : NlCb Fields)
    (flag : Fields → Int) (hs : w.IsLive socket) (hc : w.IsLive cbPtr) :
    recvLoop page socket cbPtr cb flag w =
      match recvWhile cb page flag ⟨w.sk, w.queue, w.fields⟩ with
      | some st =>
          if st.user.overrun then .error .undefined (w.received socket cbPtr st)
          else .ok () (w.received socket cbPtr st)
      | none =>
          .error .blocked { w with
            trace := w.trace ++ [.use .recv socket.handle, .use .recv cbPtr.handle] } := by
  have hc' : (w.noted (.use .recv socket.handle)).IsLive cbPtr :=
    hc.mono (t := [.use .recv socket.handle]) rfl (by simp [Ownership.Event.releases])
  rw [recvLoop, bind_ok (touch_live hs), bind_ok (touch_live hc')]
  simp only [bind, EStateM.bind, get, getThe, MonadStateOf.get, EStateM.get, World.noted,
    List.append_assoc, List.singleton_append]
  cases recvWhile cb page flag ⟨w.sk, w.queue, w.fields⟩ with
  | none => rfl
  | some st => cases hover : st.user.overrun <;> simp [hover, World.received] <;> rfl

section Exchange

variable {page : Nat} {msg : World → Request} {outcome : SendOutcome} {cbPtr : NetLink → Ptr}
  {cb : NlCb Fields} {flag : Fields → Int} {w : World}

theorem exchange_true (hw : Ready w) (hc : w.IsLive (cbPtr w.nl)) {m : Request}
    (hm : ∀ w' : World, w'.nl = w.nl → w'.fields = w.fields → msg w' = m) (hseq : m.seq = 0) :
    exchange page true msg outcome cbPtr cb flag w =
      match recvWhile cb page flag (w.asked outcome) with
      | some st =>
          if st.user.overrun then
            .error .undefined { w with
              handles := w.handles + 1
              trace := w.trace ++ (exchangeTrace w (cbPtr w.nl)).dropLast
              sk := st.sk
              queue := st.queue
              fields := st.user
              requests := w.requests ++ [w.completed m] }
          else
            .ok true { w with
              handles := w.handles + 1
              trace := w.trace ++ exchangeTrace w (cbPtr w.nl)
              sk := st.sk
              queue := st.queue
              fields := st.user
              requests := w.requests ++ [w.completed m] }
      | none =>
          .error .blocked { w with
            handles := w.handles + 1
            trace := w.trace ++ (exchangeTrace w (cbPtr w.nl)).dropLast
            sk := (w.asked outcome).sk
            queue := (w.asked outcome).queue
            requests := w.requests ++ [w.completed m] } := by
  obtain ⟨hfa, hfr⟩ := hw.fresh w.handles (Nat.le_refl _)
  -- the message is allocated
  let w₁ : World :=
    { w with handles := w.handles + 1, trace := w.trace ++ [.acquire w.handles] }
  have live₁ {p : Ptr} (hp : w.IsLive p) : w₁.IsLive p :=
    hp.mono (t := [.acquire w.handles]) rfl (by simp [Ownership.Event.releases])
  -- and sent
  obtain ⟨rc, hsend⟩ := nlSendAutoComplete_eq outcome (live₁ hw.socket)
    (show (msg w₁).seq = 0 by rw [hm w₁ rfl rfl]; exact hseq)
  rw [hm w₁ rfl rfl] at hsend
  let w₂ : World :=
    { w₁ with
      trace := w₁.trace ++ [.use .send w.nl.socket.handle]
      sk := (w.asked outcome).sk
      queue := (w.asked outcome).queue
      requests := w.requests ++ [w.completed m] }
  have live₂ {p : Ptr} (hp : w.IsLive p) : w₂.IsLive p :=
    (live₁ hp).mono (t := [.use .send w.nl.socket.handle]) rfl (by simp [Ownership.Event.releases])
  -- then the answer is read
  have hrecv := recvLoop_eq page cb flag (live₂ hw.socket) (live₂ hc)
  have hstart : exchange page true msg outcome cbPtr cb flag w =
      (do
        recvLoop page w.nl.socket (cbPtr w.nl) cb flag
        nlmsgFree (.obj w.handles)
        return true : Act Bool) w₂ := by
    have hget : (get : Act World) w₁ = .ok w₁ w₁ := rfl
    rw [exchange, allocate, if_pos rfl, bind_ok (acquire_eq w), if_neg (by simp), bind_ok hget,
      hm w₁ rfl rfl]
    exact bind_ok hsend
  rw [hstart]
  have hst : (⟨w₂.sk, w₂.queue, w₂.fields⟩ : RecvState Fields) = w.asked outcome := rfl
  rw [hst] at hrecv
  cases hloop : recvWhile cb page flag (w.asked outcome) with
  | none =>
      rw [hloop] at hrecv
      rw [bind_error hrecv]
      simp [w₂, w₁, exchangeTrace]
  | some st =>
      rw [hloop] at hrecv
      by_cases hover : st.user.overrun = true
      · simp only [if_pos hover] at hrecv ⊢
        rw [bind_error hrecv]
        simp [w₂, w₁, World.received, exchangeTrace]
      simp only [if_neg hover] at hrecv ⊢
      rw [bind_ok hrecv, nlmsgFree, if_neg (by simp)]
      rw [bind_ok (dispose_live ?_)]
      · simp [w₂, w₁, World.received, exchangeTrace, World.noted, Ptr.handle, pure, EStateM.pure]
      · refine ⟨?_, ?_⟩
        · simp [w₂, w₁, World.received, Ownership.Event.acquires]
        · simp [w₂, w₁, World.received, Ownership.Event.releases, hfr]

end Exchange

end Nl80211.Wifi
