/-
# Nl80211.Wifi.Lifecycle — the life of a `Wifi` object from constructor to destructor.

The failure branches of `InitNl80211` free the socket and leave the pointer to it in place (or a
null pointer, or callback sets never assigned), and nobody looks at what `InitNl80211` returned: the
update and the destructor then use what is gone.  When every step of `InitNl80211` succeeds the
object owns a socket and two callback sets until the destructor releases them, whatever happens in
between.
-/
import Nl80211.Wifi.Rounds
import Nl80211.Wifi.Calls

namespace Nl80211.Wifi

open Lib Lib.Bytes Libnl

/-- Constructor, public calls, destructor. -/
def life (page : Nat) (netdev : List UInt8) (init : InitEnv) (update : UpdateEnv)
    (calls : List PublicCall) : Act Unit := do
  wifiNew page netdev init update
  calls.forM PublicCall.run
  wifiDelete

/-- The request carries a family id that was resolved. -/
def Resolved (init : InitEnv) (r : Request) : Prop :=
  ∃ id sk, init.resolve = .answered id sk ∧ 0 ≤ id ∧ r.family = some id

/-- However far a run gets, every operation is applied to something live and every request is for a
resolved family; if it gets to its end, everything acquired has been released exactly once. -/
def LifeSound (page : Nat) (netdev : List UInt8) (init : InitEnv) (update : UpdateEnv) : Prop :=
  ∀ calls, match life page netdev init update calls {} with
    | .ok _ w => Ownership.Disciplined w.trace ∧ (∀ r ∈ w.requests, Resolved init r) ∧
        Ownership.Settled w.trace
    | .error _ w => Ownership.Disciplined w.trace ∧ ∀ r ∈ w.requests, Resolved init r

/-- Every step of `InitNl80211` succeeds. -/
structure InitSucceeds (init : InitEnv) : Prop where
  socket : ∃ time, init.socket = .ok time
  connect : init.connect = 0
  resolve : ∃ id sk, init.resolve = .answered id sk ∧ 0 ≤ id
  nameCb : init.nameCb = true
  infoCb : init.infoCb = true

/-! ## When a step fails -/

/-- The socket pointer is null or what it points to has been released. -/
def Abandoned (w : World) : Prop :=
  match w.nl.socket with
  | .obj k => w.trace.countP (Ownership.Event.releases k) ≠ 0
  | .null => True
  | .unassigned => False

/-- `InitNl80211` has given up. -/
def AbandonsTo : EStateM.Result Stop World Bool → Prop
  | .ok b w => b = false ∧ Abandoned w
  | .error _ _ => False

/-- Every failing branch of `InitNl80211` leaves a socket pointer that must not be used. -/
theorem initNl80211_abandons {init : InitEnv} (h : ¬ InitSucceeds init) (dev : List UInt8) :
    AbandonsTo (initNl80211 init { dev := dev }) := by
  obtain ⟨socket, connect, resolve, nameCb, infoCb⟩ := init
  have hmiss : ∀ time id sk, socket = .ok time → connect = 0 → resolve = .answered id sk → 0 ≤ id →
      nameCb = true → infoCb = false := by
    rintro time id sk rfl rfl rfl hid rfl
    by_contra hcb
    exact h ⟨⟨time, rfl⟩, rfl, ⟨id, sk, rfl, hid⟩, rfl, by simpa using hcb⟩
  rcases socket with _ | _ | _ | time
  case' ok =>
    by_cases hc : connect = 0
    case' pos =>
      rcases resolve with _ | nle | _ | ⟨id, sk⟩
      case' sendFailed =>
        -- the error is negative, in either of the forms `simp` brings that to
        have hneg : -(nle + 1 : Int) < 0 := by omega
        have hneg' : (-1 : Int) < nle := by omega
      case' answered =>
        by_cases hid : id < 0
        case' neg =>
          cases nameCb
          case' true => have hinfo := hmiss time id sk rfl hc rfl (Int.not_lt.mp hid) rfl
          case' false => cases infoCb
  all_goals
    simp [*, initNl80211, nlSocketAlloc, genlCtrlResolve, allocate, acquire, touch, dispose, note,
      abandon, nlClose, nlSocketFree, nlmsgFree, nlCbPut, World.IsLive, Ownership.Live,
      Ownership.Event.acquires, Ownership.Event.releases, Ptr.handle, AbandonsTo,
        Abandoned, nleNomem,
      bind,
      EStateM.bind, pure, EStateM.pure, get, getThe, MonadStateOf.get, EStateM.get, set,
      MonadStateOf.set, EStateM.set, modify, modifyGet, MonadStateOf.modifyGet, EStateM.modifyGet]

theorem Abandoned.not_live {w : World} (h : Abandoned w) : ¬ w.IsLive w.nl.socket := by
  unfold Abandoned at h
  intro hlive
  cases hs : w.nl.socket with
  | unassigned => rw [hs] at h; exact h
  | null => rw [hs] at hlive; exact hlive
  | obj k =>
      rw [hs] at h hlive
      exact h hlive.2

/-- What has been released stays released. -/
theorem Abandoned.later {w w' : World} (h : Abandoned w) (hnl : w'.nl = w.nl) {t : List Event}
    (ht : w'.trace = w.trace ++ t) : Abandoned w' := by
  unfold Abandoned at h ⊢
  rw [hnl]
  cases hs : w.nl.socket with
  | unassigned => rw [hs] at h; exact h
  | null => trivial
  | obj k =>
      rw [hs] at h
      show w'.trace.countP _ ≠ 0
      rw [ht, List.countP_append]
      have h : w.trace.countP (Ownership.Event.releases k) ≠ 0 := h
      omega

/-- The trace is no longer disciplined. -/
def Astray (_ : Stop) (w : World) : Prop := ¬ Ownership.Disciplined w.trace

/-- An event applied to a pointer that is not live spoils the trace. -/
theorem astray_noted {w : World} {p : Ptr} {e : Event} (r : Stop)
    (hp : e.target = some p.handle) (h : ¬ w.IsLive p) : Astray r (w.noted e) := by
  refine Ownership.not_disciplined hp ?_
  rintro k hk hlive
  cases p with
  | obj j =>
      cases hk
      exact h hlive
  | unassigned => cases hk
  | null => cases hk

/-- Nothing follows an operation on a dead pointer. -/
theorem touch_astray {P : World → Prop} {op : Op} {p : Ptr} (h : ∀ w, P w → ¬ w.IsLive p) :
    Triple P (touch op p) (fun _ _ => False) Astray := by
  intro w hw
  rw [touch_dead (h w hw)]
  exact astray_noted .undefined rfl (h w hw)

theorem nlCbPut_abandoned (p : Ptr) : Keeps Abandoned Astray (nlCbPut p) := by
  refine .choose (.update fun w hw => hw.later rfl rfl) ?_
  intro w hw
  by_cases hlive : w.IsLive p
  · rw [dispose_live hlive]
    exact hw.later rfl rfl
  · rw [dispose_dead hlive]
    exact astray_noted .undefined rfl hlive

/-- An exchange either cannot allocate its message or sends on a dead socket. -/
theorem exchange_abandoned {page : Nat} {alloc : Bool} {msg : World → Request}
    {outcome : SendOutcome} {cbPtr : NetLink → Ptr} {cb : NlCb Fields} {flag : Fields → Int} :
    Keeps Abandoned Astray (exchange page alloc msg outcome cbPtr cb flag) := by
  refine Triple.andThen (Q := fun _ => Abandoned) ?_ fun ptr => ?_
  · exact .choose (fun _ w hw => hw.later rfl rfl) fun _ => .ret fun w hw => hw
  · refine Triple.choose (fun _ => .ret fun w hw => hw) fun _ => .inspect fun a ha => ?_
    have hsend : Triple (· = a) (nlSendAutoComplete a.nl.socket (msg a) outcome)
        (fun _ _ => False) Astray :=
      .andThen (touch_astray fun w hw => hw ▸ ha.not_live) fun _ w hw => hw.elim
    exact .andThen hsend fun _ w hw => hw.elim

theorem wifiInfoUpdate_abandoned (page : Nat) (env : UpdateEnv) :
    Keeps Abandoned Astray (wifiInfoUpdate page env) := by
  refine .andThen (.andThen (.update fun w hw => hw.later rfl (List.append_nil _).symm)
    fun _ => exchange_abandoned) fun named => .choose (.ret _) ?_
  refine .andThen .read fun w => .choose (.ret _) ?_
  exact .andThen (exchange_abandoned) fun asked => .choose (.ret _) (.ret _)

/-- The destructor of an abandoned object closes what is gone. -/
theorem wifiDelete_abandoned : Triple Abandoned wifiDelete (fun _ _ => False) Astray := by
  refine .andThen Keeps.read fun a => .andThen (nlCbPut_abandoned _) fun _ => ?_
  refine .andThen Keeps.read fun b => .andThen (nlCbPut_abandoned _) fun _ => ?_
  refine .inspect fun c hc => ?_
  exact .andThen (touch_astray fun w hw => hw ▸ hc.not_live) fun _ w hw => hw.elim

/-- A life without a successful initialisation goes wrong before its end. -/
theorem life_abandoned (page : Nat) (netdev : List UInt8) {init : InitEnv} (update : UpdateEnv)
    (h : ¬ InitSucceeds init) :
    Triple (· = {}) (life page netdev init update []) (fun _ _ => False) Astray := by
  refine .andThen (Q := fun _ => Abandoned) ?_ fun _ =>
    .andThen (.ret fun w hw => hw) fun _ => wifiDelete_abandoned
  refine .andThen (Q := fun _ w => w = { dev := netdev })
    (.update fun w hw => by rw [hw]) fun _ => ?_
  refine .andThen (Q := fun _ => Abandoned) ?_ fun _ =>
    .andThen (wifiInfoUpdate_abandoned page update) fun _ => .ret fun w hw => hw
  rintro w rfl
  have hinit := initNl80211_abandons h netdev
  cases hrun : initNl80211 init { dev := netdev } with
  | ok b w' => rw [hrun] at hinit; exact hinit.2
  | error e w' => rw [hrun] at hinit; exact hinit.elim

/-! ## When every step succeeds -/

/-- The object holds the handles `live` and no others, its pointers are those of a successful
`InitNl80211`, and its requests were for the family that was resolved. -/
structure Owns (init : InitEnv) (live : List Nat) (w : World) : Prop where
  ledger : ∃ past, Ownership.run {} w.trace = some ⟨live, past⟩ ∧
    (∀ h ∈ live, h < w.handles) ∧ ∀ h ∈ past, h < w.handles
  nl : ∃ id sk, init.resolve = .answered id sk ∧ 0 ≤ id ∧ w.nl = ⟨some id, .obj 1, .obj 4, .obj 5⟩
  sCb : w.sCb = .obj 0
  requests : ∀ r ∈ w.requests, Resolved init r

/-- The run is in order where it stops. -/
def InOrder (init : InitEnv) (_ : Stop) (w : World) : Prop :=
  Ownership.Disciplined w.trace ∧ ∀ r ∈ w.requests, Resolved init r

section Owned

variable {init : InitEnv} {live : List Nat} {w : World} {k : Nat}

theorem Owns.inOrder (h : Owns init live w) (e : Stop) : InOrder init e w := by
  obtain ⟨past, hrun, -⟩ := h.ledger
  exact ⟨Ownership.run_disciplined hrun, h.requests⟩

theorem Owns.isLive (h : Owns init live w) (hk : k ∈ live) : w.IsLive (.obj k) := by
  obtain ⟨past, hrun, -⟩ := h.ledger
  have htracks := (Ownership.Tracks.empty.run hrun).1
  exact htracks.live k hk

/-- An event the ledger accepts. -/
theorem Owns.noted (h : Owns init live w) {live' : List Nat} (new : List Nat) {e : Event}
    (he : ∀ past, Ownership.step ⟨live, past⟩ e = some ⟨live', new ++ past⟩)
    (hlive : live' ⊆ live) (hnew : new ⊆ live) : Owns init live' (w.noted e) := by
  obtain ⟨past, hrun, hl, hp⟩ := h.ledger
  refine ⟨⟨new ++ past, ?_, fun j hj => hl j (hlive hj), fun j hj => ?_⟩, h.nl, h.sCb, h.requests⟩
  · rw [World.noted, Ownership.run_append, hrun, Option.bind_some, Ownership.run, he]
    rfl
  · rcases List.mem_append.mp hj with hj | hj
    · exact hl j (hnew hj)
    · exact hp j hj

theorem touch_owns {op : Op} (hk : k ∈ live) :
    Keeps (Owns init live) (InOrder init) (touch op (.obj k)) := by
  intro w hw
  rw [touch_live (hw.isLive hk)]
  exact hw.noted [] (fun past => if_pos hk) (fun _ => id) (List.nil_subset _)

theorem dispose_owns {op : Op} (hk : k ∈ live) :
    Triple (Owns init live) (dispose op (.obj k)) (fun _ => Owns init (live.filter (· ≠ k)))
      (InOrder init) := by
  intro w hw
  rw [dispose_live (hw.isLive hk)]
  exact hw.noted [k] (fun past => if_pos hk) (fun j => List.mem_of_mem_filter)
    (by simpa using hk)

/-- The handle of a message that is allocated is new. -/
theorem acquire_owns :
    Triple (Owns init live) acquire
      (fun p w => ∃ k, p = .obj k ∧ k ∉ live ∧ Owns init (k :: live) w) (InOrder init) := by
  intro w hw
  obtain ⟨past, hrun, hl, hp⟩ := hw.ledger
  have hnl : w.handles ∉ live := fun h => Nat.lt_irrefl _ (hl _ h)
  have hnp : w.handles ∉ past := fun h => Nat.lt_irrefl _ (hp _ h)
  refine ⟨w.handles, rfl, hnl, ⟨past, ?_, ?_, fun j hj => Nat.lt_succ_of_lt (hp j hj)⟩,
    hw.nl, hw.sCb,
    hw.requests⟩
  · rw [Ownership.run_append, hrun, Option.bind_some, Ownership.run, Ownership.step,
      if_neg (by simp [hnl, hnp])]
    rfl
  · intro j hj
    rcases List.mem_cons.mp hj with rfl | hj
    · exact Nat.lt_succ_self _
    · exact Nat.lt_succ_of_lt (hl j hj)

/-- A send adds a request for the resolved family. -/
theorem nlSendAutoComplete_owns {msg : Request} {outcome : SendOutcome} (hk : k ∈ live)
    (hseq : msg.seq = 0) (hmsg : Resolved init msg) :
    Keeps (Owns init live) (InOrder init) (nlSendAutoComplete (.obj k) msg outcome) := by
  intro w hw
  obtain ⟨rc, hrun⟩ := nlSendAutoComplete_eq outcome (hw.isLive hk) hseq
  have hnote : Owns init live (w.noted (.use .send (some k))) :=
    Triple.ok (Q := fun _ => Owns init live) (touch_owns hk) hw (touch_live (hw.isLive hk))
  rw [hrun]
  refine ⟨hnote.ledger, hw.nl, hw.sCb, fun r hr => ?_⟩
  rcases List.mem_append.mp hr with hr | hr
  · exact hw.requests r hr
  · rw [List.mem_singleton.mp hr]
    exact hmsg

/-- The receive loop changes what has arrived, not what the object holds. -/
theorem recvLoop_owns {page : Nat} {c : Nat} {cb : NlCb Fields} {flag : Fields → Int}
    (hk : k ∈ live)
    (hc : c ∈ live) :
    Keeps (Owns init live) (InOrder init) (recvLoop page (.obj k) (.obj c) cb flag) := by
  refine .andThen (touch_owns hk) fun _ => .andThen (touch_owns hc) fun _ => ?_
  refine Triple.inspect fun w hw => ?_
  cases recvWhile cb page flag ⟨w.sk, w.queue, w.fields⟩ with
  | some st =>
      refine Triple.andThen (Q := fun _ => Owns init live) ?_ fun _ => ?_
      · rintro w rfl
        exact ⟨hw.ledger, hw.nl, hw.sCb, hw.requests⟩
      · exact Keeps.choose (.stop fun w hw => hw.inOrder .undefined) (.ret ())
  | none =>
      rintro w rfl
      exact hw.inOrder .blocked

/-- The handles of a working object. -/
def ownHandles : List Nat := [5, 4, 1, 0]

/-- An exchange acquires one message and releases it. -/
theorem exchange_owns {page : Nat} {alloc : Bool} {msg : World → Request} {outcome : SendOutcome}
    {cbPtr : NetLink → Ptr} {cb : NlCb Fields} {flag : Fields → Int} {c : Nat}
    (hc : c ∈ ownHandles) (hcb : ∀ id, cbPtr ⟨id, .obj 1, .obj 4, .obj 5⟩ = .obj c)
    (hseq : ∀ w, (msg w).seq = 0) (hfamily : ∀ w, (msg w).family = w.nl.id) :
    Keeps (Owns init ownHandles) (InOrder init)
      (exchange page alloc msg outcome cbPtr cb flag) := by
  refine Triple.andThen
    (Q := fun p w => p = .null ∧ Owns init ownHandles w ∨
      ∃ k, p = .obj k ∧ k ∉ ownHandles ∧ Owns init (k :: ownHandles) w) ?_ fun ptr => ?_
  -- the message, where it can be had, is one handle more
  · refine .choose (fun _ => ?_) fun _ => .ret fun w hw => .inl ⟨rfl, hw⟩
    exact acquire_owns.weaken (fun _ => id) fun p w hw => .inr hw
  · refine Triple.choose (fun hptr => .ret ?_) fun hptr => ?_
    · rintro w (⟨-, hw⟩ | ⟨k, rfl, -⟩)
      · exact hw
      · cases hptr
    · refine .inspect fun w hw => ?_
      obtain ⟨hnull, -⟩ | ⟨k, rfl, hk, hw⟩ := hw
      · exact absurd hnull hptr
      obtain ⟨id, sk, hres, hid, hnl⟩ := hw.nl
      have hmsg : Resolved init (msg w) := ⟨id, sk, hres, hid, by rw [hfamily, hnl]⟩
      have hfree : (k :: ownHandles).filter (· ≠ k) = ownHandles := by
        rw [List.filter_cons_of_neg (by simp), List.filter_eq_self.mpr]
        intro j hj
        exact decide_eq_true fun h => hk (h ▸ hj)
      rw [hnl, hcb]
      refine Triple.weaken (P := Owns init (k :: ownHandles))
        (Q := fun _ => Owns init ownHandles) ?_ (fun v hv => hv ▸ hw) fun _ _ h => h
      have own {j : Nat} (hj : j ∈ ownHandles) : j ∈ k :: ownHandles := List.mem_cons_of_mem k hj
      -- send, read the answer, free the message
      refine .andThen (nlSendAutoComplete_owns (own (by decide)) (hseq w) hmsg) fun _ => ?_
      refine .andThen (recvLoop_owns (own (by decide)) (own hc)) fun _ => ?_
      refine .andThen (Q := fun _ => Owns init ownHandles) ?_ fun _ => .ret fun _ hv => hv
      rw [nlmsgFree, if_neg (by simp)]
      refine Triple.weaken (dispose_owns List.mem_cons_self) (fun _ hv => hv) fun _ v hv => ?_
      exact hfree ▸ hv

/-- An update leaves the object with what it had. -/
theorem wifiInfoUpdate_owns (page : Nat) (env : UpdateEnv) :
    Keeps (Owns init ownHandles) (InOrder init) (wifiInfoUpdate page env) := by
  have hname : Keeps (Owns init ownHandles) (InOrder init) (interfacePhase page env) :=
    .andThen (.update fun w hw => ⟨hw.ledger, hw.nl, hw.sCb, hw.requests⟩) fun _ =>
      exchange_owns (c := 4) (by decide) (fun _ => rfl) (fun _ => rfl) fun _ => rfl
  have hinfo : Keeps (Owns init ownHandles) (InOrder init) (stationPhase page env) :=
    exchange_owns (c := 5) (by decide) (fun _ => rfl) (fun _ => rfl) fun _ => rfl
  refine .andThen hname fun named => .choose (.ret _) ?_
  refine .andThen .read fun w => .choose (.ret _) ?_
  exact .andThen hinfo fun asked => .choose (.ret _) (.ret _)

/-- The destructor releases what the object has, each once. -/
theorem wifiDelete_owns :
    Triple (Owns init ownHandles) wifiDelete (fun _ => Owns init []) (InOrder init) := by
  have put {live : List Nat} (live' : List Nat) {k : Nat} (hk : k ∈ live)
      (h : live.filter (· ≠ k) = live') :
      Triple (Owns init live) (nlCbPut (.obj k)) (fun _ => Owns init live') (InOrder init) := by
    rw [nlCbPut, if_neg (by simp), ← h]
    exact dispose_owns hk
  have known {live : List Nat} {α : Type} {f : World → Act α} {Q : α → World → Prop}
      (h : ∀ id w, w.nl = ⟨some id, .obj 1, .obj 4, .obj 5⟩ → w.sCb = .obj 0 →
        Triple (Owns init live) (f w) Q (InOrder init)) :
      Triple (Owns init live) (get >>= f) Q (InOrder init) := by
    refine .inspect fun w hw => ?_
    obtain ⟨id, sk, -, -, hnl⟩ := hw.nl
    exact (h id w hnl hw.sCb).weaken (fun v hv => hv ▸ hw) fun _ _ h => h
  -- in the order of the destructor: the two callback sets, then the socket with a set of its own
  refine known fun id w hnl _ => ?_
  rw [hnl]
  refine .andThen (put [5, 1, 0] (by decide) (by decide)) fun _ => known fun id w hnl _ => ?_
  rw [hnl]
  refine .andThen (put [1, 0] (by decide) (by decide)) fun _ => known fun id w hnl _ => ?_
  rw [hnl]
  refine .andThen (touch_owns (by decide)) fun _ => known fun id w hnl _ => ?_
  rw [hnl, nlSocketFree, if_neg (by simp)]
  refine .andThen (touch_owns (by decide)) fun _ => known fun id w _ hcb => ?_
  rw [hcb]
  refine .andThen (put [1] (by decide) (by decide)) fun _ => ?_
  exact dispose_owns (show 1 ∈ [1] by decide)

/-- A successful `InitNl80211` leaves the object with a socket and two callback sets. -/
theorem initNl80211_owns (h : InitSucceeds init) (dev : List UInt8) :
    ∃ w, initNl80211 init { dev := dev } = .ok true w ∧ Owns init ownHandles w := by
  obtain ⟨socket, connect, resolve, nameCb, infoCb⟩ := init
  obtain ⟨⟨time, rfl⟩, rfl, ⟨id, sk, rfl, hid⟩, rfl, rfl⟩ := h
  refine ⟨_, initNl80211_opened hid time sk dev, ?_⟩
  exact {
    ledger := ⟨[3, 2], rfl, show ∀ h ∈ ownHandles, h < 6 by decide,
      show ∀ h ∈ [3, 2], h < 6 by decide⟩
    nl := ⟨id, sk, rfl, hid, rfl⟩
    sCb := rfl
    requests := fun r hr => absurd hr List.not_mem_nil }

/-- A life with a successful initialisation is in order to its end. -/
theorem life_owns (page : Nat) (netdev : List UInt8) (update : UpdateEnv) (h : InitSucceeds init)
    (calls : List PublicCall) :
    Triple (· = {}) (life page netdev init update calls) (fun _ => Owns init [])
      (InOrder init) := by
  have hcalls (c : PublicCall) : Keeps (Owns init ownHandles) (InOrder init) c.run :=
    c.run_keeps (fun w cs hw => ⟨hw.ledger, hw.nl, hw.sCb, hw.requests⟩)
      fun w hw => hw.inOrder .undefined
  refine .andThen (Q := fun _ => Owns init ownHandles) ?_ fun _ =>
    .andThen (Keeps.forEach hcalls calls) fun _ => wifiDelete_owns
  refine .andThen (Q := fun _ w => w = { dev := netdev })
    (.update fun w hw => by rw [hw]) fun _ => ?_
  refine .andThen (Q := fun _ => Owns init ownHandles) ?_ fun _ =>
    .andThen (wifiInfoUpdate_owns page update) fun _ => .ret fun w hw => hw
  rintro w rfl
  obtain ⟨w, hrun, hw⟩ := initNl80211_owns h netdev
  rw [hrun]
  exact hw

end Owned

/-- A failed initialisation is not survived. -/
theorem not_lifeSound {page : Nat} {netdev : List UInt8} {init : InitEnv} {update : UpdateEnv}
    (h : ¬ InitSucceeds init) : ¬ LifeSound page netdev init update := by
  intro hsound
  have hlife := life_abandoned page netdev update h {} rfl
  have hsound := hsound []
  cases hrun : life page netdev init update [] {} with
  | ok a w => rw [hrun] at hlife; exact hlife
  | error e w =>
      rw [hrun] at hlife hsound
      exact hlife hsound.1

/-- **Life cycle.** The life of an object is sound exactly when every step of `InitNl80211`
succeeds. -/
theorem lifeSound_iff (page : Nat) (netdev : List UInt8) (init : InitEnv) (update : UpdateEnv) :
    LifeSound page netdev init update ↔ InitSucceeds init := by
  refine ⟨fun h => by_contra fun hfail => not_lifeSound hfail h, fun h calls => ?_⟩
  have hlife := life_owns page netdev update h calls {} rfl
  cases hrun : life page netdev init update calls {} with
  | ok a w =>
      rw [hrun] at hlife
      obtain ⟨past, hledger, -⟩ := hlife.ledger
      exact ⟨Ownership.run_disciplined hledger, hlife.requests, Ownership.run_settled hledger rfl⟩
  | error e w =>
      rw [hrun] at hlife
      exact hlife

/-- A kernel without `nl80211`: the lookup returns `-NLE_OBJ_NOTFOUND`. -/
theorem family_not_found_unsound :
    ¬ LifeSound 4096 (ascii "wlan0") ⟨.ok 7, 0, .answered (-12) ⟨8, 8⟩, true, true⟩
      ⟨true, .sent [], true, .sent []⟩ := by
  refine not_lifeSound fun h => ?_
  obtain ⟨id, sk, hres, hid⟩ := h.resolve
  cases hres
  exact absurd hid (by decide)

end Nl80211.Wifi
