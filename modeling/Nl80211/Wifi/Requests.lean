/-
# Nl80211.Wifi.Requests — the requests of a `Wifi` object, octet by octet.

So far a request has been a record.  Here it is what `sendmsg` gets: the message that `nlmsg_alloc`,
`genlmsg_put`, `nla_put_u32` and `nl_send_auto_complete` leave in a block of memory.  In every life
of an object every request comes out as the record says, whatever was in that memory, and the
kernel's walk over it finds the attributes (`life_wired`).
-/
import Nl80211.Libnl.Compose
import Nl80211.Wifi.Lifecycle

namespace Nl80211.Wifi

open Lib Lib.Bytes Libnl

/-! ## Records and octets -/

/-- The header of a request for the family `id`. -/
def Request.header (r : Request) (id : Int) (pid : UInt32) : Nlmsghdr where
  type := UInt16.ofInt id
  flags := UInt16.ofNat r.flags
  seq := r.seq
  pid := pid

/-- The octets of a request. -/
def Request.octets (r : Request) (id : Int) (pid : UInt32) : Mem :=
  (r.header id pid).octets ([UInt8.ofNat r.cmd, 0, 0, 0] ++ r.attrs.flatMap fun a => nlaPut a.1 a.2)

/-- The attributes of a request, as they are put. -/
def Request.puts (r : Request) : Attrs :=
  r.attrs.foldr (fun a rest => .put (UInt16.ofNat a.1) a.2 rest) .nil

/-- The message of a request before it is sent: allocated in `block`, numbered by nobody yet. -/
def Request.message (r : Request) (id : Int) (block : Mem) : Option NlMsg :=
  Attrs.message block ⟨UInt16.ofInt id, UInt16.ofNat nlmFDump, nlAutoSeq, 0⟩ (UInt8.ofNat r.cmd) 0
    r.puts

/-- A request that was handed to `sendmsg`: it could be composed in any block `nlmsg_alloc` returns,
no write left the block, what was sent is the record, and the receiver finds its attributes. -/
def Wired (r : Request) : Prop :=
  ∀ id, r.family = some id → ∀ (block : Mem) (pid : UInt32) (proto : Int),
    block.length = NlMsg.defaultMsgSize → ∃ m, r.message id block = some m ∧
      let done := (m.nlSendAutoComplete pid proto false r.seq).1
      done.fault = false ∧ done.sent = r.octets id pid ∧ done.sent.length = r.length ∧
        r.puts.Found done.sent (nlaWalk done.sent (genlmsgAttrdata (nlmsgData 0) 0)
          (genlmsgAttrlen done.sent (nlmsgData 0) 0))

theorem puts_octets {r : Request} (h : ∀ a ∈ r.attrs, a.1 < 65536) :
    r.puts.octets = r.attrs.flatMap fun a => nlaPut a.1 a.2 := by
  rw [Request.puts]
  generalize r.attrs = as at h
  induction as with
  | nil => rfl
  | cons a as ih =>
      have ha := h a List.mem_cons_self
      rw [List.foldr_cons, Attrs.octets, ih fun b hb => h b (List.mem_cons_of_mem a hb),
        UInt16.toNat_ofNat_of_lt' ha, List.flatMap_cons]

theorem flatMap_nlaPut_length (as : List (Nat × List UInt8)) :
    (as.flatMap fun a => nlaPut a.1 a.2).length =
      (as.map fun a => align4 (nlaHdrlen + a.2.length)).sum := by
  induction as with
  | nil => rfl
  | cons a as ih =>
      rw [List.flatMap_cons, List.length_append, ih, Attrs.nlaPut_length, List.map_cons,
        List.sum_cons]

/-- A request for a dump whose attributes fit goes out as it is. -/
theorem wired_completed {r : Request} (hflags : r.flags = nlmFDump)
    (htype : ∀ a ∈ r.attrs, a.1 < 65536)
    (hfits : r.puts.Fits NlMsg.defaultMsgSize (nlmsgHdrlen + genlHdrlen)) (w : World) :
    Wired (w.completed r) := by
  intro id hid block pid proto hblock
  have hmin : nlmsgHdrlen + genlHdrlen ≤ block.length := by rw [hblock]; decide
  have hmax : block.length < 65536 := by rw [hblock]; decide
  rw [← hblock] at hfits
  obtain ⟨m, hm, -⟩ := Attrs.message_holds
    ⟨UInt16.ofInt id, UInt16.ofNat nlmFDump, nlAutoSeq, 0⟩ (UInt8.ofNat r.cmd) 0 hmin hmax hfits
  have hdone := Attrs.composed_holds hmin hmax hm pid proto false (w.completed r).seq
  have hsent := hdone.sent_eq
  have hoctets : (NlMsg.completed ⟨UInt16.ofInt id, UInt16.ofNat nlmFDump, nlAutoSeq, 0⟩ pid false
      (w.completed r).seq).octets ([UInt8.ofNat r.cmd, 0, 0, 0] ++ r.puts.octets) =
        (w.completed r).octets id pid := by
    have hheader : NlMsg.completed ⟨UInt16.ofInt id, UInt16.ofNat nlmFDump, nlAutoSeq, 0⟩ pid false
        (w.completed r).seq = (w.completed r).header id pid := by
      have hflags' : (w.completed r).flags = nlmFDump ||| nlmFRequest ||| nlmFAck := by
        rw [← hflags]
        rfl
      have hdump : UInt16.ofNat nlmFDump ||| 1 ||| (if false then 0 else 4) =
          UInt16.ofNat (nlmFDump ||| nlmFRequest ||| nlmFAck) := by decide
      rw [Request.header, hflags']
      exact (Nlmsghdr.mk.injEq ..).mpr ⟨rfl, hdump, rfl, rfl⟩
    rw [puts_octets htype, hheader]
    rfl
  refine ⟨m, hm, hdone.sound, hsent.trans hoctets, ?_, Attrs.found_of_holds hdone⟩
  rw [hsent.trans hoctets, Request.octets, Nlmsghdr.octets_length, List.length_append,
    flatMap_nlaPut_length, Request.length, genlHdrlen, Nat.add_assoc]
  rfl

theorem wired_interface (w v : World) : Wired (w.completed (interfaceRequest v)) := by
  refine wired_completed rfl ?_ ?_ w
  · exact fun a ha => absurd ha List.not_mem_nil
  · trivial

theorem wired_station (w v : World) : Wired (w.completed (stationRequest v)) := by
  refine wired_completed rfl ?_ ?_ w
  · intro a ha
    rw [List.mem_singleton.mp ha]
    show nl80211AttrIfindex < 65536
    decide
  · exact ⟨by show _ + align4 (_ + (le32 _).length) + _ ≤ _; rw [le32_length]; decide, trivial⟩

/-! ## Every run -/

/-- Every request sent so far came out right. -/
def AllWired (w : World) : Prop := ∀ r ∈ w.requests, Wired r

/-- As long as it goes on, and also where it stops. -/
abbrev KeepsWired {α : Type} (x : Act α) : Prop := Keeps AllWired (fun _ => AllWired) x

theorem note_wired (e : Event) : KeepsWired (note e) := .update fun _ h => h

theorem touch_wired (op : Op) (p : Ptr) : KeepsWired (touch op p) :=
  .andThen .read fun _ => .andThen (note_wired _) fun _ =>
    .choose (.ret _) (.stop fun _ h => h)

theorem dispose_wired (op : Op) (p : Ptr) : KeepsWired (dispose op p) :=
  .andThen .read fun _ => .andThen (note_wired _) fun _ =>
    .choose (.ret _) (.stop fun _ h => h)

theorem allocate_wired (ok : Bool) : KeepsWired (allocate ok) := by
  refine .choose (fun w h => ?_) (.ret _)
  rw [acquire_eq]
  exact h

theorem nlCbPut_wired (p : Ptr) : KeepsWired (nlCbPut p) :=
  .choose (note_wired _) (dispose_wired _ _)

theorem nlmsgFree_wired (p : Ptr) : KeepsWired (nlmsgFree p) :=
  .choose (.ret _) (dispose_wired _ _)

theorem nlSocketFree_wired (p : Ptr) : KeepsWired (nlSocketFree p) :=
  .choose (note_wired _) <| .andThen (touch_wired _ _) fun _ => .andThen .read fun _ =>
    .andThen (nlCbPut_wired _) fun _ => dispose_wired _ _

theorem nlSocketAlloc_wired (outcome : SocketOutcome) : KeepsWired (nlSocketAlloc outcome) := by
  refine .andThen (allocate_wired _) fun cb => .choose (.ret _) ?_
  refine .andThen (allocate_wired _) fun sk => .choose (.ret _) ?_
  refine .andThen (.update fun _ h => h) fun _ => ?_
  cases outcome with
  | ok time => exact .andThen (.update fun _ h => h) fun _ => .ret _
  | noCallbacks | noSocket | noPort => exact .andThen (nlSocketFree_wired _) fun _ => .ret _

theorem genlCtrlResolve_wired (socket : Ptr) (outcome : ResolveOutcome) :
    KeepsWired (genlCtrlResolve socket outcome) := by
  refine .andThen (allocate_wired _) fun msg => .choose (.ret _) ?_
  refine .andThen (touch_wired _ _) fun _ => .andThen (nlmsgFree_wired _) fun _ => ?_
  cases outcome with
  | noMessage => exact .ret _
  | sendFailed nle => exact .ret _
  | noClone => exact .ret _
  | answered id sk =>
      refine .andThen .read fun _ => .andThen (touch_wired _ _) fun _ => ?_
      refine .andThen (allocate_wired true) fun cb => .andThen (touch_wired _ _) fun _ => ?_
      refine .andThen (touch_wired _ _) fun _ => .andThen (nlCbPut_wired _) fun _ => ?_
      exact .andThen (.update fun _ h => h) fun _ => .ret _

theorem abandon_wired (socket : Ptr) : KeepsWired (abandon socket) :=
  .andThen (touch_wired _ _) fun _ => .andThen (nlSocketFree_wired _) fun _ => .ret _

theorem initNl80211_wired (env : InitEnv) : KeepsWired (initNl80211 env) := by
  refine .andThen (nlSocketAlloc_wired _) fun socket => .andThen (.update fun _ h => h) fun _ => ?_
  refine .choose (.ret _) <|
    .andThen (touch_wired _ _) fun _ => .andThen (touch_wired _ _) fun _ => ?_
  refine .choose (abandon_wired _) <| .andThen (genlCtrlResolve_wired _ _) fun id => ?_
  refine .andThen (.update fun _ h => h) fun _ => .choose (abandon_wired _) ?_
  refine .andThen (allocate_wired _) fun nameCb => .andThen (.update fun _ h => h) fun _ => ?_
  refine .andThen (allocate_wired _) fun infoCb => .andThen (.update fun _ h => h) fun _ => ?_
  refine .choose (abandon_wired _) <| .andThen (touch_wired _ _) fun _ => ?_
  exact .andThen (touch_wired _ _) fun _ => .andThen (touch_wired _ _) fun _ =>
    .andThen (touch_wired _ _) fun _ => .ret _

/-- A send adds a request that comes out right. -/
theorem nlSendAutoComplete_wired {socket : Ptr} {msg : Request} (outcome : SendOutcome)
    (hseq : msg.seq = 0) (hmsg : ∀ w : World, Wired (w.completed msg)) :
    KeepsWired (nlSendAutoComplete socket msg outcome) := by
  intro w hw
  by_cases hs : w.IsLive socket
  · obtain ⟨rc, hrun⟩ := nlSendAutoComplete_eq outcome hs hseq
    rw [hrun]
    intro r hr
    rcases List.mem_append.mp hr with hr | hr
    · exact hw r hr
    · rw [List.mem_singleton.mp hr]
      exact hmsg w
  · rw [nlSendAutoComplete, bind_error (touch_dead hs)]
    exact hw

theorem recvLoop_wired (page : Nat) (socket cbPtr : Ptr) (cb : NlCb Fields) (flag : Fields → Int) :
    KeepsWired (recvLoop page socket cbPtr cb flag) := by
  refine .andThen (touch_wired _ _) fun _ => .andThen (touch_wired _ _) fun _ => ?_
  refine Triple.inspect fun w hw => ?_
  cases recvWhile cb page flag ⟨w.sk, w.queue, w.fields⟩ with
  | some st =>
      refine Triple.andThen (Q := fun _ => AllWired) ?_ fun _ =>
        Keeps.choose (.stop fun _ h => h) (.ret ())
      rintro w rfl
      exact hw
  | none =>
      rintro w rfl
      exact hw

theorem exchange_wired {page : Nat} {alloc : Bool} {msg : World → Request} {outcome : SendOutcome}
    {cbPtr : NetLink → Ptr} {cb : NlCb Fields} {flag : Fields → Int} (hseq : ∀ v, (msg v).seq = 0)
    (hmsg : ∀ w v : World, Wired (w.completed (msg v))) :
    KeepsWired (exchange page alloc msg outcome cbPtr cb flag) := by
  refine .andThen (allocate_wired _) fun ptr => .choose (.ret _) <| .andThen .read fun v => ?_
  refine .andThen (nlSendAutoComplete_wired _ (hseq v) fun w => hmsg w v) fun _ => ?_
  exact .andThen (recvLoop_wired _ _ _ _ _) fun _ => .andThen (nlmsgFree_wired _) fun _ => .ret _

theorem wifiInfoUpdate_wired (page : Nat) (env : UpdateEnv) :
    KeepsWired (wifiInfoUpdate page env) := by
  have hname : KeepsWired (interfacePhase page env) :=
    .andThen (.update fun _ h => h) fun _ => exchange_wired (fun _ => rfl) wired_interface
  have hinfo : KeepsWired (stationPhase page env) := exchange_wired (fun _ => rfl) wired_station
  refine .andThen hname fun named => .choose (.ret _) ?_
  refine .andThen .read fun w => .choose (.ret _) ?_
  exact .andThen hinfo fun asked => .choose (.ret _) (.ret _)

theorem wifiDelete_wired : KeepsWired wifiDelete :=
  .andThen .read fun _ => .andThen (nlCbPut_wired _) fun _ => .andThen .read fun _ =>
    .andThen (nlCbPut_wired _) fun _ => .andThen .read fun _ => .andThen (touch_wired _ _) fun _ =>
      .andThen .read fun _ => nlSocketFree_wired _

end Nl80211.Wifi
