/-
# Nl80211.Wifi.Object — the members of a `Wifi` object and the operations it applies to them.

`Net_link` holds a family id, a socket and two callback sets, none of which has an initial value; so
a pointer here is unassigned, null, or the handle of something allocated.  Every libnl call leaves
an event in a trace; one that dereferences a pointer without a live object behind it stops the run
as undefined, and one that waits for a datagram that never comes stops it as blocked.  The outcomes
of allocations, of `connect`, of the family lookup and of the sends are given by the environment.
-/
import Nl80211.Lib.Ownership
import Nl80211.Libnl.Dump
import Nl80211.Wifi.Reports

namespace Nl80211.Wifi

open Lib Lib.Bytes Libnl

/-! ## Pointers and events -/

/-- A pointer member. -/
inductive Ptr where
  | unassigned
  | null
  | obj (h : Nat)
  deriving DecidableEq, Repr

/-- The handle a pointer holds. -/
def Ptr.handle : Ptr → Option Nat
  | .obj h => some h
  | _ => none

/-- The libnl operations that are applied to a socket, a callback set or a message. -/
inductive Op where
  | setBufferSize | connect | send | recv | close | socketFree | cbSet | cbClone | cbPut | msgFree
  deriving DecidableEq, Repr

abbrev Event := Ownership.Event Op Nat

instance (h : Nat) (t : List Event) : Decidable (Ownership.Live h t) :=
  inferInstanceAs (Decidable (_ ∧ _))

/-! ## Requests -/

/-- A request as `genlmsg_put` and `nla_put_u32` fill it in; `family` is `none` when `nl_.id` has
never been assigned. -/
structure Request where
  family : Option Int
  seq : UInt32
  flags : Nat
  cmd : Nat
  attrs : List (Nat × List UInt8)
  deriving DecidableEq, Repr

/-- `NL80211_CMD_GET_INTERFACE`. -/
def nl80211CmdGetInterface : Nat := 5

/-- `NL80211_CMD_GET_STATION`. -/
def nl80211CmdGetStation : Nat := 17

/-- `NL_AUTO_SEQ`. -/
def nlAutoSeq : UInt32 := 0

/-- `genlmsg_put`. -/
def genlmsgPut (seq : UInt32) (family : Option Int) (flags cmd : Nat) : Request :=
  ⟨family, seq, flags, cmd, []⟩

/-- `nla_put_u32`; an `int` argument is converted to its 32-bit pattern. -/
def nlaPutU32 (msg : Request) (attrtype : Nat) (value : Int) : Request :=
  { msg with attrs := msg.attrs ++ [(attrtype, le32 (ofInt32 value))] }

/-- The member `nlmsg_len` of the request. -/
def Request.length (msg : Request) : Nat :=
  nlmsgHdrlen + genlHdrlen + (msg.attrs.map fun a => align4 (nlaHdrlen + a.2.length)).sum

/-! ## The object -/

/-- A message handed to one of the two handlers. -/
inductive Call where
  | name (msg : Mem)
  | info (msg : Mem)
  deriving DecidableEq

/-- What the callbacks work on: the two result flags and the record.  `calls` remembers the messages
the handlers were given, `overrun` whether one of them has written behind the record. -/
structure Fields where
  nameResult : Int := -1
  infoResult : Int := -1
  wifi : WifiMsg := .init
  calls : List Call := []
  overrun : Bool := false
  deriving DecidableEq

/-- `Net_link`, less the result flags. -/
structure NetLink where
  id : Option Int := none
  socket : Ptr := .unassigned
  nameCb : Ptr := .unassigned
  infoCb : Ptr := .unassigned
  deriving DecidableEq, Repr

/-- A `Wifi` object, the socket it has opened and what has happened. -/
structure World where
  /-- `dev_`, the name given to the constructor -/
  dev : List UInt8 := []
  nl : NetLink := {}
  fields : Fields := {}
  /-- the counters in the `struct nl_sock` -/
  sk : NlSock := ⟨0, 0⟩
  /-- its member `s_cb` -/
  sCb : Ptr := .unassigned
  /-- what has yet to arrive on the socket -/
  queue : List Incoming := []
  /-- the number of handles given out -/
  handles : Nat := 0
  trace : List Event := []
  /-- the requests handed to `sendmsg` for this object -/
  requests : List Request := []
  /-- the command lines handed to the shell -/
  commands : List (List UInt8) := []

/-- Why a run does not return. -/
inductive Stop where
  /-- it waits for a datagram that never comes; whatever it has done before, it does
  not get further -/
  | blocked
  /-- its behaviour is undefined: an operation on what is not live, or a handler that has written
  behind the record -/
  | undefined
  deriving DecidableEq, Repr

abbrev Act := EStateM Stop World

/-! ## Operations -/

/-- Note an event. -/
def note (e : Event) : Act Unit := modify fun w => { w with trace := w.trace ++ [e] }

/-- The handle is live. -/
def World.IsLive (w : World) : Ptr → Prop
  | .obj h => Ownership.Live h w.trace
  | _ => False

instance (w : World) : (p : Ptr) → Decidable (w.IsLive p)
  | .obj h => inferInstanceAs (Decidable (Ownership.Live h w.trace))
  | .unassigned => isFalse id
  | .null => isFalse id

/-- An operation that dereferences its argument. -/
def touch (op : Op) (p : Ptr) : Act Unit := do
  let w ← get
  note (.use op p.handle)
  if w.IsLive p then return () else throw .undefined

/-- An operation that frees its argument. -/
def dispose (op : Op) (p : Ptr) : Act Unit := do
  let w ← get
  note (.release op p.handle)
  if w.IsLive p then return () else throw .undefined

/-- A successful allocation. -/
def acquire : Act Ptr := do
  let w ← get
  set { w with handles := w.handles + 1, trace := w.trace ++ [Ownership.Event.acquire w.handles] }
  return .obj w.handles

/-- `nl_cb_alloc`, or `nlmsg_alloc`; `ok` says whether there is memory. -/
def allocate (ok : Bool) : Act Ptr := if ok then acquire else return .null

/-- `nl_cb_put`: nothing for a null pointer, else the last reference goes. -/
def nlCbPut (p : Ptr) : Act Unit :=
  if p = .null then note (.release .cbPut p.handle) else dispose .cbPut p

/-- `nlmsg_free`: nothing for a null pointer. -/
def nlmsgFree (p : Ptr) : Act Unit :=
  if p = .null then return () else dispose .msgFree p

/-- `nl_socket_free`: nothing for a null pointer, else `s_cb` and the socket. -/
def nlSocketFree (p : Ptr) : Act Unit :=
  if p = .null then note (.release .socketFree p.handle)
  else do
    touch .socketFree p
    nlCbPut (← get).sCb
    dispose .socketFree p

/-- `nl_close`. -/
def nlClose (p : Ptr) : Act Unit := touch .close p

/-- How `nl_socket_alloc` ends. -/
inductive SocketOutcome where
  /-- no memory for the callback set of the socket -/
  | noCallbacks
  /-- no memory for the socket -/
  | noSocket
  /-- no local port is free -/
  | noPort
  /-- a socket; both counters start at `time(0)` -/
  | ok (time : UInt32)
  deriving DecidableEq, Repr

/-- `nl_socket_alloc`. -/
def nlSocketAlloc (outcome : SocketOutcome) : Act Ptr := do
  let cb ← allocate (outcome ≠ .noCallbacks)
  if cb = .null then return .null
  let sk ← allocate (outcome ≠ .noSocket)
  if sk = .null then return .null
  modify fun w => { w with sCb := cb }
  match outcome with
  | .ok time =>
      modify fun w => { w with sk := ⟨time, time⟩ }
      return sk
  | _ =>
      nlSocketFree sk
      return .null

/-- How `genl_ctrl_resolve` ends: without a request, after a send that failed or without callbacks
to read the answer with (each with its error), or with an answer read.  The last gives what it
returns, the family id or an error, and the counters it leaves. -/
inductive ResolveOutcome where
  | noMessage
  | sendFailed (nle : Nat)
  | noClone
  | answered (id : Int) (sk : NlSock)
  deriving DecidableEq, Repr

/-- `genl_ctrl_resolve`: send a request for the families, read the answer with a clone of the
socket's own callbacks. -/
def genlCtrlResolve (socket : Ptr) (outcome : ResolveOutcome) : Act Int := do
  let msg ← allocate (outcome ≠ .noMessage)
  if msg = .null then return -nleNomem
  touch .send socket
  nlmsgFree msg
  match outcome with
  | .sendFailed nle => return -(nle + 1 : Int)
  | .answered id sk =>
      touch .cbClone (← get).sCb
      let cb ← acquire
      touch .cbSet cb
      touch .recv socket
      nlCbPut cb
      modify fun w => { w with sk := sk }
      return id
  | _ => return -nleNomem

/-- How a send ends: with an error, or with what the kernel will send back. -/
inductive SendOutcome where
  | failed (nle : Nat)
  | sent (answer : List Incoming)

/-- `nl_send_auto_complete`: complete the header and send. -/
def nlSendAutoComplete (socket : Ptr) (msg : Request) (outcome : SendOutcome) : Act Int := do
  touch .send socket
  let w ← get
  let (msg, sk) : Request × NlSock :=
    -- `NL_AUTO_SEQ`: the socket numbers the request
    if msg.seq = 0 then
      ({ msg with seq := w.sk.seqNext }, { w.sk with seqNext := w.sk.seqNext + 1 })
    else (msg, w.sk)
  let msg := { msg with flags := msg.flags ||| nlmFRequest ||| nlmFAck }
  set { w with sk := sk, requests := w.requests ++ [msg] }
  match outcome with
  | .failed nle => return -(nle + 1 : Int)
  | .sent answer =>
      modify fun w => { w with queue := w.queue ++ answer }
      return msg.length

/-! ## Callbacks -/

/-- `nl_cb_alloc(NL_CB_DEFAULT)`: no callback is set. -/
def nlCbDefault : NlCb Fields := ⟨fun _ => none, none⟩

/-- `nl_cb_set` with `NL_CB_CUSTOM`. -/
def nlCbSet (cb : NlCb Fields) (type : NlCbType) (f : Mem → Fields → Int × Fields) : NlCb Fields :=
  { cb with cbSet := Function.update cb.cbSet type (some f) }

/-- `get_wifi_name` on `wifi_`. -/
def onName (msg : Mem) (o : Fields) : Int × Fields :=
  let x := getWifiName msg o.wifi
  (x.val.1, { o with
    wifi := x.val.2
    calls := o.calls ++ [.name msg]
    overrun := o.overrun || decide (Overruns x) })

/-- `get_wifi_info` on `wifi_`. -/
def onInfo (msg : Mem) (o : Fields) : Int × Fields :=
  let x := getWifiInfo msg o.wifi
  (x.val.1, { o with
    wifi := x.val.2
    calls := o.calls ++ [.info msg]
    overrun := o.overrun || decide (Overruns x) })

/-- `finish_handler` on `name_result`. -/
def finishName (_ : Mem) (o : Fields) : Int × Fields := (nlSkip, { o with nameResult := 0 })

/-- `finish_handler` on `info_result`. -/
def finishInfo (_ : Mem) (o : Fields) : Int × Fields := (nlSkip, { o with infoResult := 0 })

/-- The callback set `name_cb` as `InitNl80211` sets it up. -/
def nameCbSet : NlCb Fields := nlCbSet (nlCbSet nlCbDefault .valid onName) .finish finishName

/-- The callback set `info_cb`. -/
def infoCbSet : NlCb Fields := nlCbSet (nlCbSet nlCbDefault .valid onInfo) .finish finishInfo

/-- `while (flag > 0) { nl_recvmsgs(nl_.socket, cb); }`.  All calls go to the same two objects; they
are noted once. -/
def recvLoop (page : Nat) (socket cbPtr : Ptr) (cb : NlCb Fields) (flag : Fields → Int) :
    Act Unit := do
  touch .recv socket
  touch .recv cbPtr
  let w ← get
  match recvWhile cb page flag ⟨w.sk, w.queue, w.fields⟩ with
  | some st =>
      set { w with sk := st.sk, queue := st.queue, fields := st.user }
      -- what a handler has overwritten behind the record is unknown
      if st.user.overrun then throw .undefined
  | none => throw .blocked

end Nl80211.Wifi
