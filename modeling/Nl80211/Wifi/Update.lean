/-
# Nl80211.Wifi.Update — construction, update and destruction of a `Wifi` object.

The three functions that talk to netlink, statement by statement: `InitNl80211`, `WifiInfoUpdate`
and the destructor; the constructor runs the first two whatever they return.  The outcomes of what
they call are parameters.
-/
import Nl80211.Wifi.Object

namespace Nl80211.Wifi

open Lib Lib.Bytes Libnl

/-- The outcomes in one run of `InitNl80211`. -/
structure InitEnv where
  socket : SocketOutcome
  /-- what `genl_connect` returns -/
  connect : Int
  resolve : ResolveOutcome
  nameCb : Bool
  infoCb : Bool

/-- The outcomes in one run of `WifiInfoUpdate`. -/
structure UpdateEnv where
  msg1 : Bool
  send1 : SendOutcome
  msg2 : Bool
  send2 : SendOutcome

/-- `nl_close` and `nl_socket_free`, as every failure branch of `InitNl80211` ends. -/
def abandon (socket : Ptr) : Act Bool := do
  nlClose socket
  nlSocketFree socket
  return false

/-- `Wifi::InitNl80211`. -/
def initNl80211 (env : InitEnv) : Act Bool := do
  let socket ← nlSocketAlloc env.socket
  modify fun w => { w with nl := { w.nl with socket := socket } }
  if socket = .null then
    return false                        -- "Failed to allocate netlink socket."
  touch .setBufferSize socket
  touch .connect socket
  if env.connect ≠ 0 then
    abandon socket                      -- "Failed to connect to netlink socket."
  else do
    let id ← genlCtrlResolve socket env.resolve
    modify fun w => { w with nl := { w.nl with id := some id } }
    if id < 0 then
      abandon socket                    -- "Nl80211 interface not found."
    else do
      let nameCb ← allocate env.nameCb
      modify fun w => { w with nl := { w.nl with nameCb := nameCb } }
      let infoCb ← allocate env.infoCb
      modify fun w => { w with nl := { w.nl with infoCb := infoCb } }
      if nameCb = .null ∨ infoCb = .null then
        abandon socket                  -- "Failed to allocate netlink callback."
      else do
        touch .cbSet nameCb
        touch .cbSet nameCb
        touch .cbSet infoCb
        touch .cbSet infoCb
        return true

/-- What the two halves of `WifiInfoUpdate` have in common: allocate a message, send it, read until
the flag is cleared, free the message.  `false` when the message cannot be allocated. -/
def exchange (page : Nat) (alloc : Bool) (msg : World → Request) (outcome : SendOutcome)
    (cbPtr : NetLink → Ptr) (cb : NlCb Fields) (flag : Fields → Int) : Act Bool := do
  let ptr ← allocate alloc
  if ptr = .null then
    return false                        -- "Failed to allocate netlink message."
  let w ← get
  let _ ← nlSendAutoComplete w.nl.socket (msg w) outcome
  recvLoop page w.nl.socket (cbPtr w.nl) cb flag
  nlmsgFree ptr
  return true

/-- The request for the interfaces. -/
def interfaceRequest (w : World) : Request :=
  genlmsgPut nlAutoSeq w.nl.id nlmFDump nl80211CmdGetInterface

/-- The request for the stations of the interface in the record. -/
def stationRequest (w : World) : Request :=
  nlaPutU32 (genlmsgPut nlAutoSeq w.nl.id nlmFDump nl80211CmdGetStation) nl80211AttrIfindex
    (w.fields.wifi.int .ifindex)

/-- `WifiInfoUpdate` up to `nlmsg_free(msg1)`. -/
def interfacePhase (page : Nat) (env : UpdateEnv) : Act Bool := do
  modify fun w => { w with fields := { w.fields with nameResult := 1, infoResult := 1 } }
  exchange page env.msg1 interfaceRequest env.send1 NetLink.nameCb nameCbSet Fields.nameResult

/-- `WifiInfoUpdate` from the second `nlmsg_alloc` on. -/
def stationPhase (page : Nat) (env : UpdateEnv) : Act Bool :=
  exchange page env.msg2 stationRequest env.send2 NetLink.infoCb infoCbSet Fields.infoResult

/-- `Wifi::WifiInfoUpdate`. -/
def wifiInfoUpdate (page : Nat) (env : UpdateEnv) : Act Int := do
  if ¬ (← interfacePhase page env) then return -2
  -- no interface was found
  if (← get).fields.wifi.int .ifindex < 0 then return -1
  if ¬ (← stationPhase page env) then return -2
  return 0

/-- `Wifi::Wifi`: both results are dropped. -/
def wifiNew (page : Nat) (netdev : List UInt8) (init : InitEnv) (update : UpdateEnv) :
    Act Unit := do
  modify fun w => { w with dev := netdev }
  let _ ← initNl80211 init
  let _ ← wifiInfoUpdate page update

/-- `Wifi::~Wifi`. -/
def wifiDelete : Act Unit := do
  nlCbPut (← get).nl.nameCb
  nlCbPut (← get).nl.infoCb
  nlClose (← get).nl.socket
  nlSocketFree (← get).nl.socket

end Nl80211.Wifi
