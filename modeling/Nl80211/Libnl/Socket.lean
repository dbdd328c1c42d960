/-
# Nl80211.Libnl.Socket — sockets, their ports and their callback sets.

A process has one bitmap of the ports it has given to its sockets; the port of slot `n` is the
process id with `n` in the ten bits above it.  A socket gets its port when it is allocated and gives
it back when it is freed, unless the caller has chosen a port for it.  It also holds one reference
to a callback set, which several sockets and the caller may share, and a descriptor while it is
connected.

What the kernel and the C library answer is a parameter of the calls that ask.
-/
import Nl80211.Lib.Counted
import Nl80211.Lib.Slots
import Nl80211.Libnl.Recv
import Mathlib

namespace Nl80211.Libnl

open Lib Lib.Counted Lib.Slots

def nlOwnPort : UInt32 := 4
def nlSockBufsizeSet : UInt32 := 1

/-- `struct nl_sock`: the port of `s_local`, the descriptor (`none` for -1), the rest
as it stands. -/
structure NlSocket where
  nlPid : UInt32 := 0
  sFd : Option Nat := none
  sProto : Int := 0
  seq : NlSock
  sFlags : UInt32 := 0
  sCb : Nat

/-- What does not change: the process id, and what `calloc` will say. -/
structure SockEnv where
  getpid : UInt32
  memory : Nat → Bool := fun _ => true

/-- The process: its ports, callback sets, sockets and open descriptors. -/
structure SockState where
  env : SockEnv
  usedPortsMap : Bitmap 32 32 := fun _ => 0
  cbs : Heap Unit := {}
  socks : Heap NlSocket := {}
  fds : Heap Unit := {}
  allocs : Nat := 0

/-- Where a program dies: in `BUG()`, because it touches a socket that has been freed, or because a
reference count runs over. -/
inductive Died where
  | bug
  | freed
  | overflow
  deriving DecidableEq, Repr

abbrev Sock := EStateM Died SockState

namespace Sock

/-- `calloc`: whether there was memory. -/
def calloc : Sock Bool :=
  modifyGet fun w => (w.env.memory w.allocs, { w with allocs := w.allocs + 1 })

/-- A read of a socket. -/
def sockOf (sk : Nat) : Sock NlSocket := do
  match (← get).socks.contents sk with
  | some s => return s
  | none => throw .freed

/-- A write to a socket. -/
def setSock (sk : Nat) (s : NlSocket) : Sock Unit :=
  modify fun w => { w with socks := w.socks.write sk s }

/-- `close`. -/
def closeFd (fd : Nat) : Sock Unit := modify fun w => { w with fds := w.fds.put fd }

end Sock

open Sock

/-! ## Ports -/

def uintMax : UInt32 := 0xFFFFFFFF

/-- `PID_MAX_LIMIT` is 2^22, which leaves ten bits. -/
def pidBits (pid : UInt32) : UInt32 := pid &&& 0x3FFFFF

/-- `pid + (n << 22)`, `n` the number of the slot. -/
def portOf (pid : UInt32) (s : Slot 32 32) : UInt32 := pidBits pid + UInt32.ofNat s.index <<< 22

/-- `generate_local_port`. -/
def generateLocalPort : Sock UInt32 := do
  let w ← get
  match w.usedPortsMap.firstFree with
  | some s =>
      set { w with usedPortsMap := w.usedPortsMap.mark s }
      return portOf w.env.getpid s
  | none => return uintMax

theorem portNr_lt (port : UInt32) : (port >>> 22).toNat < 32 * 32 := by
  have := port.toNat_lt
  rw [UInt32.toNat_shiftRight, Nat.shiftRight_eq_div_pow]
  show port.toNat / 2 ^ 22 < 32 * 32
  omega

/-- The slot a port was made from: `nr = port >> 22`. -/
def portSlot (port : UInt32) : Slot 32 32 := slotAt (port >>> 22).toNat (portNr_lt port)

/-- `release_local_port`. -/
def releaseLocalPort (port : UInt32) : Sock Unit := do
  if port = uintMax then return
  modify fun w => { w with usedPortsMap := w.usedPortsMap.clear (portSlot port) }

/-! ## Callback sets -/

def nlCbDefault : Int := 0
def nlCbKindMax : Int := 3

/-- `nl_cb_alloc`. -/
def nlCbAlloc (kind : Int) : Sock (Option Nat) := do
  if kind < 0 ∨ nlCbKindMax < kind then return none
  if ← calloc then modifyGet fun w => (some w.cbs.next, { w with cbs := w.cbs.alloc () })
  else return none

/-- The largest `int`. -/
def intMax : Nat := 2147483647

/-- `nl_cb_get`: `cb_refcnt` is an `int`. -/
def nlCbGet (cb : Nat) : Sock Nat := do
  if (← get).cbs.count cb = intMax then throw .overflow
  modify fun w => { w with cbs := w.cbs.get cb }
  return cb

/-- `nl_cb_put`: the count must not fall below zero. -/
def nlCbPut (cb : Nat) : Sock Unit := do
  if ((← get).cbs.cells cb).map Prod.fst = some 0 then throw .bug
  modify fun w => { w with cbs := w.cbs.put cb }

/-! ## Sockets -/

/-- `if (sk->s_fd >= 0) close(sk->s_fd)`. -/
def closeIfOpen (s : NlSocket) : Sock Unit :=
  match s.sFd with
  | some fd => closeFd fd
  | none => return

/-- `if (!(sk->s_flags & NL_OWN_PORT)) release_local_port(sk->s_local.nl_pid)`. -/
def releaseIfGenerated (s : NlSocket) : Sock Unit :=
  if s.sFlags &&& nlOwnPort = 0 then releaseLocalPort s.nlPid else return

/-- `nl_socket_free`. -/
def nlSocketFree (sk : Nat) : Sock Unit := do
  let s ← sockOf sk
  closeIfOpen s
  releaseIfGenerated s
  nlCbPut s.sCb
  modify fun w => { w with socks := w.socks.put sk }

/-- `__alloc_socket`, at the time `time(0)` reports. -/
def allocSocket (cb : Nat) (time : UInt32) : Sock (Option Nat) := do
  if ← calloc then
    let sk := (← get).socks.next
    modify fun w => { w with socks := w.socks.alloc { seq := ⟨time, time⟩, sCb := cb } }
    let port ← generateLocalPort
    setSock sk { nlPid := port, seq := ⟨time, time⟩, sCb := cb }
    if port = uintMax then
      nlSocketFree sk
      return none
    return some sk
  else
    -- the reference to the callback set stays where it is
    return none

/-- `nl_socket_alloc`. -/
def nlSocketAlloc (time : UInt32) : Sock (Option Nat) := do
  match ← nlCbAlloc nlCbDefault with
  | some cb => allocSocket cb time
  | none => return none

/-- `nl_socket_alloc_cb`. -/
def nlSocketAllocCb (cb : Option Nat) (time : UInt32) : Sock (Option Nat) := do
  match cb with
  | some cb => allocSocket (← nlCbGet cb) time
  | none => throw .bug

/-- `nl_socket_set_local_port`. -/
def nlSocketSetLocalPort (sk : Nat) (port : UInt32) : Sock Unit := do
  let s ← sockOf sk
  if port = 0 then
    let port ← generateLocalPort
    setSock sk { s with nlPid := port, sFlags := s.sFlags &&& ~~~nlOwnPort }
  else
    releaseIfGenerated s
    setSock sk { s with nlPid := port, sFlags := s.sFlags ||| nlOwnPort }

/-- `nl_socket_get_cb`. -/
def nlSocketGetCb (sk : Nat) : Sock Nat := do nlCbGet (← sockOf sk).sCb

/-- `nl_socket_set_cb`: the reference to the old set is given back first. -/
def nlSocketSetCb (sk cb : Nat) : Sock Unit := do
  let s ← sockOf sk
  nlCbPut s.sCb
  setSock sk { s with sCb := ← nlCbGet cb }

/-! ## Connections -/

def nleAfNosupport : Int := 11
def nleNoaddr : Int := 19
def nleBadSock : Int := 3
def afNetlink : Nat := 16
def sockaddrNlSize : Nat := 12

/-- What the system calls of one `nl_connect` answer, each an `errno` where it fails; `getsockname`
also the length of the address, its family and its port. -/
structure Answers where
  socket : Option Int := none
  sndbuf : Option Int := none
  rcvbuf : Option Int := none
  bind : Option Int := none
  getsockname : Option Int := none
  addrlen : Nat := sockaddrNlSize
  family : Nat := afNetlink
  port : UInt32 := 0

/-- `socket`. -/
def openFd : Sock Nat := modifyGet fun w => (w.fds.next, { w with fds := w.fds.alloc () })

/-- `nl_socket_set_buffer_size`, as `nl_connect` calls it. -/
def nlSocketSetBufferSize (sk : Nat) (a : Answers) : Sock Int := do
  let s ← sockOf sk
  if s.sFd = none then return -nleBadSock
  match a.sndbuf, a.rcvbuf with
  | some e, _ => return -nlSyserr2nlerr e
  | none, some e => return -nlSyserr2nlerr e
  | none, none =>
      setSock sk { s with sFlags := s.sFlags ||| nlSockBufsizeSet }
      return 0

/-- `if (!(sk->s_flags & NL_SOCK_BUFSIZE_SET)) err = nl_socket_set_buffer_size(sk, 0, 0)`. -/
def ensureBufferSize (sk : Nat) (a : Answers) : Sock Int := do
  let s ← sockOf sk
  if s.sFlags &&& nlSockBufsizeSet = 0 then nlSocketSetBufferSize sk a else return 0

/-- `bind` and what follows it in `nl_connect`. -/
def bindLocal (sk : Nat) (protocol : Int) (a : Answers) : Sock Int :=
  match a.bind, a.getsockname with
  | some e, _ => return -nlSyserr2nlerr e
  | none, some e => return -nlSyserr2nlerr e
  | none, none => do
      setSock sk { ← sockOf sk with nlPid := a.port }
      if a.addrlen ≠ sockaddrNlSize then return -nleNoaddr
      if a.family ≠ afNetlink then return -nleAfNosupport
      setSock sk { ← sockOf sk with sProto := protocol }
      return 0

/-- `errout`: the descriptor is closed and forgotten. -/
def errout (sk : Nat) (err : Int) : Sock Int := do
  let s ← sockOf sk
  closeIfOpen s
  setSock sk { s with sFd := none }
  return err

/-- `nl_connect`; the old descriptor is overwritten. -/
def nlConnect (sk : Nat) (protocol : Int) (a : Answers) : Sock Int := do
  let s ← sockOf sk
  match a.socket with
  | some e =>
      setSock sk { s with sFd := none }
      errout sk (-nlSyserr2nlerr e)
  | none =>
      setSock sk { s with sFd := some (← openFd) }
      let err ← ensureBufferSize sk a
      if err < 0 then errout sk err
      else
        let err ← bindLocal sk protocol a
        if err < 0 then errout sk err else return 0

/-- `nl_close`. -/
def nlClose (sk : Nat) : Sock Unit := do
  let s ← sockOf sk
  closeIfOpen s
  setSock sk { s with sFd := none, sProto := 0 }

end Nl80211.Libnl
