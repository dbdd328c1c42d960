/-
# Nl80211.Netinfc.Object — the object `Netinfc` and the `ioctl`s it issues.

Every method fills or reads the one `struct ifreq` of the object and issues one `ioctl` on it.  The
request's second half is a union: the flags (a `short`) lie over the first octets of the address,
the netmask and the hardware address (each a `struct sockaddr`).  A successful query overwrites the
union with the kernel's answer, a failing one leaves it alone; whether an `ioctl` succeeds and what
the kernel answers is given by the environment.
-/
import Nl80211.Lib.Bytes

namespace Nl80211.Netinfc

open Lib.Bytes

/-! ## `struct ifreq` -/

/-- The union `ifr_ifru`. -/
structure Ifru where
  mem : Mem
  size : mem.length = 24
  deriving DecidableEq

namespace Ifru

/-- `ifr_flags`. -/
def flags (u : Ifru) : UInt16 := UInt16.ofNat (rd16 u.mem 0)

/-- Write `bs` at offset `i` of the union. -/
def put (u : Ifru) (i : Nat) (bs : List UInt8) : Ifru := ⟨store u.mem i bs, by simp [u.size]⟩

/-- Assign `ifr_flags`. -/
def setFlags (u : Ifru) (f : UInt16) : Ifru := u.put 0 (le16 f.toNat)

/-- `sin_addr` of `ifr_addr`, which is also that of `ifr_netmask`. -/
def sinAddr (u : Ifru) : List UInt8 := octets u.mem 4 4

/-- The first six octets of `ifr_hwaddr.sa_data`. -/
def hwaddr (u : Ifru) : List UInt8 := octets u.mem 2 6

end Ifru

/-- `struct ifreq`: `ifr_name`, as a C string, and the union. -/
structure Ifreq where
  name : List UInt8
  ifru : Ifru
  deriving DecidableEq

/-- `IFNAMSIZ`. -/
def ifnamsiz : Nat := 16

/-- `IFF_UP`. -/
def iffUp : UInt16 := 0x1

/-- `IFF_RUNNING`. -/
def iffRunning : UInt16 := 0x40

/-- `AF_INET`. -/
def afInet : Nat := 2

/-! ## `ioctl` -/

/-- The requests `Netinfc` issues. -/
inductive Ioctl where
  | siocgifflags | siocsifflags | siocgifaddr | siocsifaddr | siocgifnetmask | siocgifhwaddr
  deriving DecidableEq, Repr

/-- What the environment does with one `ioctl`: fail, or succeed, a query with this answer. -/
structure Reply where
  ok : Bool
  answer : Ifru

/-- One `ioctl` as it was issued, and the flags of the interface at that moment. -/
structure Issued where
  request : Ioctl
  ifr : Ifreq
  current : UInt16
  deriving DecidableEq

/-- A constructed object and its interface. -/
structure NetWorld where
  ifr : Ifreq
  /-- the flags the kernel holds for the interface -/
  kernelFlags : UInt16
  /-- the `ioctl`s issued so far -/
  issued : List Issued := []

/-- `ioctl(sockfd, request, &ifr)`: whether it succeeds, and what it leaves. -/
def ioctl (request : Ioctl) (reply : Reply) (w : NetWorld) : Bool × NetWorld :=
  let w := { w with issued := w.issued ++ [⟨request, w.ifr, w.kernelFlags⟩] }
  if reply.ok then
    match request with
    | .siocgifflags =>
        (true, { w with ifr := { w.ifr with ifru := reply.answer.setFlags w.kernelFlags } })
    | .siocgifaddr | .siocgifnetmask | .siocgifhwaddr =>
        (true, { w with ifr := { w.ifr with ifru := reply.answer } })
    | .siocsifflags => (true, { w with kernelFlags := w.ifr.ifru.flags })
    | .siocsifaddr => (true, w)
  else (false, w)

/-! ## Texts of addresses -/

/-- `inet_ntoa`. -/
def inetNtoa (addr : List UInt8) : List UInt8 :=
  (ascii ".").intercalate (addr.map fun b => ascii (toString b.toNat))

/-- `sprintf` with `%02X`. -/
def hex02X (b : UInt8) : List UInt8 :=
  [b.toNat / 16, b.toNat % 16].map fun n =>
    if n < 10 then UInt8.ofNat (48 + n) else UInt8.ofNat (55 + n)

/-! ## The methods -/

/-- `Netinfc::Netinfc`; `none` when it calls `exit(0)`.  `sock` is what `socket` returns. -/
def netinfcNew (netdev : List UInt8) (sock : Int) (reply : Reply) (kernelFlags : UInt16)
    (ifru : Ifru) :
    Option NetWorld :=
  if (cstr netdev 0).length ≥ ifnamsiz then none       -- "device name is error"
  else if sock < 0 then none                            -- "socket"
  else
    match ioctl .siocgifflags reply
      { ifr := ⟨cstr netdev 0, ifru⟩, kernelFlags := kernelFlags } with
    | (true, w) => some w
    | (false, _) => none                                -- "ioctl"

/-- `Netinfc::IfRunning`. -/
def ifRunning (reply : Reply) (w : NetWorld) : Bool × NetWorld :=
  match ioctl .siocgifflags reply w with
  | (false, w) => (false, w)
  | (true, w) => (w.ifr.ifru.flags &&& iffRunning ≠ 0, w)

/-- `Netinfc::GetInet`: the result, the value of `ip` and the object. -/
def getInet (reply : Reply) (ip : List UInt8) (w : NetWorld) : Bool × List UInt8 × NetWorld :=
  match ioctl .siocgifaddr reply w with
  | (false, w) => (false, ip, w)
  | (true, w) => (true, inetNtoa w.ifr.ifru.sinAddr, w)

/-- `Netinfc::GetMask`: the text of the netmask goes to the member `address` and no further. -/
def getMask (reply : Reply) (mac : List UInt8) (w : NetWorld) : Bool × List UInt8 × NetWorld :=
  match ioctl .siocgifnetmask reply w with
  | (false, w) => (false, mac, w)
  | (true, w) => (true, mac, w)

/-- `Netinfc::GetHwaddr`: the text is written over the caller's buffer. -/
def getHwaddr (reply : Reply) (mac : Mem) (w : NetWorld) : Bool × Mem × NetWorld :=
  match ioctl .siocgifhwaddr reply w with
  | (false, w) => (false, mac, w)
  | (true, w) =>
      (true, store mac 0 ((ascii ":").intercalate (w.ifr.ifru.hwaddr.map hex02X) ++ [0]), w)

/-- `Netinfc::GetMacAddr`: the octets go to a local array and no further. -/
def getMacAddr (reply : Reply) (mac : Mem) (w : NetWorld) : Bool × Mem × NetWorld :=
  match ioctl .siocgifhwaddr reply w with
  | (false, w) => (false, mac, w)
  | (true, w) => (true, mac, w)

/-- `Netinfc::SetIpaddr`.  `inetAton` is the C library's: the four octets of the address, or `none`
when it rejects the text and leaves its output alone; the result is not looked at. -/
def setIpaddr (inetAton : List UInt8 → Option (List UInt8)) (reply : Reply) (ipaddr : List UInt8)
    (w : NetWorld) : Int × NetWorld :=
  -- the family is set whether the text is accepted or not
  let ifru := w.ifr.ifru.put 0 (le16 afInet)
  let ifru := match inetAton (cstr ipaddr 0) with
    | some addr => ifru.put 4 addr
    | none => ifru
  match ioctl .siocsifaddr reply { w with ifr := { w.ifr with ifru := ifru } } with
  | (false, w) => (-1, w)
  | (true, w) => (0, w)

/-- What `SetEtherStatusUP` and `SetEtherStatusDOWN` have in common: change the cached flags and
send them. -/
def setEtherStatus (change : UInt16 → UInt16) (reply : Reply) (w : NetWorld) : Int × NetWorld :=
  let ifru := w.ifr.ifru.setFlags (change w.ifr.ifru.flags)
  match ioctl .siocsifflags reply { w with ifr := { w.ifr with ifru := ifru } } with
  | (false, w) => (-1, w)
  | (true, w) => (0, w)

/-- `Netinfc::SetEtherStatusUP`. -/
def setEtherStatusUP : Reply → NetWorld → Int × NetWorld := setEtherStatus (· ||| iffUp)

/-- `Netinfc::SetEtherStatusDOWN`. -/
def setEtherStatusDOWN : Reply → NetWorld → Int × NetWorld := setEtherStatus (· &&& ~~~iffUp)

/-! ## Calls -/

/-- A call with its arguments. -/
inductive NetCall where
  | ifRunning
  | getInet (ip : List UInt8)
  | getMask (mac : List UInt8)
  | getHwaddr (mac : Mem)
  | getMacAddr (mac : Mem)
  | setIpaddr (ipaddr : List UInt8)
  | setEtherStatusUP
  | setEtherStatusDOWN
  deriving DecidableEq, Repr

/-- The object after a call. -/
def NetCall.run (inetAton : List UInt8 → Option (List UInt8)) (reply : Reply) (w : NetWorld) :
    NetCall → NetWorld
  | .ifRunning => (Netinfc.ifRunning reply w).2
  | .getInet ip => (Netinfc.getInet reply ip w).2.2
  | .getMask mac => (Netinfc.getMask reply mac w).2.2
  | .getHwaddr mac => (Netinfc.getHwaddr reply mac w).2.2
  | .getMacAddr mac => (Netinfc.getMacAddr reply mac w).2.2
  | .setIpaddr ipaddr => (Netinfc.setIpaddr inetAton reply ipaddr w).2
  | .setEtherStatusUP => (Netinfc.setEtherStatusUP reply w).2
  | .setEtherStatusDOWN => (Netinfc.setEtherStatusDOWN reply w).2

end Nl80211.Netinfc
