/-
# Nl80211.Netinfc.Address — which address `SetIpaddr` sends.

`SetIpaddr` lets `inet_aton` write the address into the union and sends the union, without looking
at what `inet_aton` returned.  A text that `inet_aton` rejects therefore sends what the union held:
the answer of the last getter or the address set before.
-/
import Nl80211.Netinfc.Flags

namespace Nl80211.Netinfc

open Lib.Bytes

/-- `sin_family` of `ifr_addr`. -/
def Ifru.family (u : Ifru) : Nat := rd16 u.mem 0

/-- The calls made so far, each with what the environment did with its `ioctl`. -/
def runCalls (inetAton : List UInt8 → Option (List UInt8)) (cs : List (NetCall × Reply))
    (w : NetWorld) :
    NetWorld :=
  cs.foldl (fun w c => c.1.run inetAton c.2 w) w

/-- The address of the interface behind some `ioctl`s that succeed or fail with `ok`, `addr` before
them. -/
def addressAfter (ok : Bool) (addr : List UInt8) (es : List Issued) : List UInt8 :=
  es.foldl (fun addr e => if e.request = .siocsifaddr ∧ ok = true then e.ifr.ifru.sinAddr
    else addr) addr

section Call

variable (inetAton : List UInt8 → Option (List UInt8)) (s : List UInt8) (reply : Reply)
    (w : NetWorld)

/-- The `ioctl`s that a call of `SetIpaddr` issues. -/
def sentBy : List Issued := (setIpaddr inetAton reply s w).2.issued.drop w.issued.length

/-- `SetIpaddr` sets the address asked for or nothing. -/
structure SetsAskedOrNothing : Prop where
  rejected : inetAton (cstr s 0) = none →
    (setIpaddr inetAton reply s w).1 = -1 ∧
      (∀ e ∈ sentBy inetAton s reply w, e.request ≠ .siocsifaddr) ∧
        ∀ addr, addressAfter reply.ok addr (sentBy inetAton s reply w) = addr
  accepted : ∀ addr, inetAton (cstr s 0) = some addr →
    (∃ e ∈ sentBy inetAton s reply w, e.request = .siocsifaddr) ∧
      (∀ e ∈ sentBy inetAton s reply w, e.request = .siocsifaddr →
        e.ifr.ifru.family = afInet ∧ e.ifr.ifru.sinAddr = addr) ∧
      ((setIpaddr inetAton reply s w).1 = 0 ↔ reply.ok = true)
  /-- no address is sent but the one parsed from the text -/
  asked : ∀ e ∈ sentBy inetAton s reply w, e.request = .siocsifaddr →
    inetAton (cstr s 0) = some e.ifr.ifru.sinAddr

end Call

/-! ## What is sent -/

namespace Ifru

theorem family_eq (u : Ifru) : u.family = u.flags.toNat := by
  have := rd16_lt u.mem 0
  rw [family, flags, UInt16.toNat_ofNat']
  omega

theorem sinAddr_put {u : Ifru} {addr : List UInt8} (h : addr.length = 4) :
    (u.put 4 addr).sinAddr = addr := by
  have hself : octets (store u.mem 4 addr) 4 addr.length = addr :=
    octets_store_self (by rw [h, u.size]; decide)
  rwa [h] at hself

theorem sinAddr_put_family (u : Ifru) : (u.put 0 (le16 afInet)).sinAddr = u.sinAddr :=
  octets_store_of_disjoint (.inr (by simp))

end Ifru

section Sent

variable {inetAton : List UInt8 → Option (List UInt8)} {s : List UInt8} {reply : Reply}
    {w : NetWorld}

/-- A call issues one request, with what it has put into the union. -/
theorem sentBy_eq :
    sentBy inetAton s reply w =
      [⟨.siocsifaddr, { w.ifr with ifru := (NetCall.setIpaddr s).fill inetAton w.ifr.ifru },
        w.kernelFlags⟩] := by
  rw [sentBy]
  show ((NetCall.setIpaddr s).run inetAton reply w).issued.drop w.issued.length = _
  rw [NetCall.issued_run, List.drop_left]
  rfl

theorem setIpaddr_result :
    (setIpaddr inetAton reply s w).1 = if reply.ok = true then 0 else -1 := by
  obtain ⟨ok, answer⟩ := reply
  cases ok <;> rfl

/-- An accepted text: family and address are those asked for. -/
theorem fill_accepted {addr : List UInt8} (h : inetAton (cstr s 0) = some addr)
    (hlen : addr.length = 4) (u : Ifru) :
    ((NetCall.setIpaddr s).fill inetAton u).family = afInet ∧
      ((NetCall.setIpaddr s).fill inetAton u).sinAddr = addr := by
  simp only [NetCall.fill, h]
  constructor
  · rw [Ifru.family_eq, Ifru.flags_put_later _ (by decide), Ifru.flags_put_family]
    rfl
  · exact Ifru.sinAddr_put hlen

/-- A rejected text: the address is what the union held. -/
theorem fill_rejected (h : inetAton (cstr s 0) = none) (u : Ifru) :
    ((NetCall.setIpaddr s).fill inetAton u).sinAddr = u.sinAddr := by
  simp only [NetCall.fill, h]
  exact Ifru.sinAddr_put_family u

/-- Behind a successful `GetMask` a rejected text gives the interface its netmask for an address. -/
theorem sentBy_after_getMask (h : inetAton (cstr s 0) = none) (mac : List UInt8) (answer : Ifru) :
    (sentBy inetAton s reply (runCalls inetAton [(.getMask mac, ⟨true, answer⟩)] w)).map
      (·.ifr.ifru.sinAddr) = [answer.sinAddr] := by
  rw [sentBy_eq, List.map_singleton, fill_rejected h]
  rfl

end Sent

/-- **Addresses.** After every history of calls `SetIpaddr` sets the address asked for or nothing
exactly when `inet_aton` accepts the text. -/
theorem setIpaddr_iff {inetAton : List UInt8 → Option (List UInt8)}
    (hlen : ∀ t addr, inetAton t = some addr → addr.length = 4) (cs : List (NetCall × Reply))
    (w : NetWorld) (s : List UInt8) (reply : Reply) :
    SetsAskedOrNothing inetAton s reply (runCalls inetAton cs w) ↔
      (inetAton (cstr s 0)).isSome := by
  constructor
  · intro h
    cases haton : inetAton (cstr s 0) with
    | some addr => rfl
    | none =>
        -- the request is issued all the same
        obtain ⟨-, hno, -⟩ := h.rejected haton
        rw [sentBy_eq, List.forall_mem_singleton] at hno
        exact absurd rfl hno
  · intro h
    obtain ⟨addr, haddr⟩ := Option.isSome_iff_exists.mp h
    have hfill := fill_accepted haddr (hlen _ _ haddr) (runCalls inetAton cs w).ifr.ifru
    constructor
    case rejected =>
      intro hnone
      cases haddr.symm.trans hnone
    case accepted =>
      intro addr' haddr'
      cases haddr.symm.trans haddr'
      rw [sentBy_eq, List.forall_mem_singleton, setIpaddr_result]
      refine ⟨⟨_, List.mem_singleton_self _, rfl⟩, fun _ => hfill, ?_⟩
      split <;> simp_all
    case asked =>
      rw [sentBy_eq, List.forall_mem_singleton]
      intro _
      rw [hfill.2, haddr]

/-! ## A text that is no address -/

/-- A decimal number up to 255 without leading zeros. -/
def decimalOctet (ds : List UInt8) : Option UInt8 :=
  let n := ds.foldl (fun n d => n * 10 + (d.toNat - 48)) 0
  if ds ≠ [] ∧ (∀ d ∈ ds, 48 ≤ d ∧ d ≤ 57) ∧ (ds.length = 1 ∨ ds.head? ≠ some 48) ∧ n < 256 then
    some (UInt8.ofNat n)
  else none

/-- `inet_aton` on dotted decimal texts, and on texts without any number. -/
def dottedDecimal (s : List UInt8) : Option (List UInt8) :=
  match (s.splitOn 46).mapM decimalOctet with
  | some [a, b, c, d] => some [a, b, c, d]
  | _ => none

theorem dottedDecimal_length (s addr : List UInt8) (h : dottedDecimal s = some addr) :
    addr.length = 4 := by
  unfold dottedDecimal at h
  split at h
  · cases h
    rfl
  · cases h

/-- The kernel's answer for the netmask 255.255.255.0. -/
def maskAnswer : Ifru := ⟨[2, 0, 0, 0, 255, 255, 255, 0] ++ List.replicate 16 0, rfl⟩

/-- An object for `eth0`. -/
def eth0 : NetWorld := { ifr := ⟨ascii "eth0", .zero⟩, kernelFlags := 0x1002 }

theorem dotted_asked_or_nothing :
    SetsAskedOrNothing dottedDecimal (ascii "10.0.0.1") ⟨true, .zero⟩
      (runCalls dottedDecimal [(.getMask [], ⟨true, maskAnswer⟩)] eth0) :=
  (setIpaddr_iff dottedDecimal_length _ _ _ _).mpr (by decide +kernel)

/-- `SetIpaddr` with a host name after `GetMask` sets the address 255.255.255.0
and reports success. -/
theorem host_name_sends_mask :
    ¬ SetsAskedOrNothing dottedDecimal (ascii "localhost") ⟨true, .zero⟩
        (runCalls dottedDecimal [(.getMask [], ⟨true, maskAnswer⟩)] eth0) ∧
      (sentBy dottedDecimal (ascii "localhost") ⟨true, .zero⟩
        (runCalls dottedDecimal [(.getMask [], ⟨true, maskAnswer⟩)] eth0)).map
          (·.ifr.ifru.sinAddr) = [[255, 255, 255, 0]] := by
  have hnone : dottedDecimal (cstr (ascii "localhost") 0) = none := by decide +kernel
  refine ⟨fun h => ?_, sentBy_after_getMask hnone [] maskAnswer⟩
  have hresult := (h.rejected hnone).1
  rw [setIpaddr_result] at hresult
  cases hresult

end Nl80211.Netinfc
