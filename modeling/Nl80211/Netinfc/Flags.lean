/-
# Nl80211.Netinfc.Flags — which calls may come before a change of the UP bit.

`SetEtherStatusUP` and `SetEtherStatusDOWN` change one bit of the flags cached in the union and send
the rest as they find it.  The cache holds flags only until something else is put into the union: a
successful query of an address, of the netmask or of the hardware address, or any `SetIpaddr`.  A
successful flags query refills it.
-/
import Nl80211.Netinfc.Object

namespace Nl80211.Netinfc

open Lib.Bytes

/-! ## What the flag requests should be -/

namespace NetCall

/-- The call sets or clears `IFF_UP`. -/
def sets : NetCall → Bool
  | setEtherStatusUP | setEtherStatusDOWN => true
  | _ => false

/-- The flags a call should send when the interface has the flags `current`; `none` for a call that
should send none. -/
def wanted (current : UInt16) : NetCall → Option UInt16
  | setEtherStatusUP => some (current ||| iffUp)
  | setEtherStatusDOWN => some (current &&& ~~~iffUp)
  | _ => none

/-- Whether the union holds flags after a call, when it did or did not before. -/
def freshAfter (fresh ok : Bool) : NetCall → Bool
  | ifRunning => fresh || ok
  | getInet _ | getMask _ | getHwaddr _ | getMacAddr _ => fresh && !ok
  | setIpaddr _ => false
  | setEtherStatusUP | setEtherStatusDOWN => fresh

end NetCall

/-- Every flag change comes while the union holds flags. -/
def SetsFresh : Bool → List (NetCall × Bool) → Prop
  | _, [] => True
  | fresh, (c, ok) :: cs => (c.sets = true → fresh = true) ∧ SetsFresh (c.freshAfter fresh ok) cs

section Runs

variable (inetAton : List UInt8 → Option (List UInt8))

/-- What a call sends with `SIOCSIFFLAGS` is what it should send. -/
def CallKeeps (reply : Reply) (w : NetWorld) (c : NetCall) : Prop :=
  ∀ e ∈ (c.run inetAton reply w).issued.drop w.issued.length, e.request = .siocsifflags →
    c.wanted e.current = some e.ifr.ifru.flags

/-- The same for every call of a sequence, with the answers that the kernel gives from the `i`-th
on. -/
def RunKeeps (answers : Nat → Ifru) : Nat → List (NetCall × Bool) → NetWorld → Prop
  | _, [], _ => True
  | i, (c, ok) :: cs, w =>
      CallKeeps inetAton ⟨ok, answers i⟩ w c ∧
        RunKeeps answers (i + 1) cs (c.run inetAton ⟨ok, answers i⟩ w)

/-- Whatever flags the interface has and whatever the kernel answers, a constructed object changes
nothing but the UP bit along the calls `cs`, each given with the success of its `ioctl`. -/
def UpBitOnly (netdev : List UInt8) (cs : List (NetCall × Bool)) : Prop :=
  ∀ sock ifru kernelFlags answers w,
    netinfcNew netdev sock ⟨true, answers 0⟩ kernelFlags ifru = some w →
      RunKeeps inetAton answers 1 cs w

end Runs

/-! ## One bit of a word -/

/-- Words agree with a mask set exactly when they agree with it cleared. -/
theorem or_eq_or_iff (m x y : UInt16) : x ||| m = y ||| m ↔ x &&& ~~~m = y &&& ~~~m := by
  simp only [← UInt16.toBitVec_inj, UInt16.toBitVec_or, UInt16.toBitVec_and, UInt16.toBitVec_not]
  constructor <;> intro h <;> refine BitVec.eq_of_getElem_eq fun i hi => ?_ <;>
    have hbit := congrArg (·[i]) h <;>
      simp only [BitVec.getElem_or, BitVec.getElem_and, BitVec.getElem_not] at hbit ⊢ <;>
        cases hm : m.toBitVec[i] <;> simp_all

theorem or_and_not (m x : UInt16) : (x ||| m) &&& ~~~m = x &&& ~~~m :=
  (or_eq_or_iff m _ _).mp (by rw [UInt16.or_assoc, UInt16.or_self])

theorem and_not_and_not (m x : UInt16) : (x &&& ~~~m) &&& ~~~m = x &&& ~~~m := by
  rw [UInt16.and_assoc, UInt16.and_self]

/-! ## What one call does -/

namespace Ifru

theorem flags_setFlags (u : Ifru) (f : UInt16) : (u.setFlags f).flags = f := by
  have h₀ : rd8 (u.setFlags f).mem 0 = UInt8.ofNat f.toNat := by
    rw [setFlags, put, rd8_store, if_pos (by simp [u.size])]
    rfl
  have h₁ : rd8 (u.setFlags f).mem (0 + 1) = UInt8.ofNat (f.toNat / 256) := by
    rw [setFlags, put, rd8_store, if_pos (by simp [u.size])]
    rfl
  have hf := f.toNat_lt
  refine UInt16.toNat_inj.mp ?_
  rw [flags, rd16, h₀, h₁, UInt16.toNat_ofNat', UInt8.toNat_ofNat', UInt8.toNat_ofNat']
  omega

theorem flags_put_later (u : Ifru) {i : Nat} (h : 2 ≤ i) (bs : List UInt8) :
    (u.put i bs).flags = u.flags := by
  rw [flags, put, rd16, rd8_store, rd8_store, if_neg (by omega), if_neg (by omega), ← rd16, flags]

theorem flags_put_family (u : Ifru) : (u.put 0 (le16 afInet)).flags = UInt16.ofNat afInet :=
  flags_setFlags u 2

end Ifru

namespace NetCall

/-- The request a call issues. -/
def request : NetCall → Ioctl
  | ifRunning => .siocgifflags
  | getInet _ => .siocgifaddr
  | getMask _ => .siocgifnetmask
  | getHwaddr _ | getMacAddr _ => .siocgifhwaddr
  | setIpaddr _ => .siocsifaddr
  | setEtherStatusUP | setEtherStatusDOWN => .siocsifflags

/-- What a call puts into the union before it issues the request. -/
def fill (inetAton : List UInt8 → Option (List UInt8)) (u : Ifru) : NetCall → Ifru
  | setIpaddr ipaddr =>
      let u := u.put 0 (le16 afInet)
      match inetAton (cstr ipaddr 0) with
      | some addr => u.put 4 addr
      | none => u
  | setEtherStatusUP => u.setFlags (u.flags ||| iffUp)
  | setEtherStatusDOWN => u.setFlags (u.flags &&& ~~~iffUp)
  | _ => u

variable {inetAton : List UInt8 → Option (List UInt8)} {reply : Reply} {w : NetWorld}

/-- **Every call**: fill in the union, issue one request. -/
theorem run_eq (c : NetCall) :
    c.run inetAton reply w =
      (ioctl c.request reply
        { w with ifr := { w.ifr with ifru := c.fill inetAton w.ifr.ifru } }).2 := by
  obtain ⟨ok, answer⟩ := reply
  cases c <;> cases ok <;> rfl

theorem issued_run (c : NetCall) :
    (c.run inetAton reply w).issued =
      w.issued ++ [⟨c.request, { w.ifr with ifru := c.fill inetAton w.ifr.ifru },
        w.kernelFlags⟩] := by
  obtain ⟨ok, answer⟩ := reply
  rw [run_eq]
  cases ok <;> cases c <;> rfl

/-- The request of a call, judged. -/
theorem callKeeps_iff (c : NetCall) :
    CallKeeps inetAton reply w c ↔
      (c.sets = true → c.wanted w.kernelFlags = some (c.fill inetAton w.ifr.ifru).flags) := by
  have hsets : c.request = .siocsifflags ↔ c.sets = true := by
    cases c <;> simp [request, sets]
  rw [CallKeeps, issued_run, List.drop_left, List.forall_mem_singleton, hsets]

end NetCall

/-- The flags in the union, apart from `IFF_UP`. -/
def NetWorld.held (w : NetWorld) : UInt16 := w.ifr.ifru.flags &&& ~~~iffUp

/-- The flags of the interface, apart from `IFF_UP`. -/
def NetWorld.kept (w : NetWorld) : UInt16 := w.kernelFlags &&& ~~~iffUp

section Step

variable {inetAton : List UInt8 → Option (List UInt8)} {reply : Reply} {w : NetWorld} {c : NetCall}

/-- A flag change sends what it should exactly when the union holds the flags of the interface. -/
theorem callKeeps_sets (hc : c.sets = true) : CallKeeps inetAton reply w c ↔ w.held = w.kept := by
  rw [NetCall.callKeeps_iff]
  cases c with
  | setEtherStatusUP =>
      simp only [hc, forall_const, NetCall.wanted, NetCall.fill, Ifru.flags_setFlags,
        Option.some.injEq, or_eq_or_iff]
      exact eq_comm
  | setEtherStatusDOWN =>
      simp only [hc, forall_const, NetCall.wanted, NetCall.fill, Ifru.flags_setFlags,
        Option.some.injEq]
      exact eq_comm
  | _ => cases hc

theorem callKeeps_other (hc : c.sets = false) : CallKeeps inetAton reply w c := by
  rw [NetCall.callKeeps_iff, hc]
  exact fun h => absurd h (by decide)

/-- What a call leaves in the union. -/
theorem held_run : (c.run inetAton reply w).held =
    match c with
    | .ifRunning => if reply.ok then w.kept else w.held
    | .getInet _ | .getMask _ | .getHwaddr _ | .getMacAddr _ =>
        if reply.ok then reply.answer.flags &&& ~~~iffUp else w.held
    | .setIpaddr _ => UInt16.ofNat afInet &&& ~~~iffUp
    | .setEtherStatusUP | .setEtherStatusDOWN => w.held := by
  obtain ⟨ok, answer⟩ := reply
  rw [NetCall.run_eq]
  cases c with
  | ifRunning => cases ok <;> simp [ioctl, NetCall.request, NetCall.fill, NetWorld.held,
    NetWorld.kept, Ifru.flags_setFlags]
  | getInet | getMask | getHwaddr | getMacAddr => cases ok <;> rfl
  | setIpaddr ipaddr =>
      cases ok <;> cases h : inetAton (cstr ipaddr 0) <;>
        simp [ioctl, NetCall.request, NetCall.fill, NetWorld.held, h, Ifru.flags_put_later,
          Ifru.flags_put_family]
  | setEtherStatusUP =>
      cases ok <;> simp [ioctl, NetCall.request, NetCall.fill, NetWorld.held, Ifru.flags_setFlags,
        or_and_not]
  | setEtherStatusDOWN =>
      cases ok <;> simp [ioctl, NetCall.request, NetCall.fill, NetWorld.held, Ifru.flags_setFlags,
        and_not_and_not]

/-- Only a flag change that succeeds changes the interface. -/
theorem kept_run : (c.run inetAton reply w).kept =
    if c.sets = true ∧ reply.ok = true then w.held else w.kept := by
  obtain ⟨ok, answer⟩ := reply
  rw [NetCall.run_eq]
  cases c with
  | setEtherStatusUP =>
      cases ok <;> simp [ioctl, NetCall.request, NetCall.fill, NetCall.sets, NetWorld.held,
        NetWorld.kept, Ifru.flags_setFlags, or_and_not]
  | setEtherStatusDOWN =>
      cases ok <;> simp [ioctl, NetCall.request, NetCall.fill, NetCall.sets, NetWorld.held,
        NetWorld.kept, Ifru.flags_setFlags, and_not_and_not]
  | _ => cases ok <;> simp [ioctl, NetCall.request, NetCall.sets, NetWorld.kept]

end Step

/-! ## Whole runs -/

section Runs

variable {inetAton : List UInt8 → Option (List UInt8)}

/-- A call that leaves the union fresh leaves in it what the interface has. -/
theorem held_eq_kept_run {c : NetCall} {fresh ok : Bool} {answer : Ifru} {w : NetWorld}
    (hw : fresh = true → w.held = w.kept) (h : c.freshAfter fresh ok = true) :
    (c.run inetAton ⟨ok, answer⟩ w).held = (c.run inetAton ⟨ok, answer⟩ w).kept := by
  rw [held_run, kept_run]
  cases c with
  | ifRunning =>
      cases ok with
      | false => simpa [NetCall.sets] using hw (by simpa [NetCall.freshAfter] using h)
      | true => simp [NetCall.sets]
  | getInet | getMask | getHwaddr | getMacAddr =>
      simp only [NetCall.freshAfter, Bool.and_eq_true, Bool.not_eq_true'] at h
      simpa [NetCall.sets, h.2] using hw h.1
  | setIpaddr => exact absurd h (by simp [NetCall.freshAfter])
  | setEtherStatusUP | setEtherStatusDOWN => cases ok <;> simp [NetCall.sets, hw h]

/-- Fresh flag changes are right, whatever the kernel answers. -/
theorem runKeeps_of_fresh (answers : Nat → Ifru) (cs : List (NetCall × Bool)) :
    ∀ i w fresh, (fresh = true → w.held = w.kept) → SetsFresh fresh cs →
      RunKeeps inetAton answers i cs w := by
  induction cs with
  | nil => exact fun _ _ _ _ _ => trivial
  | cons step cs ih =>
      obtain ⟨c, ok⟩ := step
      rintro i w fresh hw ⟨hsets, hrest⟩
      refine ⟨?_, ih (i + 1) _ _ (held_eq_kept_run hw) hrest⟩
      cases hc : c.sets with
      | true => exact (callKeeps_sets hc).mpr (hw (hsets hc))
      | false => exact callKeeps_other hc

/-- A union of zeros. -/
def Ifru.zero : Ifru := ⟨List.replicate 24 0, rfl⟩

/-- `IFF_MULTICAST`. -/
def iffMulticast : UInt16 := 0x1000

/-- An interface that differs from everything but itself: its flags are `IFF_MULTICAST`, and the
union holds them exactly when it is fresh. -/
def Telltale (fresh : Bool) (w : NetWorld) : Prop :=
  w.kept = iffMulticast ∧ (w.held = iffMulticast ↔ fresh = true)

theorem telltale_run {c : NetCall} {fresh ok : Bool} {w : NetWorld} (hw : Telltale fresh w)
    (hsets : c.sets = true → fresh = true) :
    Telltale (c.freshAfter fresh ok) (c.run inetAton ⟨ok, .zero⟩ w) := by
  obtain ⟨hkept, hheld⟩ := hw
  rw [Telltale, held_run, kept_run]
  have hzero : Ifru.zero.flags &&& ~~~iffUp ≠ iffMulticast := by decide
  have hinet : UInt16.ofNat afInet &&& ~~~iffUp ≠ iffMulticast := by decide
  cases c with
  | ifRunning => cases ok <;> simp [NetCall.sets, NetCall.freshAfter, hkept, hheld]
  | getInet | getMask | getHwaddr | getMacAddr =>
      cases ok <;> simp [NetCall.sets, NetCall.freshAfter, hkept, hheld, hzero]
  | setIpaddr => simp [NetCall.sets, NetCall.freshAfter, hkept, hinet]
  | setEtherStatusUP | setEtherStatusDOWN =>
      have hfresh := hsets rfl
      cases ok <;> simp [NetCall.freshAfter, hkept, hfresh, hheld.mpr hfresh]

/-- A run on the telltale interface is right only if every flag change in it is fresh. -/
theorem fresh_of_runKeeps (cs : List (NetCall × Bool)) :
    ∀ i w fresh, Telltale fresh w → RunKeeps inetAton (fun _ => .zero) i cs w →
      SetsFresh fresh cs := by
  induction cs with
  | nil => exact fun _ _ _ _ _ => trivial
  | cons step cs ih =>
      obtain ⟨c, ok⟩ := step
      rintro i w fresh hw ⟨hcall, hrest⟩
      have hsets : c.sets = true → fresh = true := fun hc => by
        have heq := (callKeeps_sets hc).mp hcall
        exact hw.2.mp (heq.trans hw.1)
      exact ⟨hsets, ih (i + 1) _ _ (telltale_run hw hsets) hrest⟩

/-- A constructed object holds the flags of its interface. -/
theorem netinfcNew_ok {netdev : List UInt8} {sock : Int} (answer ifru : Ifru) (kernelFlags : UInt16)
    (hdev : (cstr netdev 0).length < ifnamsiz) (hsock : 0 ≤ sock) :
    ∃ w, netinfcNew netdev sock ⟨true, answer⟩ kernelFlags ifru = some w ∧
      w.kernelFlags = kernelFlags ∧ w.held = w.kept := by
  refine ⟨_, by rw [netinfcNew, if_neg (Nat.not_le.mpr hdev), if_neg (Int.not_lt.mpr hsock)]; rfl,
    rfl, ?_⟩
  simp [NetWorld.held, NetWorld.kept, Ifru.flags_setFlags]

theorem netinfcNew_held {netdev : List UInt8} {sock : Int} {answer ifru : Ifru}
    {kernelFlags : UInt16}
    {w : NetWorld} (h : netinfcNew netdev sock ⟨true, answer⟩ kernelFlags ifru = some w) :
    w.held = w.kept := by
  simp only [netinfcNew, Option.ite_none_left_eq_some] at h
  obtain ⟨-, -, h⟩ := h
  cases h
  simp [NetWorld.held, NetWorld.kept, Ifru.flags_setFlags]

/-- **Flags.** Along a sequence of calls a constructed object changes nothing but the UP bit,
whatever the kernel's flags and answers are, exactly when every flag change comes while the union
holds flags. -/
theorem upBitOnly_iff {netdev : List UInt8} (hdev : (cstr netdev 0).length < ifnamsiz)
    (cs : List (NetCall × Bool)) : UpBitOnly inetAton netdev cs ↔ SetsFresh true cs := by
  constructor
  · intro h
    obtain ⟨w, hnew, hflags, hheld⟩ :=
      netinfcNew_ok .zero .zero iffMulticast hdev (Int.zero_le_ofNat 3)
    have hkept : w.kept = iffMulticast := by rw [NetWorld.kept, hflags]; decide
    have hw : Telltale true w := ⟨hkept, by simp [hheld, hkept]⟩
    exact fresh_of_runKeeps cs 1 w true hw (h _ _ _ _ w hnew)
  · intro h sock ifru kernelFlags answers w hnew
    exact runKeeps_of_fresh answers cs 1 w true (fun _ => netinfcNew_held hnew) h

end Runs

/-- The kernel's answer for 192.168.1.2. -/
def inetAnswer : Ifru := ⟨[2, 0, 0, 0, 192, 168, 1, 2] ++ List.replicate 16 0, rfl⟩

/-- Behind a successful `GetInet` the interface is sent `AF_INET` for flags: a broadcast and
multicast interface loses `IFF_MULTICAST` when it is set up. -/
theorem getInet_spoils_flags :
    ¬ UpBitOnly (fun _ => none) (ascii "eth0") [(.getInet [], true),
      (.setEtherStatusUP, true)] := by
  intro h
  have hrun := h 3 .zero 0x1002 (fun _ => inetAnswer) _ rfl
  have hheld := (callKeeps_sets rfl).mp hrun.2.1
  revert hheld
  decide

theorem ifRunning_refreshes_flags :
    UpBitOnly (fun _ => none) (ascii "eth0")
      [(.getInet [], true), (.ifRunning, true), (.setEtherStatusUP, true)] :=
  (upBitOnly_iff (by decide) _).mpr (by simp [SetsFresh, NetCall.freshAfter, NetCall.sets])

end Nl80211.Netinfc
