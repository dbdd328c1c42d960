/-
# Nl80211.Libnl.Sockets — what a process holds through its sockets.

A caller allocates sockets and callback sets, shares, connects and frees them, in whatever order it
likes, as long as it only gives back what it holds.  `Holds` says which ports, references and
descriptors are out at a moment; every function of the module keeps it.  From this: no two sockets
are ever given the same port, nothing that has been freed is touched, and a caller that has given
everything back leaves nothing behind.

Four things do leave something behind, and `Losses` collects it: a socket that cannot be allocated
loses the reference to its callback set, `nl_socket_set_local_port` with port 0 loses the port the
socket had been given before, `nl_connect` the descriptor of a connected socket, and the very last
port of a process whose id has all its bits set is taken for a failure.
-/
import Nl80211.Lib.Triple
import Nl80211.Libnl.Socket
import Mathlib

namespace Nl80211.Libnl

open Lib Lib.Counted Lib.Slots Sock

/-! ## Ports and slots -/

theorem pidBits_lt (pid : UInt32) : (pidBits pid).toNat < 2 ^ 22 := by
  rw [pidBits, UInt32.toNat_and]
  exact Nat.lt_of_le_of_lt Nat.and_le_right (by decide)

/-- A port is the process id and the slot, side by side. -/
theorem portOf_toNat (pid : UInt32) (s : Slot 32 32) :
    (portOf pid s).toNat = (pidBits pid).toNat + s.index * 2 ^ 22 := by
  have hidx : s.index < 1024 := s.index_lt
  have hpid := pidBits_lt pid
  have hlow : (UInt32.ofNat s.index).toNat = s.index :=
    Nat.mod_eq_of_lt (Nat.lt_of_lt_of_le hidx (by decide))
  have hshift : (UInt32.ofNat s.index <<< 22).toNat = s.index * 2 ^ 22 := by
    rw [UInt32.toNat_shiftLeft, hlow, Nat.shiftLeft_eq]
    exact Nat.mod_eq_of_lt (by show s.index * 2 ^ 22 < 2 ^ 32; omega)
  rw [portOf, UInt32.toNat_add, hshift]
  omega

/-- The slot can be read off the port. -/
theorem portSlot_portOf (pid : UInt32) (s : Slot 32 32) : portSlot (portOf pid s) = s := by
  have hpid := pidBits_lt pid
  have hnr : (portOf pid s >>> 22).toNat = s.index := by
    rw [UInt32.toNat_shiftRight, Nat.shiftRight_eq_div_pow, portOf_toNat]
    show ((pidBits pid).toNat + s.index * 2 ^ 22) / 2 ^ 22 = s.index
    omega
  unfold portSlot
  simp only [hnr, slotAt_index]

/-- Only the last slot of the last process id makes a port that stands for failure. -/
theorem pidBits_of_portOf_eq {pid : UInt32} {s : Slot 32 32} (h : portOf pid s = uintMax) :
    pidBits pid = 0x3FFFFF := by
  have hpid := pidBits_lt pid
  have hidx : s.index < 1024 := s.index_lt
  have hport := congrArg UInt32.toNat h
  rw [portOf_toNat] at hport
  change (pidBits pid).toNat + s.index * 2 ^ 22 = 4294967295 at hport
  refine UInt32.toNat_inj.mp ?_
  show (pidBits pid).toNat = 4194303
  omega

/-- The slot that goes with a port a socket has been given. -/
def portSlots (port : UInt32) : Multiset (Slot 32 32) :=
  if port = uintMax then 0 else {portSlot port}

namespace NlSocket

/-- Whether the port was generated. -/
def Generated (s : NlSocket) : Prop := s.sFlags &&& nlOwnPort = 0

instance (s : NlSocket) : Decidable s.Generated := by
  unfold Generated
  infer_instance

theorem generated_of_flags {s : NlSocket} (h : s.sFlags = 0) : s.Generated := by
  rw [Generated, h]
  exact UInt32.zero_and

def slots (s : NlSocket) : Multiset (Slot 32 32) := if s.Generated then portSlots s.nlPid else 0

def fds (s : NlSocket) : Multiset Nat := s.sFd.elim 0 fun fd => {fd}

end NlSocket

/-! ## What is held -/

/-- The sockets that are there, and the references, ports and descriptors that are out. -/
structure Holds (e : SockEnv) (live : Multiset (Nat × NlSocket)) (refs : Multiset Nat)
    (taken : Multiset (Slot 32 32)) (opened : Multiset Nat) (w : SockState) : Prop where
  env : w.env = e
  handles : (live.map Prod.fst).Nodup
  socks : Counts w.socks (live.map Prod.fst)
  contents : ∀ p ∈ live, w.socks.contents p.1 = some p.2
  cbs : Counts w.cbs refs
  ports : Owned w.usedPortsMap taken
  fds : Counts w.fds opened

/-- No memory at some moment. -/
def SockEnv.Short (env : SockEnv) : Prop := ∃ i, env.memory i = false

/-- Started in `P`, the call returns, in `Q`. -/
abbrev Yields {α : Type} (P : SockState → Prop) (x : Sock α) (Q : α → SockState → Prop) : Prop :=
  Triple P x Q fun _ _ => False

section Held

variable {env : SockEnv} {live : Multiset (Nat × NlSocket)} {refs : Multiset Nat}
  {taken : Multiset (Slot 32 32)} {opened : Multiset Nat} {sk : Nat} {s s' : NlSocket}

/-- Before the first call. -/
theorem Holds.start (env : SockEnv) : Holds env 0 0 0 0 { env := env } where
  env := rfl
  handles := Multiset.nodup_zero
  socks := .start
  contents := nofun
  cbs := .start
  ports := .start
  fds := .start

/-- No two sockets have one handle. -/
theorem Holds.ne_of_mem {w : SockState} (h : Holds env ((sk, s) ::ₘ live) refs taken opened w)
    {p : Nat × NlSocket} (hp : p ∈ live) : p.1 ≠ sk := by
  have hnodup := h.handles
  rw [Multiset.map_cons, Multiset.nodup_cons] at hnodup
  exact fun heq => hnodup.1 (Multiset.mem_map.mpr ⟨p, hp, heq⟩)

theorem calloc_yields :
    Yields (Holds env live refs taken opened) calloc fun b w =>
      (b = false → env.Short) ∧ Holds env live refs taken opened w := by
  intro w h
  refine ⟨fun hb => ⟨w.allocs, ?_⟩, ⟨h.env, h.handles, h.socks, h.contents, h.cbs, h.ports, h.fds⟩⟩
  rw [← h.env]
  exact hb

/-- A socket that is there can be read. -/
theorem sockOf_yields :
    Yields (Holds env ((sk, s) ::ₘ live) refs taken opened) (sockOf sk) fun r w =>
      r = s ∧ Holds env ((sk, s) ::ₘ live) refs taken opened w := by
  intro w h
  have hcell : w.socks.contents sk = some s := h.contents (sk, s) (Multiset.mem_cons_self _ _)
  have hrun : sockOf sk w = .ok s w := by
    simp only [sockOf, bind, EStateM.bind, get, getThe, MonadStateOf.get, EStateM.get, hcell]
    rfl
  rw [hrun]
  exact ⟨rfl, h⟩

/-- A socket that is there can be written. -/
theorem setSock_yields :
    Yields (Holds env ((sk, s) ::ₘ live) refs taken opened) (setSock sk s') fun _ =>
      Holds env ((sk, s') ::ₘ live) refs taken opened := by
  intro w h
  have hhandles : ((sk, s') ::ₘ live).map Prod.fst = ((sk, s) ::ₘ live).map Prod.fst := by
    simp only [Multiset.map_cons]
  have hmem : sk ∈ ((sk, s) ::ₘ live).map Prod.fst := by
    rw [Multiset.map_cons]
    exact Multiset.mem_cons_self _ _
  refine ⟨h.env, hhandles ▸ h.handles, hhandles ▸ h.socks.write hmem s', ?_, h.cbs, h.ports, h.fds⟩
  intro p hp
  rcases Multiset.mem_cons.mp hp with rfl | hp
  · obtain ⟨x, hcell⟩ := h.socks.cell hmem
    exact Heap.contents_write_self (Option.isSome_iff_exists.mpr ⟨_, hcell⟩)
  · exact (Heap.contents_write_of_ne (h.ne_of_mem hp)).trans
      (h.contents p (Multiset.mem_cons_of_mem hp))

/-- A new socket. -/
theorem Holds.newSock {s : NlSocket} {w : SockState} (h : Holds env live refs taken opened w) :
    Holds env ((w.socks.next, s) ::ₘ live) refs taken opened
      { w with socks := w.socks.alloc s } := by
  have hfresh (p : Nat × NlSocket) (hp : p ∈ live) : p.1 < w.socks.next :=
    h.socks.lt_next (Multiset.mem_map_of_mem Prod.fst hp)
  refine ⟨h.env, ?_, ?_, ?_, h.cbs, h.ports, h.fds⟩
  · rw [Multiset.map_cons, Multiset.nodup_cons]
    refine ⟨fun hmem => ?_, h.handles⟩
    obtain ⟨p, hp, heq⟩ := Multiset.mem_map.mp hmem
    exact Nat.ne_of_lt (hfresh p hp) heq
  · rw [Multiset.map_cons]
    exact h.socks.alloc s
  · intro p hp
    rcases Multiset.mem_cons.mp hp with rfl | hp
    · exact Heap.contents_alloc_self
    · exact (Heap.contents_alloc_of_ne (Nat.ne_of_lt (hfresh p hp))).trans (h.contents p hp)

/-- The end of a socket. -/
theorem dropSock_yields :
    Yields (Holds env ((sk, s) ::ₘ live) refs taken opened)
      (modify fun w => { w with socks := w.socks.put sk }) fun _ =>
      Holds env live refs taken opened := by
  intro w h
  have hnodup := h.handles
  have hsocks := h.socks
  rw [Multiset.map_cons] at hsocks hnodup
  rw [Multiset.nodup_cons] at hnodup
  refine ⟨h.env, hnodup.2, hsocks.put, ?_, h.cbs, h.ports, h.fds⟩
  intro p hp
  exact (Heap.contents_put_of_ne (h.ne_of_mem hp)).trans
    (h.contents p (Multiset.mem_cons_of_mem hp))

theorem closeFd_yields {fd : Nat} :
    Yields (Holds env live refs taken (fd ::ₘ opened)) (closeFd fd) fun _ =>
      Holds env live refs taken opened :=
  fun _ h => ⟨h.env, h.handles, h.socks, h.contents, h.cbs, h.ports, h.fds.put⟩

theorem openFd_yields :
    Yields (Holds env live refs taken opened) openFd fun fd =>
      Holds env live refs taken (fd ::ₘ opened) :=
  fun _ h => ⟨h.env, h.handles, h.socks, h.contents, h.cbs, h.ports, h.fds.alloc ()⟩

/-- One more reference, as long as the count can take it. -/
theorem nlCbGet_yields {cb : Nat} (hmem : cb ∈ refs) (hroom : refs.count cb < intMax) :
    Yields (Holds env live refs taken opened) (nlCbGet cb) fun r w =>
      r = cb ∧ Holds env live (cb ::ₘ refs) taken opened w := by
  intro w h
  have hcount : w.cbs.count cb ≠ intMax := by
    rw [h.cbs.count]
    exact Nat.ne_of_lt hroom
  have hrun : nlCbGet cb w = .ok cb { w with cbs := w.cbs.get cb } := by
    simp only [nlCbGet, bind, EStateM.bind, get, getThe, MonadStateOf.get, EStateM.get,
      if_neg hcount]
    rfl
  rw [hrun]
  exact ⟨rfl, h.env, h.handles, h.socks, h.contents, h.cbs.get hmem, h.ports, h.fds⟩

/-- A set that is given back has been counted, and is not a bug. -/
theorem nlCbPut_yields {cb : Nat} :
    Yields (Holds env live (cb ::ₘ refs) taken opened) (nlCbPut cb) fun _ =>
      Holds env live refs taken opened := by
  intro w h
  have hcounted : (w.cbs.cells cb).map Prod.fst ≠ some 0 := by
    obtain ⟨x, hcell⟩ := h.cbs.cell (Multiset.mem_cons_self cb refs)
    rw [hcell, Option.map_some, Multiset.count_cons_self]
    simp
  have hrun : nlCbPut cb w = .ok () { w with cbs := w.cbs.put cb } := by
    simp only [nlCbPut, bind, EStateM.bind, get, getThe, MonadStateOf.get, EStateM.get,
      if_neg hcounted]
    rfl
  rw [hrun]
  exact ⟨h.env, h.handles, h.socks, h.contents, h.cbs.put, h.ports, h.fds⟩

/-- A port has been generated: its slot is out as well, or there was none left. -/
def Ported (env : SockEnv) (H : Multiset (Slot 32 32) → SockState → Prop)
    (taken : Multiset (Slot 32 32)) (port : UInt32) (w : SockState) : Prop :=
  (∃ t, port = portOf env.getpid t ∧ H (t ::ₘ taken) w) ∨
    (port = uintMax ∧ Multiset.card taken = 1024 ∧ H taken w)

/-- What goes on whatever slots are out. -/
theorem Ported.andThen {H H' : Multiset (Slot 32 32) → SockState → Prop} {port : UInt32}
    {x : Sock Unit} (hx : ∀ taken, Yields (H taken) x fun _ => H' taken) :
    Yields (Ported env H taken port) x fun _ => Ported env H' taken port := by
  rintro w (⟨t, hport, hw⟩ | ⟨hport, hfull, hw⟩)
  · exact (hx _).weaken (fun _ h => h) (fun _ _ h => Or.inl ⟨t, hport, h⟩) w hw
  · exact (hx _).weaken (fun _ h => h) (fun _ _ h => Or.inr ⟨hport, hfull, h⟩) w hw

theorem generateLocalPort_yields :
    Yields (Holds env live refs taken opened) generateLocalPort
      (Ported env (Holds env live refs · opened) taken) := by
  refine .inspect fun w h => ?_
  cases hfree : w.usedPortsMap.firstFree with
  | some t =>
      rintro _ rfl
      refine Or.inl ⟨t, by rw [← h.env], h.env, h.handles, h.socks, h.contents, h.cbs, ?_, h.fds⟩
      exact h.ports.take hfree
  | none =>
      rintro _ rfl
      exact Or.inr ⟨rfl, h.ports.full hfree, h⟩

theorem releaseLocalPort_yields (port : UInt32) :
    Yields (Holds env live refs (portSlots port + taken) opened) (releaseLocalPort port) fun _ =>
      Holds env live refs taken opened := by
  intro w h
  by_cases hmax : port = uintMax
  · rw [portSlots, if_pos hmax, zero_add] at h
    rw [releaseLocalPort, if_pos hmax]
    exact h
  · rw [portSlots, if_neg hmax, Multiset.singleton_add] at h
    rw [releaseLocalPort, if_neg hmax]
    exact ⟨h.env, h.handles, h.socks, h.contents, h.cbs, h.ports.give, h.fds⟩

/-! ## The functions of the module -/

theorem nlCbAlloc_yields (kind : Int) :
    Yields (Holds env live refs taken opened) (nlCbAlloc kind) fun r w =>
      match r with
      | some cb => Holds env live (cb ::ₘ refs) taken opened w
      | none => (¬ (kind < 0 ∨ nlCbKindMax < kind) → env.Short) ∧
        Holds env live refs taken opened w := by
  refine .choose (fun hkind => .ret fun w h => ⟨fun hno => absurd hkind hno, h⟩) fun _ => ?_
  refine .andThen calloc_yields fun b => ?_
  refine .given fun hshort => ?_
  cases b with
  | true => exact fun w h => ⟨h.env, h.handles, h.socks, h.contents, h.cbs.alloc (), h.ports, h.fds⟩
  | false => exact .ret fun w h => ⟨fun _ => hshort rfl, h⟩

theorem closeIfOpen_yields (s : NlSocket) :
    Yields (Holds env live refs taken (s.fds + opened)) (closeIfOpen s) fun _ =>
      Holds env live refs taken opened := by
  unfold NlSocket.fds closeIfOpen
  cases s.sFd with
  | none => exact .ret fun w h => by simpa using h
  | some fd => exact closeFd_yields

theorem releaseIfGenerated_yields (s : NlSocket) :
    Yields (Holds env live refs (s.slots + taken) opened) (releaseIfGenerated s) fun _ =>
      Holds env live refs taken opened := by
  unfold NlSocket.slots
  refine .choose (fun hgen => ?_) fun hown => ?_
  · rw [if_pos (show s.Generated from hgen)]
    exact releaseLocalPort_yields s.nlPid
  · rw [if_neg (show ¬ s.Generated from hown), zero_add]
    exact .ret fun w h => h

/-- A freed socket gives back all it has. -/
theorem nlSocketFree_yields :
    Yields (Holds env ((sk, s) ::ₘ live) (s.sCb ::ₘ refs) (s.slots + taken) (s.fds + opened))
      (nlSocketFree sk) fun _ => Holds env live refs taken opened := by
  refine .andThen sockOf_yields fun r => .given ?_
  rintro rfl
  refine .andThen (closeIfOpen_yields r) fun _ => ?_
  refine .andThen (releaseIfGenerated_yields r) fun _ => ?_
  exact .andThen nlCbPut_yields fun _ => dropSock_yields

/-- What `__alloc_socket` leaves: a socket without a descriptor, with a port of its own, or nothing,
and then why. -/
def Allocated (env : SockEnv) (live : Multiset (Nat × NlSocket)) (refs : Multiset Nat)
    (taken : Multiset (Slot 32 32)) (opened : Multiset Nat) (cb : Nat) :
    Option Nat → SockState → Prop
  | some sk, w => ∃ s : NlSocket, s.sCb = cb ∧ s.sFd = none ∧ s.Generated ∧ s.nlPid ≠ uintMax ∧
      Holds env ((sk, s) ::ₘ live) (cb ::ₘ refs) (s.slots + taken) opened w
  | none, w => (env.Short ∧ Holds env live (cb ::ₘ refs) taken opened w) ∨
      (Multiset.card taken = 1024 ∧ Holds env live refs taken opened w) ∨
      (pidBits env.getpid = 0x3FFFFF ∧ ∃ t, Holds env live refs (t ::ₘ taken) opened w)

/-- `nl_socket_free` of a socket that got no port. -/
theorem freeUnported_yields (hgen : s.Generated) (hport : s.nlPid = uintMax) (hfd : s.sFd = none) :
    Yields (Holds env ((sk, s) ::ₘ live) (s.sCb ::ₘ refs) taken opened) (nlSocketFree sk) fun _ =>
      Holds env live refs taken opened := by
  have hslots : s.slots = 0 := by rw [NlSocket.slots, if_pos hgen, portSlots, if_pos hport]
  have hfds : s.fds = 0 := by rw [NlSocket.fds, hfd]; rfl
  have hfree : Yields (Holds env ((sk, s) ::ₘ live) (s.sCb ::ₘ refs) (s.slots + taken)
      (s.fds + opened))
      (nlSocketFree sk) fun _ => Holds env live refs taken opened := nlSocketFree_yields
  rwa [hslots, hfds, zero_add, zero_add] at hfree

theorem allocSocket_yields (cb : Nat) (time : UInt32) :
    Yields (Holds env live (cb ::ₘ refs) taken opened) (allocSocket cb time)
      (Allocated env live refs taken opened cb) := by
  refine .andThen calloc_yields fun b => .given fun hshort => ?_
  cases b with
  | false => exact .ret fun w h => Or.inl ⟨hshort rfl, h⟩
  | true =>
      refine .inspect fun w h => ?_
      let blank : NlSocket := { seq := ⟨time, time⟩, sCb := cb }
      refine .andThen (Q := fun _ =>
        Holds env ((w.socks.next, blank) ::ₘ live) (cb ::ₘ refs) taken opened) ?_ fun _ => ?_
      · rintro _ rfl
        exact h.newSock
      refine .andThen generateLocalPort_yields fun port => ?_
      let s : NlSocket := { blank with nlPid := port }
      have hgen : s.Generated := NlSocket.generated_of_flags rfl
      refine .andThen (Q := fun _ =>
        Ported env (Holds env ((w.socks.next, s) ::ₘ live) (cb ::ₘ refs) · opened) taken port)
        (Ported.andThen fun _ => setSock_yields) fun _ => ?_
      refine .choose (fun hmax => ?_) fun hmax => .ret ?_
      · refine .andThen (Q := fun _ => Ported env (Holds env live refs · opened) taken port)
          (Ported.andThen fun _ => freeUnported_yields (s := s) hgen hmax rfl) fun _ => .ret ?_
        rintro w' (⟨t, hport, hw⟩ | ⟨-, hfull, hw⟩)
        · exact Or.inr (Or.inr ⟨pidBits_of_portOf_eq (hport.symm.trans hmax), t, hw⟩)
        · exact Or.inr (Or.inl ⟨hfull, hw⟩)
      · rintro w' (⟨t, hport, hw⟩ | ⟨hport, -, -⟩)
        · have hslots : s.slots = {t} := by
            rw [NlSocket.slots, if_pos hgen, portSlots, if_neg hmax]
            show {portSlot port} = _
            rw [hport, portSlot_portOf]
          refine ⟨s, rfl, rfl, hgen, hmax, ?_⟩
          rw [hslots, Multiset.singleton_add]
          exact hw
        · exact absurd hport hmax

/-- Why `nl_socket_alloc` returns nothing. -/
theorem nlSocketAlloc_yields (time : UInt32) :
    Yields (Holds env live refs taken opened) (nlSocketAlloc time) fun r w =>
      (∃ cb, Allocated env live refs taken opened cb r w) ∨
        (r = none ∧ env.Short ∧ Holds env live refs taken opened w) := by
  refine .andThen (nlCbAlloc_yields nlCbDefault) fun r => ?_
  cases r with
  | some cb =>
      exact (allocSocket_yields cb time).weaken (fun _ h => h) fun _ _ h => Or.inl ⟨cb, h⟩
  | none => exact .ret fun w h => Or.inr ⟨rfl, h.1 (by decide), h.2⟩

theorem nlSocketAllocCb_yields {cb : Nat} (hmem : cb ∈ refs) (hroom : refs.count cb < intMax)
    (time : UInt32) :
    Yields (Holds env live refs taken opened) (nlSocketAllocCb (some cb) time)
      (Allocated env live refs taken opened cb) := by
  refine .andThen (nlCbGet_yields hmem hroom) fun r => .given ?_
  rintro rfl
  exact allocSocket_yields r time

theorem nlSocketGetCb_yields (hmem : s.sCb ∈ refs) (hroom : refs.count s.sCb < intMax) :
    Yields (Holds env ((sk, s) ::ₘ live) refs taken opened) (nlSocketGetCb sk) fun r w =>
      r = s.sCb ∧ Holds env ((sk, s) ::ₘ live) (s.sCb ::ₘ refs) taken opened w := by
  refine .andThen sockOf_yields fun r => .given ?_
  rintro rfl
  exact nlCbGet_yields hmem hroom

/-- The old set is given back, the new one is shared with the caller. -/
theorem nlSocketSetCb_yields {cb : Nat} (hmem : cb ∈ refs) (hroom : refs.count cb < intMax) :
    Yields (Holds env ((sk, s) ::ₘ live) (s.sCb ::ₘ refs) taken opened)
      (nlSocketSetCb sk cb) fun _ =>
      Holds env ((sk, { s with sCb := cb }) ::ₘ live) (cb ::ₘ refs) taken opened := by
  refine .andThen sockOf_yields fun r => .given ?_
  rintro rfl
  refine .andThen nlCbPut_yields fun _ => .andThen (nlCbGet_yields hmem hroom) fun r' => .given ?_
  rintro rfl
  exact setSock_yields

theorem nlClose_yields :
    Yields (Holds env ((sk, s) ::ₘ live) refs taken (s.fds + opened)) (nlClose sk) fun _ =>
      Holds env ((sk, { s with sFd := none, sProto := 0 }) ::ₘ live) refs taken opened := by
  refine .andThen sockOf_yields fun r => .given ?_
  rintro rfl
  exact .andThen (closeIfOpen_yields r) fun _ => setSock_yields

theorem ownPort_cleared (f : UInt32) : f &&& ~~~nlOwnPort &&& nlOwnPort = 0 := by
  rw [UInt32.and_assoc, UInt32.not_and_self, UInt32.and_zero]

theorem or_and_ownPort (f k : UInt32) :
    (f ||| k) &&& nlOwnPort = (f &&& nlOwnPort) ||| (k &&& nlOwnPort) := by
  refine UInt32.toNat_inj.mp ?_
  simp only [UInt32.toNat_and, UInt32.toNat_or, Nat.and_or_distrib_right]

theorem ownPort_set (f : UInt32) : (f ||| nlOwnPort) &&& nlOwnPort ≠ 0 := by
  rw [or_and_ownPort, UInt32.and_self]
  intro h
  have hbit : 4 ≤ ((f &&& nlOwnPort) ||| nlOwnPort).toNat := by
    rw [UInt32.toNat_or]
    exact Nat.right_le_or
  rw [h] at hbit
  exact absurd hbit (by decide)

/-- With a port of its own a socket has no slot. -/
theorem slots_own (hown : ¬ s.Generated) : s.slots = 0 := if_neg hown

theorem slots_generated (hgen : s.Generated) : s.slots = portSlots s.nlPid := if_pos hgen

/-- `nl_socket_set_local_port`: with port 0 the slot the socket had stays out. -/
theorem nlSocketSetLocalPort_yields (port : UInt32) :
    Yields (Holds env ((sk, s) ::ₘ live) refs (s.slots + taken) opened)
      (nlSocketSetLocalPort sk port)
      fun _ w => ∃ s' gone, s'.sCb = s.sCb ∧ s'.sFd = s.sFd ∧
        Holds env ((sk, s') ::ₘ live) refs (s'.slots + (gone + taken)) opened w ∧
        (pidBits env.getpid ≠ 0x3FFFFF → (port = 0 → s.slots = 0) → gone = 0) := by
  refine .andThen sockOf_yields fun r => .given ?_
  rintro rfl
  refine .choose (fun hzero => ?_) fun hport => ?_
  · refine .andThen generateLocalPort_yields fun port' => ?_
    let s' : NlSocket := { r with nlPid := port', sFlags := r.sFlags &&& ~~~nlOwnPort }
    have hslots : s'.slots = portSlots port' := slots_generated (ownPort_cleared r.sFlags)
    have hset : Yields (Ported env (Holds env ((sk, r) ::ₘ live) refs · opened)
        (r.slots + taken) port')
        (setSock sk s') fun _ =>
        Ported env (Holds env ((sk, s') ::ₘ live) refs · opened) (r.slots + taken) port' :=
      Ported.andThen fun _ => setSock_yields
    refine hset.weaken (fun _ h => h) ?_
    rintro - w (⟨t, hp, hw⟩ | ⟨hp, -, hw⟩)
    · by_cases hmax : port' = uintMax
      · refine ⟨s', t ::ₘ r.slots, rfl, rfl, ?_, fun hpid => ?_⟩
        · rw [hslots, portSlots, if_pos hmax, zero_add, Multiset.cons_add]
          exact hw
        · exact absurd (pidBits_of_portOf_eq (hp.symm.trans hmax)) hpid
      · refine ⟨s', r.slots, rfl, rfl, ?_, fun _ hkept => hkept hzero⟩
        rw [hslots, portSlots, if_neg hmax, hp, portSlot_portOf, Multiset.singleton_add]
        exact hw
    · refine ⟨s', r.slots, rfl, rfl, ?_, fun _ hkept => hkept hzero⟩
      rw [hslots, portSlots, if_pos hp, zero_add]
      exact hw
  · refine .andThen (releaseIfGenerated_yields r) fun _ => ?_
    refine setSock_yields.weaken (fun _ h => h) fun _ w hw => ?_
    let s' : NlSocket := { r with nlPid := port, sFlags := r.sFlags ||| nlOwnPort }
    have hslots : s'.slots = 0 := slots_own (ownPort_set r.sFlags)
    refine ⟨s', 0, rfl, rfl, ?_, fun _ _ => rfl⟩
    rw [hslots, zero_add, zero_add]
    exact hw

/-! ## Connecting -/

/-- A socket that differs in its connection only. -/
structure NlSocket.Like (s s' : NlSocket) : Prop where
  cb : s'.sCb = s.sCb
  port : s'.nlPid = s.nlPid
  generated : s'.Generated ↔ s.Generated

theorem NlSocket.Like.slots (h : s.Like s') : s'.slots = s.slots := by
  unfold NlSocket.slots
  rw [h.port]
  simp only [h.generated]

theorem bufsize_generated (f : UInt32) :
    (f ||| nlSockBufsizeSet) &&& nlOwnPort = f &&& nlOwnPort := by
  rw [or_and_ownPort]
  exact UInt32.or_zero

/-- The socket of `nl_connect` on the way: its descriptor is `fd`. -/
def Connecting (env : SockEnv) (live : Multiset (Nat × NlSocket)) (refs : Multiset Nat)
    (taken : Multiset (Slot 32 32)) (opened : Multiset Nat) (sk : Nat) (s : NlSocket)
      (fd : Option Nat)
    (w : SockState) : Prop :=
  ∃ s', s.Like s' ∧ s'.sFd = fd ∧ Holds env ((sk, s') ::ₘ live) refs taken opened w

theorem sockOf_connecting {fd : Option Nat} {α : Type} {f : NlSocket → Sock α}
    {Q : α → SockState → Prop}
    (hf : ∀ s', s.Like s' → s'.sFd = fd →
      Yields (Holds env ((sk, s') ::ₘ live) refs taken opened) (f s') Q) :
    Yields (Connecting env live refs taken opened sk s fd) (sockOf sk >>= f) Q := by
  rintro w ⟨s', hlike, hfd, hw⟩
  refine Triple.andThen sockOf_yields (fun r => .given ?_) w hw
  rintro rfl
  exact hf r hlike hfd

/-- A write that changes neither the descriptor nor what the callers of `Like` ask for. -/
theorem setSock_connecting {s₁ s₂ : NlSocket} (hlike : s.Like s₁) (h : s₁.Like s₂) :
    Yields (Holds env ((sk, s₁) ::ₘ live) refs taken opened) (setSock sk s₂) fun _ =>
      Connecting env live refs taken opened sk s s₂.sFd :=
  setSock_yields.weaken (fun _ h => h) fun _ _ hw =>
    ⟨s₂, ⟨h.cb.trans hlike.cb, h.port.trans hlike.port, h.generated.trans hlike.generated⟩, rfl, hw⟩

theorem nlSocketSetBufferSize_connecting {fd : Option Nat} (a : Answers) :
    Yields (Connecting env live refs taken opened sk s fd) (nlSocketSetBufferSize sk a) fun _ =>
      Connecting env live refs taken opened sk s fd := by
  refine sockOf_connecting fun s' hlike hfd => ?_
  have hstay {e : Int} : Yields (Holds env ((sk, s') ::ₘ live) refs taken opened) (pure e) fun _ =>
      Connecting env live refs taken opened sk s fd := .ret fun w hw => ⟨s', hlike, hfd, hw⟩
  refine .choose (fun _ => hstay) fun _ => ?_
  cases a.sndbuf with
  | some e => exact hstay
  | none =>
      cases a.rcvbuf with
      | some e => exact hstay
      | none =>
          subst hfd
          refine .andThen (setSock_connecting hlike ⟨rfl, rfl, ?_⟩) fun _ => .ret fun _ h => h
          unfold NlSocket.Generated
          rw [bufsize_generated]

theorem ensureBufferSize_connecting {fd : Option Nat} (a : Answers) :
    Yields (Connecting env live refs taken opened sk s fd) (ensureBufferSize sk a) fun _ =>
      Connecting env live refs taken opened sk s fd := by
  refine sockOf_connecting fun s' hlike hfd => ?_
  refine .choose (fun _ => ?_) fun _ => .ret fun w hw => ⟨s', hlike, hfd, hw⟩
  exact (nlSocketSetBufferSize_connecting a).weaken (fun w hw => ⟨s', hlike, hfd, hw⟩)
    fun _ _ h => h

/-- The kernel reports the port that the socket was bound to. -/
def Answers.Reports (a : Answers) (port : UInt32) : Prop := a.getsockname = none → a.port = port

theorem bindLocal_connecting {fd : Option Nat} (protocol : Int) {a : Answers}
    (ha : a.Reports s.nlPid) :
    Yields (Connecting env live refs taken opened sk s fd) (bindLocal sk protocol a) fun _ =>
      Connecting env live refs taken opened sk s fd := by
  unfold bindLocal
  cases a.bind with
  | some e => exact .ret fun _ h => h
  | none =>
      cases hname : a.getsockname with
      | some e => exact .ret fun _ h => h
      | none =>
          refine sockOf_connecting fun s' hlike hfd => ?_
          subst hfd
          have hport : a.port = s'.nlPid := (ha hname).trans hlike.port.symm
          refine .andThen (setSock_connecting hlike ⟨rfl, hport, Iff.rfl⟩) fun _ => ?_
          refine .choose (fun _ => .ret fun _ h => h) fun _ => ?_
          refine .choose (fun _ => .ret fun _ h => h) fun _ => ?_
          refine sockOf_connecting fun s'' hlike hfd => ?_
          rw [show s'.sFd = s''.sFd from hfd.symm]
          exact .andThen (setSock_connecting hlike ⟨rfl, rfl, Iff.rfl⟩) fun _ => .ret fun _ h => h

theorem errout_connecting (fd : Option Nat) (err : Int) :
    Yields (Connecting env live refs taken ((fd.elim 0 fun fd => {fd}) + opened) sk s fd)
      (errout sk err) fun _ => Connecting env live refs taken opened sk s none := by
  refine sockOf_connecting fun s' hlike hfd => ?_
  subst hfd
  refine .andThen (closeIfOpen_yields s') fun _ => ?_
  exact .andThen (setSock_connecting hlike ⟨rfl, rfl, Iff.rfl⟩) fun _ => .ret fun _ h => h

/-- `nl_connect` leaves the descriptor the socket had before open. -/
theorem nlConnect_yields (protocol : Int) {a : Answers} (ha : a.Reports s.nlPid) :
    Yields (Holds env ((sk, s) ::ₘ live) refs taken opened) (nlConnect sk protocol a) fun _ w =>
      ∃ s', s.Like s' ∧ Holds env ((sk, s') ::ₘ live) refs taken (s'.fds + opened) w := by
  have hnone : ∀ (_ : Int) w, Connecting env live refs taken opened sk s none w →
      ∃ s', s.Like s' ∧ Holds env ((sk, s') ::ₘ live) refs taken (s'.fds + opened) w := by
    rintro - w ⟨s', hlike, hfd, hw⟩
    refine ⟨s', hlike, ?_⟩
    rw [NlSocket.fds, hfd]
    exact (zero_add opened).symm ▸ hw
  have hself : s.Like s := ⟨rfl, rfl, Iff.rfl⟩
  refine .andThen sockOf_yields fun r => .given ?_
  rintro rfl
  cases a.socket with
  | some e =>
      refine .andThen (setSock_connecting hself ⟨rfl, rfl, Iff.rfl⟩) fun _ => ?_
      refine (errout_connecting none (-nlSyserr2nlerr e)).weaken (fun w hw => ?_) hnone
      rw [Option.elim_none, zero_add]
      exact hw
  | none =>
      refine .andThen openFd_yields fun fd => ?_
      have hfail (err : Int) :
          Yields (Connecting env live refs taken (fd ::ₘ opened) sk r (some fd))
          (errout sk err) fun _ w =>
          ∃ s', r.Like s' ∧ Holds env ((sk, s') ::ₘ live) refs taken (s'.fds + opened) w :=
        (errout_connecting (some fd) err).weaken (fun _ hw => hw) hnone
      refine .andThen (setSock_connecting hself ⟨rfl, rfl, Iff.rfl⟩) fun _ => ?_
      refine .andThen (ensureBufferSize_connecting a) fun err => ?_
      refine .choose (fun _ => hfail err) fun _ => ?_
      refine .andThen (bindLocal_connecting protocol ha) fun err => ?_
      refine .choose (fun _ => hfail err) fun _ => .ret ?_
      rintro w ⟨s', hlike, hfd, hw⟩
      refine ⟨s', hlike, ?_⟩
      rw [NlSocket.fds, hfd]
      exact hw

end Held

end Nl80211.Libnl
