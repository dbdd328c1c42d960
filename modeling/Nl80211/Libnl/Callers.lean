/-
# Nl80211.Libnl.Callers — runs of a program that uses sockets.

A caller makes one call after the other, in any order.  It knows the sockets and the references to
callback sets that it holds (`Holder`) and only passes those on, and it does not take more
references to a set than an `int` can count (`Call.Fair`).  `Ledger` is what the process holds at
such a moment, sockets and losses; one lemma says what a call makes of it (`Call.kept`), and the
runs follow.

A caller is careful when it does not ask for a new port for a socket that has one and does not
connect a socket that is connected.  With memory to spare a careful caller loses nothing.
-/
import Nl80211.Libnl.Sockets
import Mathlib

namespace Nl80211.Libnl

open Lib Lib.Counted Lib.Slots Sock

/-! ## Calls -/

/-- The calls of a program. -/
inductive Call where
  | cbAlloc (kind : Int)
  | cbGet (cb : Nat)
  | cbPut (cb : Nat)
  | alloc (time : UInt32)
  | allocCb (cb : Nat) (time : UInt32)
  | free (sk : Nat)
  | setLocalPort (sk : Nat) (port : UInt32)
  | getCb (sk : Nat)
  | setCb (sk cb : Nat)
  | connect (sk : Nat) (protocol : Int) (a : Answers)
  | close (sk : Nat)

/-- What a program has been given and has not given back. -/
@[ext] structure Holder where
  socks : Multiset Nat := 0
  refs : Multiset Nat := 0

/-- A port from the bitmap. -/
def NlSocket.HasSlot (s : NlSocket) : Prop := s.Generated ∧ s.nlPid ≠ uintMax

instance (s : NlSocket) : Decidable s.HasSlot := by
  unfold NlSocket.HasSlot
  infer_instance

namespace Call

/-- The call itself; a handle is returned where there is one. -/
def run : Call → Sock (Option Nat)
  | cbAlloc kind => nlCbAlloc kind
  | cbGet cb => do return some (← nlCbGet cb)
  | cbPut cb => do nlCbPut cb; return none
  | alloc time => nlSocketAlloc time
  | allocCb cb time => nlSocketAllocCb (some cb) time
  | free sk => do nlSocketFree sk; return none
  | setLocalPort sk port => do nlSocketSetLocalPort sk port; return none
  | getCb sk => do return some (← nlSocketGetCb sk)
  | setCb sk cb => do nlSocketSetCb sk cb; return none
  | connect sk protocol a => do let _ ← nlConnect sk protocol a; return none
  | close sk => do nlClose sk; return none

/-- The caller holds what it passes on, a callback set that it asks for once more is counted below
the largest `int`, and the kernel reports the port a socket is bound to. -/
def Fair (w : SockState) (h : Holder) : Call → Prop
  | cbAlloc _ | alloc _ => True
  | cbPut cb => cb ∈ h.refs
  | cbGet cb | allocCb cb _ => cb ∈ h.refs ∧ w.cbs.count cb < intMax
  | free sk | setLocalPort sk _ | close sk => sk ∈ h.socks
  | getCb sk => sk ∈ h.socks ∧ ∀ s, w.socks.contents sk = some s → w.cbs.count s.sCb < intMax
  | setCb sk cb => sk ∈ h.socks ∧ cb ∈ h.refs ∧ w.cbs.count cb < intMax
  | connect sk _ a => sk ∈ h.socks ∧ ∀ s, w.socks.contents sk = some s → a.Reports s.nlPid

/-- What the caller holds when the call has returned `r`. -/
def after (h : Holder) (r : Option Nat) : Call → Holder
  | cbAlloc _ | cbGet _ | getCb _ => { h with refs := r.elim h.refs (· ::ₘ h.refs) }
  | cbPut cb => { h with refs := h.refs.erase cb }
  | alloc _ | allocCb _ _ => { h with socks := r.elim h.socks (· ::ₘ h.socks) }
  | free sk => { h with socks := h.socks.erase sk }
  | setLocalPort _ _ | setCb _ _ | connect _ _ _ | close _ => h

/-- No port is generated over another, no descriptor overwritten. -/
def Careful (w : SockState) : Call → Prop
  | setLocalPort sk port => port = 0 → ∀ s, w.socks.contents sk = some s → ¬ s.HasSlot
  | connect sk _ _ => ∀ s, w.socks.contents sk = some s → s.sFd = none
  | _ => True

end Call

/-- One call of a program. -/
inductive Step : SockState × Holder → SockState × Holder → Prop
  | call {w w' : SockState} {h : Holder} {r : Option Nat} (c : Call) (fair : c.Fair w h)
      (run : c.run w = .ok r w') : Step (w, h) (w', c.after h r)

/-- One call of a careful program. -/
inductive CarefulStep : SockState × Holder → SockState × Holder → Prop
  | call {w w' : SockState} {h : Holder} {r : Option Nat} (c : Call) (fair : c.Fair w h)
      (careful : c.Careful w) (run : c.run w = .ok r w') : CarefulStep (w, h) (w', c.after h r)

/-! ## The ledger -/

/-- What nobody can give back any more. -/
structure Losses where
  cbs : Multiset Nat := 0
  ports : Multiset (Slot 32 32) := 0
  fds : Multiset Nat := 0

/-- The sockets, the references that the caller holds, and what has been lost. -/
structure Ledger where
  live : Multiset (Nat × NlSocket) := 0
  refs : Multiset Nat := 0
  lost : Losses := {}

/-- Memory to spare, and not the last process id. -/
structure SockEnv.Ample (env : SockEnv) : Prop where
  memory : ∀ i, env.memory i = true
  pid : pidBits env.getpid ≠ 0x3FFFFF

theorem SockEnv.Ample.not_short {env : SockEnv} (h : env.Ample) : ¬ env.Short := by
  rintro ⟨i, hi⟩
  rw [h.memory i] at hi
  cases hi

namespace Ledger

def holder (l : Ledger) : Holder := ⟨l.live.map Prod.fst, l.refs⟩

/-- The process holds what its sockets and the caller use, and what has been lost. -/
def Kept (l : Ledger) (env : SockEnv) (w : SockState) : Prop :=
  Holds env l.live (l.refs + (l.live.map (·.2.sCb) + l.lost.cbs))
    (l.live.bind (·.2.slots) + l.lost.ports) (l.live.bind (·.2.fds) + l.lost.fds) w

variable {env : SockEnv} {w : SockState} {live : Multiset (Nat × NlSocket)} {refs : Multiset Nat}
  {lost : Losses} {sk : Nat} {s : NlSocket}

theorem kept_start (env : SockEnv) : Kept {} env { env := env } := Holds.start env

/-- One socket and what it uses set apart. -/
theorem kept_cons : Kept ⟨(sk, s) ::ₘ live, refs, lost⟩ env w ↔
    Holds env ((sk, s) ::ₘ live) (s.sCb ::ₘ (refs + (live.map (·.2.sCb) + lost.cbs)))
      (s.slots + (live.bind (·.2.slots) + lost.ports))
      (s.fds + (live.bind (·.2.fds) + lost.fds)) w := by
  simp only [Kept, Multiset.map_cons, Multiset.cons_bind, Multiset.add_cons,
    Multiset.cons_add, add_assoc]

/-- One reference set apart. -/
theorem kept_ref {cb : Nat} : Kept ⟨live, cb ::ₘ refs, lost⟩ env w ↔
    Holds env live (cb ::ₘ (refs + (live.map (·.2.sCb) + lost.cbs)))
      (live.bind (·.2.slots) + lost.ports) (live.bind (·.2.fds) + lost.fds) w := by
  simp only [Kept, Multiset.cons_add]

/-- A socket the caller holds. -/
theorem exists_live {l : Ledger} (h : sk ∈ l.holder.socks) :
    ∃ s rest, l = ⟨(sk, s) ::ₘ rest, l.refs, l.lost⟩ := by
  obtain ⟨⟨_, s⟩, hp, rfl⟩ := Multiset.mem_map.mp h
  obtain ⟨rest, hrest⟩ := Multiset.exists_cons_of_mem hp
  exact ⟨s, rest, by rw [← hrest]⟩

/-- A reference the caller holds is one that is counted. -/
theorem mem_refs {cb : Nat} {out : Multiset Nat} (h : cb ∈ refs) : cb ∈ refs + out :=
  Multiset.mem_add.mpr (Or.inl h)

end Ledger

/-! ## What a call does to the ledger -/

/-- The call returns, and the ledger follows; nothing more is lost than has to be. -/
def Call.Follows (c : Call) (env : SockEnv) (l : Ledger) (w : SockState) : Prop :=
  ∃ r w', ∃ l' : Ledger, c.run w = .ok r w' ∧ l'.Kept env w' ∧ l'.holder = c.after l.holder r ∧
    (env.Ample → c.Careful w → l'.lost = l.lost)

section Follows

variable {env : SockEnv} {w : SockState} {l : Ledger}

/-- A call follows when its triple ends in a ledger. -/
theorem Call.follows_of {c : Call} {P : SockState → Prop} (hw : P w)
    (h : Yields P c.run fun r w' => ∃ l' : Ledger, l'.Kept env w' ∧ l'.holder = c.after l.holder r ∧
      (env.Ample → c.Careful w → l'.lost = l.lost)) : c.Follows env l w := by
  obtain ⟨r, w', hrun, l', hl'⟩ := h.returns hw
  exact ⟨r, w', l', hrun, hl'⟩

theorem cbAlloc_follows (hk : l.Kept env w) (kind : Int) : (Call.cbAlloc kind).Follows env l w := by
  refine Call.follows_of hk ((nlCbAlloc_yields kind).weaken (fun _ h => h) ?_)
  intro r w' h
  cases r with
  | none => exact ⟨l, h.2, rfl, fun _ _ => rfl⟩
  | some cb => exact ⟨⟨l.live, cb ::ₘ l.refs, l.lost⟩, Ledger.kept_ref.mpr h, rfl, fun _ _ => rfl⟩

theorem cbGet_follows (hk : l.Kept env w) {cb : Nat} (hmem : cb ∈ l.refs)
    (hroom : w.cbs.count cb < intMax) : (Call.cbGet cb).Follows env l w := by
  rw [hk.cbs.count] at hroom
  refine Call.follows_of hk (.andThen (nlCbGet_yields (Ledger.mem_refs hmem) hroom)
    fun r => .given ?_)
  rintro rfl
  refine .ret fun w' h => ⟨⟨l.live, r ::ₘ l.refs, l.lost⟩, Ledger.kept_ref.mpr h, rfl,
    fun _ _ => rfl⟩

theorem cbPut_follows (hk : l.Kept env w) {cb : Nat} (hmem : cb ∈ l.refs) :
    (Call.cbPut cb).Follows env l w := by
  obtain ⟨refs, hrefs⟩ := Multiset.exists_cons_of_mem hmem
  obtain ⟨live, _, lost⟩ := l
  subst hrefs
  refine Call.follows_of (Ledger.kept_ref.mp hk)
    (.andThen nlCbPut_yields fun _ => .ret fun w' h => ?_)
  refine ⟨⟨live, refs, lost⟩, h, ?_, fun _ _ => rfl⟩
  show _ = Holder.mk _ ((cb ::ₘ refs).erase cb)
  rw [Multiset.erase_cons_head]
  rfl

/-- What comes of `__alloc_socket`. -/
theorem follows_of_allocated {cb : Nat} {r : Option Nat} {w' : SockState}
    (h : Allocated env l.live (l.refs + (l.live.map (·.2.sCb) + l.lost.cbs))
      (l.live.bind (·.2.slots) + l.lost.ports) (l.live.bind (·.2.fds) + l.lost.fds) cb r w') :
    ∃ l' : Ledger, l'.Kept env w' ∧ l'.holder = ⟨r.elim l.holder.socks (· ::ₘ l.holder.socks),
      l.refs⟩ ∧
      (env.Ample → l'.lost = l.lost) := by
  cases r with
  | some sk =>
      obtain ⟨s, rfl, hfd, -, -, hw⟩ := h
      refine ⟨⟨(sk, s) ::ₘ l.live, l.refs, l.lost⟩, Ledger.kept_cons.mpr ?_, ?_, fun _ => rfl⟩
      · rw [NlSocket.fds, hfd]
        exact (zero_add (l.live.bind (·.2.fds) + l.lost.fds)).symm ▸ hw
      · show Holder.mk (((sk, s) ::ₘ l.live).map Prod.fst) _ = _
        rw [Multiset.map_cons]
        rfl
  | none =>
      rcases h with ⟨hshort, hw⟩ | ⟨-, hw⟩ | ⟨hpid, t, hw⟩
      · refine ⟨⟨l.live, l.refs, { l.lost with cbs := cb ::ₘ l.lost.cbs }⟩, ?_, rfl,
          fun hample => absurd hshort hample.not_short⟩
        show Holds _ _ _ _ _ _
        simp only [Multiset.add_cons]
        exact hw
      · exact ⟨l, hw, rfl, fun _ => rfl⟩
      · refine ⟨⟨l.live, l.refs, { l.lost with ports := t ::ₘ l.lost.ports }⟩, ?_, rfl,
          fun hample => absurd hpid hample.pid⟩
        show Holds _ _ _ _ _ _
        simp only [Multiset.add_cons]
        exact hw

theorem alloc_follows (hk : l.Kept env w) (time : UInt32) : (Call.alloc time).Follows env l w := by
  refine Call.follows_of hk ((nlSocketAlloc_yields time).weaken (fun _ h => h) ?_)
  rintro r w' (⟨cb, h⟩ | ⟨rfl, hshort, h⟩)
  · obtain ⟨l', hk', hholder, hlost⟩ := follows_of_allocated h
    exact ⟨l', hk', hholder, fun hample _ => hlost hample⟩
  · exact ⟨l, h, rfl, fun _ _ => rfl⟩

theorem allocCb_follows (hk : l.Kept env w) {cb : Nat} (hmem : cb ∈ l.refs)
    (hroom : w.cbs.count cb < intMax) (time : UInt32) : (Call.allocCb cb time).Follows env l w := by
  rw [hk.cbs.count] at hroom
  refine Call.follows_of hk
    ((nlSocketAllocCb_yields (Ledger.mem_refs hmem) hroom time).weaken (fun _ h => h) ?_)
  intro r w' h
  obtain ⟨l', hk', hholder, hlost⟩ := follows_of_allocated h
  exact ⟨l', hk', hholder, fun hample _ => hlost hample⟩

end Follows

section Sockets

variable {env : SockEnv} {w : SockState} {rest : Multiset (Nat × NlSocket)} {refs : Multiset Nat}
  {lost : Losses} {sk : Nat} {s : NlSocket}

theorem holder_cons (s s' : NlSocket) :
    Ledger.holder ⟨(sk, s') ::ₘ rest, refs, lost⟩ = Ledger.holder ⟨(sk, s) ::ₘ rest,
      refs, lost⟩ := by
  unfold Ledger.holder
  simp only [Multiset.map_cons]

theorem free_follows (hk : Ledger.Kept ⟨(sk, s) ::ₘ rest, refs, lost⟩ env w) :
    (Call.free sk).Follows env ⟨(sk, s) ::ₘ rest, refs, lost⟩ w := by
  refine Call.follows_of (Ledger.kept_cons.mp hk) (.andThen nlSocketFree_yields fun _ => .ret
    fun w' h => ?_)
  refine ⟨⟨rest, refs, lost⟩, h, ?_, fun _ _ => rfl⟩
  show _ = Holder.mk ((((sk, s) ::ₘ rest).map Prod.fst).erase sk) _
  rw [Multiset.map_cons, Multiset.erase_cons_head]
  rfl

theorem getCb_follows (hk : Ledger.Kept ⟨(sk, s) ::ₘ rest, refs, lost⟩ env w)
    (hroom : w.cbs.count s.sCb < intMax) :
    (Call.getCb sk).Follows env ⟨(sk, s) ::ₘ rest, refs, lost⟩ w := by
  have hheld := Ledger.kept_cons.mp hk
  rw [hheld.cbs.count] at hroom
  refine Call.follows_of hheld
    (.andThen (nlSocketGetCb_yields (Multiset.mem_cons_self _ _) hroom) fun r => .given ?_)
  rintro rfl
  refine .ret fun w' h => ⟨⟨(sk, s) ::ₘ rest, s.sCb ::ₘ refs, lost⟩, ?_, rfl, fun _ _ => rfl⟩
  rw [Ledger.kept_cons, Multiset.cons_add]
  exact h

theorem setCb_follows (hk : Ledger.Kept ⟨(sk, s) ::ₘ rest, refs, lost⟩ env w) {cb : Nat}
    (hmem : cb ∈ refs) (hroom : w.cbs.count cb < intMax) :
    (Call.setCb sk cb).Follows env ⟨(sk, s) ::ₘ rest, refs, lost⟩ w := by
  have hheld := Ledger.kept_cons.mp hk
  rw [hheld.cbs.count] at hroom
  have hleft := Nat.lt_of_le_of_lt (Multiset.count_le_count_cons cb s.sCb _) hroom
  refine Call.follows_of hheld
    (.andThen (nlSocketSetCb_yields (Ledger.mem_refs hmem) hleft) fun _ => .ret fun w' h => ?_)
  exact ⟨⟨(sk, { s with sCb := cb }) ::ₘ rest, refs, lost⟩, Ledger.kept_cons.mpr h, holder_cons _ _,
    fun _ _ => rfl⟩

theorem close_follows (hk : Ledger.Kept ⟨(sk, s) ::ₘ rest, refs, lost⟩ env w) :
    (Call.close sk).Follows env ⟨(sk, s) ::ₘ rest, refs, lost⟩ w := by
  refine Call.follows_of (Ledger.kept_cons.mp hk)
    (.andThen nlClose_yields fun _ => .ret fun w' h => ?_)
  refine ⟨⟨(sk, { s with sFd := none, sProto := 0 }) ::ₘ rest, refs, lost⟩, Ledger.kept_cons.mpr ?_,
    holder_cons _ _, fun _ _ => rfl⟩
  rw [show NlSocket.fds { s with sFd := none, sProto := 0 } = 0 from rfl, zero_add]
  exact h

/-- A socket without a port from the bitmap has no slot. -/
theorem slots_eq_zero (h : ¬ s.HasSlot) : s.slots = 0 := by
  unfold NlSocket.slots portSlots
  split_ifs with hgen hmax
  · rfl
  · exact absurd ⟨hgen, hmax⟩ h
  · rfl

theorem slots_of_hasSlot (h : s.HasSlot) : s.slots = {portSlot s.nlPid} := by
  rw [NlSocket.slots, if_pos h.1, portSlots, if_neg h.2]

/-- The socket the caller means is the one in the ledger. -/
theorem contents_of_kept (hk : Ledger.Kept ⟨(sk, s) ::ₘ rest, refs, lost⟩ env w) :
    w.socks.contents sk = some s :=
  Holds.contents hk (sk, s) (Multiset.mem_cons_self _ _)

theorem setLocalPort_follows (hk : Ledger.Kept ⟨(sk, s) ::ₘ rest, refs, lost⟩ env w)
    (port : UInt32) :
    (Call.setLocalPort sk port).Follows env ⟨(sk, s) ::ₘ rest, refs, lost⟩ w := by
  refine Call.follows_of (Ledger.kept_cons.mp hk)
    (.andThen (nlSocketSetLocalPort_yields port) fun _ => .ret ?_)
  rintro w' ⟨s', gone, hcb, hfd, h, hgone⟩
  refine ⟨⟨(sk, s') ::ₘ rest, refs, { lost with ports := gone + lost.ports }⟩,
    Ledger.kept_cons.mpr ?_,
    holder_cons _ _, fun hample hcareful => ?_⟩
  · rw [hcb, NlSocket.fds, hfd, add_left_comm (rest.bind (·.2.slots))]
    exact h
  · have hnone : gone = 0 :=
      hgone hample.pid fun hzero => slots_eq_zero (hcareful hzero s (contents_of_kept hk))
    rw [hnone, zero_add]

theorem connect_follows (hk : Ledger.Kept ⟨(sk, s) ::ₘ rest, refs, lost⟩ env w) (protocol : Int)
    {a : Answers} (ha : a.Reports s.nlPid) :
    (Call.connect sk protocol a).Follows env ⟨(sk, s) ::ₘ rest, refs, lost⟩ w := by
  refine Call.follows_of (Ledger.kept_cons.mp hk)
    (.andThen (nlConnect_yields protocol ha) fun _ => .ret ?_)
  rintro w' ⟨s', hlike, h⟩
  refine ⟨⟨(sk, s') ::ₘ rest, refs, { lost with fds := s.fds + lost.fds }⟩, Ledger.kept_cons.mpr ?_,
    holder_cons _ _, fun _ hcareful => ?_⟩
  · rw [hlike.cb, hlike.slots, add_left_comm (rest.bind (·.2.fds))]
    exact h
  · have hfds : s.fds = 0 := by rw [NlSocket.fds, hcareful s (contents_of_kept hk)]; rfl
    rw [hfds, zero_add]

end Sockets

/-- Whatever a caller does with what it holds, the ledger follows. -/
theorem Call.follows {env : SockEnv} {w : SockState} {l : Ledger} (c : Call) (hk : l.Kept env w)
    (fair : c.Fair w l.holder) : c.Follows env l w := by
  cases c with
  | cbAlloc kind => exact cbAlloc_follows hk kind
  | cbGet cb => exact cbGet_follows hk fair.1 fair.2
  | cbPut cb => exact cbPut_follows hk fair
  | alloc time => exact alloc_follows hk time
  | allocCb cb time => exact allocCb_follows hk fair.1 fair.2 time
  | free sk =>
      obtain ⟨s, rest, hl⟩ := Ledger.exists_live fair
      rw [hl] at hk ⊢
      exact free_follows hk
  | setLocalPort sk port =>
      obtain ⟨s, rest, hl⟩ := Ledger.exists_live fair
      rw [hl] at hk ⊢
      exact setLocalPort_follows hk port
  | getCb sk =>
      obtain ⟨s, rest, hl⟩ := Ledger.exists_live fair.1
      have hroom := fair.2
      rw [hl] at hk ⊢
      exact getCb_follows hk (hroom s (contents_of_kept hk))
  | setCb sk cb =>
      obtain ⟨s, rest, hl⟩ := Ledger.exists_live fair.1
      have hmem : cb ∈ l.refs := fair.2.1
      rw [hl] at hk ⊢
      exact setCb_follows hk hmem fair.2.2
  | connect sk protocol a =>
      obtain ⟨s, rest, hl⟩ := Ledger.exists_live fair.1
      have ha := fair.2
      rw [hl] at hk ⊢
      exact connect_follows hk protocol (ha s (contents_of_kept hk))
  | close sk =>
      obtain ⟨s, rest, hl⟩ := Ledger.exists_live fair
      rw [hl] at hk ⊢
      exact close_follows hk

/-! ## Runs -/

section Runs

variable {env : SockEnv} {w : SockState} {h : Holder}

/-- The process before its first call. -/
abbrev fresh (env : SockEnv) : SockState × Holder := ({ env := env }, {})

/-- Every run leaves a ledger behind that agrees with what the caller holds. -/
theorem kept_of_run (hrun : Relation.ReflTransGen Step (fresh env) (w, h)) :
    ∃ l : Ledger, l.Kept env w ∧ l.holder = h := by
  generalize ht : (w, h) = t at hrun
  induction hrun generalizing w h with
  | refl =>
      cases ht
      exact ⟨{}, Ledger.kept_start env, rfl⟩
  | tail _ hstep ih =>
      cases ht
      cases hstep with
      | call c fair hcall =>
          obtain ⟨l, hk, rfl⟩ := ih rfl
          obtain ⟨r, w', l', hcall', hk', hholder, -⟩ := c.follows hk fair
          cases hcall.symm.trans hcall'
          exact ⟨l', hk', hholder⟩

/-- A careful one loses nothing. -/
theorem kept_of_carefulRun (hample : env.Ample)
    (hrun : Relation.ReflTransGen CarefulStep (fresh env) (w, h)) :
    ∃ l : Ledger, l.Kept env w ∧ l.holder = h ∧ l.lost = {} := by
  generalize ht : (w, h) = t at hrun
  induction hrun generalizing w h with
  | refl =>
      cases ht
      exact ⟨{}, Ledger.kept_start env, rfl, rfl⟩
  | tail _ hstep ih =>
      cases ht
      cases hstep with
      | call c fair careful hcall =>
          obtain ⟨l, hk, rfl, hlost⟩ := ih rfl
          obtain ⟨r, w', l', hcall', hk', hholder, hkept⟩ := c.follows hk fair
          cases hcall.symm.trans hcall'
          exact ⟨l', hk', hholder, (hkept hample careful).trans hlost⟩

/-- The caller meets no freed object, no `BUG()`, and no two of its sockets have the same port. -/
structure Safe (w : SockState) (h : Holder) : Prop where
  returns : ∀ c : Call, c.Fair w h → ∃ r w', c.run w = .ok r w'
  sound : w.socks.fault = false ∧ w.cbs.fault = false ∧ w.fds.fault = false
  apart : ∀ sk₁ ∈ h.socks, ∀ sk₂ ∈ h.socks, sk₁ ≠ sk₂ → ∀ s₁ s₂,
    w.socks.contents sk₁ = some s₁ → w.socks.contents sk₂ = some s₂ →
    s₁.HasSlot → s₂.HasSlot → s₁.nlPid ≠ s₂.nlPid

/-- Two sockets of the ledger with ports from the bitmap have different slots. -/
theorem Ledger.Kept.apart {l : Ledger} (hk : l.Kept env w) {sk₁ sk₂ : Nat} {s₁ s₂ : NlSocket}
    (h₁ : sk₁ ∈ l.holder.socks) (h₂ : sk₂ ∈ l.holder.socks) (hne : sk₁ ≠ sk₂)
    (hc₁ : w.socks.contents sk₁ = some s₁) (hc₂ : w.socks.contents sk₂ = some s₂)
    (hs₁ : s₁.HasSlot) (hs₂ : s₂.HasSlot) : s₁.nlPid ≠ s₂.nlPid := by
  obtain ⟨s, rest, hl⟩ := Ledger.exists_live h₁
  rw [hl] at hk h₂
  obtain rfl : s = s₁ := Option.some_inj.mp ((contents_of_kept hk).symm.trans hc₁)
  obtain ⟨p, hp, rfl⟩ := Multiset.mem_map.mp h₂
  rcases Multiset.mem_cons.mp hp with rfl | hp
  · exact absurd rfl hne
  obtain rfl : p.2 = s₂ :=
    Option.some_inj.mp ((Holds.contents hk p (Multiset.mem_cons_of_mem hp)).symm.trans hc₂)
  intro hport
  have hnodup := (Ledger.kept_cons.mp hk).ports.nodup
  rw [slots_of_hasSlot hs₁, Multiset.singleton_add, Multiset.nodup_cons, hport] at hnodup
  refine hnodup.1 (Multiset.mem_add.mpr (Or.inl (Multiset.mem_bind.mpr ⟨p, hp, ?_⟩)))
  rw [slots_of_hasSlot hs₂]
  exact Multiset.mem_singleton_self _

/-- In every run of every caller, whatever memory and the kernel refuse. -/
theorem sockets_safe (env : SockEnv) (hrun : Relation.ReflTransGen Step (fresh env) (w, h)) :
    Safe w h := by
  obtain ⟨l, hk, rfl⟩ := kept_of_run hrun
  refine ⟨fun c fair => ?_, ⟨hk.socks.sound, hk.cbs.sound, hk.fds.sound⟩, ?_⟩
  · obtain ⟨r, w', _, hcall, -⟩ := c.follows hk fair
    exact ⟨r, w', hcall⟩
  · intro sk₁ h₁ sk₂ h₂ hne s₁ s₂ hc₁ hc₂ hs₁ hs₂
    exact hk.apart h₁ h₂ hne hc₁ hc₂ hs₁ hs₂

/-! A process with two sockets that share a callback set. -/

def sharingEnv : SockEnv := { getpid := 7 }

/-- The state a call returns in. -/
def Call.state (c : Call) (w : SockState) : SockState :=
  match c.run w with
  | .ok _ w' => w'
  | .error _ w' => w'

def sharing : SockState :=
  (Call.allocCb 0 2).state ((Call.getCb 0).state ((Call.alloc 1).state { env := sharingEnv }))

theorem sharing_run :
    Relation.ReflTransGen CarefulStep (fresh sharingEnv) (sharing, ⟨1 ::ₘ 0 ::ₘ 0, 0 ::ₘ 0⟩) := by
  refine .tail (.tail (.tail .refl (.call (r := some 0) (.alloc 1) trivial trivial rfl))
    (.call (r := some 0) (.getCb 0) ?_ trivial rfl))
    (.call (r := some 1) (.allocCb 0 2) ?_ trivial rfl)
  · refine ⟨Multiset.mem_cons_self 0 0, ?_⟩
    rintro s ⟨⟩
    decide
  · exact ⟨Multiset.mem_cons_self 0 0, by decide⟩

theorem sharingEnv_ample : sharingEnv.Ample := ⟨fun _ => rfl, by decide⟩

theorem CarefulStep.step {s t : SockState × Holder} (h : CarefulStep s t) : Step s t := by
  cases h with
  | call c fair _ run => exact .call c fair run

theorem sockets_safe_sharing : Safe sharing ⟨1 ::ₘ 0 ::ₘ 0, 0 ::ₘ 0⟩ :=
  sockets_safe sharingEnv (sharing_run.lift id fun _ _ => CarefulStep.step)

/-! ### What a careful caller leaves -/

/-- Whether a socket uses a callback set. -/
def SockState.uses (w : SockState) (cb sk : Nat) : Bool := (w.socks.contents sk).any (·.sCb = cb)

/-- Whether a socket has a descriptor. -/
def SockState.isOn (w : SockState) (fd sk : Nat) : Bool :=
  (w.socks.contents sk).any (·.sFd = some fd)

/-- Whether a socket has a port from the bitmap. -/
def SockState.hasSlot (w : SockState) (sk : Nat) : Bool := (w.socks.contents sk).any (·.HasSlot)

/-- Every callback set is referenced by the caller and the sockets that use it and by nothing else,
a port is taken when a socket has it, a descriptor is open when a socket has it. -/
structure Tallied (w : SockState) (h : Holder) : Prop where
  cbs : ∀ cb, w.cbs.count cb = h.refs.count cb + h.socks.countP (w.uses cb ·)
  ports : ∀ t, w.usedPortsMap.marked t = true ↔
    ∃ sk ∈ h.socks, ∃ s, w.socks.contents sk = some s ∧ s.HasSlot ∧ portSlot s.nlPid = t
  fds : ∀ fd, w.fds.count fd = h.socks.countP (w.isOn fd ·)

/-- Sockets counted by handle and by contents. -/
theorem Ledger.Kept.countP {l : Ledger} (hk : l.Kept env w) (p : NlSocket → Bool) :
    l.holder.socks.countP (fun sk => (w.socks.contents sk).any p) =
      l.live.countP (fun q => p q.2) := by
  show (l.live.map Prod.fst).countP _ = _
  rw [Multiset.countP_map, Multiset.countP_eq_card_filter]
  refine congrArg _ (Multiset.filter_congr fun q hq => ?_)
  rw [Holds.contents hk q hq, Option.any_some]

theorem count_map_sCb (live : Multiset (Nat × NlSocket)) (cb : Nat) :
    (live.map (·.2.sCb)).count cb = live.countP (fun q => decide (q.2.sCb = cb)) := by
  induction live using Multiset.induction with
  | empty => rfl
  | cons q live ih =>
      rw [Multiset.map_cons, Multiset.count_cons, Multiset.countP_cons, ih]
      by_cases hq : q.2.sCb = cb
      · simp [hq]
      · simp [hq, Ne.symm hq]

theorem count_bind_fds (live : Multiset (Nat × NlSocket)) (fd : Nat) :
    (live.bind (·.2.fds)).count fd = live.countP (fun q => decide (q.2.sFd = some fd)) := by
  induction live using Multiset.induction with
  | empty => rfl
  | cons q live ih =>
      rw [Multiset.cons_bind, Multiset.count_add, Multiset.countP_cons, ih, Nat.add_comm]
      unfold NlSocket.fds
      cases q.2.sFd with
      | none => simp
      | some k => simp [Multiset.count_singleton, eq_comm]

theorem card_bind_slots (live : Multiset (Nat × NlSocket)) :
    Multiset.card (live.bind (·.2.slots)) = live.countP (fun q => decide q.2.HasSlot) := by
  induction live using Multiset.induction with
  | empty => rfl
  | cons q live ih =>
      rw [Multiset.cons_bind, Multiset.card_add, Multiset.countP_cons, ih, Nat.add_comm]
      by_cases hslot : q.2.HasSlot
      · simp [hslot, slots_of_hasSlot hslot]
      · simp [hslot, slots_eq_zero hslot]

/-- A careful caller loses nothing, so that nothing is left when it has given everything back. -/
theorem sockets_tallied (hample : env.Ample)
    (hrun : Relation.ReflTransGen CarefulStep (fresh env) (w, h)) : Tallied w h := by
  obtain ⟨l, hk, rfl, hlost⟩ := kept_of_carefulRun hample hrun
  refine ⟨fun cb => ?_, fun t => ?_, fun fd => ?_⟩
  · have hcount := hk.cbs.count cb
    rw [hlost] at hcount
    rw [hcount, Multiset.count_add, Multiset.count_add, count_map_sCb]
    show _ = l.refs.count cb + l.holder.socks.countP fun sk => (w.socks.contents sk).any _
    rw [hk.countP]
    rfl
  · have hmarked := hk.ports.marked t
    rw [hlost] at hmarked
    rw [hmarked]
    show t ∈ l.live.bind (·.2.slots) + 0 ↔ _
    rw [add_zero, Multiset.mem_bind]
    constructor
    · rintro ⟨p, hp, hslot⟩
      by_cases hs : p.2.HasSlot
      · rw [slots_of_hasSlot hs, Multiset.mem_singleton] at hslot
        exact ⟨p.1, Multiset.mem_map_of_mem _ hp, p.2, Holds.contents hk p hp, hs, hslot.symm⟩
      · rw [slots_eq_zero hs] at hslot
        exact absurd hslot (Multiset.notMem_zero t)
    · rintro ⟨sk, hsk, s, hc, hs, rfl⟩
      obtain ⟨p, hp, rfl⟩ := Multiset.mem_map.mp hsk
      obtain rfl : p.2 = s := Option.some_inj.mp ((Holds.contents hk p hp).symm.trans hc)
      refine ⟨p, hp, ?_⟩
      rw [slots_of_hasSlot hs]
      exact Multiset.mem_singleton_self _
  · have hcount := hk.fds.count fd
    rw [hlost] at hcount
    rw [hcount, Multiset.count_add, count_bind_fds]
    show _ = l.holder.socks.countP fun sk => (w.socks.contents sk).any _
    rw [hk.countP]
    rfl

theorem sockets_tallied_sharing : Tallied sharing ⟨1 ::ₘ 0 ::ₘ 0, 0 ::ₘ 0⟩ :=
  sockets_tallied sharingEnv_ample sharing_run

/-- A careful caller gets a socket as long as fewer than 1024 of those it holds have a generated
port. -/
theorem nlSocketAlloc_granted (hample : env.Ample)
    (hrun : Relation.ReflTransGen CarefulStep (fresh env) (w, h)) (time : UInt32) :
    ∃ r w', nlSocketAlloc time w = .ok r w' ∧
      (r.isSome = true ↔ h.socks.countP (w.hasSlot ·) < 1024) := by
  obtain ⟨l, hk, rfl, hlost⟩ := kept_of_carefulRun hample hrun
  have hcard : l.holder.socks.countP (w.hasSlot ·) =
      Multiset.card (l.live.bind (·.2.slots) + l.lost.ports) := by
    rw [hlost]
    show l.holder.socks.countP (fun sk => (w.socks.contents sk).any _) = _
    rw [hk.countP, add_zero, card_bind_slots]
  obtain ⟨r, w', hcall, hcase⟩ := (nlSocketAlloc_yields time).returns hk
  refine ⟨r, w', hcall, ?_⟩
  rw [hcard]
  cases r with
  | some sk =>
      rcases hcase with ⟨cb, s, -, -, hgen, hport, hw⟩ | ⟨hr, -⟩
      · have hle := hw.ports.card_le
        rw [slots_of_hasSlot ⟨hgen, hport⟩, Multiset.singleton_add, Multiset.card_cons] at hle
        exact ⟨fun _ => hle, fun _ => rfl⟩
      · cases hr
  | none =>
      refine ⟨nofun, fun hlt => ?_⟩
      rcases hcase with ⟨cb, ⟨hshort, -⟩ | ⟨hfull, -⟩ | ⟨hpid, -⟩⟩ | ⟨-, hshort, -⟩
      · exact absurd hshort hample.not_short
      · exact absurd hfull (Nat.ne_of_lt hlt)
      · exact absurd hpid hample.pid
      · exact absurd hshort hample.not_short

theorem nlSocketAlloc_granted_sharing : ∃ r w', nlSocketAlloc 3 sharing = .ok r w' ∧
    (r.isSome = true ↔ (1 ::ₘ 0 ::ₘ 0 : Multiset Nat).countP (sharing.hasSlot ·) < 1024) :=
  nlSocketAlloc_granted sharingEnv_ample sharing_run 3

end Runs

end Nl80211.Libnl
