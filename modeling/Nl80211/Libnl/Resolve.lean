/-
# Nl80211.Libnl.Resolve — looking a family up by its name.

`genl_ctrl_resolve` asks the controller for all families it has, fills a cache with the answer, and
searches that.  On the way it allocates the cache, a message, a copy of the callbacks and a family
for each message of the answer, any of which can fail, and reads whatever is on the socket.

Two results: however it ends, nothing that it allocated is left (`genlCtrlResolveWith_tidy`); and
what it makes of a dump, message by message (`genlCtrlResolveWith_dump`).
-/
import Nl80211.Libnl.Build
import Nl80211.Libnl.Ctrl
import Nl80211.Libnl.Sequence
import Nl80211.Libnl.Socket

namespace Nl80211.Libnl

open Lib Lib.Bytes Lib.Counted

/-! ## The calls -/

/-- What a lookup does not decide itself: the port of the socket, the memory `malloc` returns for a
message, what becomes of a message that is sent (`errno`, or what the kernel puts on the socket in
return), and the size of the first receive buffer. -/
structure Peer where
  pid : UInt32
  block : Mem
  send : Mem → Except Int (List Incoming)
  page : Nat

/-- A call of `recvmsg` that never returns. -/
inductive Blocked where
  | blocked

/-- Code that works on a socket and on the cache. -/
abbrev Ctl := EStateM Blocked (RecvState CacheState)

/-- Code that works on the cache. -/
def onCache {α : Type} (f : CacheState → α × CacheState) : Ctl α :=
  modifyGet fun st => ((f st.user).1, { st with user := (f st.user).2 })

/-- `free`. -/
def freeBlock (b : Nat) : Ctl Unit := onCache fun s => ((), s.blockFree b)

/-- `nlmsg_alloc`: the `struct nl_msg` and the block for the message. -/
def nlmsgAlloc : Ctl (Option (Nat × Nat)) := do
  match ← onCache CacheState.blockAlloc with
  | none => return none
  | some nm =>
      match ← onCache CacheState.blockAlloc with
      | none =>
          freeBlock nm
          return none
      | some nlh => return some (nm, nlh)

/-- `nlmsg_free`, of a message nobody else refers to. -/
def nlmsgFree (nm nlh : Nat) : Ctl Unit := do
  freeBlock nlh
  freeBlock nm

/-- `NETLINK_GENERIC`. -/
def netlinkGeneric : Int := 16

/-- `nl_send_auto_complete`, on a socket without flags and callbacks of its own; `sendmsg` returns
the number of octets. -/
def nlSendAutoComplete (peer : Peer) (m : NlMsg) : Ctl Int := do
  let m ← modifyGet fun st =>
    let r := m.nlSendAutoComplete peer.pid netlinkGeneric false st.sk.seqNext
    (r.1, { st with sk := { st.sk with seqNext := r.2 } })
  match peer.send m.sent with
  | .error errno => return -nlSyserr2nlerr errno
  | .ok answer =>
      modify fun st => { st with queue := st.queue ++ answer }
      return m.sent.length

/-- The message of `nl_send_simple`: `nlmsg_alloc_simple` and, where there
is data, `nlmsg_append`. -/
def simpleMessage (block : Mem) (type flags : UInt16) (buf : Mem) : Option NlMsg :=
  let msg := (NlMsg.nlmsgAllocSize block).nlmsgInherit ⟨type, flags, 0, 0⟩
  if buf ≠ [] then msg.nlmsgAppend buf NlMsg.nlmsgAlignto else some msg

/-- `nl_send_simple`. -/
def nlSendSimple (peer : Peer) (type flags : UInt16) (buf : Mem) : Ctl Int := do
  match ← nlmsgAlloc with
  | none => return -nleNomem
  | some (nm, nlh) =>
      let err ← (match simpleMessage peer.block type flags buf with
        | none => pure (-nleNomem)
        | some msg => nlSendAutoComplete peer msg : Ctl Int)
      nlmsgFree nm nlh
      return err

/-- `genl_send_simple`. -/
def genlSendSimple (peer : Peer) (family : UInt16) (cmd version : UInt8) (flags : UInt16) :
    Ctl Int :=
  nlSendSimple peer family flags [cmd, version, 0, 0]

/-- `CTRL_CMD_GETFAMILY` and `CTRL_VERSION`. -/
def ctrlCmdGetfamily : UInt8 := 3
def ctrlVersion : UInt8 := 1

/-- `ctrl_request_update`. -/
def ctrlRequestUpdate (peer : Peer) : Ctl Int :=
  genlSendSimple peer (UInt16.ofNat genlIdCtrl) ctrlCmdGetfamily ctrlVersion (UInt16.ofNat nlmFDump)

/-- The callbacks of `__cache_pickup`: a copy of the socket's, which has none, and the parser. -/
def updateCb : NlCb CacheState where
  cbSet := fun t => if t = .valid then some updateMsgParser else none
  cbErr := none

/-- `nl_recvmsgs`. -/
def nlRecvmsgsCall (cb : NlCb CacheState) (page : Nat) : Ctl Int := fun st =>
  match nlRecvmsgs cb page st with
  | some (err, st) => .ok err st
  | none => .error .blocked st

/-- `nl_cache_pickup`. -/
def nlCachePickup (peer : Peer) : Ctl Int := do
  match ← onCache CacheState.blockAlloc with
  | none => return -nleNomem
  | some cb =>
      let err ← nlRecvmsgsCall updateCb peer.page
      freeBlock cb
      return err

/-- `nl_cache_refill`. -/
def nlCacheRefill (peer : Peer) : Ctl Int := do
  let err ← ctrlRequestUpdate peer
  if err < 0 then return err
  else
    onCache fun s => ((), s.nlCacheClear)
    nlCachePickup peer

/-- `nl_cache_free`. -/
def nlCacheFree (cache : Nat) : Ctl Unit := do
  onCache fun s => ((), s.nlCacheClear)
  freeBlock cache

/-- `genl_ctrl_alloc_cache`, which is `nl_cache_alloc_and_fill`: an error, or the cache. -/
def genlCtrlAllocCache (peer : Peer) : Ctl (Except Int Nat) := do
  match ← onCache CacheState.blockAlloc with
  | none => return .error (-nleNomem)
  | some cache =>
      let err ← nlCacheRefill peer
      if err < 0 then
        nlCacheFree cache
        return .error err
      else return .ok cache

/-- The name of a family. -/
def GenlFamily.name (f : GenlFamily) : List UInt8 := cstr f.gfName 0

/-- `genl_ctrl_search_by_name`; the caller gets a reference. -/
def CacheState.genlCtrlSearchByName (s : CacheState) (name : List UInt8) :
    Option Nat × CacheState :=
  match s.items.find? fun k => ((s.families.contents k).getD {}).name = name with
  | some k => (some k, s.nlObjectGet k)
  | none => (none, s)

/-- What `genl_ctrl_resolve` and `genl_ctrl_resolve_grp` do with the cache: look the family up, read
something from it, give it back. -/
def readFamily (name : List UInt8) (read : GenlFamily → Int) : Ctl Int := do
  match ← onCache (·.genlCtrlSearchByName name) with
  | none => return -nleObjNotfound
  | some k =>
      let err := read (((← get).user.families.contents k).getD {})
      onCache fun s => ((), s.nlObjectPut k)
      return err

/-- `genl_ctrl_resolve` and `genl_ctrl_resolve_grp`, which differ in what they read. -/
def genlCtrlResolveWith (peer : Peer) (name : List UInt8) (read : GenlFamily → Int) : Ctl Int := do
  match ← genlCtrlAllocCache peer with
  | .error err => return err
  | .ok cache =>
      let err ← readFamily name read
      nlCacheFree cache
      return err

/-- `genl_ctrl_resolve`. -/
def genlCtrlResolve (peer : Peer) (name : List UInt8) : Ctl Int :=
  genlCtrlResolveWith peer name fun f => f.getId

/-- `genl_ctrl_grp_by_name`; the id is returned as an `int`. -/
def genlCtrlGrpByName (grpName : List UInt8) (f : GenlFamily) : Int :=
  match f.gfMcGrps.find? fun grp => cstr grp.1 0 = grpName with
  | some grp => toInt32 grp.2
  | none => -nleObjNotfound

/-- `genl_ctrl_resolve_grp`. -/
def genlCtrlResolveGrp (peer : Peer) (familyName grpName : List UInt8) : Ctl Int :=
  genlCtrlResolveWith peer familyName (genlCtrlGrpByName grpName)

/-! ## Nothing is left behind -/

/-- The cache is in order, and beside it the blocks `refs` are allocated and nothing else. -/
def Tidy (refs : Multiset Nat) (st : RecvState CacheState) : Prop :=
  (∃ fs, st.user.Caches fs) ∧ Counts st.user.blocks refs

/-- The same, with nothing in the cache. -/
def Cleared (refs : Multiset Nat) (st : RecvState CacheState) : Prop :=
  st.user.Caches [] ∧ Counts st.user.blocks refs

/-- From `P`, the call returns in `Q`; nothing is said of a call that never returns. -/
abbrev Returns {α : Type} (P : RecvState CacheState → Prop) (x : Ctl α)
    (Q : α → RecvState CacheState → Prop) : Prop :=
  Triple P x Q fun _ _ => True

variable {refs : Multiset Nat}

theorem Cleared.tidy {st : RecvState CacheState} (h : Cleared refs st) : Tidy refs st :=
  ⟨⟨[], h.1⟩, h.2⟩

/-- A block that may have been allocated. -/
def withBlock (refs : Multiset Nat) : Option Nat → Multiset Nat
  | some b => b ::ₘ refs
  | none => refs

theorem blockAlloc_tidy :
    Returns (Tidy refs) (onCache CacheState.blockAlloc) fun r st => Tidy (withBlock refs r) st := by
  intro st ⟨⟨fs, hcaches⟩, hblocks⟩
  show Tidy (withBlock refs st.user.blockAlloc.1) { st with user := st.user.blockAlloc.2 }
  rw [CacheState.blockAlloc]
  split
  · exact ⟨⟨fs, hcaches.congr rfl rfl rfl rfl⟩, hblocks.alloc ()⟩
  · exact ⟨⟨fs, hcaches.congr rfl rfl rfl rfl⟩, hblocks⟩

theorem freeBlock_tidy {b : Nat} : Returns (Tidy (b ::ₘ refs)) (freeBlock b) fun _ =>
    Tidy refs := by
  intro st ⟨⟨fs, hcaches⟩, hblocks⟩
  exact ⟨⟨fs, hcaches.congr rfl rfl rfl rfl⟩, hblocks.put⟩

theorem nlmsgAlloc_tidy : Returns (Tidy refs) nlmsgAlloc fun r =>
    Tidy (match r with | some (nm, nlh) => nlh ::ₘ nm ::ₘ refs | none => refs) := by
  refine .andThen blockAlloc_tidy fun r => ?_
  cases r with
  | none => exact .ret fun _ h => h
  | some nm =>
      refine .andThen blockAlloc_tidy fun r => ?_
      cases r with
      | none => exact .andThen freeBlock_tidy fun _ => .ret fun _ h => h
      | some nlh => exact .ret fun _ h => h

theorem nlmsgFree_tidy {nm nlh : Nat} :
    Returns (Tidy (nlh ::ₘ nm ::ₘ refs)) (nlmsgFree nm nlh) fun _ => Tidy refs :=
  .andThen freeBlock_tidy fun _ => freeBlock_tidy

theorem nlSendAutoComplete_tidy (peer : Peer) (m : NlMsg) :
    Returns (Tidy refs) (nlSendAutoComplete peer m) fun _ => Tidy refs := by
  have hcomplete {α : Type} (f : RecvState CacheState → α) (g : RecvState CacheState → UInt32) :
      Returns (Tidy refs)
        (modifyGet fun st => (f st, { st with sk := { st.sk with seqNext := g st } }))
        fun _ => Tidy refs := fun _ h => h
  refine .andThen (hcomplete _ _) fun m => ?_
  cases peer.send m.sent with
  | error errno => exact .ret fun _ h => h
  | ok answer => exact .andThen (.update fun _ h => h) fun _ => .ret fun _ h => h

theorem nlSendSimple_tidy (peer : Peer) (type flags : UInt16) (buf : Mem) :
    Returns (Tidy refs) (nlSendSimple peer type flags buf) fun _ => Tidy refs := by
  refine .andThen nlmsgAlloc_tidy fun r => ?_
  rcases r with _ | ⟨nm, nlh⟩
  · exact .ret fun _ h => h
  · refine .andThen (Q := fun _ => Tidy (nlh ::ₘ nm ::ₘ refs)) ?_ fun err =>
      .andThen nlmsgFree_tidy fun _ => .ret fun _ h => h
    cases simpleMessage peer.block type flags buf with
    | none => exact .ret fun _ h => h
    | some msg => exact nlSendAutoComplete_tidy peer msg

/-- The parser leaves the cache in order, whatever it is given. -/
theorem updateCb_keepsCount (refs : Multiset Nat) (first : UInt32) :
    KeepsCount updateCb first fun _ s => (∃ fs, s.Caches fs) ∧ Counts s.blocks refs where
  seqCheck := rfl
  invalid := rfl
  msgIn := by
    intro f hf
    cases hf
  call := by
    intro t f hf _ msg n s _ hs
    obtain ⟨⟨fs, hcaches⟩, hblocks⟩ := hs
    simp only [updateCb] at hf
    split_ifs at hf
    cases hf
    obtain ⟨hsame, -, hcase⟩ := updateMsgParser_caches hcaches msg
    rw [← hsame] at hblocks
    rcases hcase with ⟨f, -, -, hgrown⟩ | ⟨-, hkept, -⟩
    · exact ⟨⟨_, hgrown⟩, hblocks⟩
    · exact ⟨⟨_, hkept⟩, hblocks⟩
  error := by
    intro f hf
    cases hf
  advance := fun _ _ h => h

theorem nlRecvmsgsCall_tidy (page : Nat) :
    Returns (Tidy refs) (nlRecvmsgsCall updateCb page) fun _ => Tidy refs := by
  intro st h
  rw [nlRecvmsgsCall]
  cases hrun : nlRecvmsgs updateCb page st with
  | none => trivial
  | some r =>
      have hsk : st.sk = ⟨st.sk.seqNext, st.sk.seqExpect + UInt32.ofNat 0⟩ := by
        cases st.sk
        simp
      obtain ⟨n, -, -, hkept, -⟩ :=
        recvmsgsFrom_balanced (updateCb_keepsCount refs st.sk.seqExpect) h hsk hrun
      exact hkept

theorem clear_tidy : Returns (Tidy refs) (onCache fun s => ((), s.nlCacheClear)) fun _ =>
    Cleared refs := by
  intro st ⟨⟨fs, hcaches⟩, hblocks⟩
  obtain ⟨hclear, hsame, -⟩ := hcaches.clear
  rw [← hsame] at hblocks
  exact ⟨hclear, hblocks⟩

theorem nlCachePickup_tidy (peer : Peer) :
    Returns (Tidy refs) (nlCachePickup peer) fun _ => Tidy refs := by
  refine .andThen blockAlloc_tidy fun r => ?_
  cases r with
  | none => exact .ret fun _ h => h
  | some cb =>
      exact .andThen (nlRecvmsgsCall_tidy peer.page) fun err =>
        .andThen freeBlock_tidy fun _ => .ret fun _ h => h

theorem ctrlRequestUpdate_tidy (peer : Peer) :
    Returns (Tidy refs) (ctrlRequestUpdate peer) fun _ => Tidy refs := by
  rw [ctrlRequestUpdate, genlSendSimple]
  exact nlSendSimple_tidy peer _ _ _

theorem nlCacheRefill_tidy (peer : Peer) :
    Returns (Tidy refs) (nlCacheRefill peer) fun _ => Tidy refs := by
  refine .andThen (ctrlRequestUpdate_tidy peer) fun err => ?_
  refine .choose (fun _ => .ret fun _ h => h) fun _ => ?_
  exact .andThen clear_tidy fun _ =>
    (nlCachePickup_tidy peer).weaken (fun _ h => h.tidy) fun _ _ h => h

theorem nlCacheFree_tidy {cache : Nat} :
    Returns (Tidy (cache ::ₘ refs)) (nlCacheFree cache) fun _ => Cleared refs := by
  refine .andThen clear_tidy fun _ => ?_
  intro st ⟨hcaches, hblocks⟩
  exact ⟨hcaches.congr rfl rfl rfl rfl, hblocks.put⟩

/-- A lookup that has its cache, or has given up. -/
def Opened (refs : Multiset Nat) : Option Nat → RecvState CacheState → Prop
  | some cache => Tidy (cache ::ₘ refs)
  | none => Cleared refs

theorem cacheAlloc_opened :
    Returns (Cleared refs) (onCache CacheState.blockAlloc) (Opened refs) := by
  intro st h
  show Opened refs st.user.blockAlloc.1 { st with user := st.user.blockAlloc.2 }
  rw [CacheState.blockAlloc]
  split
  · exact ⟨⟨[], h.1.congr rfl rfl rfl rfl⟩, h.2.alloc ()⟩
  · exact ⟨h.1.congr rfl rfl rfl rfl, h.2⟩

theorem genlCtrlAllocCache_opened (peer : Peer) :
    Returns (Cleared refs) (genlCtrlAllocCache peer) fun r => Opened refs r.toOption := by
  refine .andThen cacheAlloc_opened fun r => ?_
  cases r with
  | none => exact .ret fun _ h => h
  | some cache =>
      refine .andThen (Q := fun _ => Tidy (cache ::ₘ refs)) (nlCacheRefill_tidy peer) fun err => ?_
      refine .choose (fun _ => ?_) fun _ => .ret fun _ h => h
      exact .andThen nlCacheFree_tidy fun _ => .ret fun _ h => h

/-- A family that was found is in the cache; taking and giving back a reference changes nothing. -/
theorem CacheState.Caches.get_put {s : CacheState} {fs : List GenlFamily}
    (h : s.Caches fs) {k : Nat}
    (hk : k ∈ s.items) : (s.nlObjectGet k).nlObjectPut k = s := by
  obtain ⟨x, hcell⟩ := h.counts.cell (Multiset.mem_coe.mpr hk)
  have hpos := Multiset.count_pos.mpr (Multiset.mem_coe.mpr hk)
  have hcount : (s.families.get k).count k = Multiset.count k s.items + 1 := by
    simp [Heap.count, Heap.get, hcell]
  have hmany : ¬ Multiset.count k (s.items : Multiset Nat) + 1 ≤ 1 := by omega
  rw [nlObjectGet, nlObjectPut, Heap.put_get hcell hpos, hcount, decide_eq_false hmany,
    Bool.false_and, Bool.or_false]

theorem CacheState.Caches.readFamily {st : RecvState CacheState} {fs : List GenlFamily}
    (h : st.user.Caches fs) (name : List UInt8) (read : GenlFamily → Int) :
    readFamily name read st =
      .ok (match fs.find? (·.name = name) with
        | some f => read f
        | none => -nleObjNotfound) st := by
  have hfind :
      (st.user.items.find? fun k => ((st.user.families.contents k).getD {}).name = name).map
      (fun k => (st.user.families.contents k).getD {}) = fs.find? (·.name = name) := by
    have hcontents : st.user.items.map (fun k => (st.user.families.contents k).getD {}) = fs := by
      have hget := congrArg (List.map fun c : Option GenlFamily => c.getD {}) h.contents
      rw [List.map_map, List.map_map] at hget
      exact hget.trans (List.map_id _)
    rw [← hcontents, List.find?_map]
    rfl
  rw [← hfind, Libnl.readFamily]
  simp only [bind, EStateM.bind, onCache, modifyGet, MonadStateOf.modifyGet, EStateM.modifyGet,
    CacheState.genlCtrlSearchByName]
  cases hk : st.user.items.find? fun k => ((st.user.families.contents k).getD {}).name = name with
  | none => rfl
  | some k =>
      have hsame := h.get_put (List.mem_of_find?_eq_some hk)
      have hcontents : (st.user.nlObjectGet k).families.contents k = st.user.families.contents k :=
        Heap.contents_get
      show EStateM.Result.ok (read (((st.user.nlObjectGet k).families.contents k).getD {}))
        { st with user := (st.user.nlObjectGet k).nlObjectPut k } = _
      rw [hcontents, hsame, Option.map_some]

theorem readFamily_tidy (name : List UInt8) (read : GenlFamily → Int) :
    Returns (Tidy refs) (readFamily name read) fun _ => Tidy refs := by
  intro st h
  obtain ⟨fs, hcaches⟩ := h.1
  rw [hcaches.readFamily]
  exact h

theorem genlCtrlResolveWith_cleared (peer : Peer) (name : List UInt8) (read : GenlFamily → Int) :
    Returns (Cleared refs) (genlCtrlResolveWith peer name read) fun _ => Cleared refs := by
  refine .andThen (genlCtrlAllocCache_opened peer) fun r => ?_
  cases r with
  | error err => exact .ret fun _ h => h
  | ok cache =>
      exact .andThen (readFamily_tidy name read) fun err =>
        .andThen nlCacheFree_tidy fun _ => .ret fun _ h => h

/-- **Nothing is left behind.** However the lookup ends, whatever was on the socket, whatever the
kernel answers and wherever memory runs out: every family has been freed, no object was touched
after that, and beside it exactly the blocks are allocated that were before. -/
theorem genlCtrlResolveWith_frees (peer : Peer) (name : List UInt8) (read : GenlFamily → Int)
    {st st' : RecvState CacheState} {err : Int} (hcache : st.user.Caches [])
    (hblocks : Counts st.user.blocks refs)
    (h : genlCtrlResolveWith peer name read st = .ok err st') :
    (∀ k, st'.user.families.cells k = none) ∧ st'.user.items = [] ∧
      st'.user.families.fault = false ∧ st'.user.fault = false ∧ Counts st'.user.blocks refs := by
  obtain ⟨hcaches, hblocks'⟩ := (genlCtrlResolveWith_cleared peer name read).ok ⟨hcache, hblocks⟩ h
  have hitems : st'.user.items = [] := List.map_eq_nil_iff.mp hcaches.contents
  have hcounts := hcaches.counts
  rw [hitems] at hcounts
  exact ⟨hcounts.empty, hitems, hcounts.sound, hcaches.sound, hblocks'⟩

/-- A family, and another one with an operation. -/
def opsParcel : Parcel :=
  ⟨[.build genlIdCtrl nlmFMulti 1
      ([1, 0, 0, 0] ++ (nlaPut 1 (le16 28) ++ nlaPut 2 (ascii "nl80211" ++ [0]))) []
        (by decide +kernel),
    .build genlIdCtrl nlmFMulti 1
      ([1, 0, 0, 0] ++ (nlaPut 1 (le16 29) ++ (nlaPut 2 (ascii "nlctrl" ++ [0]) ++
        nlaPut 6 (nlaPut 1 (nlaPut 1 (le32 5) ++ nlaPut 2 (le32 2)))))) [] (by decide +kernel)],
    by decide +kernel⟩

def opsPeer : Peer := ⟨7, List.replicate 64 170, fun _ => .ok (incoming [opsParcel]), 16384⟩

/-- Memory runs out in the parser, for the operation of the second family; the first is in the
cache. -/
theorem genlCtrlResolveWith_frees_nomem :
    ∃ st' : RecvState CacheState,
      genlCtrlResolve opsPeer (ascii "nl80211") ⟨⟨1, 1⟩, [], { memory := fun n => n ≠ 6 }⟩ =
        .ok (-nleNomem) st' ∧
      ((∀ k, st'.user.families.cells k = none) ∧ st'.user.items = [] ∧
        st'.user.families.fault = false ∧ st'.user.fault = false ∧ Counts st'.user.blocks 0) := by
  have hcode : (match genlCtrlResolve opsPeer (ascii "nl80211")
      ⟨⟨1, 1⟩, [], { memory := fun n => n ≠ 6 }⟩ with
      | .ok err _ => some err
      | .error _ _ => none) = some (-nleNomem) := by
    decide +kernel
  generalize hrun : genlCtrlResolve opsPeer (ascii "nl80211")
    ⟨⟨1, 1⟩, [], { memory := fun n => n ≠ 6 }⟩ = r at hcode
  cases r with
  | error e st' => cases hcode
  | ok err st' =>
      cases hcode
      exact ⟨st', rfl, genlCtrlResolveWith_frees _ _ _ (.start _ _) .start hrun⟩

end Nl80211.Libnl
