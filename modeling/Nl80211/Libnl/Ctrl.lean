/-
# Nl80211.Libnl.Ctrl — reading a family from a message.

`genl_mngt.c` finds the parser for a message, `ctrl_msg_parser` in `genl_ctrl.c` makes a family
object of it and hands that to the cache.  `familyOfMsg` says what it reads, without objects and
allocations; `updateMsgParser_caches` connects the two: either the cache grows by the family that
was read, or everything allocated on the way is freed and the cache stays.
-/
import Nl80211.Libnl.Family

namespace Nl80211.Libnl

open Lib Lib.Bytes Lib.Counted

/-! ## Constants of `linux/genetlink.h` -/

/-- `GENL_ID_CTRL`. -/
def genlIdCtrl : Nat := 16
/-- `CTRL_CMD_NEWFAMILY`. -/
def ctrlCmdNewfamily : Nat := 1

def ctrlAttrFamilyId : Nat := 1
def ctrlAttrFamilyName : Nat := 2
def ctrlAttrVersion : Nat := 3
def ctrlAttrHdrsize : Nat := 4
def ctrlAttrMaxattr : Nat := 5
def ctrlAttrOps : Nat := 6
def ctrlAttrMcastGroups : Nat := 7
/-- `CTRL_ATTR_MAX`; the types behind the groups have no policy. -/
def ctrlAttrMax : Nat := 10

def ctrlAttrOpId : Nat := 1
def ctrlAttrOpFlags : Nat := 2
def ctrlAttrOpMax : Nat := 2

def ctrlAttrMcastGrpName : Nat := 1
def ctrlAttrMcastGrpId : Nat := 2
def ctrlAttrMcastGrpMax : Nat := 2

/-! ## Policies -/

/-- `ctrl_policy`. -/
def ctrlPolicy : Nat → NlaPolicy
  | 1 => { type := .u16 }
  | 2 => { type := .string, maxlen := genlNamsiz }
  | 3 => { type := .u32 }
  | 4 => { type := .u32 }
  | 5 => { type := .u32 }
  | 6 => { type := .nested }
  | 7 => { type := .nested }
  | _ => {}

/-- `family_op_policy`. -/
def familyOpPolicy : Nat → NlaPolicy
  | 1 => { type := .u32 }
  | 2 => { type := .u32 }
  | _ => {}

/-- `family_grp_policy`. -/
def familyGrpPolicy : Nat → NlaPolicy
  | 1 => { type := .string }
  | 2 => { type := .u32 }
  | _ => {}

/-! ## The parser -/

/-- What the loop over `CTRL_ATTR_OPS` reads from one nest: the id and the flags. -/
def ctrlOp (mem : Mem) (nla : Nat) : Except Int (Nat × Nat) :=
  let parsed := (nlaParseNested mem ctrlAttrOpMax nla familyOpPolicy).val
  if parsed.err < 0 then .error parsed.err
  else
    match parsed.tb ctrlAttrOpId with
    | none => .error (-nleMissingAttr)
    | some id =>
        match parsed.tb ctrlAttrOpFlags with
        | some flags => .ok (nlaGetU32 mem id, nlaGetU32 mem flags)
        | none => .ok (nlaGetU32 mem id, 0)

/-- What the loop over `CTRL_ATTR_MCAST_GROUPS` reads from one nest: the id and the name. -/
def ctrlGrp (mem : Mem) (nla : Nat) : Except Int (Nat × List UInt8) :=
  let parsed := (nlaParseNested mem ctrlAttrMcastGrpMax nla familyGrpPolicy).val
  if parsed.err < 0 then .error parsed.err
  else
    match parsed.tb ctrlAttrMcastGrpId with
    | none => .error (-nleMissingAttr)
    | some id =>
        match parsed.tb ctrlAttrMcastGrpName with
        | none => .error (-nleMissingAttr)
        | some name => .ok (nlaGetU32 mem id, cstr mem (nlaData name))

/-- `if (info->attrs[t]) { .. }` -/
def ifAttr (tb : NlaTable) (t : Nat) (x : Nat → Genl Unit) : Genl Unit :=
  match tb t with
  | some nla => x nla
  | none => return ()

/-- `nla_for_each_nested`. -/
def forEachNested (mem : Mem) (nla : Nat) (x : Nat → Genl Unit) : Genl Unit :=
  (nlaWalk mem (nlaData nla) (nlaLen mem nla)).forM x

/-- `ctrl_msg_parser` between the allocation of the family and the call of `pp_cb`. -/
def ctrlMsgFill (mem : Mem) (tb : NlaTable) (k : Nat) : Genl Unit :=
  match tb ctrlAttrFamilyName with
  | none => throw (-nleMissingAttr)
  | some name =>
      match tb ctrlAttrFamilyId with
      | none => throw (-nleMissingAttr)
      | some id => do
          setFamily k fun f => { f with ceMsgtype := nlmsgType mem 0 }
          setFamily k (·.setId (nlaGetU16 mem id))
          setFamily k (·.setName (cstr mem (nlaData name)))
          ifAttr tb ctrlAttrVersion fun a => setFamily k (·.setVersion (nlaGetU32 mem a))
          ifAttr tb ctrlAttrHdrsize fun a => setFamily k (·.setHdrsize (nlaGetU32 mem a))
          ifAttr tb ctrlAttrMaxattr fun a => setFamily k (·.setMaxattr (nlaGetU32 mem a))
          ifAttr tb ctrlAttrOps fun a => forEachNested mem a fun nla =>
            match ctrlOp mem nla with
            | .error err => throw err
            | .ok op => genlFamilyAddOp k op.1 op.2
          ifAttr tb ctrlAttrMcastGroups fun a => forEachNested mem a fun nla =>
            match ctrlGrp mem nla with
            | .error err => throw err
            | .ok grp => genlFamilyAddGrp k grp.1 grp.2

/-- `ctrl_msg_parser`; `pp_cb` is `pickup_cb`.  At `errout` the reference to the family is given
back, whether it went into the cache or not. -/
def ctrlMsgParser (mem : Mem) (tb : NlaTable) : Genl Int := do
  match ← genlFamilyAlloc with
  | none => return -nleNomem
  | some k =>
      let err ← tryCatch (do ctrlMsgFill mem tb k; modify (·.nlCacheAdd k); return 0) pure
      modify (·.nlObjectPut k)
      return err

/-- `genl_cmds`: the command and whether there is a parser for it. -/
def genlCmds : List (Nat × Bool) := [(1, true), (2, false), (3, false), (4, false), (5, false)]

/-- The member `cmd` of the generic header. -/
def genlCmd (mem : Mem) : Nat := (rd8 mem (nlmsgData 0)).toNat

/-- `genl_msg_parser`. -/
def genlMsgParser (mem : Mem) : Genl Int :=
  match genlCmds.find? fun cmd => cmd.1 = genlCmd mem with
  | none => return -nleMsgtypeNosupport
  | some (_, false) => return -nleOpnotsupp
  | some (_, true) =>
      let parsed := nlmsgParse mem genlHdrlen ctrlAttrMax (some ctrlPolicy)
      if parsed.err < 0 then return parsed.err else ctrlMsgParser mem parsed.tb

/-- `co_msgtypes` of `genl_ctrl_ops`, up to the end of the list. -/
def coMsgtypes : List Nat := [genlIdCtrl]

/-- The loop of `nl_cache_parse` over `co_msgtypes`. -/
def nlCacheParseTypes (mem : Mem) : List Nat → Genl Int
  | [] => return -nleMsgtypeNosupport
  | t :: ts => do
      if t = nlmsgType mem 0 then
        let err ← genlMsgParser mem
        if err ≠ -nleOpnotsupp then return err else nlCacheParseTypes mem ts
      else nlCacheParseTypes mem ts

/-- `nl_cache_parse`. -/
def nlCacheParse (mem : Mem) : Genl Int :=
  if ¬ nlmsgValidHdr mem genlHdrlen then return -nleMsgTooshort else nlCacheParseTypes
    mem coMsgtypes

/-- `update_msg_parser`, as a callback. -/
def updateMsgParser (msg : Mem) (s : CacheState) : Int × CacheState :=
  match nlCacheParse msg s with
  | .ok err s => (err, s)
  | .error err s => (err, s)

/-! ## What it reads -/

/-- The family in the attributes that were found, or the error. -/
def familyOf (mem : Mem) (tb : NlaTable) : Except Int GenlFamily :=
  match tb ctrlAttrFamilyName with
  | none => .error (-nleMissingAttr)
  | some name =>
      match tb ctrlAttrFamilyId with
      | none => .error (-nleMissingAttr)
      | some id => do
          let value (t : Nat) (set : GenlFamily → Nat → GenlFamily) (f : GenlFamily) : GenlFamily :=
            match tb t with
            | some a => set f (nlaGetU32 mem a)
            | none => f
          let nested (t : Nat) (add : GenlFamily → Nat → Except Int GenlFamily) (f : GenlFamily) :
              Except Int GenlFamily :=
            match tb t with
            | some a => (nlaWalk mem (nlaData a) (nlaLen mem a)).foldlM add f
            | none => .ok f
          let f : GenlFamily := { ceMsgtype := nlmsgType mem 0 }
          let f := (f.setId (nlaGetU16 mem id)).setName (cstr mem (nlaData name))
          let f := value ctrlAttrMaxattr .setMaxattr
            (value ctrlAttrHdrsize .setHdrsize (value ctrlAttrVersion .setVersion f))
          let f ← nested ctrlAttrOps
            (fun f nla => (ctrlOp mem nla).map fun op => f.addOp op.1 op.2) f
          nested ctrlAttrMcastGroups
            (fun f nla => (ctrlGrp mem nla).map fun g => f.addGrp g.1 g.2) f

/-- The family in a message, or the error. -/
def familyOfMsg (mem : Mem) : Except Int GenlFamily :=
  if ¬ nlmsgValidHdr mem genlHdrlen then .error (-nleMsgTooshort)
  else if nlmsgType mem 0 = genlIdCtrl ∧ genlCmd mem = ctrlCmdNewfamily then
    let parsed := nlmsgParse mem genlHdrlen ctrlAttrMax (some ctrlPolicy)
    if parsed.err < 0 then .error parsed.err else familyOf mem parsed.tb
  else .error (-nleMsgtypeNosupport)

/-- An error code that ends the parsing of a message; `-NLE_OPNOTSUPP` would not. -/
def Fails (e : Int) : Prop := e < 0 ∧ e ≠ -nleOpnotsupp

instance (e : Int) : Decidable (Fails e) := inferInstanceAs (Decidable (_ ∧ _))

theorem validateNla_fails {mem : Mem} {nla maxtype : Nat} {policy : Nat → NlaPolicy}
    (h : validateNla mem nla maxtype policy < 0) : Fails (validateNla mem nla maxtype policy) := by
  refine ⟨h, ?_⟩
  unfold validateNla
  simp only
  split_ifs <;> decide

theorem nlaParse_fails {mem : Mem} {maxtype head : Nat} {len : Int} {policy : Nat → NlaPolicy}
    (h : (nlaParse mem maxtype head len (some policy)).val.err < 0) :
    Fails (nlaParse mem maxtype head len (some policy)).val.err := by
  rw [nlaParse] at h ⊢
  generalize (fun _ => none : NlaTable) = tb at h ⊢
  induction head, len using nlaWalk_induction mem generalizing tb with
  | stop nla rem hstop =>
      rw [nlaParseFrom_of_not_ok hstop] at h
      simp at h
  | step nla rem hok ih =>
      by_cases hr : Rejected mem maxtype policy nla
      · rw [nlaParseFrom_some_of_rejected hok hr]
        simp only [Traced.val_bind, Traced.val_pure]
        exact validateNla_fails hr
      · rw [nlaParseFrom_some_of_ok hok hr] at h ⊢
        simp only [Traced.val_bind] at h ⊢
        exact ih _ h

theorem ctrlOp_error {mem : Mem} {nla : Nat} {e : Int} (h : ctrlOp mem nla = .error e) :
    Fails e := by
  simp only [ctrlOp] at h
  split_ifs at h with herr
  · cases h
    exact nlaParse_fails herr
  · split at h
    · cases h
      decide
    · split at h <;> cases h

theorem ctrlGrp_error {mem : Mem} {nla : Nat} {e : Int} (h : ctrlGrp mem nla = .error e) :
    Fails e := by
  simp only [ctrlGrp] at h
  split_ifs at h with herr
  · cases h
    exact nlaParse_fails herr
  · split at h
    · cases h
      decide
    · split at h
      · cases h
        decide
      · cases h

/-! ## Filling in a family -/

section Drafts

variable {s : CacheState} {k : Nat}

/-- The state in which the family `k` has been filled in so far, as `f`. -/
def CacheState.drafted (s : CacheState) (k : Nat) (f : GenlFamily) (allocs : Nat) : CacheState :=
  { s with families := s.families.write k f, allocs := allocs }

/-- `x` makes of the family what `r` says, and touches nothing else; where it gives up, `r` is that
error, or there was no memory. -/
def Drafts (s : CacheState) (k : Nat) (x : Genl Unit) (f : GenlFamily) (r : Except Int GenlFamily) :
    Prop :=
  ∀ a, ∃ f' a',
    (x (s.drafted k f a) = .ok () (s.drafted k f' a') ∧ r = .ok f') ∨
    ∃ e, x (s.drafted k f a) = .error e (s.drafted k f' a') ∧ Fails e ∧
      ((∀ n, s.memory n = true) → r = .error e)

namespace Drafts

theorem ret (f : GenlFamily) : Drafts s k (pure ()) f (.ok f) :=
  fun a => ⟨f, a, .inl ⟨rfl, rfl⟩⟩

theorem giveUp {e : Int} (he : Fails e) (f : GenlFamily) : Drafts s k (throw e) f (.error e) :=
  fun a => ⟨f, a, .inr ⟨e, rfl, he, fun _ => rfl⟩⟩

theorem set (hk : (s.families.cells k).isSome) (g : GenlFamily → GenlFamily) (f : GenlFamily) :
    Drafts s k (setFamily k g) f (.ok (g f)) := by
  intro a
  refine ⟨g f, a, .inl ⟨?_, rfl⟩⟩
  have hcontents := Heap.contents_write_self (x := f) hk
  simp only [setFamily, CacheState.drafted, modify, modifyGet, MonadStateOf.modifyGet,
    EStateM.modifyGet, hcontents, Option.getD_some, Heap.write_write hk]

/-- What `genl_family_add_op` and `genl_family_add_grp` do. -/
theorem add (hk : (s.families.cells k).isSome) (g : GenlFamily → GenlFamily) (f : GenlFamily) :
    Drafts s k (do if ← Genl.calloc then setFamily k g else throw (-nleNomem)) f (.ok (g f)) := by
  intro a
  have hcalloc : (do if ← Genl.calloc then setFamily k g else throw (-nleNomem) : Genl Unit)
      (s.drafted k f a) =
        (if s.memory a then setFamily k g else throw (-nleNomem)) (s.drafted k f (a + 1)) := rfl
  rw [hcalloc]
  by_cases hmem : s.memory a = true
  · rw [if_pos hmem]
    exact set hk g f (a + 1)
  · rw [if_neg hmem]
    exact ⟨f, a + 1, .inr ⟨_, rfl, by decide, fun hall => absurd (hall a) hmem⟩⟩

theorem andThen {x y : Genl Unit} {f : GenlFamily} {r : Except Int GenlFamily}
    {r' : GenlFamily → Except Int GenlFamily} (hx : Drafts s k x f r)
    (hy : ∀ f', r = .ok f' → Drafts s k y f' (r' f')) :
    Drafts s k (x >>= fun _ => y) f (r >>= r') := by
  intro a
  obtain ⟨f', a', ⟨hrun, hr⟩ | ⟨e, hrun, he, hr⟩⟩ := hx a
  · obtain ⟨f'', a'', h⟩ := hy f' hr a'
    refine ⟨f'', a'', ?_⟩
    have hbind : (x >>= fun _ => y) (s.drafted k f a) = y (s.drafted k f' a') := by
      simp only [bind, EStateM.bind, hrun]
    rw [hbind, hr]
    exact h
  · refine ⟨f', a', .inr ⟨e, ?_, he, fun hmem => by rw [hr hmem]; rfl⟩⟩
    simp only [bind, EStateM.bind, hrun]

theorem andThen_ok {x y : Genl Unit} {f f' : GenlFamily} {r : Except Int GenlFamily}
    (hx : Drafts s k x f (.ok f')) (hy : Drafts s k y f' r) :
      Drafts s k (x >>= fun _ => y) f r := by
  have hnext (f'' : GenlFamily) (hf : Except.ok f' = (.ok f'' : Except Int GenlFamily)) :
      Drafts s k y f'' r := by
    cases hf
    exact hy
  show Drafts s k (x >>= fun _ => y) f (Except.ok f' >>= fun _ => r)
  exact andThen hx hnext

theorem forEach {x : Nat → Genl Unit} {r : GenlFamily → Nat → Except Int GenlFamily}
    (h : ∀ b f, Drafts s k (x b) f (r f b)) (bs : List Nat) (f : GenlFamily) :
    Drafts s k (bs.forM x) f (bs.foldlM r f) := by
  induction bs generalizing f with
  | nil => exact ret f
  | cons b bs ih =>
      rw [List.foldlM_cons]
      exact andThen (h b f) fun f' _ => ih f'

end Drafts

/-- The parser fills in what the message says. -/
theorem ctrlMsgFill_drafts (hk : (s.families.cells k).isSome) (mem : Mem) (tb : NlaTable) :
    Drafts s k (ctrlMsgFill mem tb k) {} (familyOf mem tb) := by
  have value (t : Nat) (set : GenlFamily → Nat → GenlFamily) (f : GenlFamily) :
      Drafts s k (ifAttr tb t fun a => setFamily k (fun f => set f (nlaGetU32 mem a))) f
        (.ok (match tb t with | some a => set f (nlaGetU32 mem a) | none => f)) := by
    rw [ifAttr]
    cases tb t with
    | none => exact .ret f
    | some a => exact .set hk _ f
  have nested (t : Nat) {x : Nat → Genl Unit} {add : GenlFamily → Nat → Except Int GenlFamily}
      (hx : ∀ nla f, Drafts s k (x nla) f (add f nla)) (f : GenlFamily) :
      Drafts s k (ifAttr tb t fun a => forEachNested mem a x) f
        (match tb t with
          | some a => (nlaWalk mem (nlaData a) (nlaLen mem a)).foldlM add f
          | none => .ok f) := by
    rw [ifAttr]
    cases tb t with
    | none => exact .ret f
    | some a => exact .forEach hx _ f
  rw [ctrlMsgFill, familyOf]
  cases tb ctrlAttrFamilyName with
  | none => exact .giveUp (by decide) _
  | some name =>
      cases tb ctrlAttrFamilyId with
      | none => exact .giveUp (by decide) _
      | some id =>
          refine .andThen_ok (.set hk _ _) <| .andThen_ok (.set hk _ _) <| .andThen_ok
            (.set hk _ _) ?_
          refine .andThen_ok (value ctrlAttrVersion .setVersion _) <|
            .andThen_ok (value ctrlAttrHdrsize .setHdrsize _) <|
              .andThen_ok (value ctrlAttrMaxattr .setMaxattr _) ?_
          refine .andThen (nested ctrlAttrOps (fun nla f => ?_) _) fun f' _ =>
            nested ctrlAttrMcastGroups (fun nla f => ?_) f'
          · cases hop : ctrlOp mem nla with
            | error e => exact .giveUp (ctrlOp_error hop) f
            | ok op => exact .add hk _ f
          · cases hgrp : ctrlGrp mem nla with
            | error e => exact .giveUp (ctrlGrp_error hgrp) f
            | ok grp => exact .add hk _ f

end Drafts

/-! ## Into the cache -/

/-- The state with one more family in the cache. -/
def CacheState.grown (s : CacheState) (f : GenlFamily) (allocs : Nat) : CacheState :=
  { s with
    families := s.families.alloc f
    items := s.items ++ [s.families.next]
    nitems := s.nitems + 1
    allocs := allocs }

/-- The state in which `n` families have been allocated and freed again. -/
def CacheState.spent (s : CacheState) (n allocs : Nat) : CacheState :=
  { s with families := { s.families with next := s.families.next + n }, allocs := allocs }

/-- What became of a message: its family is in the cache, or it left nothing behind. -/
def Parsed (s : CacheState) (r : Except Int GenlFamily) (res : EStateM.Result Int CacheState Int) :
    Prop :=
  (∃ f a, r = .ok f ∧ res = .ok 0 (s.grown f a)) ∨
    ∃ e n a, Fails e ∧ ((∀ i, s.memory i = true) → r = .error e) ∧ res = .ok e (s.spent n a)

theorem ctrlMsgParser_parsed {s : CacheState} (hfresh : s.families.cells s.families.next = none)
    (hitem : s.families.next ∉ s.items) (mem : Mem) (tb : NlaTable) :
    Parsed s (familyOf mem tb) (ctrlMsgParser mem tb s) := by
  by_cases hmem : s.memory s.allocs = true
  swap
  · refine .inr ⟨-nleNomem, 0, s.allocs + 1, by decide, fun h => absurd (h _) hmem, ?_⟩
    have halloc : genlFamilyAlloc s = .ok none (s.spent 0 (s.allocs + 1)) := by
      show (if s.memory s.allocs then _ else _ : Genl (Option Nat)) _ = _
      rw [if_neg hmem]
      rfl
    rw [ctrlMsgParser]
    simp only [bind, EStateM.bind, halloc]
    rfl
  -- the new family, nothing filled in yet
  let s₁ : CacheState := { s with families := s.families.alloc {} }
  have hcell (f : GenlFamily) : (s.families.alloc f).cells s.families.next = some (1, f) :=
    Heap.cells_alloc_self _ _
  have hdraft (f : GenlFamily) (a : Nat) : s₁.drafted s.families.next f a =
      { s with families := s.families.alloc f, allocs := a } := by
    simp only [CacheState.drafted, s₁, Heap.write_alloc]
  have halloc : genlFamilyAlloc s =
      .ok (some s.families.next) (s₁.drafted s.families.next {} (s.allocs + 1)) := by
    rw [hdraft]
    show (if s.memory s.allocs then _ else _ : Genl (Option Nat)) _ = _
    rw [if_pos hmem]
    rfl
  obtain ⟨f, a, ⟨hrun, hr⟩ | ⟨e, hrun, he, hr⟩⟩ :=
    ctrlMsgFill_drafts (s := s₁) (k := s.families.next) (by simp [s₁, hcell]) mem tb (s.allocs + 1)
  · refine .inl ⟨f, a, hr, ?_⟩
    simp only [hdraft] at hrun halloc
    -- the cache takes its reference, the parser gives its own back
    have hadd : ({ s with families := s.families.alloc f, allocs := a } : CacheState).nlCacheAdd
        s.families.next =
          { s with
            families := (s.families.alloc f).get s.families.next
            items := s.items ++ [s.families.next]
            nitems := s.nitems + 1
            allocs := a } := by
      simp [CacheState.nlCacheAdd, CacheState.nlObjectGet, hitem]
    have hput : ((s.families.alloc f).get s.families.next).put s.families.next =
        s.families.alloc f :=
      Heap.put_get (hcell f) Nat.one_pos
    have hcount : ((s.families.alloc f).get s.families.next).count s.families.next = 2 := by
      simp [Heap.count, Heap.get, hcell]
    rw [ctrlMsgParser]
    simp only [bind, EStateM.bind, halloc, tryCatch, tryCatchThe, MonadExceptOf.tryCatch,
      EStateM.tryCatch, hrun, modify, modifyGet, MonadStateOf.modifyGet, EStateM.modifyGet, hadd]
    simp [CacheState.nlObjectPut, hput, hcount, CacheState.grown, pure, EStateM.pure]
  · refine .inr ⟨e, 1, a, he, hr, ?_⟩
    simp only [hdraft] at hrun halloc
    have hput : (s.families.alloc f).put s.families.next =
        { s.families with next := s.families.next + 1 } := Heap.put_alloc hfresh f
    rw [ctrlMsgParser]
    simp only [bind, EStateM.bind, halloc, tryCatch, tryCatchThe, MonadExceptOf.tryCatch,
      EStateM.tryCatch, hrun, modify, modifyGet, MonadStateOf.modifyGet, EStateM.modifyGet]
    simp [CacheState.nlObjectPut, hput, hitem, CacheState.spent, pure, EStateM.pure,
      EStateM.dummyRestore, EStateM.Backtrackable.restore]

/-- `nl_cache_parse` puts the family of a message into the cache, or leaves nothing behind. -/
theorem nlCacheParse_parsed {s : CacheState} (hfresh : s.families.cells s.families.next = none)
    (hitem : s.families.next ∉ s.items) (mem : Mem) :
    Parsed s (familyOfMsg mem) (nlCacheParse mem s) := by
  have refused {e : Int} (he : Fails e) : Parsed s (.error e) (.ok e s) :=
    .inr ⟨e, 0, s.allocs, he, fun _ => rfl, rfl⟩
  -- the list of message types has one entry
  have only {err : Int} {s' : CacheState} (hrun : genlMsgParser mem s = .ok err s') :
      (do let err ← genlMsgParser mem
          if err ≠ -nleOpnotsupp then return err else nlCacheParseTypes mem [] : Genl Int) s =
        .ok (if err ≠ -nleOpnotsupp then err else -nleMsgtypeNosupport) s' := by
    simp only [bind, EStateM.bind, hrun]
    split_ifs <;> rfl
  rw [nlCacheParse, familyOfMsg]
  by_cases hvalid : nlmsgValidHdr mem genlHdrlen = true
  swap
  · rw [if_pos hvalid, if_pos hvalid]
    exact refused (by decide)
  rw [if_neg (not_not_intro hvalid), if_neg (not_not_intro hvalid), coMsgtypes, nlCacheParseTypes]
  by_cases htype : nlmsgType mem 0 = genlIdCtrl
  swap
  · have htype' : ¬ genlIdCtrl = nlmsgType mem 0 := fun h => htype h.symm
    rw [if_neg htype', if_neg fun h : _ ∧ _ => htype h.1]
    exact refused (by decide)
  rw [if_pos htype.symm]
  by_cases hcmd : genlCmd mem = ctrlCmdNewfamily
  swap
  · -- a command without a parser, or none at all
    rw [if_neg fun h : _ ∧ _ => hcmd h.2]
    have hrun : ∃ err, genlMsgParser mem s = .ok err s ∧
        (if err ≠ -nleOpnotsupp then err else -nleMsgtypeNosupport) = -nleMsgtypeNosupport := by
      rw [genlMsgParser]
      cases hfind : genlCmds.find? fun cmd => cmd.1 = genlCmd mem with
      | none => exact ⟨-nleMsgtypeNosupport, rfl, by decide⟩
      | some cmd =>
          obtain ⟨c, parser⟩ := cmd
          have hmem := List.mem_of_find?_eq_some hfind
          have hc : c = genlCmd mem := by simpa using List.find?_some hfind
          have hparser : parser = false := by
            rw [ctrlCmdNewfamily] at hcmd
            simp only [genlCmds, List.mem_cons, Prod.mk.injEq, List.not_mem_nil, or_false] at hmem
            rcases hmem with ⟨rfl, -⟩ | ⟨-, h⟩ | ⟨-, h⟩ | ⟨-, h⟩ | ⟨-, h⟩
            · exact absurd hc.symm hcmd
            all_goals exact h
          subst hparser
          exact ⟨-nleOpnotsupp, rfl, by decide⟩
    obtain ⟨err, hrun, herr⟩ := hrun
    rw [only hrun, herr]
    exact refused (by decide)
  rw [if_pos ⟨htype, hcmd⟩]
  have hparser : genlMsgParser mem s =
      (if (nlmsgParse mem genlHdrlen ctrlAttrMax (some ctrlPolicy)).err < 0 then
        return (nlmsgParse mem genlHdrlen ctrlAttrMax (some ctrlPolicy)).err
      else ctrlMsgParser mem (nlmsgParse mem genlHdrlen ctrlAttrMax (some ctrlPolicy)).tb :
        Genl Int) s := by
    rw [genlMsgParser, hcmd]
    rfl
  by_cases herr : (nlmsgParse mem genlHdrlen ctrlAttrMax (some ctrlPolicy)).err < 0
  · have hfails : Fails (nlmsgParse mem genlHdrlen ctrlAttrMax (some ctrlPolicy)).err := by
      rw [nlmsgParse, if_neg (not_not_intro hvalid)] at herr ⊢
      exact nlaParse_fails herr
    rw [if_pos herr] at hparser
    rw [only hparser, if_pos hfails.2]
    simp only [if_pos herr]
    exact refused hfails
  · rw [if_neg herr] at hparser
    simp only [if_neg herr]
    rcases ctrlMsgParser_parsed hfresh hitem mem
      (nlmsgParse mem genlHdrlen ctrlAttrMax (some ctrlPolicy)).tb with
      ⟨f, a, hr, hrun⟩ | ⟨e, n, a, he, hr, hrun⟩
    · refine .inl ⟨f, a, hr, ?_⟩
      rw [only (hparser.trans hrun)]
      rfl
    · refine .inr ⟨e, n, a, he, hr, ?_⟩
      rw [only (hparser.trans hrun), if_pos he.2]

theorem CacheState.Caches.grown {s : CacheState} {fs : List GenlFamily} (h : s.Caches fs)
    (f : GenlFamily) (a : Nat) : (s.grown f a).Caches (fs ++ [f]) where
  counts := by
    have hcounts := h.counts.alloc f
    rw [← Multiset.singleton_add, add_comm, ← Multiset.coe_singleton, Multiset.coe_add] at hcounts
    exact hcounts
  nodup := by
    rw [CacheState.grown, List.nodup_append]
    refine ⟨h.nodup, List.nodup_singleton _, fun k hk j hj => ?_⟩
    rw [List.mem_singleton] at hj
    exact fun hkj => h.fresh.2 (hj ▸ hkj ▸ hk)
  contents := by
    rw [CacheState.grown, List.map_append, List.map_append, ← h.contents]
    congr 1
    · refine List.map_congr_left fun k hk => Heap.contents_alloc_of_ne fun hkn => ?_
      exact h.fresh.2 (hkn ▸ hk)
    · simp
  nitems := by
    rw [List.length_append, List.length_singleton]
    show s.nitems + 1 = _
    rw [h.nitems]
    rfl
  sound := h.sound

theorem CacheState.Caches.spent {s : CacheState} {fs : List GenlFamily} (h : s.Caches fs)
    (n a : Nat) : (s.spent n a).Caches fs where
  counts := h.counts.skip n
  nodup := h.nodup
  contents := h.contents
  nitems := h.nitems
  sound := h.sound

/-- **One message.** The cache grows by the family in it, or stays as it is. -/
theorem updateMsgParser_caches {s : CacheState} {fs : List GenlFamily}
    (h : s.Caches fs) (msg : Mem) :
    (updateMsgParser msg s).2.blocks = s.blocks ∧ (updateMsgParser msg s).2.memory = s.memory ∧
      ((∃ f, familyOfMsg msg = .ok f ∧ (updateMsgParser msg s).1 = 0 ∧
          (updateMsgParser msg s).2.Caches (fs ++ [f])) ∨
        ((updateMsgParser msg s).1 < 0 ∧ (updateMsgParser msg s).2.Caches fs ∧
          ((∀ i, s.memory i = true) → familyOfMsg msg = .error (updateMsgParser msg s).1))) := by
  rw [updateMsgParser]
  rcases nlCacheParse_parsed h.fresh.1 h.fresh.2 msg with ⟨f, a, hr, hrun⟩ | ⟨e, n, a, he, hr, hrun⟩
  · rw [hrun]
    exact ⟨rfl, rfl, .inl ⟨f, hr, rfl, h.grown f a⟩⟩
  · rw [hrun]
    exact ⟨rfl, rfl, .inr ⟨he.1, h.spent n a, hr⟩⟩

end Nl80211.Libnl
