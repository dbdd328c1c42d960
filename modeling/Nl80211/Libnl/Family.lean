/-
# Nl80211.Libnl.Family — generic netlink families as objects in a cache.

`genl_family.c`, `object.c` and `cache.c`: a family is an object with a reference count, the cache
is a list of objects each of which it holds one reference to.  Every `calloc` may fail, as `memory`
decides.  Beside the families there are the blocks that a lookup allocates on its way (the cache
itself, the request, a copy of the callbacks); they are counted on a heap of their own.
-/
import Nl80211.Lib.Counted
import Nl80211.Lib.Triple
import Nl80211.Libnl.Encode
import Nl80211.Libnl.Recv

namespace Nl80211.Libnl

open Lib Lib.Bytes Lib.Counted

/-! ## Families -/

/-- `GENL_NAMSIZ`. -/
def genlNamsiz : Nat := 16

/-- `struct genl_family`: the message type of the object, the mask of the members that are set, the
members, and the two lists.  An operation is its id and its flags, a group its name and its id. -/
structure GenlFamily where
  ceMsgtype : Nat := 0
  ceMask : Nat := 0
  gfId : Nat := 0
  gfName : Mem := List.replicate genlNamsiz 0
  gfVersion : Nat := 0
  gfHdrsize : Nat := 0
  gfMaxattr : Nat := 0
  gfOps : List (Nat × Nat) := []
  gfMcGrps : List (Mem × Nat) := []
  deriving DecidableEq

/-- `strncpy` of a string into a block. -/
def strncpy (dst : Mem) (src : List UInt8) (n : Nat) : Mem :=
  store dst 0 (src.take n ++ List.replicate (n - src.length) 0)

namespace GenlFamily

def setId (f : GenlFamily) (id : Nat) : GenlFamily :=
  { f with gfId := id % 65536, ceMask := f.ceMask ||| 1 }

def setName (f : GenlFamily) (name : List UInt8) : GenlFamily :=
  { f with gfName := strncpy f.gfName name (genlNamsiz - 1), ceMask := f.ceMask ||| 2 }

/-- `genl_family_set_version`: the argument is a `uint8_t`. -/
def setVersion (f : GenlFamily) (version : Nat) : GenlFamily :=
  { f with gfVersion := version % 256, ceMask := f.ceMask ||| 4 }

def setHdrsize (f : GenlFamily) (hdrsize : Nat) : GenlFamily :=
  { f with gfHdrsize := hdrsize, ceMask := f.ceMask ||| 8 }

def setMaxattr (f : GenlFamily) (maxattr : Nat) : GenlFamily :=
  { f with gfMaxattr := maxattr, ceMask := f.ceMask ||| 16 }

/-- `genl_family_get_id`. -/
def getId (f : GenlFamily) : Nat := if f.ceMask &&& 1 ≠ 0 then f.gfId else 0

/-- What `genl_family_add_op` appends. -/
def addOp (f : GenlFamily) (id flags : Nat) : GenlFamily :=
  { f with gfOps := f.gfOps ++ [(id, flags)], ceMask := f.ceMask ||| 32 }

/-- What `genl_family_add_grp` appends. -/
def addGrp (f : GenlFamily) (id : Nat) (name : List UInt8) : GenlFamily :=
  { f with
    gfMcGrps := f.gfMcGrps ++ [(strncpy (List.replicate genlNamsiz 0) name (genlNamsiz - 1), id)] }

end GenlFamily

/-! ## The cache -/

/-- The families, the other blocks, the cache (`c_items` and `c_nitems`) and what `calloc` will say.
`fault` is set where an object is freed that is still in the cache, or would be put there twice. -/
structure CacheState where
  families : Heap GenlFamily := {}
  blocks : Heap Unit := {}
  items : List Nat := []
  nitems : Int := 0
  memory : Nat → Bool := fun _ => true
  allocs : Nat := 0
  fault : Bool := false

/-- Code that ends with an error code, by `goto errout` or `return`. -/
abbrev Genl := EStateM Int CacheState

def nleOpnotsupp : Int := 10
def nleObjNotfound : Int := 12
def nleMissingAttr : Int := 14
def nleMsgtypeNosupport : Int := 22

/-- `calloc`: whether there was memory. -/
def Genl.calloc : Genl Bool :=
  modifyGet fun s => (s.memory s.allocs, { s with allocs := s.allocs + 1 })

/-- A write to a family. -/
def setFamily (k : Nat) (g : GenlFamily → GenlFamily) : Genl Unit :=
  modify fun s => { s with families := s.families.write k (g ((s.families.contents k).getD {})) }

/-- `genl_family_alloc`. -/
def genlFamilyAlloc : Genl (Option Nat) := do
  if ← Genl.calloc then
    modifyGet fun s => (some s.families.next, { s with families := s.families.alloc {} })
  else return none

/-- `genl_family_add_op`. -/
def genlFamilyAddOp (k id flags : Nat) : Genl Unit := do
  if ← Genl.calloc then setFamily k (·.addOp id flags) else throw (-nleNomem)

/-- `genl_family_add_grp`. -/
def genlFamilyAddGrp (k id : Nat) (name : List UInt8) : Genl Unit := do
  if ← Genl.calloc then setFamily k (·.addGrp id name) else throw (-nleNomem)

namespace CacheState

/-- `nl_object_get`. -/
def nlObjectGet (s : CacheState) (k : Nat) : CacheState := { s with families := s.families.get k }

/-- `nl_object_put`. -/
def nlObjectPut (s : CacheState) (k : Nat) : CacheState :=
  { s with
    families := s.families.put k
    fault := s.fault || (s.families.count k ≤ 1 && s.items.contains k) }

/-- `nl_cache_add`, of a family, which returns 0: one that is on a list already would be cloned,
which no caller asks for. -/
def nlCacheAdd (s : CacheState) (k : Nat) : CacheState :=
  let s := if s.items.contains k then { s with fault := true } else s.nlObjectGet k
  { s with items := s.items ++ [k], nitems := s.nitems + 1 }

/-- `nl_cache_remove`. -/
def nlCacheRemove (s : CacheState) (k : Nat) : CacheState :=
  if s.items.contains k then
    let s := { s with items := s.items.erase k }
    let s := s.nlObjectPut k
    { s with nitems := s.nitems - 1 }
  else s

/-- `nl_cache_clear`. -/
def nlCacheClear (s : CacheState) : CacheState := s.items.foldl nlCacheRemove s

/-- `calloc` of a block that is no family. -/
def blockAlloc (s : CacheState) : Option Nat × CacheState :=
  if s.memory s.allocs then
    (some s.blocks.next, { s with blocks := s.blocks.alloc (), allocs := s.allocs + 1 })
  else (none, { s with allocs := s.allocs + 1 })

/-- `free`. -/
def blockFree (s : CacheState) (b : Nat) : CacheState := { s with blocks := s.blocks.put b }

end CacheState

/-! ## What the cache holds -/

/-- The cache holds the families `fs`, in this order, and the only reference to each. -/
structure CacheState.Caches (s : CacheState) (fs : List GenlFamily) : Prop where
  counts : Counts s.families s.items
  nodup : s.items.Nodup
  contents : s.items.map s.families.contents = fs.map some
  nitems : s.nitems = fs.length
  sound : s.fault = false

/-- The cache at the beginning. -/
theorem CacheState.Caches.start (memory : Nat → Bool) (blocks : Heap Unit) :
    CacheState.Caches { memory := memory, blocks := blocks } [] where
  counts := Counts.start
  nodup := List.nodup_nil
  contents := rfl
  nitems := rfl
  sound := rfl

namespace CacheState.Caches

variable {s : CacheState} {fs : List GenlFamily}

/-- The handle of the next family is not in use. -/
theorem fresh (h : s.Caches fs) : s.families.cells s.families.next = none ∧
    s.families.next ∉ s.items := by
  refine ⟨h.counts.fresh _ (Nat.le_refl _), fun hk => ?_⟩
  exact Nat.lt_irrefl _ (h.counts.lt_next (Multiset.mem_coe.mpr hk))

/-- The cache does not depend on the other blocks. -/
theorem congr {s' : CacheState} (h : s.Caches fs) (hfamilies : s'.families = s.families)
    (hitems : s'.items = s.items) (hnitems : s'.nitems = s.nitems) (hfault : s'.fault = s.fault) :
    s'.Caches fs where
  counts := by rw [hfamilies, hitems]; exact h.counts
  nodup := by rw [hitems]; exact h.nodup
  contents := by rw [hfamilies, hitems]; exact h.contents
  nitems := hnitems.trans h.nitems
  sound := hfault.trans h.sound

/-- Removing the first family. -/
theorem remove {f : GenlFamily} (h : s.Caches (f :: fs)) :
    ∃ k ks, s.items = k :: ks ∧ (s.nlCacheRemove k).items = ks ∧ (s.nlCacheRemove k).Caches fs ∧
      (s.nlCacheRemove k).blocks = s.blocks ∧ (s.nlCacheRemove k).memory = s.memory := by
  cases hitems : s.items with
  | nil =>
      have hcontents := h.contents
      rw [hitems] at hcontents
      cases hcontents
  | cons k ks =>
      have hnodup := h.nodup
      rw [hitems, List.nodup_cons] at hnodup
      have hcounts := h.counts
      rw [hitems, ← Multiset.cons_coe] at hcounts
      have hremove : s.nlCacheRemove k =
          { s with
            families := s.families.put k
            items := ks
            nitems := s.nitems - 1 } := by
        simp [nlCacheRemove, nlObjectPut, hitems, hnodup.1]
      refine ⟨k, ks, rfl, ?_⟩
      rw [hremove]
      refine ⟨rfl, ⟨hcounts.put, hnodup.2, ?_, ?_, h.sound⟩, rfl, rfl⟩
      · have hcontents := h.contents
        rw [hitems, List.map_cons, List.map_cons, List.cons.injEq] at hcontents
        rw [← hcontents.2]
        refine List.map_congr_left fun j hj => ?_
        exact Heap.contents_put_of_ne fun hjk => hnodup.1 (hjk ▸ hj)
      · have hnitems := h.nitems
        rw [List.length_cons] at hnitems
        show s.nitems - 1 = _
        omega

/-- Clearing the cache frees everything in it. -/
theorem clear (h : s.Caches fs) : (s.nlCacheClear).Caches [] ∧
    (s.nlCacheClear).blocks = s.blocks ∧ (s.nlCacheClear).memory = s.memory := by
  rw [nlCacheClear]
  generalize hitems : s.items = ks
  induction fs generalizing s ks with
  | nil =>
      have hcontents := h.contents
      rw [List.map_nil, List.map_eq_nil_iff] at hcontents
      rw [← hitems, hcontents]
      exact ⟨h, rfl, rfl⟩
  | cons f fs ih =>
      obtain ⟨k, ks', hcons, hrest, hcaches, hblocks, hmemory⟩ := h.remove
      rw [hcons] at hitems
      subst hitems
      obtain ⟨hdone, hblocks', hmemory'⟩ := ih hcaches ks' hrest
      exact ⟨hdone, hblocks'.trans hblocks, hmemory'.trans hmemory⟩

end CacheState.Caches

end Nl80211.Libnl
