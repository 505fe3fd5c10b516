/- RabbitRender/Textures/Ownership
   layer: results
   source: swrender/TextureObjectManager.cpp, swrender/TextureObjectManager.h
   digest: When every block a texture object allocated is freed once, and no other block is. -/

import RabbitRender.Lib.GuardedRun
import RabbitRender.Textures.Levels

set_option autoImplicit false

namespace RabbitRender.Textures.Ownership

open Lib.GuardedRun Lib.Handles Textures.Levels
open Textures.Units (ObjectId)

structure EGLTextureObject extends Units.TextureObject where
  storage : Storage := {}
  buffer : Option Nat := none

/-- `copyParameters`, into a new object. -/
def copyParameters (old : EGLTextureObject) : EGLTextureObject :=
  { Units.copyParameters old.toTextureObject with }

def EGLTextureObject.setSurface (o : EGLTextureObject) (s : GGLSurface) : EGLTextureObject :=
  { o with
    internalformat := 0
    buffer := none
    cropRect := (0, 0, 0, 0)
    generateMipmap := 0
    direct := 1
    storage := Levels.setSurface o.storage s }

/-- `ANativeWindowBuffer`. -/
structure NativeBuffer where
  id : Nat
  width : Int
  height : Int
  stride : Int
  format : Nat

def EGLTextureObject.setImage (o : EGLTextureObject) (native : NativeBuffer) : EGLTextureObject :=
  let sur : GGLSurface :=
    { width := uint32 native.width, height := uint32 native.height, stride := native.stride,
      format := native.format }
  { o.setSurface sur with buffer := some native.id }

/-- An object before it is made, while it lives, and the heap calls it made once it is gone. -/
inductive Life
  | unborn
  | live (o : EGLTextureObject)
  | destroyed (heap : Heap)

/-- The objects and `mTextures`. `targets` records the blocks that successful reallocations gave
to the upload that asked for them. -/
structure Manager where
  objects : ObjectId → Life := fun _ => .unborn
  next : ObjectId := 0
  mTextures : UInt32 → Option ObjectId := fun _ => none
  targets : List Pointer := []

def Manager.put (m : Manager) (object : ObjectId) (life : Life) : Manager :=
  { m with objects := Function.update m.objects object life }

/-- `new EGLTextureObject()`. -/
def Manager.add (m : Manager) (o : EGLTextureObject) : Manager :=
  { m.put m.next (.live o) with next := m.next + 1 }

inductive Op
  | newObject
  | createTexture (name : UInt32)
  | removeTexture (name : UInt32)
  | replaceTexture (name : UInt32) (refs : Nat)
  | reallocate (object : ObjectId) (level : Int) (r : Request) (mem : Memory)
  | setSurface (object : ObjectId) (s : GGLSurface) (data : Option Nat)
  | setImage (object : ObjectId) (native : NativeBuffer)
  | destroy (object : ObjectId)

def step (m : Manager) : Op → Manager
  | .newObject => m.add {}
  | .createTexture name =>
    match m.mTextures name with
    | some _ => m
    | none => { m.add {} with mTextures := Function.update m.mTextures name (some m.next) }
  | .removeTexture name => { m with mTextures := Function.update m.mTextures name none }
  | .replaceTexture name refs =>
    match m.mTextures name with
    | none => m
    | some old =>
      match m.objects old with
      | .live o =>
        if refs = 1 then m
        else
          { m.add (copyParameters o) with
            mTextures := Function.update m.mTextures name (some m.next) }
      | _ => m
  | .reallocate object level r mem =>
    match m.objects object with
    | .live o =>
      let (storage, status) := Levels.reallocate o.storage level r mem
      let target := if status = .noError then (storage.mip level).data.toList else []
      { m.put object (.live { o with storage := storage }) with targets := target ++ m.targets }
    | _ => m
  | .setSurface object s data =>
    match m.objects object with
    | .live o => m.put object (.live (o.setSurface { s with data := data.map Pointer.outside }))
    | _ => m
  | .setImage object native =>
    match m.objects object with
    | .live o => m.put object (.live (o.setImage native))
    | _ => m
  | .destroy object =>
    match m.objects object with
    | .live o => m.put object (.destroyed (Levels.destroy o.storage o.direct).heap)
    | _ => m

def ownBase (st : Storage) : List Pointer := st.surface.data.toList.filter Pointer.own

def held (st : Storage) : List Pointer := ownBase st ++ tableBlocks st

/-- No block is freed twice, those of a destroyed object are all freed, and what came from outside
is neither freed nor given to an upload. -/
structure Owned (m : Manager) : Prop where
  once : ∀ object o, m.objects object = .live o →
    ∀ p ∈ o.storage.heap.taken, o.storage.heap.returned.count p ≤ 1
  all : ∀ object heap, m.objects object = .destroyed heap →
    ∀ p ∈ heap.taken, heap.returned.count p = 1
  outside : ∀ object o, m.objects object = .live o → ∀ p ∈ o.storage.heap.returned, p.own = true
  outsideAfter : ∀ object heap, m.objects object = .destroyed heap →
    ∀ p ∈ heap.returned, p.own = true
  targets : ∀ p ∈ m.targets, p.own = true

structure Accounted (heap : Heap) (held : List Pointer) : Prop where
  balanced : heap.Balanced held
  once : heap.taken.Nodup
  numbered : ∀ p ∈ heap.taken, ∃ id size, p = .block id size ∧ id < heap.taken.length

theorem accounted_empty : Accounted {} [] :=
  ⟨Ledger.balanced_nil, List.nodup_nil, fun _ h => absurd h List.not_mem_nil⟩

namespace Accounted

variable {heap : Heap} {held other as : List Pointer}

theorem of_perm (h : Accounted heap held) (hp : other.Perm held) : Accounted heap other :=
  ⟨h.balanced.of_perm hp, h.once, h.numbered⟩

variable {p : Pointer}

theorem own (h : Accounted heap held) (hp : p ∈ heap.taken) : p.own = true := by
  obtain ⟨id, size, rfl, -⟩ := h.numbered p hp
  rfl

theorem take (h : Accounted heap held) (size : Nat) :
    Accounted (heap.take (.block heap.taken.length size))
      (.block heap.taken.length size :: held) := by
  refine ⟨h.balanced.take _, List.nodup_cons.mpr ⟨fun hmem => ?_, h.once⟩, fun p hp => ?_⟩
  · obtain ⟨id, n, same, hid⟩ := h.numbered _ hmem
    injection same with hid'
    omega
  · rw [Ledger.take_taken, List.length_cons]
    rcases List.mem_cons.mp hp with rfl | hp
    · exact ⟨_, _, rfl, Nat.lt_succ_self _⟩
    · obtain ⟨id, n, rfl, hid⟩ := h.numbered p hp
      exact ⟨id, n, rfl, by omega⟩

theorem giveBackAll (h : Accounted heap (as ++ held)) : Accounted (heap.giveBackAll as) held := by
  refine ⟨h.balanced.giveBackAll, ?_, ?_⟩
  · rw [Ledger.giveBackAll_taken]
    exact h.once
  · rw [Ledger.giveBackAll_taken]
    exact h.numbered

theorem returned_own (h : Accounted heap held) (hp : p ∈ heap.returned) : p.own = true :=
  h.own (h.balanced.returned_subset hp)

theorem count_le (h : Accounted heap held) (p : Pointer) : heap.returned.count p ≤ 1 :=
  List.nodup_iff_count_le_one.mp (h.balanced.returned_once h.once).1 p

theorem count_eq (h : Accounted heap []) (hp : p ∈ heap.taken) : heap.returned.count p = 1 := by
  have freed : p ∈ heap.returned := by
    have back := h.balanced.symm.subset hp
    rwa [List.append_nil] at back
  have some := List.count_pos_iff.mpr freed
  have most := h.count_le p
  omega

end Accounted

def BaseOwn (st : Storage) : Prop := ∀ p, st.surface.data = some p → p.own = true

instance (st : Storage) : Decidable (BaseOwn st) :=
  decidable_of_iff (∀ p ∈ st.surface.data, p.own = true) Iff.rfl

/-- The blocks of an object are accounted for, and a recorded size belongs to its own block. -/
structure Sound (st : Storage) : Prop where
  accounted : Accounted st.heap (held st)
  recorded : st.mSize ≠ 0 → BaseOwn st
  tabled : Tabled st

theorem sound_empty : Sound {} :=
  ⟨accounted_empty, fun h => absurd rfl h, fun _ h => nomatch h⟩

variable {st : Storage} {s : GGLSurface} {level : Int} {p : Pointer} {r : Request} {m : Manager}

theorem sound_freeMipmaps (accounted : Accounted st.heap (tableBlocks st ++ ownBase st))
    (recorded : st.mSize ≠ 0 → BaseOwn st) : Sound (freeMipmaps st) := by
  rw [freeMipmaps_eq]
  refine ⟨?_, recorded, fun _ h => nomatch h⟩
  have freed := accounted.giveBackAll
  apply freed.of_perm
  simp [held, tableBlocks, ownBase]

def Droppable (st : Storage) : Prop := ∀ p, st.surface.data = some p → p.own = true → st.mSize ≠ 0

instance (st : Storage) : Decidable (Droppable st) :=
  decidable_of_iff (∀ p ∈ st.surface.data, p.own = true → st.mSize ≠ 0) Iff.rfl

theorem accounted_freeBase (h : Sound st) (hd : Droppable st) :
    Accounted (freeBase st) (tableBlocks st) := by
  have all := h.accounted
  cases data : st.surface.data with
  | none =>
    have none_held : ownBase st = [] := by rw [ownBase, data]; rfl
    rw [held, none_held] at all
    have same : freeBase st = st.heap := by
      rw [freeBase, data]
      exact ite_self _
    rw [same]
    exact all
  | some p =>
    cases own : p.own with
    | true =>
      have held_base : ownBase st = [p] := by simp [ownBase, data, own]
      rw [held, held_base] at all
      rw [freeBase, if_pos (hd p data own), data]
      exact all.giveBackAll
    | false =>
      have none_held : ownBase st = [] := by simp [ownBase, data, own]
      have unrecorded : st.mSize = 0 := by
        by_contra hsize
        have := h.recorded hsize p data
        rw [own] at this
        exact Bool.false_ne_true this
      rw [held, none_held] at all
      rw [freeBase, if_neg (not_not_intro unrecorded)]
      exact all

theorem sound_reallocateBase (h : Sound st) (r : Request) (succeeds : Bool)
    (hd : st.keeps r = false → Droppable st) : Sound (reallocateBase st r succeeds).1 := by
  unfold reallocateBase
  split
  · -- the block stays where it is
    apply sound_freeMipmaps
    · exact h.accounted.of_perm List.perm_append_comm
    · exact h.recorded
  · rename_i keeps
    have freed := accounted_freeBase h (hd (Bool.not_eq_true _ ▸ keeps))
    rcases malloc_cases (freeBase st) r.size succeeds with failed | got
    · rw [failed]
      exact ⟨freed, fun hsize => absurd rfl hsize, h.tabled⟩
    · rw [got]
      apply sound_freeMipmaps
      · exact (freed.take r.size).of_perm (List.perm_append_singleton _ _)
      · intro _ p hp
        obtain rfl := Option.some_inj.mp hp
        rfl

theorem sound_setSurface (h : Sound st) (hd : Droppable st)
    (hs : ∀ p, s.data = some p → p.own = false) : Sound (Levels.setSurface st s) := by
  apply sound_freeMipmaps
  · have nothing : s.data.toList.filter Pointer.own = [] := by
      cases data : s.data with
      | none => rfl
      | some p => simp [hs p data]
    have freed := accounted_freeBase h hd
    apply freed.of_perm
    rw [ownBase, nothing, List.append_nil]
    exact List.Perm.refl _
  · exact fun hsize => absurd rfl hsize

/-- The edited surface falls back to the base, whose block is then replaced as a level's. -/
def FallsBack (st : Storage) (level : Int) : Prop :=
  level < 0 ∨ st.mMipmaps = none ∧ numLods st.surface ≤ 0

instance (st : Storage) (level : Int) : Decidable (FallsBack st level) :=
  inferInstanceAs (Decidable (_ ∨ _))

theorem held_perm (h : Tabled st) (own : st.slot level = none → BaseOwn st) :
    (held st).Perm ((st.mip level).data.toList ++ held (st.setMip level {})) := by
  cases slot : st.slot level with
  | none =>
    have base : ownBase st = st.surface.data.toList := by
      cases data : st.surface.data with
      | none => simp [ownBase, data]
      | some p => simp [ownBase, data, own slot p data]
    have edited : held (st.setMip level {}) = tableBlocks st := by
      simp only [Storage.setMip, slot]
      rfl
    rw [edited, held, base, Storage.mip, slot]
  | some i =>
    obtain ⟨table, levels, htable, hi⟩ := slot_some h slot
    have mip : st.mip level = levels[i] := by
      simp [Storage.mip, slot, htable, Storage.levels, List.getD, hi]
    have edited : st.setMip level {} =
        { st with mMipmaps := some (table, levels.set i {}) } := by
      simp [Storage.setMip, slot, htable]
    have exchanged := filterMap_set_perm (fun s : GGLSurface => s.data) {} hi
    have blocks : (levels.filterMap (·.data) ++ [table]).Perm
        ((levels[i].data.toList ++ (levels.set i {}).filterMap (·.data)) ++ [table]) :=
      exchanged.symm.append_right [table]
    rw [mip, edited, held, held, tableBlocks, tableBlocks, htable]
    calc (ownBase st ++ (levels.filterMap (·.data) ++ [table])).Perm
          (ownBase st ++ ((levels[i].data.toList ++ (levels.set i {}).filterMap (·.data)) ++
            [table])) := blocks.append_left _
      _ |>.Perm (levels[i].data.toList ++
            (ownBase st ++ ((levels.set i {}).filterMap (·.data) ++ [table]))) := by
          rw [List.append_assoc, ← List.append_assoc, ← List.append_assoc (levels[i].data.toList)]
          exact List.perm_append_comm.append_right _

theorem held_filled (h : Tabled st) (level : Int) (hs : s.data = some p) (own : p.own = true) :
    (held (st.setMip level s)).Perm (p :: held (st.setMip level {})) := by
  have own_filled : (st.setMip level s).slot level = none → BaseOwn (st.setMip level s) := by
    intro slot q hq
    have base : (st.setMip level s).mip level = (st.setMip level s).surface := by
      rw [Storage.mip, slot]
    rw [mip_setMip h] at base
    rw [← base, hs] at hq
    exact Option.some_inj.mp hq ▸ own
  have filled := held_perm (tabled_setMip h level s) own_filled
  rwa [mip_setMip h, setMip_setMip, hs] at filled

theorem setMip_data (hp : (st.setMip level s).surface.data = some p) :
    s.data = some p ∨ st.surface.data = some p := by
  unfold Storage.setMip at hp
  split at hp
  · exact Or.inl hp
  · exact Or.inr hp

theorem sound_reallocateMip (h : Sound st) (r : Request) (succeeds : Bool)
    (own : st.slot level = none → BaseOwn st) : Sound (reallocateMip st level r succeeds).1 := by
  have freed : Accounted (free st.heap (st.mip level).data) (held (st.setMip level {})) :=
    (h.accounted.of_perm (held_perm h.tabled own).symm).giveBackAll
  rcases malloc_cases (free st.heap (st.mip level).data) r.size succeeds with failed | got
  · simp only [reallocateMip, failed]
    refine ⟨freed, fun hsize p hp => ?_, tabled_setMip h.tabled level {}⟩
    rcases setMip_data hp with new | old
    · exact nomatch new
    · rw [setMip_mSize] at hsize
      exact h.recorded hsize p old
  · simp only [reallocateMip, got]
    refine ⟨?_, fun hsize p hp => ?_, tabled_setMip h.tabled level _⟩
    · exact (freed.take r.size).of_perm (held_filled h.tabled level rfl rfl)
    · rcases setMip_data hp with new | old
      · obtain rfl := Option.some_inj.mp new
        rfl
      · rw [setMip_mSize] at hsize
        exact h.recorded hsize p old

theorem held_withTable (none : st.mMipmaps = none) (lods : Nat) :
    (held (withTable st lods)).Perm
      (.block st.heap.taken.length (lods * surfaceBytes) :: held st) := by
  have before : held st = ownBase st := by
    rw [held, tableBlocks, none]
    exact List.append_nil _
  have empty (n : Nat) : (List.replicate n ({} : GGLSurface)).filterMap (fun s => s.data) = [] := by
    induction n with
    | zero => rfl
    | succ n ih => exact ih
  rw [before, held, tableBlocks]
  dsimp only [withTable]
  rw [empty]
  exact List.perm_append_singleton _ _

theorem sound_withTable (h : Sound st) (none : st.mMipmaps = none) {lods : Nat} (hlods : 0 < lods) :
    Sound (withTable st lods) := by
  refine ⟨?_, h.recorded, tabled_withTable st hlods⟩
  exact (h.accounted.take (lods * surfaceBytes)).of_perm (held_withTable none lods)

/-- When `reallocate` may be called: at level 0 a block from outside is not taken for one of the
requested size, and a block of the object is not dropped unfreed; at the other levels the block
from outside is not the one that is edited. -/
def ReallocateSafe (st : Storage) (level : Int) (r : Request) : Prop :=
  if level = 0 then if st.keeps r then BaseOwn st else Droppable st
  else FallsBack st level → BaseOwn st

instance (st : Storage) (level : Int) (r : Request) : Decidable (ReallocateSafe st level r) :=
  inferInstanceAs (Decidable (if level = 0 then if st.keeps r then BaseOwn st else Droppable st
    else FallsBack st level → BaseOwn st))

theorem sound_reallocate (h : Sound st) (safe : ReallocateSafe st level r) (mem : Memory) :
    Sound (Levels.reallocate st level r mem).1 := by
  unfold ReallocateSafe at safe
  unfold Levels.reallocate
  split_ifs at safe ⊢ with base keeps table
  · exact sound_reallocateBase h r mem.data fun k => absurd keeps (by rw [k]; exact Bool.false_ne_true)
  · exact sound_reallocateBase h r mem.data fun _ => safe
  · apply sound_reallocateMip h
    intro slot
    by_cases negative : level < 0
    · exact safe (Or.inl negative)
    · have positive : ¬level ≤ 0 := by omega
      rw [Storage.slot, if_neg positive, Option.map_eq_none_iff] at slot
      rw [slot] at table
      exact absurd table Bool.false_ne_true
  · have none : st.mMipmaps = none := Option.not_isSome_iff_eq_none.mp table
    rcases allocateMipmaps_cases st mem.table with
      ⟨he, -⟩ | ⟨he, lods, -⟩ | he | ⟨lods, hlods, he⟩
    · rw [he]
      exact h
    · rw [he]
      exact sound_reallocateMip h r mem.data fun _ => safe (Or.inr ⟨none, lods⟩)
    · rw [he]
      exact h
    · rw [he]
      apply sound_reallocateMip (sound_withTable h none hlods)
      intro slot
      by_cases negative : level < 0
      · exact safe (Or.inl negative)
      · have positive : ¬level ≤ 0 := by omega
        rw [Storage.slot, if_neg positive] at slot
        cases slot

theorem own_of_reallocateMip (h : Tabled st) {succeeds : Bool}
    (status : (reallocateMip st level r succeeds).2 = .noError)
    (hp : ((reallocateMip st level r succeeds).1.mip level).data = some p) : p.own = true := by
  rcases malloc_cases (free st.heap (st.mip level).data) r.size succeeds with failed | got
  · simp only [reallocateMip, failed] at status
    exact nomatch status
  · simp only [reallocateMip, got] at hp
    have stored := mip_setMip h level
      (r.surface (some (.block (free st.heap (st.mip level).data).taken.length r.size)))
    have same : (st.setMip level
        (r.surface (some (.block (free st.heap (st.mip level).data).taken.length r.size)))).mip level
          = _ := stored
    change (Storage.mip (st.setMip level _) level).data = some p at hp
    rw [same] at hp
    obtain rfl := Option.some_inj.mp hp
    rfl

theorem own_of_reallocate (h : Sound st) (safe : ReallocateSafe st level r) {mem : Memory}
    (status : (Levels.reallocate st level r mem).2 = .noError)
    (hp : ((Levels.reallocate st level r mem).1.mip level).data = some p) : p.own = true := by
  unfold ReallocateSafe at safe
  unfold Levels.reallocate at status hp
  split_ifs at status hp with base table
  · rw [mip_base _ (Int.le_of_eq base)] at hp
    rw [if_pos base] at safe
    unfold reallocateBase at status hp
    split_ifs at status hp with keeps
    · rw [if_pos keeps] at safe
      rw [freeMipmaps_surface] at hp
      exact safe p hp
    · rcases malloc_cases (freeBase st) r.size mem.data with failed | got
      · rw [failed] at status
        exact nomatch status
      · rw [got] at hp
        rw [freeMipmaps_surface] at hp
        obtain rfl := Option.some_inj.mp hp
        rfl
  · exact own_of_reallocateMip h.tabled status hp
  · have none : st.mMipmaps = none := Option.not_isSome_iff_eq_none.mp table
    rcases allocateMipmaps_cases st mem.table with
      ⟨he, -⟩ | ⟨he, lods, -⟩ | he | ⟨lods, hlods, he⟩
    · rw [he] at status
      exact nomatch status
    · rw [he] at status hp
      exact own_of_reallocateMip h.tabled status hp
    · rw [he] at status
      exact nomatch status
    · rw [he] at status hp
      exact own_of_reallocateMip (sound_withTable h none hlods).tabled status hp

/-- What the destructor leaves is freed: it frees a block whose size is recorded, and nothing at
all of a direct texture. -/
theorem accounted_destroy (h : Sound st) {direct : Int}
    (safe : if direct = 0 then Droppable st else held st = []) :
    Accounted (Levels.destroy st direct).heap [] := by
  unfold Levels.destroy
  split_ifs at safe ⊢ with owned
  · rw [freeMipmaps_eq]
    have freed := accounted_freeBase h safe
    rw [← List.append_nil (tableBlocks st)] at freed
    exact freed.giveBackAll
  · rw [← safe]
    exact h.accounted

def Life.Meets (condition : EGLTextureObject → Prop) : Life → Prop
  | .live o => condition o
  | _ => True

instance (condition : EGLTextureObject → Prop) [DecidablePred condition] :
    ∀ life : Life, Decidable (life.Meets condition)
  | .unborn | .destroyed _ => .isTrue trivial
  | .live o => inferInstanceAs (Decidable (condition o))

def Safe (m : Manager) : Op → Prop
  | .reallocate object level r _ =>
    (m.objects object).Meets fun o => ReallocateSafe o.storage level r
  | .setSurface object _ _ | .setImage object _ =>
    (m.objects object).Meets fun o => Droppable o.storage
  | .destroy object =>
    (m.objects object).Meets fun o =>
      if o.direct = 0 then Droppable o.storage else held o.storage = []
  | _ => True

instance (m : Manager) : ∀ o, Decidable (Safe m o)
  | .newObject | .createTexture _ | .removeTexture _ | .replaceTexture _ _ => .isTrue trivial
  | .reallocate _ _ _ _ | .setSurface _ _ _ | .setImage _ _ | .destroy _ =>
    inferInstanceAs (Decidable (Life.Meets _ _))

/-- The objects of a manager are sound, the destroyed ones hold nothing, and uploads were given
blocks of their own objects. -/
structure AllSound (m : Manager) : Prop where
  live : ∀ object o, m.objects object = .live o → Sound o.storage
  destroyed : ∀ object heap, m.objects object = .destroyed heap → Accounted heap []
  targets : ∀ p ∈ m.targets, p.own = true

theorem AllSound.owned (h : AllSound m) : Owned m := by
  refine ⟨?_, ?_, ?_, ?_, h.targets⟩
  · intro object o ho p _
    exact (h.live object o ho).accounted.count_le p
  · intro object heap hheap p hp
    exact (h.destroyed object heap hheap).count_eq hp
  · intro object o ho p hp
    exact (h.live object o ho).accounted.returned_own hp
  · intro object heap hheap p hp
    exact (h.destroyed object heap hheap).returned_own hp

theorem allSound_start : AllSound {} :=
  ⟨fun _ _ h => (nomatch h), fun _ _ h => (nomatch h), fun _ h => absurd h List.not_mem_nil⟩

theorem AllSound.update (h : AllSound m) (object : ObjectId) {life : Life}
    (live : ∀ o, life = .live o → Sound o.storage)
    (destroyed : ∀ heap, life = .destroyed heap → Accounted heap []) :
    AllSound (m.put object life) := by
  have here : (m.put object life).objects object = life := Function.update_self object _ m.objects
  have there {other : ObjectId} (other_ne : other ≠ object) :
      (m.put object life).objects other = m.objects other := Function.update_of_ne other_ne _ _
  refine ⟨fun other o ho => ?_, fun other heap hheap => ?_, h.targets⟩
  · by_cases same : other = object
    · subst same
      exact live o (here.symm.trans ho)
    · exact h.live other o ((there same).symm.trans ho)
  · by_cases same : other = object
    · subst same
      exact destroyed heap (here.symm.trans hheap)
    · exact h.destroyed other heap ((there same).symm.trans hheap)

theorem AllSound.put (h : AllSound m) (object : ObjectId) {o : EGLTextureObject}
    (ho : Sound o.storage) : AllSound (m.put object (.live o)) := by
  refine h.update object (fun o' same => ?_) fun heap same => nomatch same
  injection same with same
  exact same ▸ ho

theorem AllSound.destroy (h : AllSound m) (object : ObjectId) {heap : Heap}
    (hheap : Accounted heap []) : AllSound (m.put object (.destroyed heap)) := by
  refine h.update object (fun o same => nomatch same) fun heap' same => ?_
  injection same with same
  exact same ▸ hheap

theorem AllSound.add (h : AllSound m) {o : EGLTextureObject} (ho : Sound o.storage) :
    AllSound (m.add o) :=
  have put := h.put m.next ho
  ⟨put.live, put.destroyed, put.targets⟩

theorem AllSound.named (h : AllSound m) (names : UInt32 → Option ObjectId) :
    AllSound { m with mTextures := names } :=
  ⟨h.live, h.destroyed, h.targets⟩

theorem allSound_reallocate (h : AllSound m) {object : ObjectId} {mem : Memory}
    (safe : Safe m (.reallocate object level r mem)) :
    AllSound (step m (.reallocate object level r mem)) := by
  cases ho : m.objects object with
  | unborn | destroyed heap => simpa only [step, ho] using h
  | live o =>
    have before := h.live object o ho
    have meets : ReallocateSafe o.storage level r := by
      simpa only [Safe, ho, Life.Meets] using safe
    have put := h.put object (o := { o with storage := (Levels.reallocate o.storage level r mem).1 })
      (sound_reallocate before meets mem)
    simp only [step, ho]
    refine ⟨put.live, put.destroyed, fun p hp => ?_⟩
    rcases List.mem_append.mp hp with new | old
    · split_ifs at new with status
      · exact own_of_reallocate before meets status (Option.mem_toList.mp new)
      · exact absurd new List.not_mem_nil
    · exact h.targets p old

theorem allSound_step {op : Op} (h : AllSound m) (safe : Safe m op) : AllSound (step m op) := by
  cases op with
  | newObject => exact h.add sound_empty
  | createTexture name =>
    simp only [step]
    split
    · exact h
    · exact (h.add sound_empty).named _
  | removeTexture name => exact h.named _
  | replaceTexture name refs =>
    simp only [step]
    split
    · exact h
    · split
      · split_ifs
        · exact h
        · exact (h.add sound_empty).named _
      · exact h
  | reallocate object level r mem => exact allSound_reallocate h safe
  | setSurface object s data =>
    cases ho : m.objects object with
    | unborn | destroyed heap => simpa only [step, ho] using h
    | live o =>
      have drop : Droppable o.storage := by simpa only [Safe, ho, Life.Meets] using safe
      simp only [step, ho]
      apply h.put
      apply sound_setSurface (h.live object o ho) drop
      intro p hp
      obtain ⟨id, -, rfl⟩ := Option.map_eq_some_iff.mp hp
      rfl
  | setImage object native =>
    cases ho : m.objects object with
    | unborn | destroyed heap => simpa only [step, ho] using h
    | live o =>
      have drop : Droppable o.storage := by simpa only [Safe, ho, Life.Meets] using safe
      simp only [step, ho]
      apply h.put
      exact sound_setSurface (h.live object o ho) drop fun p hp => nomatch hp
  | destroy object =>
    cases ho : m.objects object with
    | unborn | destroyed heap => simpa only [step, ho] using h
    | live o =>
      have meets : if o.direct = 0 then Droppable o.storage else held o.storage = [] := by
        simpa only [Safe, ho, Life.Meets] using safe
      simp only [step, ho]
      exact h.destroy object (accounted_destroy (h.live object o ho) meets)

/-- The blocks of every texture object are freed once and at the latest when it dies, as long as
every call is safe in the state it is made in. -/
theorem blocks_owned (ops : List Op) (safe : Guarded step Safe {} ops) {pre : List Op}
    (hpre : pre <+: ops) : Owned (run step {} pre) := by
  have keeps : ∀ m op, AllSound m → Safe m op → AllSound (step m op) :=
    fun _ _ h hs => allSound_step h hs
  have sound := run_invariant_prefix keeps allSound_start safe hpre
  exact sound.owned

private def square : Request :=
  { width := 2, height := 2, stride := 2, format := 1, compressedFormat := 0, bpr := 8 }

private def plenty : Memory := ⟨true, true⟩

private def ordinaryLife : List Op :=
  [.newObject, .reallocate 0 0 square plenty,
    .reallocate 0 1 { square with width := 1, height := 1, stride := 1, bpr := 4 } plenty,
    .reallocate 0 0 square plenty, .destroy 0]

/-- An image with a mipmap, uploaded again. -/
theorem blocks_owned_ordinary : Owned (run step {} ordinaryLife) :=
  blocks_owned ordinaryLife (by decide +kernel) (List.prefix_refl _)

private def imageThenUpload : List Op :=
  [.newObject, .setImage 0 ⟨7, 2, 2, 2, 1⟩, .reallocate 0 0 square plenty, .destroy 0]

/-- The flag that an image sets stays when the texture gets storage of its own, and the destructor
then frees nothing. -/
theorem image_leaks : ¬∀ ops : List Op, Owned (run step {} ops) := by
  intro all
  have owned := all imageThenUpload
  have dead : (run step {} imageThenUpload).objects 0 =
      .destroyed ⟨[.block 0 16], []⟩ := by rfl
  have freed := owned.all 0 _ dead (.block 0 16) List.mem_cons_self
  exact absurd freed (by decide)

end RabbitRender.Textures.Ownership
