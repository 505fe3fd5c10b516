/- RabbitRender/Textures/Levels
   layer: model
   source: swrender/TextureObjectManager.cpp, swrender/TextureObjectManager.h, include/pixelflinger.h
   digest: The surfaces of a texture object, the blocks behind them, and how they are replaced. -/

import RabbitRender.Fixed
import RabbitRender.Lib.Handles
import RabbitRender.Textures.Units

set_option autoImplicit false

namespace RabbitRender.Textures.Levels

open Fixed (wrap32 gglClz)
open Lib.Handles

/-- What `surface.data` and `mMipmaps` point to: a block from `malloc`, or memory of the caller
of `setSurface`. -/
inductive Pointer
  | block (id size : Nat)
  | outside (id : Nat)
deriving DecidableEq, Repr

namespace Pointer

def size : Pointer → Nat
  | block _ size => size
  | outside _ => 0

def own : Pointer → Bool
  | block _ _ => true
  | outside _ => false

end Pointer

abbrev Heap := Ledger Pointer

/-- `malloc`, which may fail. -/
def malloc (heap : Heap) (size : Nat) (succeeds : Bool) : Heap × Option Pointer :=
  if succeeds then
    let p := Pointer.block heap.taken.length size
    (heap.take p, some p)
  else (heap, none)

def free (heap : Heap) (data : Option Pointer) : Heap := heap.giveBackAll data.toList

/-- Conversion of an `int` to `uint32_t`. -/
def uint32 (x : Int) : Nat := (x % 2 ^ 32).toNat

/-- Conversion of an `int` to `size_t`. -/
def sizeT (x : Int) : Nat := (x % 2 ^ 64).toNat

structure GGLSurface where
  width : Nat := 0
  height : Nat := 0
  stride : Int := 0
  format : Nat := 0
  compressedFormat : Int := 0
  data : Option Pointer := none
deriving DecidableEq, Repr

/-- `sizeof(GGLSurface)`. -/
def surfaceBytes : Nat := 40

/-- The storage of an `EGLTextureObject`, with the heap calls made for it. `mMipmaps` is the table
and its `mNumExtraLod` surfaces. -/
structure Storage where
  mSize : Nat := 0
  surface : GGLSurface := {}
  mMipmaps : Option (Pointer × List GGLSurface) := none
  mIsComplete : Bool := false
  heap : Heap := {}
deriving DecidableEq, Repr

/-- `status_t`. -/
inductive Status
  | noError
  | noInit
  | noMemory
  | badType
deriving DecidableEq, Repr

def Storage.levels (st : Storage) : List GGLSurface := (st.mMipmaps.map Prod.snd).getD []

def numLods (s : GGLSurface) : Int :=
  31 - gglClz (uint32 (max (wrap32 s.width) (wrap32 s.height)))

/-- `allocateMipmaps`: a texture of one texel, or of none, gets no table. -/
def allocateMipmaps (st : Storage) (succeeds : Bool) : Storage × Status :=
  if st.surface.data = none then (st, .noInit)
  else if numLods st.surface ≤ 0 then (st, .noError)
  else
    let lods := (numLods st.surface).toNat
    match malloc st.heap (lods * surfaceBytes) succeeds with
    | (_, none) => (st, .noMemory)
    | (heap, some table) =>
      ({ st with mMipmaps := some (table, List.replicate lods {}), heap := heap }, .noError)

/-- `freeMipmaps`: the data of the levels, and the table. -/
def freeMipmaps (st : Storage) : Storage :=
  match st.mMipmaps with
  | none => st
  | some (table, levels) =>
    { st with
      mMipmaps := none
      heap := (st.heap.giveBackAll (levels.filterMap (·.data))).giveBack table }

/-- The entry of the table that `mip` selects; there is none when it selects the base surface. -/
def Storage.slot (st : Storage) (lod : Int) : Option Nat :=
  if lod ≤ 0 then none
  else st.mMipmaps.map fun table => min (lod.toNat - 1) (table.2.length - 1)

def Storage.mip (st : Storage) (lod : Int) : GGLSurface :=
  match st.slot lod with
  | none => st.surface
  | some i => st.levels.getD i {}

/-- What a store through `editMip` leaves. -/
def Storage.setMip (st : Storage) (lod : Int) (s : GGLSurface) : Storage :=
  match st.slot lod with
  | none => { st with surface := s }
  | some i => { st with mMipmaps := st.mMipmaps.map fun table => (table.1, table.2.set i s) }

def halve (extent : Nat) : Nat := if extent / 2 = 0 then 1 else extent / 2

/-- The check for completeness: each level has the format of the base and half the extent of the
level before it. -/
def completeAfter (format : Nat) : GGLSurface → List GGLSurface → Bool
  | _, [] => true
  | prev, curr :: levels =>
    if curr.format ≠ format then false
    else if halve prev.width ≠ curr.width ∨ halve prev.height ≠ curr.height then false
    else completeAfter format curr levels

/-- The arguments of `reallocate`, without the level. -/
structure Request where
  width : Int
  height : Int
  stride : Int
  format : Nat
  compressedFormat : Int
  bpr : Int
deriving DecidableEq, Repr

/-- `const size_t size = h * bpr`, a product of two `int`. -/
def Request.size (r : Request) : Nat := sizeT (wrap32 (r.height * r.bpr))

def Request.surface (r : Request) (data : Option Pointer) : GGLSurface :=
  { width := uint32 r.width, height := uint32 r.height, stride := r.stride, format := r.format,
    compressedFormat := r.compressedFormat, data := data }

/-- Whether the two allocations of `reallocate` succeed. -/
structure Memory where
  table : Bool
  data : Bool
deriving DecidableEq, Repr

def Storage.keeps (st : Storage) (r : Request) : Bool :=
  decide (r.size = st.mSize) && st.surface.data.isSome

/-- Free the level-0 block, unless the recorded size says that it is not owned. -/
def freeBase (st : Storage) : Heap := if st.mSize ≠ 0 then free st.heap st.surface.data else st.heap

/-- `reallocate`, level 0. -/
def reallocateBase (st : Storage) (r : Request) (succeeds : Bool) : Storage × Status :=
  if st.keeps r then
    (freeMipmaps { st with surface := r.surface st.surface.data, mIsComplete := true }, .noError)
  else
    match malloc (freeBase st) r.size succeeds with
    | (heap, none) =>
      ({ st with
          surface := { st.surface with data := none }
          mSize := 0
          mIsComplete := false
          heap := heap }, .noMemory)
    | (heap, some p) =>
      (freeMipmaps { st with
        surface := r.surface (some p)
        mSize := r.size
        mIsComplete := true
        heap := heap }, .noError)

/-- `reallocate`, the other levels, once there is a table. -/
def reallocateMip (st : Storage) (level : Int) (r : Request) (succeeds : Bool) :
    Storage × Status :=
  match malloc (free st.heap (st.mip level).data) r.size succeeds with
  | (heap, none) =>
    ({ st.setMip level {} with mIsComplete := false, heap := heap }, .noMemory)
  | (heap, some p) =>
    let st := st.setMip level (r.surface (some p))
    ({ st with
        mIsComplete := completeAfter st.surface.format st.surface st.levels
        heap := heap }, .noError)

def reallocate (st : Storage) (level : Int) (r : Request) (mem : Memory) : Storage × Status :=
  if level = 0 then reallocateBase st r mem.data
  else if st.mMipmaps.isSome then reallocateMip st level r mem.data
  else
    match allocateMipmaps st mem.table with
    | (st, .noError) => reallocateMip st level r mem.data
    | (st, _) => (st, .noMemory)

/-- What `setSurface` does to the storage. -/
def setSurface (st : Storage) (s : GGLSurface) : Storage :=
  freeMipmaps { st with
    surface := s
    mSize := 0
    mIsComplete := true
    heap := freeBase st }

/-- The storage part of `~EGLTextureObject`. -/
def destroy (st : Storage) (direct : Int) : Storage :=
  if direct = 0 then freeMipmaps { st with heap := freeBase st } else st

theorem malloc_cases (heap : Heap) (size : Nat) (succeeds : Bool) :
    malloc heap size succeeds = (heap, none) ∨
      malloc heap size succeeds =
        (heap.take (.block heap.taken.length size), some (.block heap.taken.length size)) := by
  cases succeeds
  · exact Or.inl rfl
  · exact Or.inr rfl

def tableBlocks (st : Storage) : List Pointer :=
  match st.mMipmaps with
  | none => []
  | some (table, levels) => levels.filterMap (·.data) ++ [table]

theorem freeMipmaps_eq (st : Storage) :
    freeMipmaps st =
      { st with mMipmaps := none, heap := st.heap.giveBackAll (tableBlocks st) } := by
  obtain ⟨mSize, surface, mMipmaps, complete, heap⟩ := st
  cases mMipmaps with
  | none => rfl
  | some table =>
    obtain ⟨table, levels⟩ := table
    simp only [freeMipmaps, tableBlocks, Ledger.giveBackAll_append]
    rfl

@[simp] theorem freeMipmaps_surface (st : Storage) : (freeMipmaps st).surface = st.surface := by
  rw [freeMipmaps_eq]

variable {level : Int} {st : Storage}

theorem slot_nonpos (st : Storage) (h : level ≤ 0) : st.slot level = none := if_pos h

theorem mip_base (st : Storage) (h : level ≤ 0) : st.mip level = st.surface := by
  rw [Storage.mip, slot_nonpos st h]

def Tabled (st : Storage) : Prop := ∀ table, st.mMipmaps = some table → table.2 ≠ []

theorem slot_some (h : Tabled st) {i : Nat} (hi : st.slot level = some i) :
    ∃ table levels, st.mMipmaps = some (table, levels) ∧ i < levels.length := by
  unfold Storage.slot at hi
  split_ifs at hi
  obtain ⟨⟨table, levels⟩, htable, rfl⟩ := Option.map_eq_some_iff.mp hi
  have entries := List.length_pos_iff.mpr (h _ htable)
  exact ⟨table, levels, htable, by dsimp only at entries ⊢; omega⟩

@[simp] theorem slot_setMip (st : Storage) (level lod : Int) (s : GGLSurface) :
    (st.setMip level s).slot lod = st.slot lod := by
  unfold Storage.setMip
  split
  · rfl
  · rename_i i _
    obtain ⟨mSize, surface, mMipmaps, complete, heap⟩ := st
    cases mMipmaps with
    | none => rfl
    | some table => simp [Storage.slot]

theorem mip_setMip (h : Tabled st) (level : Int) (s : GGLSurface) :
    (st.setMip level s).mip level = s := by
  unfold Storage.mip
  rw [slot_setMip]
  cases slot : st.slot level with
  | none => simp [Storage.setMip, slot]
  | some i =>
    obtain ⟨table, levels, htable, hi⟩ := slot_some h slot
    simp [Storage.setMip, slot, htable, Storage.levels, List.getD, hi]

theorem tabled_setMip (h : Tabled st) (level : Int) (s : GGLSurface) :
    Tabled (st.setMip level s) := by
  unfold Storage.setMip
  split
  · exact h
  · intro table htable
    obtain ⟨old, hold, rfl⟩ := Option.map_eq_some_iff.mp htable
    have entries := List.length_pos_iff.mpr (h old hold)
    apply List.length_pos_iff.mp
    rw [List.length_set]
    exact entries

theorem setMip_setMip (st : Storage) (level : Int) (s s' : GGLSurface) :
    (st.setMip level s).setMip level s' = st.setMip level s' := by
  cases slot : st.slot level with
  | none =>
    have again : (st.setMip level s).slot level = none := by rw [slot_setMip, slot]
    simp only [Storage.setMip, slot] at again ⊢
    simp only [again]
  | some i =>
    have again : (st.setMip level s).slot level = some i := by rw [slot_setMip, slot]
    simp only [Storage.setMip, slot] at again ⊢
    simp only [again, Option.map_map]
    congr 1
    cases st.mMipmaps with
    | none => rfl
    | some table => simp

@[simp] theorem setMip_mSize (st : Storage) (level : Int) (s : GGLSurface) :
    (st.setMip level s).mSize = st.mSize := by
  unfold Storage.setMip
  split <;> rfl

/-- The storage with a table of `lods` empty surfaces. -/
def withTable (st : Storage) (lods : Nat) : Storage :=
  let table := Pointer.block st.heap.taken.length (lods * surfaceBytes)
  { st with mMipmaps := some (table, List.replicate lods {}), heap := st.heap.take table }

theorem allocateMipmaps_cases (st : Storage) (succeeds : Bool) :
    (allocateMipmaps st succeeds = (st, .noInit) ∧ st.surface.data = none) ∨
    (allocateMipmaps st succeeds = (st, .noError) ∧ numLods st.surface ≤ 0 ∧
      st.surface.data ≠ none) ∨
    allocateMipmaps st succeeds = (st, .noMemory) ∨
    (∃ lods, 0 < lods ∧ allocateMipmaps st succeeds = (withTable st lods, .noError)) := by
  unfold allocateMipmaps
  split_ifs with data lods
  · exact Or.inl ⟨rfl, data⟩
  · exact Or.inr (Or.inl ⟨rfl, lods, data⟩)
  · refine Or.inr (Or.inr ?_)
    have positive : 0 < (numLods st.surface).toNat := by omega
    cases succeeds with
    | false => exact Or.inl rfl
    | true => exact Or.inr ⟨_, positive, rfl⟩

theorem tabled_withTable (st : Storage) {lods : Nat} (hlods : 0 < lods) :
    Tabled (withTable st lods) := by
  intro table htable
  obtain rfl := Option.some_inj.mp htable
  apply List.length_pos_iff.mp
  rw [List.length_replicate]
  exact hlods

end RabbitRender.Textures.Levels
