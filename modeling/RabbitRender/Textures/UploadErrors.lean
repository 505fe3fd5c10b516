/- RabbitRender/Textures/UploadErrors
   layer: results
   source: swrender/texture.cpp, swrender/TextureObjectManager.cpp, swrender/mipmap.cpp
   digest: When a texture upload that records an error leaves every texture as it was. -/

import RabbitRender.Textures.Coherence
import RabbitRender.Textures.Coverage

set_option autoImplicit false

namespace RabbitRender.Textures.UploadErrors

open RabbitRender.GL (GLenum)
open Lib.GuardedRun (run)
open Textures.Levels Textures.Uploads Textures.Coverage
open Textures.Units (ObjectId convertGLPixelFormat paletteFormat)

inductive Upload
  | texImage (a : TexImage)
  | texSubImage (a : TexSubImage)
  | copyTexImage (a : CopyTexImage)
  | copyTexSubImage (a : CopyTexSubImage)
  | compressedTexImage (a : Units.CompressedTexImage)

def upload (c : Context) (out : Outcome) : Upload → Option (Context × GLenum)
  | .texImage a => glTexImage2D c a out
  | .texSubImage a => glTexSubImage2D c a out
  | .copyTexImage a => glCopyTexImage2D c a out
  | .copyTexSubImage a => glCopyTexSubImage2D c a out
  | .compressedTexImage a => glCompressedTexImage2D c a out

structure Level where
  width : Nat
  height : Nat
  stride : Int
  format : Nat
  compressedFormat : Int
  texels : Option Bytes
deriving DecidableEq

def level (image : Image) (s : GGLSurface) : Level :=
  ⟨s.width, s.height, s.stride, s.format, s.compressedFormat, s.data.map image.bytes⟩

structure View where
  base : Level
  mips : Option (List Level)
  complete : Bool
deriving DecidableEq

def view (image : Image) : View :=
  ⟨level image image.storage.surface,
    image.storage.mMipmaps.map fun table => table.2.map (level image), image.storage.mIsComplete⟩

/-- Every texture object has its image and its parameters, and every unit its binding. -/
structure AsBefore (c c' : Context) : Prop where
  images : ∀ object, (c.units.heap object).isSome → view (c'.images object) = view (c.images object)
  parameters : ∀ object o, c.units.heap object = some o → c'.units.heap object = some o
  named : c'.units.textures = c.units.textures
  bindings : ∀ i, (c'.units.tmu i).name = (c.units.tmu i).name ∧
    (c'.units.tmu i).texture = (c.units.tmu i).texture

theorem AsBefore.record {c c' : Context} (h : AsBefore c c') (error : GLenum) :
    AsBefore c (c'.record error) :=
  ⟨h.images, h.parameters, h.named, h.bindings⟩

theorem AsBefore.refl (c : Context) : AsBefore c c :=
  ⟨fun _ _ => rfl, fun _ _ h => h, rfl, fun _ => ⟨rfl, rfl⟩⟩

theorem AsBefore.setImage {c c' : Context} (h : AsBefore c c') {object : ObjectId} {image : Image}
    (same : view image = view (c.images object)) : AsBefore c (c'.setImage object image) := by
  refine ⟨fun other live => ?_, h.parameters, h.named, h.bindings⟩
  unfold Context.setImage
  dsimp only
  by_cases this : other = object
  · rw [this, Function.update_self, same]
  · rw [Function.update_of_ne this]
    exact h.images other live

/-- The active unit has the default texture, which every unit that has it keeps alive. -/
structure OnDefault (c : Context) : Prop where
  unit : ∃ i, Units.unitIndex c.units.active = some i ∧ (c.units.tmu i).name = 0 ∧
    (c.units.tmu i).texture = some c.units.defaultTexture
  counted : ∃ o, c.units.heap c.units.defaultTexture = some o ∧ o.mCount = 0
  fresh : ∀ object, (c.units.heap object).isSome → object < c.units.nextObject

/-- The units have the same textures under the same names. -/
structure Quiet (u v : Units.Context) : Prop where
  heap : v.heap = u.heap
  textures : v.textures = u.textures
  default : v.defaultTexture = u.defaultTexture
  units : ∀ j, (v.tmu j).name = (u.tmu j).name ∧ (v.tmu j).texture = (u.tmu j).texture

theorem Quiet.setUnit {u v : Units.Context} (h : Quiet u v) (i : Fin 2) (unit : Units.TextureUnit)
    (name : unit.name = (u.tmu i).name) (texture : unit.texture = (u.tmu i).texture) :
    Quiet u { v with tmu := Function.update v.tmu i unit } := by
  refine ⟨h.heap, h.textures, h.default, fun j => ?_⟩
  dsimp only
  by_cases this : j = i
  · rw [this, Function.update_self]
    exact ⟨name, texture⟩
  · rw [Function.update_of_ne this]
    exact h.units j

theorem quiet_invalidateDefault (u : Units.Context) : Quiet u (Units.invalidateDefault u) := by
  have fold (units : List (Fin 2)) {v : Units.Context} (h : Quiet u v) : Quiet u (units.foldl
      (fun c i => if (c.tmu i).texture = some c.defaultTexture then Units.invalidateTexture c i
        else c) v) := by
    induction units generalizing v with
    | nil => exact h
    | cons i units ih =>
      apply ih
      dsimp only
      split_ifs
      · exact h.setUnit i _ (h.units i).1 (h.units i).2
      · exact h
  exact fold _ ⟨rfl, rfl, rfl, fun _ => ⟨rfl, rfl⟩⟩

theorem getAndBind_default {c : Context} (bound : OnDefault c) :
    ∃ units, Units.getAndBindActiveTextureObject c.units = some (units, c.units.defaultTexture) ∧
      Quiet c.units units := by
  obtain ⟨i, active, name, texture⟩ := bound.unit
  obtain ⟨o, live, count⟩ := bound.counted
  have released : Units.releaseUnit c.units i = some c.units := by
    simp only [Units.releaseUnit, texture]
    exact Coherence.decStrong_eq live count
  have quiet := quiet_invalidateDefault c.units
  have there : ((Units.invalidateDefault c.units).heap c.units.defaultTexture).isSome := by
    rw [quiet.heap, live]
    rfl
  refine ⟨_, ?_, quiet.setUnit i ⟨0, some c.units.defaultTexture, 0xFF⟩ name.symm
    texture.symm⟩
  simp only [Units.getAndBindActiveTextureObject, active, released, name, if_true, Option.bind_some,
    Units.attachUnit, Coherence.incStrong_eq there, Option.map_some]

theorem asBefore_withUnits {c : Context} (bound : OnDefault c) {units : Units.Context}
    (quiet : Quiet c.units units) : AsBefore c (c.withUnits units) := by
  refine ⟨fun object live => ?_, fun object o h => ?_, quiet.textures, quiet.units⟩
  · unfold Context.withUnits
    dsimp only
    rw [if_pos (bound.fresh object live)]
  · exact (congrFun quiet.heap object).trans h

/-- The image of level 0 cannot be had, and the texture had none before: it is as incomplete as it
was. -/
def Bare (c : Context) (out : Outcome) : Prop :=
  out.data 0 = false ∧ OnDefault c ∧
    (c.images c.units.defaultTexture).storage.surface.data = none ∧
    (c.images c.units.defaultTexture).storage.mIsComplete = false

/-- The level has no image, and none can be had for it either. -/
def Blank (c : Context) (out : Outcome) (level : Nat) : Prop :=
  out.data level = false ∧ ∀ object ∈ c.boundObject,
    (c.images object).storage.mMipmaps ≠ none ∧
      (c.images object).storage.mip level = {} ∧ (c.images object).storage.mIsComplete = false

/-- Nothing the call asks for is refused. What it does not ask for counts as granted. -/
def Plenty (out : Outcome) : Prop :=
  out.table = true ∧ out.rasterizer = true ∧ ∀ level, out.data level = true

/-- The bound texture has no mipmap table and gets none: it has no level 0, or there is no memory
for the table. -/
def NoTable (c : Context) (out : Outcome) : Prop :=
  ∀ object ∈ c.boundObject,
    (c.images object).storage.mMipmaps = none ∧
      ((c.images object).storage.surface.data = none ∨
        0 < numLods (c.images object).storage.surface ∧ out.table = false)

/-- A surface is refused before anything is touched, or memory suffices for all of the call, or
there was no image to lose. -/
def CreatesCleanly (c : Context) (out : Outcome) (level : Nat) (format type : GLenum) : Prop :=
  convertGLPixelFormat format type = 0 ∨ Plenty out ∨
    0 < level ∧ (NoTable c out ∨ Blank c out level) ∨ level = 0 ∧ Bare c out

/-- The default texture already has the image that level 0 is to have, and there is no rasterizer
to fill it with. -/
structure Resized (c : Context) (out : Outcome) (r : Request) (format : GLenum) : Prop where
  bound : OnDefault c
  keeps : (c.images c.units.defaultTexture).storage.keeps r = true
  surface : (c.images c.units.defaultTexture).storage.surface =
    r.surface (c.images c.units.defaultTexture).storage.surface.data
  mips : (c.images c.units.defaultTexture).storage.mMipmaps = none
  complete : (c.images c.units.defaultTexture).storage.mIsComplete = true
  internalformat : (c.parameters c.units.defaultTexture).internalformat = format
  rasterizer : out.rasterizer = false

/-- The mipmaps of a texture can be generated: it has none, or its format has a filter and a table
has entries. -/
def Generable (st : Storage) : Prop :=
  st.surface.width &&& st.surface.height = 1 ∨ filtered st.surface.format = true ∧ Tabled st

/-- There is no level-0 image to write to, and no memory or no table for the first mipmap that
would be made of it. -/
def Fruitless (st : Storage) (out : Outcome) : Prop :=
  st.surface.data = none ∧
    (st.mMipmaps = none ∨ st.mip 1 = {} ∧ st.mIsComplete = false ∧ out.data 1 = false)

/-- Where mipmaps are generated after a transfer: the transfer fails, or there is nothing to write
to, or memory suffices. -/
def TransfersCleanly (c : Context) (out : Outcome) (level : Nat)
    (refuse : Units.TextureObject → GGLSurface → GLenum) (matching : ObjectId → Bool) : Prop :=
  ∀ object ∈ c.boundObject,
    refuse (c.parameters object) ((c.images object).storage.mip level) = GL.noError →
    level = 0 → (c.parameters object).generateMipmap ≠ 0 →
      matching object = false ∧ out.rasterizer = false ∨ Fruitless (c.images object).storage out ∨
        Plenty out ∧ Generable (c.images object).storage

/-- The mipmaps of the default texture are not generated: it asks for none, has none, or there is no
memory for their table. -/
def Untabled (c : Context) (out : Outcome) : Prop :=
  let surface := (c.images c.units.defaultTexture).storage.surface
  (c.parameters c.units.defaultTexture).generateMipmap = 0 ∨ surface.width &&& surface.height = 1 ∨
    0 < numLods surface ∧ out.table = false

def FailsCleanly (c : Context) (out : Outcome) : Upload → Prop
  | .texImage a => a.reject = GL.noError → CreatesCleanly c out a.level.toNat a.format a.type ∨
    a.level.toNat = 0 ∧
      let r :=
        imageRequest c.unpackAlignment (convertGLPixelFormat a.format a.type) a.width a.height
      r.stride ≤ 0 ∧ Resized c out r a.format
  | .copyTexImage a =>
    let b := a.from c.colorBuffer.format
    b.reject = GL.noError → CreatesCleanly c out a.level.toNat b.format b.type ∨
      a.level.toNat = 0 ∧
        let r :=
          imageRequest c.unpackAlignment (convertGLPixelFormat b.format b.type) a.width a.height
        matchesBuffer c c.units.defaultTexture 0 0 0 a.x a.y a.height = false ∧
          Resized c out r b.format ∧ Untabled c out
  | .compressedTexImage a => a.reject = GL.noError → ¬a.empty →
    ∀ p ∈ paletteFormat a.internalformat,
      convertGLPixelFormat p.1 p.2 = 0 ∨ Plenty out ∨ Bare c out
  | .texSubImage a => a.reject = GL.noError → a.width ≠ 0 → a.height ≠ 0 →
    TransfersCleanly c out a.level.toNat a.refuse (a.matching c)
  | .copyTexSubImage a => a.reject = GL.noError → a.width ≠ 0 → a.height ≠ 0 →
    TransfersCleanly c out a.level.toNat a.refuse (a.matching c)

def Anchored (st : Storage) : Prop := st.mMipmaps ≠ none ∨ st.surface.data ≠ none

theorem anchored_reallocateMip {st : Storage} (h : Anchored st) (level : Int) (r : Request) :
    Anchored (reallocateMip st level r true).1 := by
  change Anchored { st.setMip level _ with mIsComplete := _, heap := _ }
  unfold Storage.setMip
  split
  · exact Or.inr (Option.some_ne_none _)
  · rcases h with table | data
    · refine Or.inl ?_
      dsimp only
      rw [Ne, Option.map_eq_none_iff]
      exact table
    · exact Or.inr data

theorem malloc_true (heap : Heap) (size : Nat) :
    malloc heap size true =
      (heap.take (.block heap.taken.length size), some (.block heap.taken.length size)) := rfl

theorem allocateMipmaps_succeeds (st : Storage) : (allocateMipmaps st true).2 ≠ .noMemory := by
  unfold allocateMipmaps
  split_ifs <;> exact nofun

theorem reallocate_level_plenty (st : Storage) {level : Int} (hlevel : level ≠ 0) (r : Request) :
    (reallocate st level r ⟨true, true⟩ = (st, .noMemory) ∧ ¬Anchored st) ∨
      ∃ ready, Anchored ready ∧ (Tabled st → Tabled ready) ∧
        reallocate st level r ⟨true, true⟩ = reallocateMip ready level r true := by
  unfold reallocate
  rw [if_neg hlevel]
  split_ifs with table
  · refine Or.inr ⟨st, Or.inl fun none => ?_, id, rfl⟩
    rw [none] at table
    exact Bool.false_ne_true table
  · have none : st.mMipmaps = none := Option.not_isSome_iff_eq_none.mp table
    rcases allocateMipmaps_cases st true with
      ⟨he, data⟩ | ⟨he, -, data⟩ | he | ⟨lods, hlods, he⟩
    · rw [he]
      refine Or.inl ⟨rfl, fun anchored => ?_⟩
      rcases anchored with h | h
      · exact h none
      · exact h data
    · rw [he]
      exact Or.inr ⟨st, Or.inr data, id, rfl⟩
    · have allocated := allocateMipmaps_succeeds st
      rw [he] at allocated
      exact absurd rfl allocated
    · rw [he]
      exact Or.inr ⟨_, Or.inl (Option.some_ne_none _), fun _ => tabled_withTable st hlods, rfl⟩

theorem reallocate_base_plenty (st : Storage) (r : Request) (table : Bool) :
    (reallocate st 0 r ⟨table, true⟩).2 = .noError ∧
      (reallocate st 0 r ⟨table, true⟩).1.surface.data ≠ none ∧
      (reallocate st 0 r ⟨table, true⟩).1.mMipmaps = none := by
  change (reallocateBase st r true).2 = _ ∧ (reallocateBase st r true).1.surface.data ≠ none ∧
    (reallocateBase st r true).1.mMipmaps = none
  unfold reallocateBase
  split
  · rename_i keeps
    rw [Storage.keeps, Bool.and_eq_true] at keeps
    rw [freeMipmaps_eq]
    refine ⟨rfl, fun empty => ?_, rfl⟩
    have data : st.surface.data = none := empty
    rw [data] at keeps
    exact Bool.false_ne_true keeps.2
  · rw [malloc_true]
    dsimp only
    rw [freeMipmaps_eq]
    exact ⟨rfl, Option.some_ne_none _, rfl⟩

theorem reallocate_noTable {st : Storage} {level : Int} (hlevel : level ≠ 0) (r : Request)
    (mem : Memory) (empty : st.mMipmaps = none)
    (refused : st.surface.data = none ∨ 0 < numLods st.surface ∧ mem.table = false) :
    reallocate st level r mem = (st, .noMemory) := by
  unfold reallocate
  rw [if_neg hlevel, empty, if_neg (by exact Bool.false_ne_true)]
  unfold allocateMipmaps
  rcases refused with data | ⟨lods, table⟩
  · rw [if_pos data]
  · have positive : ¬numLods st.surface ≤ 0 := by omega
    rw [table]
    split_ifs with data
    · rfl
    · rfl

theorem buildLevels_plenty {size : Nat} {out : Outcome} (plenty : Plenty out) (rounds : Nat)
    {base : GGLSurface} {image : Image} {level w h : Nat} (hlevel : 0 < level)
    (anchored : Anchored image.storage) (tabled : Tabled image.storage)
    (known : filtered base.format = true) :
    (buildLevels size out base rounds image level w h).2 = .noError := by
  induction rounds generalizing base image level w h with
  | zero => rfl
  | succ rounds ih =>
    have memory : out.memory level = ⟨true, true⟩ := by
      rw [Outcome.memory, plenty.1, plenty.2.2 level]
    have nonzero : (level : Int) ≠ 0 := by omega
    rw [buildLevels, memory]
    rcases reallocate_level_plenty image.storage nonzero (levelRequest size base w h) with
      ⟨-, none⟩ | ⟨ready, hready, htabled, he⟩
    · exact absurd anchored none
    · rw [he]
      have next := anchored_reallocateMip hready level (levelRequest size base w h)
      have entries := tabled_setMip (htabled tabled) level
      have mip := mip_setMip (htabled tabled) level
      simp only [reallocateMip, malloc, if_true, known] at next ⊢
      split_ifs
      · rfl
      · apply ih (Nat.succ_pos level)
        · rw [paint_storage]
          exact next
        · rw [paint_storage]
          exact entries _
        · change filtered (Storage.mip (ready.setMip level _) level).format = true
          rw [mip]
          exact known

theorem buildAPyramid_plenty {image : Image} {out : Outcome} (plenty : Plenty out)
    (anchored : Anchored image.storage) (generable : Generable image.storage) :
    (buildAPyramid image out).2 = .noError := by
  unfold buildAPyramid
  dsimp only
  split_ifs
  · rfl
  · obtain ⟨known, tabled⟩ := generable.resolve_left ‹_›
    exact buildLevels_plenty plenty 32 Nat.one_pos anchored tabled known

theorem buildAPyramid_refused {image : Image} {out : Outcome}
    (refused : ∀ r, reallocate image.storage 1 r (out.memory 1) = (image.storage, .noMemory)) :
    (buildAPyramid image out).1 = image := by
  unfold buildAPyramid
  dsimp only
  split_ifs
  · rfl
  · have first (r : Request) :
        reallocate image.storage ((1 : Nat) : Int) r (out.memory 1) = (image.storage, .noMemory) :=
      refused r
    rw [buildLevels, first]

theorem setImage_self (c : Context) (object : ObjectId) :
    c.setImage object (c.images object) = c := by
  unfold Context.setImage
  rw [Function.update_eq_self]

theorem filtered_convert {format type : GLenum} (known : convertGLPixelFormat format type ≠ 0) :
    filtered (convertGLPixelFormat format type) = true := by
  unfold convertGLPixelFormat at known ⊢
  split_ifs at known ⊢ <;> first | rfl | exact absurd rfl known

theorem create_plenty {c c' : Context} {out : Outcome} (plenty : Plenty out) {level : Nat}
    {format type : GLenum} {width height : Int} {error : GLenum}
    (known : convertGLPixelFormat format type ≠ 0)
    (he : createTextureSurface c level format type width height out = some (c', error)) :
    (c' = c ∧ error ≠ GL.noError ∧ 0 < level ∧
      ∀ object ∈ c.boundObject, ¬Anchored (c.images object).storage) ∨
      (error = GL.noError ∧ ∃ object, c'.boundObject = some object ∧
        Anchored (c'.images object).storage ∧
        (level = 0 → Generable (c'.images object).storage)) := by
  have memory : out.memory level = ⟨true, true⟩ := by
    rw [Outcome.memory, plenty.1, plenty.2.2 level]
  rcases Nat.eq_zero_or_pos level with rfl | hlevel
  · obtain ⟨units, object, -, active, -, -, images, status⟩ := create_base known he
    rw [memory] at images status
    obtain ⟨done, data, table⟩ := reallocate_base_plenty
      ((c.withUnits units).images object).storage
      (imageRequest c.unpackAlignment (convertGLPixelFormat format type) width height) true
    obtain ⟨data', surface⟩ := surface_of_base done
    refine Or.inr ⟨status.mpr done, object, active, ?_, fun _ => Or.inr ⟨?_, ?_⟩⟩
    · rw [images, setImage_images_self]
      exact Or.inr data
    · rw [images, setImage_images_self]
      dsimp only
      rw [surface]
      exact filtered_convert known
    · rw [images, setImage_images_self]
      intro entries hentries
      dsimp only at hentries
      rw [table] at hentries
      exact nomatch hentries
  · obtain ⟨object, bound, rfl, status⟩ := create_level hlevel known he
    have nonzero : (level : Int) ≠ 0 := by omega
    rw [memory] at status ⊢
    rcases reallocate_level_plenty (c.images object).storage nonzero
        (imageRequest c.unpackAlignment (convertGLPixelFormat format type) width height) with
      ⟨same, none⟩ | ⟨ready, hready, -, same⟩
    · rw [same] at status ⊢
      refine Or.inl ⟨setImage_self c object, fun fine => (nomatch status.mp fine), hlevel, ?_⟩
      intro other hother
      obtain rfl := Option.some_inj.mp (bound.symm.trans hother)
      exact none
    · rw [same] at status ⊢
      refine Or.inr ⟨status.mpr rfl, object, bound, ?_, fun zero => by omega⟩
      rw [setImage_images_self]
      exact anchored_reallocateMip hready level _

theorem default_image {c : Context} (bound : OnDefault c) (units : Units.Context) :
    (c.withUnits units).images c.units.defaultTexture = c.images c.units.defaultTexture := by
  obtain ⟨o, live, -⟩ := bound.counted
  exact if_pos (bound.fresh _ (by rw [live]; rfl))

theorem reallocateBase_bare {st : Storage} (data : st.surface.data = none)
    (incomplete : st.mIsComplete = false) (r : Request) :
    reallocateBase st r false = ({ st with mSize := 0, heap := freeBase st }, .noMemory) := by
  have drops : st.keeps r = false := by
    rw [Storage.keeps, data]
    exact Bool.and_false _
  rw [reallocateBase, drops]
  obtain ⟨mSize, ⟨width, height, stride, format, compressed, block⟩, mips, complete, heap⟩ := st
  obtain rfl : block = none := data
  obtain rfl : complete = false := incomplete
  rfl

theorem create_bare {c c' : Context} {out : Outcome} (bare : Bare c out) {format type : GLenum}
    {width height : Int} {error : GLenum} (known : convertGLPixelFormat format type ≠ 0)
    (he : createTextureSurface c 0 format type width height out = some (c', error)) :
    AsBefore c c' ∧ error ≠ GL.noError := by
  obtain ⟨refused, bound, data, incomplete⟩ := bare
  obtain ⟨units, active, quiet⟩ := getAndBind_default bound
  have fails (r : Request) :
      reallocate (c.images c.units.defaultTexture).storage ((0 : Nat) : Int) r (out.memory 0) =
        ({ (c.images c.units.defaultTexture).storage with
            mSize := 0, heap := freeBase (c.images c.units.defaultTexture).storage },
          .noMemory) := by
    change reallocateBase _ r (out.data 0) = _
    rw [refused]
    exact reallocateBase_bare data incomplete r
  unfold createTextureSurface at he
  simp only [if_neg known, if_neg (Nat.lt_irrefl 0), active, Option.map_some,
    default_image bound units, fails, reduceCtorEq, if_false] at he
  obtain ⟨rfl, rfl⟩ := Prod.mk.inj (Option.some_inj.mp he)
  exact ⟨(asBefore_withUnits bound quiet).setImage rfl, by decide⟩

theorem reallocateBase_same {st : Storage} {r : Request} (keeps : st.keeps r = true)
    (surface : st.surface = r.surface st.surface.data) (mips : st.mMipmaps = none)
    (complete : st.mIsComplete = true) (succeeds : Bool) :
    reallocateBase st r succeeds = (st, .noError) := by
  rw [reallocateBase, if_pos keeps, ← surface]
  obtain ⟨mSize, surface, table, done, heap⟩ := st
  obtain rfl : table = none := mips
  obtain rfl : done = true := complete
  rfl

theorem setInternalformat_same {c : Context} {object : ObjectId} {format : GLenum}
    (same : ∀ o, c.units.heap object = some o → o.internalformat = format) :
    c.setInternalformat object format = c := by
  have unchanged : (c.units.heap object).map (fun o => { o with internalformat := format }) =
      c.units.heap object := by
    cases live : c.units.heap object with
    | none => rfl
    | some o =>
      obtain rfl := same o live
      rfl
  unfold Context.setInternalformat
  dsimp only
  rw [unchanged, Function.update_eq_self]

theorem create_resized {c c' : Context} {out : Outcome} {format type : GLenum} {width height : Int}
    (same : Resized c out
      (imageRequest c.unpackAlignment (convertGLPixelFormat format type) width height) format)
    {error : GLenum} (he : createTextureSurface c 0 format type width height out = some (c', error)) :
    (AsBefore c c' ∧ error ≠ GL.noError) ∨
      (error = GL.noError ∧ AsBefore c c' ∧ c'.boundObject = some c.units.defaultTexture ∧
        c'.images c.units.defaultTexture = c.images c.units.defaultTexture ∧
        c'.parameters c.units.defaultTexture = c.parameters c.units.defaultTexture ∧
        c'.colorBuffer = c.colorBuffer) := by
  by_cases known : convertGLPixelFormat format type = 0
  · obtain ⟨rfl, rfl⟩ := create_unknown known he
    exact Or.inl ⟨.refl _, by decide⟩
  right
  obtain ⟨units, active, quiet⟩ := getAndBind_default same.bound
  have keeps : reallocate (c.images c.units.defaultTexture).storage ((0 : Nat) : Int)
      (imageRequest c.unpackAlignment (convertGLPixelFormat format type) width height)
      (out.memory 0) = ((c.images c.units.defaultTexture).storage, .noError) :=
    reallocateBase_same same.keeps same.surface same.mips same.complete _
  have image := default_image same.bound units
  have format' : (c.withUnits units).setInternalformat c.units.defaultTexture format =
      c.withUnits units := by
    apply setInternalformat_same
    intro o live
    have before : c.units.heap c.units.defaultTexture = some o :=
      (congrFun quiet.heap _).symm.trans live
    have known := same.internalformat
    rw [Context.parameters, before] at known
    exact known
  have reset : (c.withUnits units).setImage c.units.defaultTexture
      (c.images c.units.defaultTexture) = c.withUnits units := by
    rw [← image]
    exact setImage_self _ _
  unfold createTextureSurface at he
  simp only [if_neg known, if_neg (Nat.lt_irrefl 0), active, Option.map_some, image, keeps,
    if_true] at he
  rw [reset, format'] at he
  obtain ⟨rfl, rfl⟩ := Prod.mk.inj (Option.some_inj.mp he)
  refine ⟨rfl, asBefore_withUnits same.bound quiet, getAndBind_bound active, image, ?_, rfl⟩
  exact congrArg (·.getD {}) (congrFun quiet.heap _)

theorem Resized.stride {c : Context} {out : Outcome} {r : Request} {format : GLenum}
    (same : Resized c out r format) :
    ((c.images c.units.defaultTexture).storage.mip ((0 : Nat) : Int)).stride = r.stride := by
  have base : (c.images c.units.defaultTexture).storage.mip ((0 : Nat) : Int) =
      (c.images c.units.defaultTexture).storage.surface := mip_base _ (Int.le_refl 0)
  rw [base, same.surface]
  rfl

theorem set_blank {levels : List GGLSurface} {i : Nat} (blank : levels.getD i {} = {}) :
    levels.set i {} = levels := by
  by_cases hi : i < levels.length
  · have entry : levels[i] = {} := by
      rw [← blank, List.getD_eq_getElem?_getD, List.getElem?_eq_getElem hi, Option.getD_some]
    rw [← entry, List.set_getElem_self]
  · exact List.set_eq_of_length_le (Nat.le_of_not_lt hi)

theorem setMip_blank {st : Storage} {level : Nat} (hlevel : 0 < level)
    (table : st.mMipmaps ≠ none) (blank : st.mip level = {}) : st.setMip level {} = st := by
  obtain ⟨entries, hentries⟩ := Option.ne_none_iff_exists'.mp table
  have above : ¬(level : Int) ≤ 0 := by omega
  have slot : st.slot level = some (min ((level : Int).toNat - 1) (entries.2.length - 1)) := by
    rw [Storage.slot, if_neg above, hentries, Option.map_some]
  simp only [Storage.mip, slot, Storage.levels, hentries, Option.map_some,
    Option.getD_some] at blank
  simp only [Storage.setMip, slot, hentries, Option.map_some, set_blank blank]
  rw [← hentries]

/-- A level that had no image is taken away again. -/
theorem reallocate_blank {st : Storage} {level : Nat} (hlevel : 0 < level)
    (table : st.mMipmaps ≠ none) (blank : st.mip level = {})
    (incomplete : st.mIsComplete = false) (r : Request) {mem : Memory}
    (refused : mem.data = false) : reallocate st level r mem = (st, .noMemory) := by
  have nonzero : (level : Int) ≠ 0 := by omega
  have some : st.mMipmaps.isSome := Option.isSome_iff_ne_none.mpr table
  rw [reallocate, if_neg nonzero, if_pos some, reallocateMip, refused, blank]
  change ({ st.setMip level {} with mIsComplete := false, heap := st.heap }, Status.noMemory) = _
  rw [setMip_blank hlevel table blank, ← incomplete]

theorem buildAPyramid_fruitless {image : Image} {out : Outcome}
    (fruitless : Fruitless image.storage out) : (buildAPyramid image out).1 = image := by
  apply buildAPyramid_refused
  intro r
  by_cases table : image.storage.mMipmaps = none
  · exact reallocate_noTable Int.one_ne_zero r _ table (Or.inl fruitless.1)
  · obtain ⟨blank, incomplete, refused⟩ := fruitless.2.resolve_left table
    exact reallocate_blank Nat.one_pos table blank incomplete r refused

theorem create_clean {c c' : Context} {out : Outcome} {level : Nat} {format type : GLenum}
    (clean : CreatesCleanly c out level format type) {width height : Int} {error : GLenum}
    (he : createTextureSurface c level format type width height out = some (c', error)) :
    (AsBefore c c' ∧ error ≠ GL.noError) ∨
      (error = GL.noError ∧ Plenty out ∧ ∃ object, c'.boundObject = some object ∧
        Anchored (c'.images object).storage ∧
        (level = 0 → Generable (c'.images object).storage)) := by
  by_cases known : convertGLPixelFormat format type = 0
  · obtain ⟨rfl, rfl⟩ := create_unknown known he
    exact Or.inl ⟨.refl _, by decide⟩
  · rcases clean.resolve_left known with plenty | ⟨hlevel, refused⟩ | ⟨rfl, bare⟩
    · rcases create_plenty plenty known he with ⟨rfl, failed, -⟩ | ⟨fine, object⟩
      · exact Or.inl ⟨.refl _, failed⟩
      · exact Or.inr ⟨fine, plenty, object⟩
    · obtain ⟨object, bound, rfl, status⟩ := create_level hlevel known he
      have nonzero : (level : Int) ≠ 0 := by omega
      rcases refused with noTable | ⟨refused, blank⟩
      · obtain ⟨empty, refused⟩ := noTable object bound
        have failed := reallocate_noTable nonzero
          (imageRequest c.unpackAlignment (convertGLPixelFormat format type) width height)
          (out.memory level) empty refused
        rw [failed] at status ⊢
        exact Or.inl ⟨(AsBefore.refl c).setImage rfl, fun fine => nomatch status.mp fine⟩
      · obtain ⟨table, blank, incomplete⟩ := blank object bound
        have failed := reallocate_blank hlevel table blank incomplete
          (imageRequest c.unpackAlignment (convertGLPixelFormat format type) width height)
          (show (out.memory level).data = false from refused)
        rw [failed] at status ⊢
        exact Or.inl ⟨(AsBefore.refl c).setImage rfl, fun fine => nomatch status.mp fine⟩
    · exact Or.inl (create_bare bare known he)

theorem generateMipmap_plenty {c : Context} {out : Outcome} (plenty : Plenty out)
    {object : ObjectId} {level : Nat} (anchored : Anchored (c.images object).storage)
    (generable : level = 0 → Generable (c.images object).storage) :
    (generateMipmap c object level out).2 = GL.noError := by
  unfold Uploads.generateMipmap
  split_ifs with asks
  · exact if_pos (buildAPyramid_plenty plenty anchored (generable asks.1))
  · rfl

theorem transfer_plenty {c : Context} {out : Outcome} (plenty : Plenty out) {object : ObjectId}
    {level : Nat} (anchored : Anchored (c.images object).storage)
    (generable : level = 0 → Generable (c.images object).storage) (direct : Bool) :
    (copyPixels c object level direct out).2 = GL.noError ∧
      (generateMipmap (copyPixels c object level direct out).1 object level out).2 =
        GL.noError := by
  have storage := (copyPixels_keeps c object level direct out).1 object
  constructor
  · unfold copyPixels
    rw [plenty.2.1, Bool.or_true, if_pos rfl]
  · apply generateMipmap_plenty plenty
    · rw [storage]
      exact anchored
    · rw [storage]
      exact generable

/-- Where there is no block to write to and no first mipmap, a transfer and the generation after it
change nothing. -/
theorem transfer_fruitless {c : Context} {out : Outcome} {object : ObjectId}
    (fruitless : Fruitless (c.images object).storage out) :
    (generateMipmap (c.setImage object ((c.images object).paint 0 (out.copy 0))) object 0 out).1 =
      c := by
  have base : (c.images object).storage.mip ((0 : Nat) : Int) = (c.images object).storage.surface :=
    mip_base _ (Int.le_refl 0)
  have unpainted : (c.images object).paint 0 (out.copy 0) = c.images object := by
    unfold Image.paint
    rw [base, fruitless.1]
  rw [unpainted, setImage_self]
  unfold Uploads.generateMipmap
  split_ifs
  · dsimp only
    rw [buildAPyramid_fruitless fruitless, setImage_self]
  · rfl

/-- A transfer that fails touches nothing; after one that does not, the mipmaps are generated, or
there was nothing to write to. -/
theorem transfer_clean {c : Context} {out : Outcome} {object : ObjectId} {level : Nat}
    {direct : Bool} {r : Context × GLenum}
    (clean : level = 0 → (c.parameters object).generateMipmap ≠ 0 →
      direct = false ∧ out.rasterizer = false ∨ Fruitless (c.images object).storage out ∨
        Plenty out ∧ Generable (c.images object).storage)
    (he : (unlessError (copyPixels c object level direct out) fun c =>
      some (generateMipmap c object level out)) = some r) :
    r.2 = GL.noError ∨ AsBefore c r.1 := by
  by_cases transfers : (direct || out.rasterizer) = true
  · have copied : copyPixels c object level direct out =
        (c.setImage object ((c.images object).paint level (out.copy level)), GL.noError) :=
      if_pos transfers
    rcases unlessError_cases he with rfl | ⟨-, rest⟩
    · rw [copied]
      exact Or.inl rfl
    · obtain rfl := Option.some_inj.mp rest
      by_cases asks : level = 0 ∧ (c.parameters object).generateMipmap ≠ 0
      · obtain rfl := asks.1
        rcases clean rfl asks.2 with ⟨rfl, none⟩ | fruitless | ⟨plenty, generable⟩
        · rw [none] at transfers
          exact absurd transfers Bool.false_ne_true
        · rw [copied, transfer_fruitless fruitless]
          exact Or.inr (.refl c)
        · by_cases anchored : Anchored (c.images object).storage
          · exact Or.inl (transfer_plenty plenty anchored (fun _ => generable) direct).2
          · obtain ⟨table, data⟩ := not_or.mp anchored
            rw [copied, transfer_fruitless ⟨not_not.mp data, Or.inl (not_not.mp table)⟩]
            exact Or.inr (.refl c)
      · left
        rw [copied]
        exact congrArg Prod.snd (if_neg asks)
  · have failed : copyPixels c object level direct out = (c, GL.outOfMemory) := if_neg transfers
    rcases unlessError_cases he with rfl | ⟨fine, -⟩
    · rw [failed]
      exact Or.inr (.refl c)
    · rw [failed] at fine
      exact nomatch fine

theorem samePixels_stride {dst src : GGLSurface} {xoffset yoffset x y : Int}
    (stride : dst.stride ≤ 0) : samePixels dst xoffset yoffset src x y = false := by
  have none : decide (0 < dst.stride) = false := decide_eq_false (by omega)
  simp only [samePixels, none, Bool.and_false, Bool.false_and]

theorem copyPixels_refused {c : Context} {out : Outcome} {direct : Bool} (slow : direct = false)
    (none : out.rasterizer = false) (object : ObjectId) (level : Nat) :
    copyPixels c object level direct out = (c, GL.outOfMemory) := by
  rw [copyPixels, slow, none]
  rfl

theorem texImage_clean {c : Context} {out : Outcome} {a : TexImage} {r : Context × GLenum}
    (clean : FailsCleanly c out (.texImage a)) (he : glTexImage2D c a out = some r) :
    r.2 = GL.noError ∨ AsBefore c r.1 := by
  rcases glTexImage2D_cases he with same | ⟨accepted, made, created, rest⟩
  · rw [same]
    exact Or.inr (.refl c)
  · rcases clean accepted with creates | ⟨hlevel, stride, resized⟩
    · rcases create_clean creates created with
        ⟨same, failed⟩ | ⟨fine, plenty, object, bound, anchored, generable⟩
      · rcases rest with rfl | ⟨fine, -⟩
        · exact Or.inr same
        · exact absurd fine failed
      · left
        rcases rest with rfl | ⟨-, -, object', direct, transferred, -⟩
        · exact fine
        · obtain rfl := Option.some_inj.mp (bound.symm.trans transferred.1)
          obtain ⟨copied, generated⟩ := transfer_plenty plenty anchored generable direct
          rcases transferred.cases with rfl | rfl
          · exact copied
          · exact generated
    · rw [hlevel] at created rest
      rcases create_resized resized created with
        ⟨same, failed⟩ | ⟨fine, same, bound, image, -⟩
      · rcases rest with rfl | ⟨fine, -⟩
        · exact Or.inr same
        · exact absurd fine failed
      · rcases rest with rfl | ⟨-, -, object, direct, transferred, slow⟩
        · exact Or.inl fine
        · obtain rfl := Option.some_inj.mp (bound.symm.trans transferred.1)
          rw [image, samePixels_stride (by rw [resized.stride]; exact stride)] at slow
          have failed := copyPixels_refused (c := made.1) slow resized.rasterizer
            c.units.defaultTexture 0
          rcases unlessError_cases transferred.2 with rfl | ⟨fine, -⟩
          · rw [failed]
            exact Or.inr same
          · rw [failed] at fine
            exact nomatch fine

theorem generateMipmap_untabled {c : Context} {out : Outcome} {object : ObjectId}
    (untabled : (c.parameters object).generateMipmap = 0 ∨
      (c.images object).storage.surface.width &&& (c.images object).storage.surface.height = 1 ∨
        0 < numLods (c.images object).storage.surface ∧ out.table = false)
    (mips : (c.images object).storage.mMipmaps = none) :
    (generateMipmap c object 0 out).1 = c := by
  unfold Uploads.generateMipmap
  split_ifs with asks
  · dsimp only
    have kept : (buildAPyramid (c.images object) out).1 = c.images object := by
      rcases untabled.resolve_left asks.2 with none | refused
      · unfold buildAPyramid
        dsimp only
        rw [if_pos none]
      · exact buildAPyramid_refused fun r =>
          reallocate_noTable Int.one_ne_zero r (out.memory 1) mips (Or.inr refused)
    rw [kept, setImage_self]
  · rfl

theorem copyTexImage_clean {c : Context} {out : Outcome} {a : CopyTexImage}
    {r : Context × GLenum} (clean : FailsCleanly c out (.copyTexImage a))
    (he : glCopyTexImage2D c a out = some r) : r.2 = GL.noError ∨ AsBefore c r.1 := by
  rcases glCopyTexImage2D_cases he with same | ⟨accepted, made, created, rest⟩
  · rw [same]
    exact Or.inr (.refl c)
  · rcases clean accepted with creates | ⟨hlevel, differs, resized, untabled⟩
    · rcases create_clean creates created with
        ⟨same, failed⟩ | ⟨fine, plenty, object, bound, anchored, generable⟩
      · rcases rest with rfl | ⟨fine, -⟩
        · exact Or.inr same
        · exact absurd fine failed
      · left
        rcases rest with rfl | ⟨-, object', direct, bound', -, rfl⟩
        · exact fine
        · obtain rfl := Option.some_inj.mp (bound.symm.trans bound')
          obtain ⟨copied, generated⟩ := transfer_plenty plenty anchored generable direct
          dsimp only
          rw [if_neg (not_not_intro copied)]
          exact generated
    · rw [hlevel] at created rest
      rcases create_resized resized created with
        ⟨same, failed⟩ | ⟨fine, same, bound, image, parameters, buffer⟩
      · rcases rest with rfl | ⟨fine, -⟩
        · exact Or.inr same
        · exact absurd fine failed
      · rcases rest with rfl | ⟨-, object, direct, bound', slow, rfl⟩
        · exact Or.inl fine
        · obtain rfl := Option.some_inj.mp (bound.symm.trans bound')
          have slow : direct = false := by
            rw [slow, matchesBuffer, image, buffer]
            exact differs
          rw [copyPixels_refused slow resized.rasterizer]
          right
          dsimp only
          rw [generateMipmap_untabled]
          · exact same
          · rw [image, parameters]
            exact untabled
          · rw [image]
            exact resized.mips

theorem uploadLevels_plenty {out : Outcome} (plenty : Plenty out) {format type : GLenum}
    (known : convertGLPixelFormat format type ≠ 0) {width height : Nat} {levels : List Nat}
    {c : Context} {r : Context × GLenum}
    (start : (∃ rest, levels = 0 :: rest) ∨
      ∀ object ∈ c.boundObject, Anchored (c.images object).storage)
    (he : uploadLevels c format type width height out levels = some r) : r.2 = GL.noError := by
  induction levels generalizing c with
  | nil =>
    obtain rfl := Option.some_inj.mp he
    rfl
  | cons level levels ih =>
    obtain ⟨⟨c1, error⟩, created, rest⟩ := Option.bind_eq_some_iff.mp he
    rcases create_plenty plenty known created with
      ⟨-, -, hlevel, none⟩ | ⟨rfl, object, bound, anchored, -⟩
    · rcases start with ⟨tail, zero⟩ | anchored
      · obtain ⟨rfl, -⟩ := List.cons_eq_cons.mp zero
        exact absurd hlevel (Nat.lt_irrefl 0)
      · obtain ⟨object, bound, -, -⟩ := create_level hlevel known created
        exact absurd (anchored object bound) (none object bound)
    · rcases unlessError_cases rest with rfl | ⟨-, rest⟩
      · rfl
      · obtain ⟨object', bound', rest⟩ := Option.bind_eq_some_iff.mp rest
        obtain rfl := Option.some_inj.mp (bound.symm.trans bound')
        refine ih (Or.inr fun other hother => ?_) rest
        obtain rfl := Option.some_inj.mp (bound.symm.trans hother)
        rw [setImage_images_self, paint_storage]
        exact anchored

theorem compressedTexImage_clean {c : Context} {out : Outcome} {a : Units.CompressedTexImage}
    {r : Context × GLenum} (clean : FailsCleanly c out (.compressedTexImage a))
    (he : glCompressedTexImage2D c a out = some r) : r.2 = GL.noError ∨ AsBefore c r.1 := by
  rcases glCompressedTexImage2D_cases he with same | ⟨accepted, uploaded, format, type, palette, he⟩
  · rw [same]
    exact Or.inr (.refl c)
  · have condition := clean accepted uploaded (format, type) palette
    cases count : a.numLevels with
    | zero =>
      rw [count] at he
      obtain rfl := Option.some_inj.mp he
      exact Or.inl rfl
    | succ n =>
      rw [count, List.range_succ_eq_map] at he
      by_cases known : convertGLPixelFormat format type = 0
      · obtain ⟨⟨c1, error⟩, created, rest⟩ := Option.bind_eq_some_iff.mp he
        obtain ⟨rfl, rfl⟩ := create_unknown known created
        rcases unlessError_cases rest with rfl | ⟨fine, -⟩
        · exact Or.inr (.refl _)
        · exact nomatch fine
      · rcases condition.resolve_left known with plenty | bare
        · exact Or.inl (uploadLevels_plenty plenty known (Or.inl ⟨_, rfl⟩) he)
        · obtain ⟨⟨c1, error⟩, created, rest⟩ := Option.bind_eq_some_iff.mp he
          obtain ⟨same, failed⟩ := create_bare bare known created
          rcases unlessError_cases rest with rfl | ⟨fine, -⟩
          · exact Or.inr same
          · exact absurd fine failed

theorem texSubImage_clean {c : Context} {out : Outcome} {a : TexSubImage} {r : Context × GLenum}
    (clean : FailsCleanly c out (.texSubImage a)) (he : glTexSubImage2D c a out = some r) :
    r.2 = GL.noError ∨ AsBefore c r.1 := by
  rcases glTexSubImage2D_cases he with same | ⟨accepted, ⟨hw, hh⟩, object, fine, transferred⟩
  · rw [same]
    exact Or.inr (.refl c)
  · exact transfer_clean (clean accepted hw hh object transferred.1 fine) transferred.2

theorem copyTexSubImage_clean {c : Context} {out : Outcome} {a : CopyTexSubImage}
    {r : Context × GLenum} (clean : FailsCleanly c out (.copyTexSubImage a))
    (he : glCopyTexSubImage2D c a out = some r) : r.2 = GL.noError ∨ AsBefore c r.1 := by
  rcases glCopyTexSubImage2D_cases he with same | ⟨accepted, ⟨hw, hh⟩, object, fine, transferred⟩
  · rw [same]
    exact Or.inr (.refl c)
  · exact transfer_clean (clean accepted hw hh object transferred.1 fine) transferred.2

/-- An upload that meets the condition and records an error leaves every texture as it was. -/
theorem upload_errors_atomic (c : Context) (out : Outcome) (call : Upload)
    (clean : FailsCleanly c out call) {r : Context × GLenum} (he : upload c out call = some r)
    (error : r.2 ≠ GL.noError) : AsBefore c (r.1.record r.2) := by
  have same : r.2 = GL.noError ∨ AsBefore c r.1 := by
    cases call with
    | texImage a => exact texImage_clean clean he
    | texSubImage a => exact texSubImage_clean clean he
    | copyTexImage a => exact copyTexImage_clean clean he
    | copyTexSubImage a => exact copyTexSubImage_clean clean he
    | compressedTexImage a => exact compressedTexImage_clean clean he
  exact (same.resolve_left error).record r.2

private def image (level : Int) : TexImage :=
  { target := GL.texture2D, level := level, internalformat := GL.rgba, width := 2, height := 2,
    border := 0, format := GL.rgba, type := GL.unsignedByte, hasPixels := false }

private def granted : Outcome := ⟨true, fun _ => true, true, fun _ b => b⟩

private def refusedData : Outcome := ⟨true, fun _ => false, true, fun _ b => b⟩

private def unbased : Context :=
  { units :=
      { active := 0, tmu := fun _ => ⟨0, some 0, 0xFF⟩, defaultTexture := 0,
        tokenizer := Tokens.TokenManager.init, textures := fun _ => none,
        heap := fun object => if object = 0 then some {} else none, nextObject := 1,
        error := GL.noError }
    images := fun _ => {}, unpackAlignment := 4, colorBuffer := {} }

/-- A mipmap for a texture without an image is refused, and changes nothing. -/
theorem upload_errors_atomic_unbased :
    AsBefore unbased ((unbased.setImage 0 {}).record GL.outOfMemory) :=
  upload_errors_atomic unbased refusedData (.texImage (image 1))
    (r := (unbased.setImage 0 {}, GL.outOfMemory))
    (fun _ => Or.inl (Or.inr (Or.inr (Or.inl
      ⟨by decide, Or.inl fun _ _ => ⟨rfl, Or.inl rfl⟩⟩)))) rfl (by decide)

private def imaged : List Op := [.bindTexture GL.texture2D 1, .texImage (image 0) granted]

/-- When there is no memory for the new image of a named texture, the unit is left with an empty
texture in the place of the old one. -/
theorem failed_upload_unbinds :
    ¬∀ (c : Context) (out : Outcome) (call : Upload) (r : Context × GLenum),
      upload c out call = some r → r.2 ≠ GL.noError → AsBefore c (r.1.record r.2) := by
  intro all
  have before : ((run step oglesInitTexture imaged).map fun c => (c.units.tmu 0).texture) =
      some (some 2) := by decide +kernel
  have after : ((run step oglesInitTexture imaged).bind fun c =>
      (upload c refusedData (.texImage (image 0))).map fun r =>
        (r.2, (r.1.units.tmu 0).texture)) = some (GL.outOfMemory, some 3) := by decide +kernel
  obtain ⟨c, hc, bound⟩ := Option.map_eq_some_iff.mp before
  rw [hc, Option.bind_some] at after
  obtain ⟨r, result, facts⟩ := Option.map_eq_some_iff.mp after
  obtain ⟨error, rebound⟩ := Prod.mk.inj facts
  have kept := (all c refusedData _ r result (by rw [error]; decide)).bindings 0
  have same : (r.1.units.tmu 0).texture = (c.units.tmu 0).texture := kept.2
  rw [bound, rebound] at same
  exact absurd same (by decide)

end RabbitRender.Textures.UploadErrors
