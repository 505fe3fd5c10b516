/- RabbitRender/Textures/Coverage
   layer: results
   source: swrender/texture.cpp, swrender/TextureObjectManager.cpp, swrender/mipmap.cpp
   digest: When the block behind every texture surface is as large as the surface says. -/

import RabbitRender.Lib.GuardedRun
import RabbitRender.Textures.Uploads

set_option autoImplicit false

namespace RabbitRender.Textures.Coverage

open Fixed (wrap32 wrap32_mul_right)
open RabbitRender.GL (GLenum)
open Lib.GuardedRun Textures.Levels Textures.Uploads
open Textures.Units (ObjectId convertGLPixelFormat paletteFormat)

def CoversSurface (s : GGLSurface) : Prop :=
  ∀ p, s.data = some p → (s.height : Int) * s.stride * pixelSize s.format ≤ p.size

/-- Every surface of an object is covered, and `mSize` is the size of the level-0 block. -/
structure Covered (st : Storage) : Prop where
  base : CoversSurface st.surface
  mips : ∀ s ∈ st.levels, CoversSurface s
  recorded : st.mSize = (st.surface.data.map Pointer.size).getD 0

def Fits (r : Request) : Prop :=
  (uint32 r.height : Int) * r.stride * pixelSize r.format ≤ r.size

structure Good (st : Storage) : Prop where
  covered : Covered st
  tabled : Tabled st

theorem coversSurface_none {s : GGLSurface} (h : s.data = none) : CoversSurface s := by
  intro p hp
  rw [h] at hp
  exact nomatch hp

theorem good_empty : Good {} :=
  ⟨⟨coversSurface_none rfl, fun _ h => absurd h List.not_mem_nil, rfl⟩, fun _ h => (nomatch h)⟩

theorem numLods_surface (r : Request) (data : Option Pointer) :
    numLods (r.surface data) =
      31 - Fixed.gglClz (uint32 (max (wrap32 (uint32 r.width)) (wrap32 (uint32 r.height)))) := by
  unfold numLods Request.surface
  rfl

theorem coversSurface_request {r : Request} (fits : Fits r) {data : Option Pointer}
    (hdata : ∀ p, data = some p → p.size = r.size) : CoversSurface (r.surface data) := by
  intro p hp
  rw [hdata p hp]
  exact fits

variable {r : Context × GLenum} {st ready : Storage} {level : Nat} {width height : Int}
    {image : Image} {u v : Units.Context} {object : ObjectId} {P : Image → Prop} {c c' : Context}
    {format type error : GLenum} {out : Outcome} {a : TexImage}

theorem good_freeMipmaps (base : CoversSurface st.surface)
    (recorded : st.mSize = (st.surface.data.map Pointer.size).getD 0) : Good (freeMipmaps st) := by
  rw [freeMipmaps_eq]
  exact ⟨⟨base, fun _ h => absurd h List.not_mem_nil, recorded⟩, fun _ h => (nomatch h)⟩

theorem good_reallocateBase (h : Good st) {r : Request} (fits : Fits r) (succeeds : Bool) :
    Good (reallocateBase st r succeeds).1 := by
  unfold reallocateBase
  split
  · rename_i keeps
    rw [Storage.keeps, Bool.and_eq_true, decide_eq_true_eq] at keeps
    obtain ⟨size, present⟩ := keeps
    have recorded := h.covered.recorded
    apply good_freeMipmaps
    · apply coversSurface_request fits
      intro p hp
      rw [hp] at recorded
      exact (size.trans recorded).symm
    · exact recorded
  · rcases malloc_cases (freeBase st) r.size succeeds with failed | got
    · rw [failed]
      exact ⟨⟨coversSurface_none rfl, h.covered.mips, rfl⟩, h.tabled⟩
    · rw [got]
      apply good_freeMipmaps
      · apply coversSurface_request fits
        intro p hp
        obtain rfl := Option.some_inj.mp hp
        rfl
      · rfl

/-- A texture of at most one texel in each direction gets no table, and its levels are all the
level-0 surface. -/
def Shared (st : Storage) : Prop :=
  st.mMipmaps = none ∧ numLods st.surface ≤ 0 ∧ st.surface.data ≠ none

instance (st : Storage) : Decidable (Shared st) := inferInstanceAs (Decidable (_ ∧ _))

def Prepared (st ready : Storage) : Prop :=
  ready.mMipmaps ≠ none ∧
    (ready = st ∨ st.mMipmaps = none ∧ ∃ lods, 0 < lods ∧ ready = withTable st lods)

theorem reallocate_level (st : Storage) (hlevel : 0 < level) (r : Request) (mem : Memory)
    (apart : ¬Shared st) :
    reallocate st level r mem = (st, .noMemory) ∨
      ∃ ready, Prepared st ready ∧
        reallocate st level r mem = reallocateMip ready level r mem.data := by
  have nonzero : (level : Int) ≠ 0 := by omega
  unfold reallocate
  rw [if_neg nonzero]
  split_ifs with table
  · refine Or.inr ⟨st, ⟨fun none => ?_, Or.inl rfl⟩, rfl⟩
    rw [none] at table
    exact Bool.false_ne_true table
  · have none : st.mMipmaps = none := Option.not_isSome_iff_eq_none.mp table
    rcases allocateMipmaps_cases st mem.table with
      ⟨he, -⟩ | ⟨he, lods, data⟩ | he | ⟨lods, hlods, he⟩
    · rw [he]
      exact Or.inl rfl
    · exact absurd ⟨none, lods, data⟩ apart
    · rw [he]
      exact Or.inl rfl
    · rw [he]
      exact Or.inr ⟨_, ⟨Option.some_ne_none _, Or.inr ⟨none, lods, hlods, rfl⟩⟩, rfl⟩

theorem Prepared.tabled (h : Tabled st) (prepared : Prepared st ready) : Tabled ready := by
  obtain ⟨-, rfl | ⟨-, lods, hlods, rfl⟩⟩ := prepared
  · exact h
  · exact tabled_withTable st hlods

theorem Prepared.surface (prepared : Prepared st ready) : ready.surface = st.surface := by
  obtain ⟨-, rfl | ⟨-, lods, -, rfl⟩⟩ := prepared
  · rfl
  · rfl

theorem Prepared.good (h : Good st) (prepared : Prepared st ready) : Good ready := by
  have tabled := prepared.tabled h.tabled
  obtain ⟨-, rfl | ⟨-, lods, hlods, rfl⟩⟩ := prepared
  · exact h
  · refine ⟨⟨h.covered.base, fun s hs => ?_, h.covered.recorded⟩, tabled⟩
    obtain rfl := (List.mem_replicate.mp hs).2
    exact coversSurface_none rfl

theorem Prepared.slot (prepared : Prepared st ready) (hlevel : 0 < level) :
    ∃ i, ready.slot level = some i := by
  have positive : ¬(level : Int) ≤ 0 := by omega
  obtain ⟨table, htable⟩ := Option.ne_none_iff_exists'.mp prepared.1
  exact ⟨_, by rw [Storage.slot, if_neg positive, htable]; rfl⟩

theorem good_setMip (h : Good st) {level : Int} {i : Nat} (slot : st.slot level = some i)
    {s : GGLSurface} (hs : CoversSurface s) : Good (st.setMip level s) := by
  refine ⟨⟨?_, fun t ht => ?_, ?_⟩, tabled_setMip h.tabled level s⟩
  · simp only [Storage.setMip, slot]
    exact h.covered.base
  · obtain ⟨table, levels, htable, -⟩ := slot_some h.tabled slot
    have others := h.covered.mips
    simp only [Storage.setMip, slot, Storage.levels, htable, Option.map_some,
      Option.getD_some] at ht others
    rcases List.mem_or_eq_of_mem_set ht with old | rfl
    · exact others t old
    · exact hs
  · simp only [Storage.setMip, slot]
    exact h.covered.recorded

theorem Good.heap (h : Good st) (heap : Heap) (complete : Bool) :
    Good { st with mIsComplete := complete, heap := heap } :=
  ⟨⟨h.covered.base, h.covered.mips, h.covered.recorded⟩, h.tabled⟩

theorem good_reallocateMip (h : Good st) {level : Int} {i : Nat} (slot : st.slot level = some i)
    {r : Request} (fits : Fits r) (succeeds : Bool) :
    Good (reallocateMip st level r succeeds).1 := by
  rcases malloc_cases (free st.heap (st.mip level).data) r.size succeeds with failed | got
  · simp only [reallocateMip, failed]
    exact (good_setMip h slot (coversSurface_none rfl)).heap _ _
  · simp only [reallocateMip, got]
    have covers : CoversSurface (r.surface
        (some (.block (free st.heap (st.mip level).data).taken.length r.size))) := by
      apply coversSurface_request fits
      intro p hp
      obtain rfl := Option.some_inj.mp hp
      rfl
    exact (good_setMip h slot covers).heap _ _

theorem good_reallocate (h : Good st) (level : Nat) {r : Request} (fits : Fits r)
    (apart : 0 < level → ¬Shared st) (mem : Memory) : Good (reallocate st level r mem).1 := by
  rcases Nat.eq_zero_or_pos level with rfl | hlevel
  · exact good_reallocateBase h fits mem.data
  · rcases reallocate_level st hlevel r mem (apart hlevel) with he | ⟨ready, prepared, he⟩
    · rw [he]
      exact h
    · rw [he]
      obtain ⟨i, slot⟩ := prepared.slot hlevel
      exact good_reallocateMip (prepared.good h) slot fits mem.data

theorem apart_of_reallocate (hlevel : 0 < level) (r : Request) (mem : Memory) (apart : ¬Shared st)
    (status : (reallocate st level r mem).2 = .noError) :
    (reallocate st level r mem).1.mMipmaps ≠ none := by
  rcases reallocate_level st hlevel r mem apart with he | ⟨ready, prepared, he⟩
  · rw [he] at status
    exact nomatch status
  · rw [he]
    obtain ⟨i, slot⟩ := prepared.slot hlevel
    obtain ⟨table, htable⟩ := Option.ne_none_iff_exists'.mp prepared.1
    rcases malloc_cases (free ready.heap (ready.mip level).data) r.size mem.data with failed | got
    · simp [reallocateMip, failed, Storage.setMip, slot, htable]
    · simp [reallocateMip, got, Storage.setMip, slot, htable]

theorem mip_of_reallocate (h : Tabled st) (hlevel : 0 < level) (r : Request) (mem : Memory)
    (apart : ¬Shared st) (status : (reallocate st level r mem).2 = .noError) :
    ∃ data, (reallocate st level r mem).1.mip level = r.surface data := by
  rcases reallocate_level st hlevel r mem apart with he | ⟨ready, prepared, he⟩
  · rw [he] at status
    exact nomatch status
  · rw [he] at status ⊢
    rcases malloc_cases (free ready.heap (ready.mip level).data) r.size mem.data with failed | got
    · simp only [reallocateMip, failed] at status
      exact nomatch status
    · simp only [reallocateMip, got]
      exact ⟨_, mip_setMip (prepared.tabled h) level _⟩

theorem wrap32_eq {p : Int} (h0 : 0 ≤ p) (h : p < 2 ^ 32) :
    wrap32 p = if p < 2 ^ 31 then p else p - 2 ^ 32 := by
  unfold wrap32
  rw [Int.bmod_def]
  split_ifs <;> omega

/-- Below `2 ^ 32` bytes the wrapped size is never too small: it is exact, or it is a negative
`int` and so an enormous `size_t`. -/
theorem le_sizeT {p : Int} (h0 : 0 ≤ p) (h : p < 2 ^ 32) : p ≤ sizeT (wrap32 p) := by
  rw [wrap32_eq h0 h, sizeT]
  split_ifs <;> omega

theorem uint32_le {x : Int} (h : 0 ≤ x) : (uint32 x : Int) ≤ x := by
  unfold uint32
  omega

/-- The condition on an image: neither its rows nor its rows times its height leave 32 bits. -/
def Bounded (alignment formatIdx : Nat) (width height : Int) : Prop :=
  width * pixelSize formatIdx + (alignment - 1 : Nat) < 2 ^ 31 ∧
    rowBytes width (pixelSize formatIdx) alignment * height < 2 ^ 32

instance (alignment formatIdx : Nat) (width height : Int) :
    Decidable (Bounded alignment formatIdx width height) :=
  inferInstanceAs (Decidable (_ ∧ _))

theorem rowBytes_nonneg {size alignment : Nat} (hw : 0 ≤ width)
    (h : width * size + (alignment - 1 : Nat) < 2 ^ 31) : 0 ≤ rowBytes width size alignment := by
  have product : 0 ≤ width * size := Int.mul_nonneg hw (Int.natCast_nonneg _)
  unfold rowBytes
  rw [wrap32_eq (by omega) (by omega), if_pos h]
  apply Int.mul_nonneg (Int.natCast_nonneg _)
  apply Int.ediv_nonneg _ (Int.natCast_nonneg _)
  omega

theorem fits_imageRequest {alignment formatIdx : Nat} (hw : 0 ≤ width) (hh : 0 ≤ height)
    (h : Bounded alignment formatIdx width height) :
    Fits (imageRequest alignment formatIdx width height) := by
  have row := rowBytes_nonneg hw h.1
  have total := h.2
  set bpr := rowBytes width (pixelSize formatIdx) alignment with hbpr
  have texels : Int.tdiv bpr (pixelSize formatIdx) * pixelSize formatIdx ≤ bpr := by
    rw [Int.tdiv_eq_ediv_of_nonneg row]
    rcases Nat.eq_zero_or_pos (pixelSize formatIdx) with zero | positive
    · rw [zero]
      calc bpr / ((0 : Nat) : Int) * ((0 : Nat) : Int) = 0 := Int.mul_zero _
        _ ≤ bpr := row
    · apply Int.ediv_mul_le
      omega
  have enough : height * bpr ≤ sizeT (wrap32 (height * bpr)) := by
    apply le_sizeT (Int.mul_nonneg hh row)
    rw [Int.mul_comm]
    exact total
  have rows : (uint32 height : Int) * (Int.tdiv bpr (pixelSize formatIdx) * pixelSize formatIdx) ≤
      height * bpr := by
    calc (uint32 height : Int) * (Int.tdiv bpr (pixelSize formatIdx) * pixelSize formatIdx)
        ≤ (uint32 height : Int) * bpr :=
          Int.mul_le_mul_of_nonneg_left texels (Int.natCast_nonneg _)
      _ ≤ height * bpr := Int.mul_le_mul_of_nonneg_right (uint32_le hh) row
  unfold Fits
  rw [Int.mul_assoc]
  exact rows.trans enough

theorem fits_levelRequest {base : GGLSurface} {w h : Nat}
    (small : w * h * pixelSize base.format < 2 ^ 32) :
    Fits (levelRequest (pixelSize base.format) base w h) := by
  have same : (h : Int) * (w * pixelSize base.format) = (w * h * pixelSize base.format : Nat) := by
    push_cast
    rw [Int.mul_left_comm, ← Int.mul_assoc]
  have enough : (h : Int) * (w * pixelSize base.format) ≤
      sizeT (wrap32 ((h : Int) * (w * pixelSize base.format))) := by
    apply le_sizeT <;> omega
  have rows : (uint32 h : Int) * (w * pixelSize base.format) ≤ h * (w * pixelSize base.format) := by
    apply Int.mul_le_mul_of_nonneg_right (uint32_le (Int.natCast_nonneg h))
    exact Int.mul_nonneg (Int.natCast_nonneg _) (Int.natCast_nonneg _)
  unfold Fits Request.size levelRequest
  dsimp only
  rw [wrap32_mul_right, Int.mul_assoc]
  exact rows.trans enough

@[simp] theorem paint_storage (image : Image) (level : Nat) (copy : Bytes → Bytes) :
    (image.paint level copy).storage = image.storage := by
  unfold Image.paint
  split <;> rfl

theorem halve_pos (extent : Nat) : 0 < halve extent := by
  unfold halve
  split_ifs <;> omega

theorem halve_le {extent : Nat} (h : 0 < extent) : halve extent ≤ extent := by
  unfold halve
  split_ifs <;> omega

theorem good_buildLevels {size : Nat} (out : Outcome) (rounds : Nat) {base : GGLSurface} {w h : Nat}
    (good : Good image.storage) (apart : ¬Shared image.storage) (hlevel : 0 < level) (hw : 0 < w)
    (hh : 0 < h) (hsize : pixelSize base.format = size) (small : w * h * size < 2 ^ 32) :
    Good (buildLevels size out base rounds image level w h).1.storage := by
  induction rounds generalizing base image level w h with
  | zero => exact good
  | succ rounds ih =>
    subst hsize
    have next :=
      good_reallocate good level (fits_levelRequest small) (fun _ => apart) (out.memory level)
    have table := apart_of_reallocate hlevel
      (levelRequest (pixelSize base.format) base w h) (out.memory level) apart
    have described := mip_of_reallocate good.tabled hlevel
      (levelRequest (pixelSize base.format) base w h) (out.memory level) apart
    rw [buildLevels]
    cases result : reallocate image.storage level
        (levelRequest (pixelSize base.format) base w h) (out.memory level) with
    | mk storage status =>
      rw [result] at next
      cases status with
      | noError =>
        dsimp only
        split_ifs
        · rw [paint_storage]
          exact next
        · have allocated := table (by rw [result])
          obtain ⟨data, mip⟩ := described (by rw [result])
          rw [result] at allocated mip
          have format : (storage.mip level).format = base.format := by
            rw [mip]
            rfl
          apply ih
          · rw [paint_storage]
            exact next
          · rw [paint_storage]
            exact fun shared => allocated shared.1
          · omega
          · exact halve_pos w
          · exact halve_pos h
          · rw [format]
          · have smaller : halve w * halve h ≤ w * h :=
              Nat.mul_le_mul (halve_le hw) (halve_le hh)
            exact Nat.lt_of_le_of_lt (Nat.mul_le_mul_right _ smaller) small
        · exact next
      | noInit => exact next
      | noMemory => exact next
      | badType => exact next

/-- The condition on generating mipmaps: a base of more than one texel in some direction, whose
first level takes less than `2 ^ 32` bytes. -/
def PyramidSafe (base : GGLSurface) : Prop :=
  base.width &&& base.height = 1 ∨
    0 < numLods base ∧ halve base.width * halve base.height * pixelSize base.format < 2 ^ 32

instance (base : GGLSurface) : Decidable (PyramidSafe base) :=
  inferInstanceAs (Decidable (_ ∨ _ ∧ _))

theorem good_buildAPyramid (good : Good image.storage) (safe : PyramidSafe image.storage.surface)
    (out : Outcome) : Good (buildAPyramid image out).1.storage := by
  unfold buildAPyramid
  dsimp only
  split_ifs with one
  · exact good
  · obtain ⟨lods, small⟩ := safe.resolve_left one
    apply good_buildLevels out 32 good
    · intro shared
      have none := shared.2.1
      omega
    · exact Nat.one_pos
    · exact halve_pos _
    · exact halve_pos _
    · rfl
    · exact small

theorem releaseUnit_active {i : Fin 2} (h : Units.releaseUnit u i = some v) :
    v.active = u.active := by
  unfold Units.releaseUnit at h
  split at h
  · obtain rfl := Option.some_inj.mp h
    rfl
  · unfold Units.decStrong at h
    split at h
    · exact nomatch h
    · obtain rfl := Option.some_inj.mp h
      rfl

theorem invalidateDefault_active (u : Units.Context) :
    (Units.invalidateDefault u).active = u.active := by
  have one (v : Units.Context) (i : Fin 2) :
      (if (v.tmu i).texture = some v.defaultTexture then Units.invalidateTexture v i
        else v).active = v.active := by
    split_ifs <;> rfl
  exact (one _ 1).trans (one u 0)

theorem replaceTexture_active {name : UInt32} {tex : Option ObjectId}
    (h : Units.replaceTexture u name = some (v, tex)) : v.active = u.active := by
  unfold Units.replaceTexture at h
  split at h
  · obtain ⟨rfl, -⟩ := Prod.mk.inj (Option.some_inj.mp h)
    rfl
  · split at h
    · exact nomatch h
    · split_ifs at h
      all_goals
        obtain ⟨rfl, -⟩ := Prod.mk.inj (Option.some_inj.mp h)
        rfl

theorem getAndBind_bound (h : Units.getAndBindActiveTextureObject u = some (v, object)) :
    ((Units.unitIndex v.active).bind fun i => (v.tmu i).texture) = some object := by
  unfold Units.getAndBindActiveTextureObject at h
  obtain ⟨i, active, h⟩ := Option.bind_eq_some_iff.mp h
  obtain ⟨released, hreleased, h⟩ := Option.bind_eq_some_iff.mp h
  obtain ⟨⟨chosen, tex⟩, found, h⟩ := Option.bind_eq_some_iff.mp h
  obtain ⟨object', rfl, h⟩ := Option.bind_eq_some_iff.mp h
  obtain ⟨attached, hattached, h⟩ := Option.map_eq_some_iff.mp h
  obtain ⟨rfl, rfl⟩ := Prod.mk.inj h
  have same : chosen.active = u.active := by
    split_ifs at found
    · obtain ⟨rfl, -⟩ := Prod.mk.inj (Option.some_inj.mp found)
      rw [invalidateDefault_active, releaseUnit_active hreleased]
    · rw [replaceTexture_active found, releaseUnit_active hreleased]
  obtain ⟨counted, hcounted, rfl⟩ := Option.map_eq_some_iff.mp hattached
  have kept : counted.active = chosen.active := by
    unfold Units.incStrong at hcounted
    split at hcounted
    · exact nomatch hcounted
    · obtain rfl := Option.some_inj.mp hcounted
      rfl
  dsimp only
  rw [kept, same, active, Option.bind_some, Function.update_self]

def AllGood (c : Context) : Prop := ∀ object, Good (c.images object).storage

theorem images_setImage (h : ∀ object, P (c.images object)) (object : ObjectId) (hp : P image) :
    ∀ other, P ((c.setImage object image).images other) := by
  intro other
  rw [Context.setImage]
  dsimp only
  by_cases same : other = object
  · subst same
    rw [Function.update_self]
    exact hp
  · rw [Function.update_of_ne same]
    exact h other

theorem images_withUnits (h : ∀ object, P (c.images object)) (hp : P {}) (units : Units.Context) :
    ∀ object, P ((c.withUnits units).images object) := by
  intro object
  rw [Context.withUnits]
  dsimp only
  split_ifs
  · exact h object
  · exact hp

theorem AllGood.setImage (h : AllGood c) (object : ObjectId) (good : Good image.storage) :
    AllGood (c.setImage object image) := by
  intro other
  apply images_setImage (P := fun image => Good image.storage) h object good

theorem AllGood.withUnits (h : AllGood c) (units : Units.Context) :
    AllGood (c.withUnits units) :=
  images_withUnits (P := fun image => Good image.storage) h good_empty units

theorem AllGood.of_images (h : AllGood c) (same : c'.images = c.images) : AllGood c' := by
  intro object
  rw [same]
  exact h object

@[simp] theorem setImage_images_self (c : Context) (object : ObjectId) (image : Image) :
    (c.setImage object image).images object = image :=
  Function.update_self ..

theorem setInternalformat_parameters (c : Context) (object : ObjectId) (format : GLenum) :
    ((c.setInternalformat object format).parameters object).generateMipmap =
      (c.parameters object).generateMipmap := by
  unfold Context.setInternalformat Context.parameters
  dsimp only
  rw [Function.update_self]
  cases c.units.heap object <;> rfl

theorem create_unknown (unknown : convertGLPixelFormat format type = 0)
    (h : createTextureSurface c level format type width height out = some (c', error)) :
    c' = c ∧ error = GL.invalidOperation := by
  unfold createTextureSurface at h
  dsimp only at h
  rw [if_pos unknown] at h
  obtain ⟨rfl, rfl⟩ := Prod.mk.inj (Option.some_inj.mp h)
  exact ⟨rfl, rfl⟩

theorem create_base (known : convertGLPixelFormat format type ≠ 0)
    (h : createTextureSurface c 0 format type width height out = some (c', error)) :
    ∃ units object,
      Units.getAndBindActiveTextureObject c.units = some (units, object) ∧
      c'.boundObject = some object ∧
      c'.unpackAlignment = c.unpackAlignment ∧
      (c'.parameters object).generateMipmap = ((units.heap object).getD {}).generateMipmap ∧
      let image := (c.withUnits units).images object
      let result := reallocate image.storage 0
        (imageRequest c.unpackAlignment (convertGLPixelFormat format type) width height)
        (out.memory 0)
      c'.images =
        ((c.withUnits units).setImage object { image with storage := result.1 }).images ∧
      (error = GL.noError ↔ result.2 = .noError) := by
  unfold createTextureSurface at h
  dsimp only at h
  rw [if_neg known, if_neg (Nat.lt_irrefl 0)] at h
  obtain ⟨⟨units, object⟩, bound, h⟩ := Option.map_eq_some_iff.mp h
  have active := getAndBind_bound bound
  refine ⟨units, object, bound, ?_⟩
  dsimp only at h ⊢
  generalize reallocate ((c.withUnits units).images object).storage ((0 : Nat) : Int)
    (imageRequest c.unpackAlignment (convertGLPixelFormat format type) width height)
    (out.memory 0) = result at h ⊢
  split_ifs at h with status
  · obtain ⟨rfl, rfl⟩ := Prod.mk.inj h
    refine ⟨active, rfl, ?_, rfl, fun _ => status, fun _ => rfl⟩
    rw [setInternalformat_parameters]
    rfl
  · obtain ⟨rfl, rfl⟩ := Prod.mk.inj h
    exact ⟨active, rfl, rfl, rfl, fun none => (nomatch none), fun done => absurd done status⟩

theorem create_level (hlevel : 0 < level) (known : convertGLPixelFormat format type ≠ 0)
    (h : createTextureSurface c level format type width height out = some (c', error)) :
    ∃ object,
      c.boundObject = some object ∧
      let image := c.images object
      let result := reallocate image.storage level
        (imageRequest c.unpackAlignment (convertGLPixelFormat format type) width height)
        (out.memory level)
      c' = c.setImage object { image with storage := result.1 } ∧
      (error = GL.noError ↔ result.2 = .noError) := by
  unfold createTextureSurface at h
  dsimp only at h
  rw [if_neg known, if_pos hlevel] at h
  obtain ⟨object, bound, h⟩ := Option.map_eq_some_iff.mp h
  refine ⟨object, bound, ?_⟩
  dsimp only at h ⊢
  obtain ⟨rfl, herror⟩ := Prod.mk.inj h
  refine ⟨rfl, fun none => ?_, fun done => ?_⟩
  · by_contra status
    rw [if_neg status] at herror
    rw [none] at herror
    exact nomatch herror
  · rw [if_pos done] at herror
    exact herror.symm

theorem surface_of_base {r : Request} {mem : Memory} (status : (reallocate st 0 r mem).2 = .noError) :
    ∃ data, (reallocate st 0 r mem).1.surface = r.surface data := by
  change ∃ data, (reallocateBase st r mem.data).1.surface = r.surface data
  change (reallocateBase st r mem.data).2 = .noError at status
  unfold reallocateBase at status ⊢
  split_ifs with keeps
  · exact ⟨_, freeMipmaps_surface _⟩
  · rw [if_neg keeps] at status
    rcases malloc_cases (freeBase st) r.size mem.data with failed | got
    · rw [failed] at status
      exact nomatch status
    · rw [got]
      exact ⟨_, freeMipmaps_surface _⟩

def GeneratesSafely (c : Context) (level : Nat) : Prop :=
  ∀ object ∈ c.boundObject, level = 0 → (c.parameters object).generateMipmap ≠ 0 →
    PyramidSafe (c.images object).storage.surface

instance (c : Context) (level : Nat) : Decidable (GeneratesSafely c level) :=
  inferInstanceAs (Decidable (∀ object ∈ c.boundObject, _ → _ → _))

/-- The condition on an image that is uploaded into a level: its size does not leave 32 bits; below
the base, the bound texture is not of at most one texel; at the base, the mipmaps that are
generated from it are safe. -/
def ImageSafe (c : Context) (level : Nat) (format type : GLenum) (width height : Int)
    (generates : Bool) : Prop :=
  let formatIdx := convertGLPixelFormat format type
  formatIdx ≠ 0 →
    Bounded c.unpackAlignment formatIdx width height ∧
    (0 < level → ∀ object ∈ c.boundObject, ¬Shared (c.images object).storage) ∧
    (level = 0 → generates = true →
      ∀ bound ∈ Units.getAndBindActiveTextureObject c.units,
        ((bound.1.heap bound.2).getD {}).generateMipmap ≠ 0 →
          PyramidSafe ((imageRequest c.unpackAlignment formatIdx width height).surface none))

instance (c : Context) (level : Nat) (format type : GLenum) (width height : Int)
    (generates : Bool) : Decidable (ImageSafe c level format type width height generates) :=
  inferInstanceAs (Decidable (_ → _ ∧ (_ → ∀ object ∈ c.boundObject, _) ∧
    (_ → _ → ∀ bound ∈ Units.getAndBindActiveTextureObject c.units, _ → _)))

theorem base_created (h : AllGood c) (known : convertGLPixelFormat format type ≠ 0) (hw : 0 ≤ width)
    (hh : 0 ≤ height)
    (bounded : Bounded c.unpackAlignment (convertGLPixelFormat format type) width height)
    (he : createTextureSurface c 0 format type width height out = some (c', error)) :
    AllGood c' ∧ c'.unpackAlignment = c.unpackAlignment ∧
      ∃ units object,
        Units.getAndBindActiveTextureObject c.units = some (units, object) ∧
        c'.boundObject = some object ∧
        (c'.parameters object).generateMipmap = ((units.heap object).getD {}).generateMipmap ∧
        (error = GL.noError → ∃ data, (c'.images object).storage.surface =
          (imageRequest c.unpackAlignment (convertGLPixelFormat format type) width height).surface
            data) := by
  have fits := fits_imageRequest hw hh bounded
  obtain ⟨units, object, bound, active, alignment, generate, images, status⟩ :=
    create_base known he
  refine ⟨?_, alignment, units, object, bound, active, generate, fun none => ?_⟩
  · have before := h.withUnits units
    apply AllGood.of_images _ images
    apply before.setImage
    exact good_reallocate (before object) 0 fits (fun none => absurd none (Nat.lt_irrefl 0)) _
  · rw [images, setImage_images_self]
    exact surface_of_base (status.mp none)

theorem allGood_create (h : AllGood c) {generates : Bool} (hw : 0 ≤ width) (hh : 0 ≤ height)
    (safe : ImageSafe c level format type width height generates)
    (he : createTextureSurface c level format type width height out = some (c', error)) :
    AllGood c' ∧ (error = GL.noError → generates = true → GeneratesSafely c' level) := by
  by_cases known : convertGLPixelFormat format type = 0
  · obtain ⟨rfl, rfl⟩ := create_unknown known he
    exact ⟨h, fun none => nomatch none⟩
  · obtain ⟨bounded, apart, pyramid⟩ := safe known
    rcases Nat.eq_zero_or_pos level with rfl | hlevel
    · obtain ⟨good, -, units, object, bound, active, generate, surface⟩ :=
        base_created h known hw hh bounded he
      refine ⟨good, fun none wanted other hother _ asks => ?_⟩
      rw [active] at hother
      obtain rfl := Option.some_inj.mp hother
      rw [generate] at asks
      obtain ⟨data, described⟩ := surface none
      rw [described]
      exact pyramid rfl wanted (units, object) bound asks
    · obtain ⟨object, bound, rfl, -⟩ := create_level hlevel known he
      constructor
      · apply h.setImage
        exact good_reallocate (h object) level (fits_imageRequest hw hh bounded)
          (fun _ => apart hlevel object bound) _
      · intro _ _ _ _ zero
        exact absurd zero (Nat.pos_iff_ne_zero.mp hlevel)

theorem copyPixels_keeps (c : Context) (object : ObjectId) (level : Nat) (direct : Bool)
    (out : Outcome) :
    (∀ other, ((copyPixels c object level direct out).1.images other).storage =
        (c.images other).storage) ∧
      (copyPixels c object level direct out).1.units = c.units := by
  unfold copyPixels
  split_ifs
  · refine ⟨fun other => ?_, rfl⟩
    by_cases same : other = object
    · subst same
      rw [setImage_images_self, paint_storage]
    · unfold Context.setImage
      dsimp only
      rw [Function.update_of_ne same]
  · exact ⟨fun _ => rfl, rfl⟩

theorem AllGood.copyPixels (h : AllGood c) (object : ObjectId) (level : Nat) (direct : Bool)
    (out : Outcome) : AllGood (copyPixels c object level direct out).1 := by
  intro other
  rw [(copyPixels_keeps c object level direct out).1 other]
  exact h other

theorem GeneratesSafely.copyPixels (h : GeneratesSafely c level) (object : ObjectId) (target : Nat)
    (direct : Bool) (out : Outcome) :
    GeneratesSafely (copyPixels c object target direct out).1 level := by
  obtain ⟨storage, units⟩ := copyPixels_keeps c object target direct out
  intro other hother zero asks
  rw [storage other]
  unfold Context.boundObject at hother
  unfold Context.parameters at asks
  rw [units] at hother asks
  exact h other hother zero asks

theorem boundObject_copyPixels (c : Context) (object : ObjectId) (level : Nat) (direct : Bool)
    (out : Outcome) : (copyPixels c object level direct out).1.boundObject = c.boundObject := by
  unfold Context.boundObject
  rw [(copyPixels_keeps c object level direct out).2]

theorem AllGood.generateMipmap (h : AllGood c) (safe : GeneratesSafely c level)
    (bound : c.boundObject = some object) (out : Outcome) :
    AllGood (generateMipmap c object level out).1 := by
  unfold Uploads.generateMipmap
  split_ifs with asks
  · apply h.setImage
    exact good_buildAPyramid (h object) (safe object bound asks.1 asks.2) out
  · exact h

theorem unlessError_cases {next : Context → Option (Context × GLenum)} {r' : Context × GLenum}
    (h : unlessError r next = some r') : r' = r ∨ r.2 = GL.noError ∧ next r.1 = some r' := by
  unfold unlessError at h
  split_ifs at h with error
  · exact Or.inl (Option.some_inj.mp h).symm
  · exact Or.inr ⟨not_not.mp error, h⟩

/-- The pixels of a call are transferred into a level of the bound object, and its mipmaps are
generated. -/
def Transfers (c : Context) (object : ObjectId) (level : Nat) (direct : Bool) (out : Outcome)
    (r : Context × GLenum) : Prop :=
  c.boundObject = some object ∧
    (unlessError (copyPixels c object level direct out) fun c =>
      some (generateMipmap c object level out)) = some r

theorem Transfers.cases {direct : Bool} (h : Transfers c object level direct out r) :
    let copied := copyPixels c object level direct out
    r = copied ∨ r = Uploads.generateMipmap copied.1 object level out := by
  rcases unlessError_cases h.2 with rfl | ⟨-, rest⟩
  · exact .inl rfl
  · exact .inr (Option.some_inj.mp rest).symm

theorem glTexImage2D_cases (he : glTexImage2D c a out = some r) :
    r.1 = c ∨ a.reject = GL.noError ∧ ∃ made,
      createTextureSurface c a.level.toNat a.format a.type a.width a.height out = some made ∧
      (r = made ∨ made.2 = GL.noError ∧ a.hasPixels = true ∧
        ∃ object direct, Transfers made.1 object a.level.toNat direct out r ∧
          direct = samePixels ((made.1.images object).storage.mip a.level.toNat) 0 0
            ((imageRequest made.1.unpackAlignment (convertGLPixelFormat a.format a.type) a.width
              a.height).surface none) 0 0) := by
  unfold glTexImage2D at he
  by_cases refused : a.reject ≠ GL.noError
  · rw [if_pos refused] at he
    obtain rfl := Option.some_inj.mp he
    exact .inl rfl
  · rw [if_neg refused] at he
    obtain ⟨made, created, rest⟩ := Option.bind_eq_some_iff.mp he
    refine .inr ⟨not_not.mp refused, made, created, ?_⟩
    rcases unlessError_cases rest with rfl | ⟨none, rest⟩
    · exact .inl rfl
    · split_ifs at rest with pixels
      · obtain ⟨object, bound, rest⟩ := Option.bind_eq_some_iff.mp rest
        exact .inr ⟨none, pixels, object, _, ⟨bound, rest⟩, rfl⟩
      · obtain rfl := Option.some_inj.mp rest
        exact .inl (Prod.ext rfl none.symm)

theorem glCopyTexImage2D_cases {a : CopyTexImage} (he : glCopyTexImage2D c a out = some r) :
    let b := a.from c.colorBuffer.format
    r.1 = c ∨ b.reject = GL.noError ∧ ∃ made,
      createTextureSurface c a.level.toNat b.format b.type a.width a.height out = some made ∧
      (r = made ∨ made.2 = GL.noError ∧ ∃ object direct, made.1.boundObject = some object ∧
        direct = matchesBuffer made.1 object a.level.toNat 0 0 a.x a.y a.height ∧
        let copied := copyPixels made.1 object a.level.toNat direct out
        let generated := generateMipmap copied.1 object a.level.toNat out
        r = (generated.1, if copied.2 ≠ GL.noError then copied.2 else generated.2)) := by
  intro b
  unfold glCopyTexImage2D at he
  by_cases refused : b.reject ≠ GL.noError
  · rw [if_pos refused] at he
    obtain rfl := Option.some_inj.mp he
    exact .inl rfl
  · rw [if_neg refused] at he
    obtain ⟨made, created, rest⟩ := Option.bind_eq_some_iff.mp he
    refine .inr ⟨not_not.mp refused, made, created, ?_⟩
    rcases unlessError_cases rest with rfl | ⟨none, rest⟩
    · exact .inl rfl
    · obtain ⟨object, bound, rfl⟩ := Option.map_eq_some_iff.mp rest
      exact .inr ⟨none, object, _, bound, rfl, rfl⟩

theorem glTexSubImage2D_cases {a : TexSubImage} (he : glTexSubImage2D c a out = some r) :
    r.1 = c ∨ a.reject = GL.noError ∧ (a.width ≠ 0 ∧ a.height ≠ 0) ∧ ∃ object,
      a.refuse (c.parameters object) ((c.images object).storage.mip a.level.toNat) = GL.noError ∧
      Transfers c object a.level.toNat (a.matching c object) out r := by
  unfold glTexSubImage2D at he
  by_cases refused : a.reject ≠ GL.noError
  · rw [if_pos refused] at he
    obtain rfl := Option.some_inj.mp he
    exact .inl rfl
  · rw [if_neg refused] at he
    obtain ⟨object, bound, rest⟩ := Option.bind_eq_some_iff.mp he
    dsimp only at rest
    split_ifs at rest with error empty unknown
    · obtain rfl := Option.some_inj.mp rest
      exact .inl rfl
    · obtain rfl := Option.some_inj.mp rest
      exact .inl rfl
    · obtain rfl := Option.some_inj.mp rest
      exact .inl rfl
    · exact .inr ⟨not_not.mp refused, not_or.mp empty, object, not_not.mp error, bound, rest⟩

theorem glCopyTexSubImage2D_cases {a : CopyTexSubImage} (he : glCopyTexSubImage2D c a out = some r) :
    r.1 = c ∨ a.reject = GL.noError ∧ (a.width ≠ 0 ∧ a.height ≠ 0) ∧ ∃ object,
      a.refuse (c.parameters object) ((c.images object).storage.mip a.level.toNat) = GL.noError ∧
      Transfers c object a.level.toNat (a.matching c object) out r := by
  unfold glCopyTexSubImage2D at he
  split_ifs at he with refused empty
  · obtain rfl := Option.some_inj.mp he
    exact .inl rfl
  · obtain rfl := Option.some_inj.mp he
    exact .inl rfl
  · obtain ⟨object, bound, rest⟩ := Option.bind_eq_some_iff.mp he
    dsimp only at rest
    split_ifs at rest with error
    · obtain rfl := Option.some_inj.mp rest
      exact .inl rfl
    · exact .inr ⟨not_not.mp refused, not_or.mp empty, object, not_not.mp error, bound, rest⟩

theorem glCompressedTexImage2D_cases {a : Units.CompressedTexImage}
    (he : glCompressedTexImage2D c a out = some r) :
    r.1 = c ∨
      a.reject = GL.noError ∧ ¬a.empty ∧ ∃ format type,
        paletteFormat a.internalformat = some (format, type) ∧
        uploadLevels c format type a.width.toNat a.height.toNat out (List.range a.numLevels) =
          some r := by
  unfold glCompressedTexImage2D at he
  split_ifs at he with refused empty
  · obtain rfl := Option.some_inj.mp he
    exact .inl rfl
  · obtain rfl := Option.some_inj.mp he
    exact .inl rfl
  · cases palette : paletteFormat a.internalformat with
    | none =>
      rw [palette] at he
      obtain rfl := Option.some_inj.mp he
      exact .inl rfl
    | some p =>
      obtain ⟨format, type⟩ := p
      rw [palette] at he
      exact .inr ⟨not_not.mp refused, empty, format, type, rfl, he⟩

theorem texImage_extents (h : a.reject = GL.noError) : 0 ≤ a.width ∧ 0 ≤ a.height := by
  unfold Units.TexImage.reject at h
  split_ifs at h with target extents
  · exact nomatch h
  · exact nomatch h
  · exact nomatch h
  · omega

theorem copyTexImage_extents {a : Units.CopyTexImage} (h : a.reject = GL.noError) :
    0 ≤ a.width ∧ 0 ≤ a.height := by
  unfold Units.CopyTexImage.reject at h
  split_ifs at h with target format extents
  · exact nomatch h
  · exact nomatch h
  · exact nomatch h
  · exact nomatch h
  · omega

theorem AllGood.transfers (h : AllGood c) {direct : Bool} (ready : GeneratesSafely c level)
    (he : Transfers c object level direct out r) : AllGood r.1 := by
  have copied := h.copyPixels object level direct out
  rcases he.cases with rfl | rfl
  · exact copied
  · apply copied.generateMipmap (ready.copyPixels _ _ _ _)
    rw [boundObject_copyPixels]
    exact he.1

theorem allGood_glTexImage2D (h : AllGood c)
    (safe : a.reject = GL.noError →
      ImageSafe c a.level.toNat a.format a.type a.width a.height a.hasPixels)
    (he : glTexImage2D c a out = some r) : AllGood r.1 := by
  rcases glTexImage2D_cases he with same | ⟨accepted, made, created, rest⟩
  · rw [same]
    exact h
  · obtain ⟨hw, hh⟩ := texImage_extents accepted
    obtain ⟨good, ready⟩ := allGood_create h hw hh (safe accepted) created
    rcases rest with rfl | ⟨none, pixels, object, direct, transferred, -⟩
    · exact good
    · exact good.transfers (ready none pixels) transferred

theorem allGood_glCopyTexImage2D (h : AllGood c) {a : CopyTexImage}
    (safe : (a.from c.colorBuffer.format).reject = GL.noError →
      ImageSafe c a.level.toNat (a.from c.colorBuffer.format).format
        (a.from c.colorBuffer.format).type a.width a.height true)
    (he : glCopyTexImage2D c a out = some r) : AllGood r.1 := by
  rcases glCopyTexImage2D_cases he with same | ⟨accepted, made, created, rest⟩
  · rw [same]
    exact h
  · obtain ⟨hw, hh⟩ := copyTexImage_extents accepted
    obtain ⟨good, ready⟩ := allGood_create h hw hh (safe accepted) created
    rcases rest with rfl | ⟨none, object, direct, bound, -, rfl⟩
    · exact good
    · have copied := (ready none rfl).copyPixels object a.level.toNat
      apply (good.copyPixels _ _ _ _).generateMipmap (copied _ _)
      rw [boundObject_copyPixels]
      exact bound

/-- The condition on a change of a part of a level: the mipmaps that are generated again are
safe. -/
def SubImageSafe (c : Context) (level : Nat) (refuse : Units.TextureObject → GGLSurface → GLenum) :
    Prop :=
  ∀ object ∈ c.boundObject,
    refuse (c.parameters object) ((c.images object).storage.mip level) = GL.noError →
      GeneratesSafely c level

instance (c : Context) (level : Nat) (refuse : Units.TextureObject → GGLSurface → GLenum) :
    Decidable (SubImageSafe c level refuse) :=
  inferInstanceAs (Decidable (∀ object ∈ c.boundObject, _ → _))

theorem allGood_glTexSubImage2D (h : AllGood c) {a : TexSubImage}
    (safe : a.reject = GL.noError → a.width ≠ 0 → a.height ≠ 0 →
      SubImageSafe c a.level.toNat a.refuse) (he : glTexSubImage2D c a out = some r) :
    AllGood r.1 := by
  rcases glTexSubImage2D_cases he with same | ⟨accepted, ⟨hw, hh⟩, object, fine, transferred⟩
  · rw [same]
    exact h
  · exact h.transfers (safe accepted hw hh object transferred.1 fine) transferred

theorem allGood_glCopyTexSubImage2D (h : AllGood c) {a : CopyTexSubImage}
    (safe : a.reject = GL.noError → a.width ≠ 0 → a.height ≠ 0 →
      SubImageSafe c a.level.toNat a.refuse) (he : glCopyTexSubImage2D c a out = some r) :
    AllGood r.1 := by
  rcases glCopyTexSubImage2D_cases he with same | ⟨accepted, ⟨hw, hh⟩, object, fine, transferred⟩
  · rw [same]
    exact h
  · exact h.transfers (safe accepted hw hh object transferred.1 fine) transferred

/-- The condition on an image with several levels: no size leaves 32 bits, and with levels below
the base the image is of more than one texel. -/
def LevelsSafe (c : Context) (format type : GLenum) (width height numLevels : Nat) : Prop :=
  let formatIdx := convertGLPixelFormat format type
  formatIdx ≠ 0 →
    (∀ level < numLevels, Bounded c.unpackAlignment formatIdx (lodExtent width level)
      (lodExtent height level)) ∧
    (1 < numLevels → 0 < numLods
      ((imageRequest c.unpackAlignment formatIdx (lodExtent width 0)
        (lodExtent height 0)).surface none))

instance (c : Context) (format type : GLenum) (width height numLevels : Nat) :
    Decidable (LevelsSafe c format type width height numLevels) :=
  inferInstanceAs (Decidable (_ → (∀ level < numLevels, _) ∧ _))

theorem allGood_uploadLevels {width height : Nat} (known : convertGLPixelFormat format type ≠ 0)
    {levels : List Nat} (h : AllGood c) (positive : ∀ level ∈ levels, 0 < level)
    (bounded : ∀ level ∈ levels, Bounded c.unpackAlignment (convertGLPixelFormat format type)
      (lodExtent width level) (lodExtent height level))
    (apart : levels ≠ [] → ∀ object ∈ c.boundObject, ¬Shared (c.images object).storage)
    (he : uploadLevels c format type width height out levels = some r) : AllGood r.1 := by
  induction levels generalizing c with
  | nil =>
    obtain rfl := Option.some_inj.mp he
    exact h
  | cons level levels ih =>
    have hlevel := positive level List.mem_cons_self
    have apart := apart (List.cons_ne_nil level levels)
    obtain ⟨⟨c1, error⟩, created, rest⟩ := Option.bind_eq_some_iff.mp he
    obtain ⟨object, bound, rfl, status⟩ := create_level hlevel known created
    have fits := fits_imageRequest (Int.natCast_nonneg _) (Int.natCast_nonneg _)
      (bounded level List.mem_cons_self)
    have good := good_reallocate (h object) level fits (fun _ => apart object bound)
      (out.memory level)
    rcases unlessError_cases rest with rfl | ⟨none, rest⟩
    · exact h.setImage object good
    · obtain ⟨object', bound', rest⟩ := Option.bind_eq_some_iff.mp rest
      have table := apart_of_reallocate hlevel _ (out.memory level) (apart object bound)
        (status.mp none)
      have same : object' = object := Option.some_inj.mp (bound'.symm.trans bound)
      subst same
      dsimp only at rest
      refine ih ?_ ?_ ?_ ?_ rest
      · apply (h.setImage object' good).setImage
        rw [setImage_images_self, paint_storage]
        exact good
      · exact fun l hl => positive l (List.mem_cons_of_mem _ hl)
      · exact fun l hl => bounded l (List.mem_cons_of_mem _ hl)
      · intro _ other hother shared
        have here : other = object' := (Option.some_inj.mp (bound.symm.trans hother)).symm
        subst here
        rw [setImage_images_self, setImage_images_self, paint_storage] at shared
        exact table shared.1

theorem allGood_glCompressedTexImage2D (h : AllGood c) {a : Units.CompressedTexImage}
    (safe : a.reject = GL.noError → ¬a.empty → ∀ p ∈ paletteFormat a.internalformat,
      LevelsSafe c p.1 p.2 a.width.toNat a.height.toNat a.numLevels)
    (he : glCompressedTexImage2D c a out = some r) : AllGood r.1 := by
  rcases glCompressedTexImage2D_cases he with same | ⟨accepted, uploaded, format, type, palette, he⟩
  · rw [same]
    exact h
  · have levels := safe accepted uploaded (format, type) palette
    cases count : a.numLevels with
    | zero =>
      rw [count] at he
      obtain rfl := Option.some_inj.mp he
      exact h
    | succ n =>
      rw [count] at he levels
      rw [List.range_succ_eq_map] at he
      obtain ⟨⟨c1, error⟩, created, rest⟩ := Option.bind_eq_some_iff.mp he
      by_cases known : convertGLPixelFormat format type = 0
      · obtain ⟨rfl, rfl⟩ := create_unknown known created
        rcases unlessError_cases rest with rfl | ⟨none, -⟩
        · exact h
        · exact nomatch none
      · obtain ⟨bounded, lods⟩ := levels known
        obtain ⟨all, alignment, -, object, -, active, -, surface⟩ :=
          base_created h known (Int.natCast_nonneg _) (Int.natCast_nonneg _)
            (bounded 0 (Nat.succ_pos n)) created
        rcases unlessError_cases rest with rfl | ⟨none, rest⟩
        · exact all
        · obtain ⟨object', bound', rest⟩ := Option.bind_eq_some_iff.mp rest
          have same : object' = object := Option.some_inj.mp (bound'.symm.trans active)
          subst same
          obtain ⟨data, stored⟩ := surface none
          refine allGood_uploadLevels known ?_ ?_ ?_ ?_ rest
          · apply all.setImage
            rw [paint_storage]
            exact all object'
          · intro level hlevel
            obtain ⟨k, -, rfl⟩ := List.mem_map.mp hlevel
            exact Nat.succ_pos k
          · intro level hlevel
            obtain ⟨k, hk, rfl⟩ := List.mem_map.mp hlevel
            have range := List.mem_range.mp hk
            have next := bounded (k + 1) (by omega)
            rw [← alignment] at next
            exact next
          · intro more other hother shared
            have here : other = object' := (Option.some_inj.mp (active.symm.trans hother)).symm
            subst here
            rw [setImage_images_self, paint_storage] at shared
            have few := shared.2.1
            rw [stored] at few
            have several : n ≠ 0 := by
              rintro rfl
              exact more rfl
            have enough := lods (by omega)
            rw [numLods_surface] at few enough
            exact absurd few (Int.not_le.mpr enough)

/-- The uploads, and the calls between them that decide where they go and how. -/
inductive Op
  | texImage (a : TexImage) (out : Outcome)
  | copyTexImage (a : CopyTexImage) (out : Outcome)
  | compressedTexImage (a : Units.CompressedTexImage) (out : Outcome)
  | texSubImage (a : TexSubImage) (out : Outcome)
  | copyTexSubImage (a : CopyTexSubImage) (out : Outcome)
  | activeTexture (texture : GLenum)
  | bindTexture (target : GLenum) (texture : UInt32)
  | genTextures (n : Int)
  | deleteTextures (n : Int) (textures : List UInt32)
  | pixelStore (pname : GLenum) (param : Int)
  | generateMipmap (target : GLenum) (param : Int)
  | colorBuffer (surface : GGLSurface)

def call (c : Context) : Op → Option Context
  | .texImage a out => (glTexImage2D c a out).map fun r => r.1.record r.2
  | .copyTexImage a out => (glCopyTexImage2D c a out).map fun r => r.1.record r.2
  | .compressedTexImage a out => (glCompressedTexImage2D c a out).map fun r => r.1.record r.2
  | .texSubImage a out => (glTexSubImage2D c a out).map fun r => r.1.record r.2
  | .copyTexSubImage a out => (glCopyTexSubImage2D c a out).map fun r => r.1.record r.2
  | .activeTexture texture => some (c.withUnits (Units.glActiveTexture c.units texture))
  | .bindTexture target texture =>
    (Units.glBindTexture c.units target texture).map c.withUnits
  | .genTextures n => some (c.withUnits (Units.glGenTextures c.units n).1)
  | .deleteTextures n textures => (Units.glDeleteTextures c.units n textures).map c.withUnits
  | .pixelStore pname param => some (glPixelStorei c pname param)
  | .generateMipmap target param => texParameterGenerateMipmap c target param
  | .colorBuffer surface => some { c with colorBuffer := surface }

def step (s : Option Context) (op : Op) : Option Context := s.bind fun c => call c op

def CallSafe (c : Context) : Op → Prop
  | .texImage a _ => a.reject = GL.noError →
    ImageSafe c a.level.toNat a.format a.type a.width a.height a.hasPixels
  | .copyTexImage a _ => (a.from c.colorBuffer.format).reject = GL.noError →
    ImageSafe c a.level.toNat (a.from c.colorBuffer.format).format
      (a.from c.colorBuffer.format).type a.width a.height true
  | .compressedTexImage a _ => a.reject = GL.noError → ¬a.empty →
    ∀ p ∈ paletteFormat a.internalformat,
      LevelsSafe c p.1 p.2 a.width.toNat a.height.toNat a.numLevels
  | .texSubImage a _ => a.reject = GL.noError → a.width ≠ 0 → a.height ≠ 0 →
    SubImageSafe c a.level.toNat a.refuse
  | .copyTexSubImage a _ => a.reject = GL.noError → a.width ≠ 0 → a.height ≠ 0 →
    SubImageSafe c a.level.toNat a.refuse
  | _ => True

instance (c : Context) : ∀ op, Decidable (CallSafe c op)
  | .texImage _ _ | .copyTexImage _ _ => inferInstanceAs (Decidable (_ → _))
  | .compressedTexImage a _ => inferInstanceAs
      (Decidable (_ → _ → ∀ p ∈ paletteFormat a.internalformat, _))
  | .texSubImage _ _ | .copyTexSubImage _ _ => inferInstanceAs (Decidable (_ → _ → _ → _))
  | .activeTexture _ | .bindTexture _ _ | .genTextures _ | .deleteTextures _ _ | .pixelStore _ _
  | .generateMipmap _ _ | .colorBuffer _ => .isTrue trivial

def StorageCovered (s : Option Context) : Prop :=
  ∀ c ∈ s, ∀ object, Covered (c.images object).storage

def StepSafe (s : Option Context) (op : Op) : Prop := ∀ c ∈ s, CallSafe c op

instance (s : Option Context) (op : Op) : Decidable (StepSafe s op) :=
  inferInstanceAs (Decidable (∀ c ∈ s, CallSafe c op))

theorem images_texParameter {target : GLenum} {param : Int}
    (he : texParameterGenerateMipmap c target param = some c') : c'.images = c.images := by
  unfold texParameterGenerateMipmap at he
  split_ifs at he
  · obtain rfl := Option.some_inj.mp he
    rfl
  · obtain ⟨i, -, rest⟩ := Option.bind_eq_some_iff.mp he
    obtain ⟨object, -, rfl⟩ := Option.map_eq_some_iff.mp rest
    rfl

def Op.uploads (c : Context) : Op → Option (Context × GLenum)
  | .texImage a out => glTexImage2D c a out
  | .copyTexImage a out => glCopyTexImage2D c a out
  | .compressedTexImage a out => glCompressedTexImage2D c a out
  | .texSubImage a out => glTexSubImage2D c a out
  | .copyTexSubImage a out => glCopyTexSubImage2D c a out
  | _ => none

theorem images_call (empty : P {}) {op : Op} (h : ∀ object, P (c.images object))
    (he : call c op = some c') :
    (∀ object, P (c'.images object)) ∨ ∃ r, op.uploads c = some r ∧ c' = r.1.record r.2 := by
  have upload {result : Option (Context × GLenum)}
      (he : (result.map fun r => r.1.record r.2) = some c') :
      ∃ r, result = some r ∧ c' = r.1.record r.2 := by
    obtain ⟨r, made, rfl⟩ := Option.map_eq_some_iff.mp he
    exact ⟨r, made, rfl⟩
  cases op with
  | texImage a out | copyTexImage a out | compressedTexImage a out | texSubImage a out
  | copyTexSubImage a out => exact .inr (upload he)
  | activeTexture texture | genTextures n =>
    obtain rfl := Option.some_inj.mp he
    exact .inl (images_withUnits h empty _)
  | bindTexture target texture | deleteTextures n textures =>
    obtain ⟨units, -, rfl⟩ := Option.map_eq_some_iff.mp he
    exact .inl (images_withUnits h empty units)
  | pixelStore pname param =>
    obtain rfl := Option.some_inj.mp he
    have same : (glPixelStorei c pname param).images = c.images := by
      unfold glPixelStorei
      split_ifs <;> rfl
    left
    rw [same]
    exact h
  | generateMipmap target param =>
    left
    rw [images_texParameter he]
    exact h
  | colorBuffer surface =>
    obtain rfl := Option.some_inj.mp he
    exact .inl h

theorem allGood_call {op : Op} (h : AllGood c) (safe : CallSafe c op) (he : call c op = some c') :
    AllGood c' := by
  rcases images_call (P := fun image => Good image.storage) good_empty h he with
    kept | ⟨r, uploaded, rfl⟩
  · exact kept
  · cases op with
    | texImage a out => exact allGood_glTexImage2D h safe uploaded
    | copyTexImage a out => exact allGood_glCopyTexImage2D h safe uploaded
    | compressedTexImage a out => exact allGood_glCompressedTexImage2D h safe uploaded
    | texSubImage a out => exact allGood_glTexSubImage2D h safe uploaded
    | copyTexSubImage a out => exact allGood_glCopyTexSubImage2D h safe uploaded
    | _ => cases uploaded

/-- The surfaces of every texture object are covered in every state of a run whose calls all meet
the condition. -/
theorem surfaces_covered (ops : List Op) (safe : Guarded step StepSafe oglesInitTexture ops)
    {pre : List Op} (hpre : pre <+: ops) : StorageCovered (run step oglesInitTexture pre) := by
  have start : ∀ c ∈ oglesInitTexture, AllGood c := by
    intro c hc object
    obtain ⟨units, -, rfl⟩ := Option.map_eq_some_iff.mp hc
    exact good_empty
  have keeps : ∀ s op, (∀ c ∈ s, AllGood c) → StepSafe s op → ∀ c ∈ step s op, AllGood c := by
    intro s op h safe c' hc'
    obtain ⟨c, hc, result⟩ := Option.bind_eq_some_iff.mp hc'
    exact allGood_call (h c hc) (safe c hc) result
  have good := run_invariant_prefix keeps start safe hpre
  intro c hc object
  exact (good c hc object).covered

private def allocates : Outcome := ⟨true, fun _ => true, true, fun _ b => b⟩

private def rgbaImage (level width height : Int) : TexImage :=
  { target := GL.texture2D, level := level, internalformat := GL.rgba, width := width,
    height := height, border := 0, format := GL.rgba, type := GL.unsignedByte, hasPixels := true }

private def imageWithMipmap : List Op :=
  [.generateMipmap GL.texture2D 1, .texImage (rgbaImage 0 4 4) allocates,
    .generateMipmap GL.texture2D 0, .texImage (rgbaImage 1 2 2) allocates]

/-- A texture with generated mipmaps, one of which is then replaced. -/
theorem surfaces_covered_mipmap : StorageCovered (run step oglesInitTexture imageWithMipmap) :=
  surfaces_covered imageWithMipmap (by decide +kernel) (List.prefix_refl _)

private def wideImage : List Op :=
  [.texImage { rgbaImage 0 65537 16384 with hasPixels := false } allocates]

/-- An image of `65537 * 4` bytes a row and `16384` rows gets `65536` bytes. -/
theorem wide_image_uncovered :
    ¬∀ ops : List Op, StorageCovered (run step oglesInitTexture ops) := by
  intro all
  have result : (run step oglesInitTexture wideImage).map
      (fun c => (c.images 0).storage.surface) =
        some ⟨65537, 16384, 65537, 1, 0, some (.block 0 65536)⟩ := by
    decide +kernel
  obtain ⟨c, hc, surface⟩ := Option.map_eq_some_iff.mp result
  have covered := (all wideImage c hc 0).base
  rw [surface] at covered
  exact absurd (covered _ rfl) (by decide)

end RabbitRender.Textures.Coverage
