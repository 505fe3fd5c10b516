/- RabbitRender/Textures/LevelCalls
   layer: result
   source: swrender/texture.cpp, swrender/mipmap.cpp
   digest: The calls do nothing to the image of an object but uploads and updates of its levels. -/

import RabbitRender.Textures.LevelIndependence

set_option autoImplicit false

namespace RabbitRender.Textures.LevelCalls

open RabbitRender.GL (GLenum)
open Lib.GuardedRun
open Textures.Coverage
  (Transfers copyTexImage_extents create_base create_level create_unknown
    glCompressedTexImage2D_cases glCopyTexImage2D_cases glCopyTexSubImage2D_cases
    glTexImage2D_cases glTexSubImage2D_cases images_setImage images_withUnits texImage_extents
    unlessError_cases)
open Textures.LevelIndependence Textures.Levels Textures.LevelSteps Textures.Uploads
open Textures.Units (ObjectId convertGLPixelFormat)

def Reached (image : Image) : Prop := ∃ ops : List Op, image = run step {} ops

theorem reached_empty : Reached {} := ⟨[], rfl⟩

namespace Reached

variable {image : Image}

theorem next (h : Reached image) (op : Op) : Reached (step image op) := by
  obtain ⟨ops, rfl⟩ := h
  refine ⟨ops ++ [op], ?_⟩
  rw [run_append, run_cons, run_nil]

theorem arranged (h : Reached image) : Arranged image.storage := by
  obtain ⟨ops, rfl⟩ := h
  exact run_keeps (fun image : Image => Arranged image.storage)
    (fun _ op kept => arranged_step kept op) ops arranged_empty

theorem paint (h : Reached image) (level : Nat) (copy : Bytes → Bytes) :
    Reached (image.paint level copy) :=
  h.next (.update level copy)

theorem reallocate (h : Reached image) (u : Upload) :
    Reached { image with storage := (u.result image.storage).1 } :=
  h.next (.upload u)

end Reached

theorem format_of_upload {st : Storage} (h : Arranged st) {u : Upload} (hlevel : 0 < u.level)
    (done : (u.result st).2 = .noError) : ((u.result st).1.mip u.level).format ≠ 0 := by
  have replaced {ready : Storage} (tabled : Tabled ready)
      (done : (reallocateMip ready u.level u.request u.memory.data).2 = .noError) :
      ((reallocateMip ready u.level u.request u.memory.data).1.mip u.level).format ≠ 0 := by
    rw [Reallocations.reallocateMip_status] at done
    rw [done]
    have stored := mip_setMip tabled u.level (u.request.surface
      (some (.block (free ready.heap (ready.mip u.level).data).taken.length u.request.size)))
    have format := congrArg GGLSurface.format stored
    exact fun none => u.format (format.symm.trans none)
  rcases result_cases h hlevel with ⟨-, same⟩ | ⟨-, -, -, -, same⟩ | ⟨-, ready, prepared, same⟩
  · rw [same] at done
    exact absurd done Status.noConfusion
  · rw [same] at done ⊢
    exact replaced h.placed.tabled done
  · rw [same] at done ⊢
    exact replaced prepared.placed.tabled done

theorem halve_lt {extent : Nat} (small : extent < 2 ^ 31) : halve extent < 2 ^ 31 := by
  unfold halve
  split_ifs <;> omega

variable {level : Nat} {c c' : Context} {out : Outcome} {r : Context × GLenum}

theorem reached_buildLevels (size : Nat) (out : Outcome) (rounds : Nat) {base : GGLSurface}
    {image : Image} {w h : Nat} (reached : Reached image) (hlevel : 0 < level)
    (format : base.format ≠ 0) (hw : w < 2 ^ 31) (hh : h < 2 ^ 31) :
    Reached (buildLevels size out base rounds image level w h).1 := by
  induction rounds generalizing base image level w h with
  | zero => exact reached
  | succ rounds ih =>
    let u : Upload :=
      { level := level
        request := levelRequest size base w h
        memory := out.memory level
        format := format
        width := ⟨Int.natCast_nonneg w, by dsimp only [levelRequest]; omega⟩
        height := ⟨Int.natCast_nonneg h, by dsimp only [levelRequest]; omega⟩ }
    have next := reached.reallocate u
    have described := format_of_upload reached.arranged (u := u) hlevel
    rw [buildLevels]
    cases result : reallocate image.storage level (levelRequest size base w h)
        (out.memory level) with
    | mk storage status =>
      have same : u.result image.storage = (storage, status) := result
      rw [same] at next described
      cases status with
      | noError =>
        dsimp only
        split_ifs
        · exact next.paint _ _
        · exact ih (next.paint _ _) (Nat.succ_pos _) (described rfl) (halve_lt hw) (halve_lt hh)
        · exact next
      | noInit => exact next
      | noMemory => exact next
      | badType => exact next

theorem reached_buildAPyramid {image : Image} (reached : Reached image) (out : Outcome) :
    Reached (buildAPyramid image out).1 := by
  have shaped := reached.arranged.shaped
  unfold buildAPyramid
  dsimp only
  split_ifs with one
  · exact reached
  · by_cases format : image.storage.surface.format = 0
    · have none := not_or.mp fun some => shaped.base some format
      have stopped (r : Request) (mem : Memory) :
          reallocate image.storage ((1 : Nat) : Int) r mem = (image.storage, .noMemory) := by
        rw [reallocate, if_neg (by omega), if_neg (by simp [not_not.mp none.2]), allocateMipmaps,
          if_pos (not_not.mp none.1)]
      rw [buildLevels, stopped]
      exact reached
    · exact reached_buildLevels _ out 32 reached Nat.one_pos format (halve_lt shaped.extents.1)
        (halve_lt shaped.extents.2)

def AllReached (c : Context) : Prop := ∀ object, Reached (c.images object)

theorem AllReached.withUnits (h : AllReached c) (units : Units.Context) :
    AllReached (c.withUnits units) :=
  images_withUnits h reached_empty units

theorem AllReached.of_images (h : AllReached c) (same : c'.images = c.images) : AllReached c' := by
  intro object
  rw [same]
  exact h object

/-- An extent that a call takes: not negative, and an `int`. -/
def Extent (extent : Int) : Prop := 0 ≤ extent ∧ extent < 2 ^ 31

theorem reached_create (h : AllReached c) {format type : GLenum} {width height : Int}
    {error : GLenum} (hw : Extent width) (hh : Extent height)
    (he : createTextureSurface c level format type width height out = some (c', error)) :
    AllReached c' := by
  by_cases known : convertGLPixelFormat format type = 0
  · obtain ⟨rfl, -⟩ := create_unknown known he
    exact h
  · let u : Upload :=
      { level := level
        request :=
          imageRequest c.unpackAlignment (convertGLPixelFormat format type) width height
        memory := out.memory level
        format := known
        width := hw
        height := hh }
    rcases Nat.eq_zero_or_pos level with rfl | hlevel
    · obtain ⟨units, object, -, -, -, -, images, -⟩ := create_base known he
      have before := h.withUnits units
      apply AllReached.of_images _ images
      exact images_setImage before object ((before object).reallocate u)
    · obtain ⟨object, -, rfl, -⟩ := create_level hlevel known he
      exact images_setImage h object ((h object).reallocate u)

theorem AllReached.copyPixels (h : AllReached c) (object : ObjectId) (level : Nat) (direct : Bool)
    (out : Outcome) : AllReached (copyPixels c object level direct out).1 := by
  unfold Uploads.copyPixels
  split_ifs
  · exact images_setImage h object ((h object).paint level _)
  · exact h

theorem AllReached.generateMipmap (h : AllReached c) (object : ObjectId) (level : Nat)
    (out : Outcome) : AllReached (generateMipmap c object level out).1 := by
  unfold Uploads.generateMipmap
  split_ifs
  · exact images_setImage h object (reached_buildAPyramid (h object) out)
  · exact h

theorem AllReached.transfers (h : AllReached c) {object : ObjectId} {direct : Bool}
    (he : Transfers c object level direct out r) : AllReached r.1 := by
  have copied := h.copyPixels object level direct out
  rcases he.cases with rfl | rfl
  · exact copied
  · exact copied.generateMipmap object level out

theorem reached_glTexImage2D (h : AllReached c) {a : TexImage}
    (fits : a.width < 2 ^ 31 ∧ a.height < 2 ^ 31) (he : glTexImage2D c a out = some r) :
    AllReached r.1 := by
  rcases glTexImage2D_cases he with same | ⟨accepted, made, created, rest⟩
  · rw [same]
    exact h
  · obtain ⟨hw, hh⟩ := texImage_extents accepted
    have made := reached_create h ⟨hw, fits.1⟩ ⟨hh, fits.2⟩ created
    rcases rest with rfl | ⟨-, -, object, direct, transferred, -⟩
    · exact made
    · exact made.transfers transferred

theorem reached_glCopyTexImage2D (h : AllReached c) {a : CopyTexImage}
    (fits : a.width < 2 ^ 31 ∧ a.height < 2 ^ 31) (he : glCopyTexImage2D c a out = some r) :
    AllReached r.1 := by
  rcases glCopyTexImage2D_cases he with same | ⟨accepted, made, created, rest⟩
  · rw [same]
    exact h
  · obtain ⟨hw, hh⟩ := copyTexImage_extents accepted
    have made := reached_create h ⟨hw, fits.1⟩ ⟨hh, fits.2⟩ created
    rcases rest with rfl | ⟨-, object, direct, -, -, rfl⟩
    · exact made
    · exact (made.copyPixels object _ direct out).generateMipmap object _ out

theorem reached_glTexSubImage2D (h : AllReached c) {a : TexSubImage}
    (he : glTexSubImage2D c a out = some r) : AllReached r.1 := by
  rcases glTexSubImage2D_cases he with same | ⟨-, -, object, -, transferred⟩
  · rw [same]
    exact h
  · exact h.transfers transferred

theorem reached_glCopyTexSubImage2D (h : AllReached c) {a : CopyTexSubImage}
    (he : glCopyTexSubImage2D c a out = some r) : AllReached r.1 := by
  rcases glCopyTexSubImage2D_cases he with same | ⟨-, -, object, -, transferred⟩
  · rw [same]
    exact h
  · exact h.transfers transferred

theorem extent_lodExtent {extent : Nat} (small : extent < 2 ^ 31) (level : Nat) :
    Extent (lodExtent extent level) := by
  have less := Nat.div_le_self extent (2 ^ level)
  refine ⟨Int.natCast_nonneg _, ?_⟩
  unfold lodExtent
  split_ifs <;> omega

theorem reached_uploadLevels {format type : GLenum} {width height : Nat} (hw : width < 2 ^ 31)
    (hh : height < 2 ^ 31) {levels : List Nat} (h : AllReached c)
    (he : uploadLevels c format type width height out levels = some r) : AllReached r.1 := by
  induction levels generalizing c with
  | nil =>
    obtain rfl := Option.some_inj.mp he
    exact h
  | cons level levels ih =>
    obtain ⟨⟨c1, error⟩, created, rest⟩ := Option.bind_eq_some_iff.mp he
    have made := reached_create h (extent_lodExtent hw level) (extent_lodExtent hh level) created
    rcases unlessError_cases rest with rfl | ⟨-, rest⟩
    · exact made
    · obtain ⟨object, -, rest⟩ := Option.bind_eq_some_iff.mp rest
      exact ih (images_setImage made object ((made object).paint level _)) rest

theorem reached_glCompressedTexImage2D (h : AllReached c) {a : Units.CompressedTexImage}
    (fits : a.width < 2 ^ 31 ∧ a.height < 2 ^ 31) (he : glCompressedTexImage2D c a out = some r) :
    AllReached r.1 := by
  rcases glCompressedTexImage2D_cases he with same | ⟨-, -, format, type, -, uploaded⟩
  · rw [same]
    exact h
  · exact reached_uploadLevels (by omega) (by omega) h uploaded

/-- The extents of the images are those of an `int`. -/
def Sized : Coverage.Op → Prop
  | .texImage a _ => a.width < 2 ^ 31 ∧ a.height < 2 ^ 31
  | .copyTexImage a _ => a.width < 2 ^ 31 ∧ a.height < 2 ^ 31
  | .compressedTexImage a _ => a.width < 2 ^ 31 ∧ a.height < 2 ^ 31
  | _ => True

theorem reached_call {op : Coverage.Op} (h : AllReached c) (sized : Sized op)
    (he : Coverage.call c op = some c') : AllReached c' := by
  rcases Coverage.images_call reached_empty h he with kept | ⟨r, uploaded, rfl⟩
  · exact kept
  · cases op with
    | texImage a out => exact reached_glTexImage2D h sized uploaded
    | copyTexImage a out => exact reached_glCopyTexImage2D h sized uploaded
    | compressedTexImage a out => exact reached_glCompressedTexImage2D h sized uploaded
    | texSubImage a out => exact reached_glTexSubImage2D h uploaded
    | copyTexSubImage a out => exact reached_glCopyTexSubImage2D h uploaded
    | _ => cases uploaded

/-- In every run of the calls, the image of every object is one that uploads and updates of its
levels made, so that what holds of these holds of the texture objects. -/
theorem images_reached (ops : List Coverage.Op) (sized : ∀ op ∈ ops, Sized op) :
    ∀ c ∈ run Coverage.step oglesInitTexture ops, AllReached c := by
  have start : ∀ c ∈ oglesInitTexture, AllReached c := by
    intro c hc object
    obtain ⟨units, -, rfl⟩ := Option.map_eq_some_iff.mp hc
    exact reached_empty
  have keeps : ∀ s op, (∀ c ∈ s, AllReached c) → Sized op →
      ∀ c ∈ Coverage.step s op, AllReached c := by
    intro s op h sized c' hc'
    obtain ⟨c, hc, result⟩ := Option.bind_eq_some_iff.mp hc'
    exact reached_call (h c hc) sized result
  exact run_invariant keeps start (guarded_of_forall fun _ => sized)

private def replaced : List Coverage.Op :=
  let image : TexImage :=
    { target := GL.texture2D, level := 0, internalformat := GL.rgba, width := 4, height := 4,
      border := 0, format := GL.rgba, type := GL.unsignedByte, hasPixels := true }
  let out : Outcome := ⟨true, fun _ => true, true, fun _ b => b⟩
  [.texImage image out, .texImage { image with width := 8 } out]

private theorem replaced_runs : (run Coverage.step oglesInitTexture replaced).isSome := by
  decide +kernel

/-- A base level that is uploaded twice. -/
theorem images_reached_replaced :
    AllReached ((run Coverage.step oglesInitTexture replaced).get replaced_runs) :=
  images_reached replaced (by simp [replaced, Sized]) _ (Option.get_mem _)

end RabbitRender.Textures.LevelCalls
