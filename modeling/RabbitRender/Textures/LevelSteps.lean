/- RabbitRender/Textures/LevelSteps
   layer: model
   source: swrender/TextureObjectManager.cpp, swrender/texture.cpp
   digest: Uploads and updates of the levels of one texture object, and what each level has. -/

import RabbitRender.Textures.Coverage
import RabbitRender.Textures.Ownership
import RabbitRender.Textures.Reallocations

set_option autoImplicit false

namespace RabbitRender.Textures.LevelSteps

open Lib.Halving Textures.Coverage Textures.Levels Textures.Uploads

/-- An image for a level. The calls refuse negative extents and a format they cannot store. -/
structure Upload where
  level : Nat
  request : Request
  memory : Memory
  format : request.format ≠ 0
  width : 0 ≤ request.width ∧ request.width < 2 ^ 31
  height : 0 ≤ request.height ∧ request.height < 2 ^ 31

/-- What the calls do to an object: a level gets a surface for an image, or pixels are transferred
into a level. An image that comes with pixels is an upload and an update, one of a part of a level
is an update. -/
inductive Op
  | upload (u : Upload)
  | update (level : Nat) (copy : Bytes → Bytes)

def Op.level : Op → Nat
  | upload u => u.level
  | update level _ => level

def Upload.result (u : Upload) (st : Storage) : Storage × Status :=
  reallocate st u.level u.request u.memory

def step (image : Image) : Op → Image
  | .upload u => { image with storage := (u.result image.storage).1 }
  | .update level copy => image.paint level copy

theorem step_upload_storage (image : Image) (u : Upload) :
    (step image (.upload u)).storage = (u.result image.storage).1 := rfl

theorem step_update_storage (image : Image) (level : Nat) (copy : Bytes → Bytes) :
    (step image (.update level copy)).storage = image.storage := paint_storage image level copy

def Succeeds (image : Image) : Op → Prop
  | .upload u => (u.result image.storage).2 = .noError
  | .update level _ => (image.storage.mip level).data ≠ none

instance (image : Image) : ∀ op, Decidable (Succeeds image op)
  | .upload u => inferInstanceAs (Decidable ((u.result image.storage).2 = .noError))
  | .update level _ => inferInstanceAs (Decidable ((image.storage.mip level).data ≠ none))

def target (image : Image) : Op → Option Pointer
  | .upload _ => none
  | .update level _ => (image.storage.mip level).data

def surfaceOf (st : Storage) (level : Nat) : GGLSurface :=
  if level = 0 then st.surface else st.levels.getD (level - 1) {}

@[simp] theorem surfaceOf_zero (st : Storage) : surfaceOf st 0 = st.surface := rfl

@[simp] theorem surfaceOf_succ (st : Storage) (i : Nat) :
    surfaceOf st (i + 1) = st.levels.getD i {} := rfl

/-- Every level of the chain from the base down to one texel exists, with the format of the base
and halved extents. -/
structure FullChain (st : Storage) : Prop where
  base : st.surface.data ≠ none
  levels : ∀ level, 0 < level → level ≤ Nat.log2 (max st.surface.width st.surface.height) →
    (surfaceOf st level).data ≠ none ∧
    (surfaceOf st level).format = st.surface.format ∧
    (surfaceOf st level).width = shrink st.surface.width level ∧
    (surfaceOf st level).height = shrink st.surface.height level

/-- What a step addressed to `level` leaves of the other levels: their surfaces, their blocks, which
are not freed, and the bytes in these. -/
structure Kept (level : Nat) (before after : Image) : Prop where
  surfaces : ∀ j, j ≠ level → surfaceOf after.storage j = surfaceOf before.storage j
  freed : ∀ j, j ≠ level → ∀ p, (surfaceOf before.storage j).data = some p →
    after.storage.heap.returned.count p = before.storage.heap.returned.count p
  bytes : ∀ j, j ≠ level → ∀ p, (surfaceOf before.storage j).data = some p →
    after.bytes p = before.bytes p

theorem Kept.refl (level : Nat) (image : Image) : Kept level image image :=
  ⟨fun _ _ => rfl, fun _ _ _ _ => rfl, fun _ _ _ _ => rfl⟩

theorem Kept.trans {level : Nat} {a b c : Image} (first : Kept level a b)
    (second : Kept level b c) : Kept level a c := by
  have there (j : Nat) (hj : j ≠ level) (p : Pointer)
      (data : (surfaceOf a.storage j).data = some p) : (surfaceOf b.storage j).data = some p := by
    rw [first.surfaces j hj]
    exact data
  refine ⟨fun j hj => ?_, fun j hj p data => ?_, fun j hj p data => ?_⟩
  · rw [second.surfaces j hj, first.surfaces j hj]
  · rw [second.freed j hj p (there j hj p data), first.freed j hj p data]
  · rw [second.bytes j hj p (there j hj p data), first.bytes j hj p data]

/-- A step addressed to a level below the base does nothing to the other levels, fails if there is
no such level, and, when it succeeds, leaves the object marked complete exactly if it is. -/
structure Independent (image : Image) (op : Op) : Prop where
  kept : Kept op.level image (step image op)
  unwritten : ∀ j, j ≠ op.level → ∀ p, (surfaceOf image.storage j).data = some p →
    target image op ≠ some p
  beyond : (step image op).storage.levels.length < op.level → ¬Succeeds image op
  complete : Succeeds image op →
    ((step image op).storage.mIsComplete = true ↔ FullChain (step image op).storage)

def entries (st : Storage) : Nat :=
  if st.mMipmaps = none then (numLods st.surface).toNat else st.levels.length

/-- An upload below the base gets as far as `editMip`. -/
def Reaches (st : Storage) (table : Bool) : Prop :=
  st.mMipmaps ≠ none ∨ st.surface.data ≠ none ∧ (numLods st.surface ≤ 0 ∨ table = true)

/-- The levels of the table would make a complete chain with a surface for one of them. -/
def completedBy (st : Storage) (level : Nat) (s : GGLSurface) : Bool :=
  completeAfter st.surface.format st.surface (st.levels.set (level - 1) s)

/-- The condition on a step addressed to a level below the base. The level is one of the chain, or
nothing is stored and the last level has nothing to lose; and the base is there, or the levels do
not look complete without it. -/
def InChain (image : Image) : Op → Prop
  | .upload u =>
    let st := image.storage
    Reaches st u.memory.table →
      (u.level ≤ entries st ∨
        u.memory.data = false ∧ 0 < entries st ∧ (surfaceOf st (entries st)).data = none) ∧
      (u.memory.data = true →
        st.surface.data ≠ none ∨ completedBy st u.level (u.request.surface none) = false)
  | .update level _ =>
    let st := image.storage
    (st.mip level).data ≠ none →
      level ≤ st.levels.length ∧ (st.surface.data ≠ none ∨ st.mIsComplete = false)

instance (image : Image) : ∀ op, Decidable (InChain image op)
  | .upload _ => inferInstanceAs (Decidable
      ((_ ≠ _ ∨ _ ≠ _ ∧ (_ ≤ _ ∨ _)) → (_ ∨ _ ∧ _ ∧ _ = _) ∧ (_ → _ ≠ _ ∨ _)))
  | .update _ _ => inferInstanceAs (Decidable (_ ≠ _ → _ ∧ (_ ≠ _ ∨ _)))

def StepIndependent (image : Image) (op : Op) : Prop := 0 < op.level → Independent image op

def StepInChain (image : Image) (op : Op) : Prop := 0 < op.level → InChain image op

instance (image : Image) (op : Op) : Decidable (StepInChain image op) :=
  inferInstanceAs (Decidable (_ → _))

end RabbitRender.Textures.LevelSteps
