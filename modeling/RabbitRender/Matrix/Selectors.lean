/- RabbitRender/Matrix/Selectors
   layer: proof
   source: swrender/matrix.cpp, swrender/texture.cpp, swrender/array.cpp
   digest: The texture unit selectors and the current stack: which calls keep them together. -/

import RabbitRender.Matrix.Stacks
import RabbitRender.Textures.Units
import RabbitRender.Vertices

set_option autoImplicit false

namespace RabbitRender.Matrix.Selectors

open RabbitRender.GL (GLenum)
open Lib.GuardedRun RabbitRender.Matrix.Transforms
open RabbitRender.Matrix.Coherence (Op)
open Textures.Units (textureUnitCount unitOffset)
open Vertices (Vec4)

-- A call that reaches past the last texture unit has no state to go to.
/-- The transform state with `matrixMode`, `textures.active`, `arrays.activeTexture` and
`current.texture`. -/
structure State (F : Type) where
  transforms : Context F
  matrixMode : GLenum
  active : Nat
  clientActive : Nat
  texture : Fin 2 → Vec4

variable {F : Type}

def State.error (s : State F) (error : GLenum) : State F :=
  { s with transforms := oglesError s.transforms error }

def glActiveTexture (s : State F) (texture : GLenum) : State F :=
  -- `current` stays what the last `glMatrixMode` made of it
  if unitOffset texture > textureUnitCount then s.error GL.invalidEnum
  else { s with active := unitOffset texture }

def glClientActiveTexture (s : State F) (texture : GLenum) : State F :=
  if texture < GL.texture0 ∨ texture ≥ GL.texture0 + textureUnitCount then s.error GL.invalidEnum
  else { s with clientActive := texture - GL.texture0 }

def glMultiTexCoord4x (s : State F) (target : GLenum) (v : Vec4) : Option (State F) :=
  if unitOffset target > textureUnitCount then some (s.error GL.invalidEnum)
  else if tmu : unitOffset target < textureUnitCount then
    some { s with texture := Function.update s.texture ⟨unitOffset target, tmu⟩ v }
  else none

def glMatrixMode (s : State F) (mode : GLenum) : Option (State F) :=
  if mode = GL.texture then
    if unit : s.active < textureUnitCount then
      some { s with
        matrixMode := mode
        transforms := { s.transforms with current := .texture ⟨s.active, unit⟩ } }
    else none
  else
    some { s with
      matrixMode := if mode = GL.modelview ∨ mode = GL.projection then mode else s.matrixMode
      transforms := Transforms.glMatrixMode s.transforms mode }

variable [GLfloat F]

def glMultiTexCoord4f (s : State F) (target : GLenum) (x y z w : F) : Option (State F) :=
  glMultiTexCoord4x s target
    ⟨GLfloat.toFixed x, GLfloat.toFixed y, GLfloat.toFixed z, GLfloat.toFixed w⟩

def init (surface : Int × Int × Int) (inverse : Matrixf F → Matrixf F) : State F :=
  { transforms := Transforms.init 0 surface inverse, matrixMode := GL.modelview, active := 0,
    clientActive := 0, texture := fun _ => ⟨0, 0, 0, 0x10000⟩ }

inductive Call (F : Type) where
  | activeTexture (texture : GLenum)
  | clientActiveTexture (texture : GLenum)
  | multiTexCoord4f (target : GLenum) (x y z w : F)
  | multiTexCoord4x (target : GLenum) (v : Vec4)
  | transform (op : Op F)

def call (s : State F) : Call F → Option (State F)
  | .activeTexture texture => some (glActiveTexture s texture)
  | .clientActiveTexture texture => some (glClientActiveTexture s texture)
  | .multiTexCoord4f target x y z w => glMultiTexCoord4f s target x y z w
  | .multiTexCoord4x target v => glMultiTexCoord4x s target v
  | .transform (.matrixMode mode) => glMatrixMode s mode
  | .transform op => some { s with transforms := Coherence.step s.transforms op }

def step (s : Option (State F)) (o : Call F) : Option (State F) := s.bind fun s => call s o

/-- The stack a matrix mode names, with the active unit for `GL_TEXTURE`. -/
def named (matrixMode : GLenum) (active : Nat) : Option Current :=
  if matrixMode = GL.modelview then some .modelview
  else if matrixMode = GL.projection then some .projection
  else if matrixMode = GL.texture then
    if unit : active < textureUnitCount then some (.texture ⟨active, unit⟩) else none
  else none

structure Coherent (s : State F) : Prop where
  active : s.active < textureUnitCount
  clientActive : s.clientActive < textureUnitCount
  current : named s.matrixMode s.active = some s.transforms.current

/-- No unit right after the last one, and no change of the unit in texture matrix mode. -/
def Call.Safe (s : State F) : Call F → Prop
  | .activeTexture texture => unitOffset texture ≠ textureUnitCount ∧
      (unitOffset texture < textureUnitCount → s.matrixMode = GL.texture →
        unitOffset texture = s.active)
  | .multiTexCoord4f target _ _ _ _ => unitOffset target ≠ textureUnitCount
  | .multiTexCoord4x target _ => unitOffset target ≠ textureUnitCount
  | _ => True

def Safe (s : Option (State F)) (o : Call F) : Prop := ∀ s' ∈ s, o.Safe s'

omit [GLfloat F] in
@[simp] theorem setStack_current (c : Context F) (s : MatrixStack F) :
    (c.setStack s).current = c.current := by
  unfold Context.setStack
  split <;> simp [*]

omit [GLfloat F] in
@[simp] theorem invalidate_current (c : Context F) : (invalidate c).current = c.current := by
  simp [invalidate]

omit [GLfloat F] in
@[simp] theorem modify_current (c : Context F) (f : MatrixStack F → MatrixStack F) :
    (Transforms.modify c f).current = c.current := by simp [Transforms.modify]

omit [GLfloat F] in
theorem resolvePerspective_current (c : Context F) (clipPlanes depthTest fog : Bool) :
    (resolvePerspective c clipPlanes depthTest fog).current = c.current := by
  unfold resolvePerspective
  split <;> rfl

theorem validateStacks_current (c : Context F) (dirty : Bits) :
    (validateStacks c dirty).current = c.current := by
  simp only [validateStacks]
  split_ifs <;> rfl

theorem validateMvp_current (c : Context F) (dirty : Bits) :
    (validateMvp c dirty).current = c.current := by
  simp only [validateMvp]
  split_ifs <;> rfl

theorem validateDerived_current (c : Context F) (dirty : Bits) :
    (validateDerived c dirty).current = c.current := by
  simp only [validateDerived]
  split_ifs <;> rfl

theorem validateTransform_current (c : Context F) (want : Bits) :
    (validateTransform c want).current = c.current := by
  simp only [validateTransform]
  split_ifs
  · simp only [validateDerived_current, validateMvp_current, validateStacks_current]
  · rfl

theorem step_current (c : Context F) (op : Op F) (other : ∀ mode, op ≠ .matrixMode mode) :
    (Coherence.step c op).current = c.current := by
  cases op with
  | matrixMode mode => exact absurd rfl (other mode)
  | loadIdentity => simp [Coherence.step, glLoadIdentity]
  | loadMatrixx m => simp [Coherence.step, glLoadMatrixx]
  | loadMatrixf m | multMatrixf m | multMatrixx m | translatef x y z | scalef x y z
  | rotatef a x y z => exact modify_current c _
  | frustumf left right bottom top zNear zFar =>
    simp only [Coherence.step, glFrustumf]
    split
    · rfl
    · exact modify_current c _
  | orthof left right bottom top zNear zFar =>
    simp only [Coherence.step, glOrthof]
    split
    · rfl
    · exact modify_current c _
  | pushMatrix =>
    simp only [Coherence.step, glPushMatrix]
    split
    · rfl
    · simp
  | popMatrix =>
    simp only [Coherence.step, glPopMatrix]
    split
    · rfl
    · simp
  | viewport x y w h =>
    simp only [Coherence.step, glViewport]
    split_ifs <;> rfl
  | depthRangef zNear zFar => rfl
  | vertexPointer size type stride =>
    simp only [Coherence.step, glVertexPointer]
    split_ifs <;> rfl
  | validate want => exact validateTransform_current c want
  | draw want clipPlanes depthTest fog vertices =>
    simp only [Coherence.step]
    cases vertices
    · exact validateTransform_current c _
    · exact (resolvePerspective_current _ _ _ _).trans (validateTransform_current c _)

section

omit [GLfloat F]

theorem named_texture {active : Nat} (unit : active < textureUnitCount) :
    named GL.texture active = some (.texture ⟨active, unit⟩) := by
  have other : GL.texture ≠ GL.modelview ∧ GL.texture ≠ GL.projection := by decide
  rw [named, if_neg other.1, if_neg other.2, if_pos rfl, dif_pos unit]

theorem named_congr {matrixMode : GLenum} (other : matrixMode ≠ GL.texture) (active active' : Nat) :
    named matrixMode active' = named matrixMode active := by
  simp only [named, if_neg other]

theorem coherent_error {s : State F} (h : Coherent s) (error : GLenum) : Coherent (s.error error) :=
  ⟨h.active, h.clientActive, h.current⟩

theorem glActiveTexture_coherent {s : State F} (h : Coherent s) (texture : GLenum) :
    Coherent (glActiveTexture s texture) ↔ unitOffset texture ≠ textureUnitCount ∧
      (unitOffset texture < textureUnitCount → s.matrixMode = GL.texture →
        unitOffset texture = s.active) := by
  unfold glActiveTexture
  generalize unitOffset texture = unit
  split_ifs with refused
  · refine iff_of_true (coherent_error h _) ⟨Nat.ne_of_gt refused, fun inside => ?_⟩
    exact absurd inside (Nat.lt_asymm refused)
  · constructor
    · intro after
      refine ⟨Nat.ne_of_lt after.active, fun inside mode => ?_⟩
      have before : some (.texture ⟨s.active, h.active⟩) = some s.transforms.current := by
        rw [← h.current, mode, named_texture]
      have now : named s.matrixMode unit = some s.transforms.current := after.current
      rw [mode, named_texture inside, ← before] at now
      exact congrArg Fin.val (Current.texture.inj (Option.some_inj.mp now))
    · rintro ⟨other, same⟩
      have inside : unit < textureUnitCount := by omega
      refine ⟨inside, h.clientActive, ?_⟩
      by_cases mode : s.matrixMode = GL.texture
      · simp only [same inside mode, h.current]
      · exact (named_congr mode _ _).trans h.current

theorem glClientActiveTexture_coherent {s : State F} (h : Coherent s) (texture : GLenum) :
    Coherent (glClientActiveTexture s texture) := by
  unfold glClientActiveTexture
  split_ifs with refused
  · exact coherent_error h _
  · obtain ⟨low, high⟩ := not_or.mp refused
    refine ⟨h.active, ?_, h.current⟩
    exact Nat.sub_lt_left_of_lt_add (Nat.le_of_not_lt low) (Nat.lt_of_not_le high)

theorem glMultiTexCoord4x_coherent {s : State F} (h : Coherent s) (target : GLenum) (v : Vec4) :
    (∃ s', glMultiTexCoord4x s target v = some s' ∧ Coherent s') ↔
      unitOffset target ≠ textureUnitCount := by
  unfold glMultiTexCoord4x
  split_ifs with refused tmu
  · exact iff_of_true ⟨_, rfl, coherent_error h _⟩ (Nat.ne_of_gt refused)
  · exact iff_of_true ⟨_, rfl, h.active, h.clientActive, h.current⟩ (Nat.ne_of_lt tmu)
  · refine iff_of_false (by simp) ?_
    exact not_not.mpr (Nat.le_antisymm (Nat.le_of_not_lt refused) (Nat.le_of_not_lt tmu))

theorem glMatrixMode_coherent {s : State F} (h : Coherent s) (mode : GLenum) :
    ∃ s', glMatrixMode s mode = some s' ∧ Coherent s' := by
  unfold glMatrixMode
  by_cases texture : mode = GL.texture
  · rw [if_pos texture, dif_pos h.active]
    exact ⟨_, rfl, h.active, h.clientActive, texture ▸ named_texture h.active⟩
  · rw [if_neg texture]
    refine ⟨_, rfl, h.active, h.clientActive, ?_⟩
    by_cases modelview : mode = GL.modelview
    · simp [Transforms.glMatrixMode, named, modelview]
    · by_cases projection : mode = GL.projection
      · have other : GL.projection ≠ GL.modelview := by decide
        simp [Transforms.glMatrixMode, named, projection, other]
      · simpa [Transforms.glMatrixMode, modelview, projection, texture, oglesError] using h.current

end

theorem call_coherent {s : State F} (h : Coherent s) (o : Call F) :
    (∃ s', call s o = some s' ∧ Coherent s') ↔ o.Safe s := by
  cases o with
  | activeTexture texture =>
    simp only [call, Option.some_inj, exists_eq_left', Call.Safe]
    exact glActiveTexture_coherent h texture
  | clientActiveTexture texture =>
    exact iff_of_true ⟨_, rfl, glClientActiveTexture_coherent h texture⟩ trivial
  | multiTexCoord4f target x y z w =>
    simp only [call, glMultiTexCoord4f, Call.Safe]
    exact glMultiTexCoord4x_coherent h target _
  | multiTexCoord4x target v => exact glMultiTexCoord4x_coherent h target v
  | transform op =>
    refine iff_of_true ?_ trivial
    by_cases isMode : ∃ mode, op = .matrixMode mode
    · obtain ⟨mode, rfl⟩ := isMode
      exact glMatrixMode_coherent h mode
    · have other : ∀ mode, op ≠ .matrixMode mode := fun mode same => isMode ⟨mode, same⟩
      refine ⟨{ s with transforms := Coherence.step s.transforms op }, ?_, h.active,
        h.clientActive, h.current.trans (congrArg some (step_current s.transforms op other).symm)⟩
      cases op with
      | matrixMode mode => exact absurd rfl (other mode)
      | _ => rfl

theorem init_coherent (surface : Int × Int × Int) (inverse : Matrixf F → Matrixf F) :
    Coherent (init surface inverse) :=
  ⟨Nat.zero_lt_two, Nat.zero_lt_two, rfl⟩

/-- The selectors and the current stack are coherent after every prefix of a run exactly when
every call of the run is safe. -/
theorem selectors_coherent (surface : Int × Int × Int) (inverse : Matrixf F → Matrixf F)
    (calls : List (Call F)) :
    (∀ pre, pre <+: calls →
      ∃ s, run step (some (init surface inverse)) pre = some s ∧ Coherent s) ↔
      Guarded step Safe (some (init surface inverse)) calls := by
  have exact_guard (s : Option (State F)) (o : Call F) (h : ∃ s', s = some s' ∧ Coherent s') :
      (∃ s', step s o = some s' ∧ Coherent s') ↔ Safe s o := by
    obtain ⟨s, rfl, h⟩ := h
    refine (call_coherent h o).trans ⟨fun safe s' same => ?_, fun safe => safe s rfl⟩
    exact Option.some_inj.mp same ▸ safe
  exact guarded_iff exact_guard ⟨_, rfl, init_coherent surface inverse⟩

private abbrev start : Option (State ℚ) := some (init (0, 0, 240) id)

/-- A unit past the last one is accepted, and a change of the unit in texture matrix mode leaves
the current stack behind. -/
theorem selection_left_behind :
    (∃ s, run step start [.activeTexture (GL.texture0 + 2)] = some s ∧ s.active = 2 ∧
      ¬Coherent s) ∧
    ∃ s, run step start [.transform (.matrixMode GL.texture), .activeTexture (GL.texture0 + 1)] =
      some s ∧ s.active = 1 ∧ s.transforms.current = .texture 0 ∧ ¬Coherent s := by
  refine ⟨⟨_, rfl, rfl, fun h => absurd h.active (by decide)⟩, _, rfl, rfl, rfl, fun h => ?_⟩
  exact absurd h.current (by decide)

end RabbitRender.Matrix.Selectors
