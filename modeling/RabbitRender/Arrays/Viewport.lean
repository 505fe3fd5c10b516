/- RabbitRender/Arrays/Viewport
   layer: proof
   source: swrender/matrix.cpp, swrender/vertex.cpp, swrender/array.cpp
   digest: The viewport enters the window coordinates of a vertex once, by the product or after
     the division, in draws that give no 4-component vertices to a 2D product. -/

import RabbitRender.Arrays.Compile
import RabbitRender.Matrix.Coherence

set_option autoImplicit false

namespace RabbitRender.Arrays.Viewport

open Arrays.Compile Fixed Vertices Lib.GuardedRun RabbitRender.Matrix.Transforms
open RabbitRender.Matrix.Coherence

variable {F : Type}

structure SameViewport (c c' : Context F) : Prop where
  vpt : c'.vpt = c.vpt
  dirty : c'.dirty.viewport = c.dirty.viewport

theorem SameViewport.trans {c c' c'' : Context F} (h : SameViewport c c')
    (h' : SameViewport c' c'') : SameViewport c c'' :=
  ⟨h'.vpt.trans h.vpt, h'.dirty.trans h.dirty⟩

theorem sameViewport_setStack (c : Context F) (s : MatrixStack F) :
    SameViewport c (c.setStack s) := by
  unfold Context.setStack
  split <;> exact ⟨rfl, rfl⟩

theorem sameViewport_invalidate (c : Context F) : SameViewport c (invalidate c) := by
  have flags := sameViewport_setStack c { c.stack with doPicker := true, doFloatToFixed := true }
  refine ⟨flags.vpt, ?_⟩
  unfold invalidate
  cases c.current <;> rfl

theorem sameViewport_modify (c : Context F) (f : MatrixStack F → MatrixStack F) :
    SameViewport c (Matrix.Transforms.modify c f) :=
  (sameViewport_setStack c _).trans (sameViewport_invalidate _)

theorem resolvePerspective_viewport (c : Context F) (clipPlanes depthTest fog : Bool) :
    SameViewport c (resolvePerspective c clipPlanes depthTest fog) := by
  unfold resolvePerspective
  split <;> exact ⟨rfl, rfl⟩

variable [GLfloat F]

def Fresh (c : Context F) : Prop :=
  c.dirty.viewport = false → c.vpt.transform = .load c.vpt.matrix

theorem SameViewport.fresh {c c' : Context F} (h : SameViewport c c') (fresh : Fresh c) :
    Fresh c' := by
  intro clean
  rw [h.vpt]
  exact fresh (h.dirty.symm.trans clean)

theorem validateMvp_vpt (c : Context F) (dirty : Bits) : (validateMvp c dirty).vpt = c.vpt := by
  unfold validateMvp
  split_ifs <;> rfl

theorem validateDerived_vpt (c : Context F) (dirty : Bits) :
    (validateDerived c dirty).vpt = c.vpt := by
  simp only [validateDerived]
  split_ifs <;> rfl

theorem validateStacks_vpt (c : Context F) (dirty : Bits) : (validateStacks c dirty).vpt =
    if dirty.viewport then { c.vpt with transform := .load c.vpt.matrix } else c.vpt := by
  simp only [validateStacks]
  split_ifs <;> rfl

omit [GLfloat F] in
theorem clean_of_not_any {c : Context F} {want : Bits} (h : (c.dirty.inter want).any ≠ true) :
    (c.dirty.viewport && want.viewport) = false := by
  have nothing := Bool.eq_false_of_not_eq_true h
  simp only [Bits.any, Bool.or_eq_false_iff] at nothing
  exact nothing.1.1.1.1.2

theorem validateTransform_vpt (c : Context F) (want : Bits) : (validateTransform c want).vpt =
    if c.dirty.viewport && want.viewport then { c.vpt with transform := .load c.vpt.matrix }
    else c.vpt := by
  by_cases any : (c.dirty.inter want).any = true
  · simp only [validateTransform, if_pos any, validateDerived_vpt, validateMvp_vpt,
      validateStacks_vpt]
    rfl
  · simp [validateTransform, any, clean_of_not_any any]

theorem validateTransform_dirty (c : Context F) (want : Bits) :
    (validateTransform c want).dirty.viewport = (c.dirty.viewport && !want.viewport) := by
  by_cases any : (c.dirty.inter want).any = true
  · have middle (c : Context F) (dirty : Bits) : (validateMvp c dirty).dirty = c.dirty := by
      unfold validateMvp
      split_ifs <;> rfl
    simp only [validateTransform, if_pos any, (validateDerived_same _ _).dirty, middle,
      (validateStacks_same _ _).dirty]
    rfl
  · have clean := clean_of_not_any any
    simp only [validateTransform, any]
    cases dirty : c.dirty.viewport
    · simpa using dirty
    · simpa [dirty] using clean

theorem validateTransform_fresh {c : Context F} (fresh : Fresh c) (want : Bits) :
    Fresh (validateTransform c want) ∧ (validateTransform c want).vpt.matrix = c.vpt.matrix ∧
      (want.viewport = true → (validateTransform c want).vpt.transform = .load c.vpt.matrix) := by
  rw [Fresh, validateTransform_dirty, validateTransform_vpt]
  cases dirty : c.dirty.viewport
  · have current := fresh dirty
    simp [current]
  · cases want.viewport <;> simp

/-- A depth range that changes the viewport matrix does not meet a current 2D product, and no
4-component vertices are drawn with a 2D product. -/
def Safe (c : Context F) : Op F → Prop
  | .depthRangef zNear zFar => Matrix.Coherence.Safe c (.depthRangef zNear zFar)
  | .draw _ _ _ _ true => ¬(c.vertexSize = 4 ∧ is2D (toMatrixx (product c)) = true)
  | _ => True

theorem step_fresh {c : Context F} (fresh : Fresh c) (op : Op F) : Fresh (step c op) := by
  have error (error : GL.GLenum) : Fresh (oglesError c error) :=
    SameViewport.fresh ⟨rfl, rfl⟩ fresh
  have modified (f : MatrixStack F → MatrixStack F) : Fresh (Matrix.Transforms.modify c f) :=
    (sameViewport_modify c f).fresh fresh
  have stacked (f : MatrixStack F → MatrixStack F) (s : MatrixStack F) :
      Fresh ((Matrix.Transforms.modify c f).setStack s) :=
    (sameViewport_setStack _ s).fresh (modified f)
  have moved (s : MatrixStack F) : Fresh (invalidate (c.setStack s)) :=
    ((sameViewport_setStack c s).trans (sameViewport_invalidate _)).fresh fresh
  cases op with
  | matrixMode mode =>
    simp only [step, glMatrixMode]
    split_ifs
    · exact SameViewport.fresh (c := c) ⟨rfl, rfl⟩ fresh
    · exact SameViewport.fresh (c := c) ⟨rfl, rfl⟩ fresh
    · exact SameViewport.fresh (c := c) ⟨rfl, rfl⟩ fresh
    · exact error _
  | loadIdentity => exact stacked _ _
  | loadMatrixf m | multMatrixf m | multMatrixx m | translatef x y z | scalef x y z
  | rotatef a x y z => exact modified _
  | loadMatrixx m => exact stacked _ _
  | frustumf left right bottom top zNear zFar =>
    simp only [step, glFrustumf]
    split
    · exact error _
    · exact modified _
  | orthof left right bottom top zNear zFar =>
    simp only [step, glOrthof]
    split
    · exact error _
    · exact modified _
  | pushMatrix =>
    simp only [step, glPushMatrix]
    split
    · exact error _
    · exact moved _
  | popMatrix =>
    simp only [step, glPopMatrix]
    split
    · exact error _
    · exact moved _
  | viewport x y w h =>
    simp only [step, glViewport]
    split_ifs
    · exact error _
    · exact fun clean => Bool.noConfusion clean
  | depthRangef zNear zFar => exact fun clean => Bool.noConfusion clean
  | vertexPointer size type stride =>
    simp only [step, glVertexPointer]
    split_ifs
    · exact error _
    · exact SameViewport.fresh (c := c) ⟨rfl, rfl⟩ fresh
    · exact error _
  | validate want => exact (validateTransform_fresh fresh want).1
  | draw want clipPlanes depthTest fog vertices =>
    have valid := (validateTransform_fresh fresh (drawWant want)).1
    cases vertices
    · exact valid
    · exact (resolvePerspective_viewport _ _ _ _).fresh valid

def Kept (c : Context F) : Prop := Inv c ∧ Fresh c

theorem step_kept {c : Context F} (kept : Kept c) (op : Op F) (safe : Safe c op) :
    Kept (step c op) := by
  refine ⟨?_, step_fresh kept.2 op⟩
  cases op with
  | validate want => exact validateTransform_inv kept.1 want
  | draw want clipPlanes depthTest fog vertices =>
    cases vertices
    · exact validateTransform_inv kept.1 _
    · exact step_inv kept.1 _ fun four => safe four.2
  | depthRangef zNear zFar => exact step_inv kept.1 _ safe
  | _ => exact step_inv kept.1 _ trivial

theorem init_kept (activeUnit : Fin 2) (surface : Int × Int × Int)
    (inverse : Matrixf F → Matrixf F) : Kept (init activeUnit surface inverse) :=
  ⟨init_inv activeUnit surface inverse, fun clean => Bool.noConfusion clean⟩

/-- The coordinates a vertex is transformed from: what its array leaves out is `0` or `1`. -/
def position (p : Pipeline) (element : Nat) : Vec4 := p.fetch element ⟨0, 0, 0, 0x10000⟩

/-- The viewport after the division by `w`. -/
def divided (viewport : Matrixx) (clip : Vec4) : Vec4 :=
  let rw := gglRecip28 clip.w
  ⟨triFromFixed (gglMulAddx (gglMulx clip.x rw 16) (viewport 0) (viewport 12) 28),
    triFromFixed (gglMulAddx (gglMulx clip.y rw 16) (viewport 5) (viewport 13) 28),
    gglMulAddx (gglMulx clip.z rw 16) (viewport 10) (viewport 14) 28, rw⟩

/-- `viewport(projection(modelview(v)))` for the product of the two matrices: a product that
leaves `w` alone takes the viewport in, any other one is divided first. -/
def windowOf (viewport product : Matrixf F) (size : Components) (o : Vec4) : Vec4 :=
  if is2D (toMatrixx product) then
    let w := point (.load (multiply viewport product)) size o
    ⟨triFromFixed w.x, triFromFixed w.y, w.z, w.w <<< (12 : Nat)⟩
  else divided (toMatrixx viewport) (point (.load product) size o)

structure At (p : Pipeline) (v : Vertex) (window : Vec4) : Prop where
  x : v.window.x = window.x
  y : v.window.y = window.y
  w : v.window.w = window.w
  z : p.depth = true → v.window.z = window.z

structure Reads (p : Pipeline) (c : Context F) (clipPlanes depthTest fog : Bool) : Prop where
  components : p.components.size = c.vertexSize
  mvp : p.mvp = c.mvp
  projection2D : p.projection2D = c.mvp4.projection2D
  perspective : p.perspective = c.perspective
  viewport : p.viewport = c.vpt.transform.matrix
  clipPlanes : (List.range 6).any p.clipEnable = clipPlanes
  depthTest : p.depthTest = depthTest
  fogging : p.fogging = fog

omit [GLfloat F] in
theorem Reads.divider {p : Pipeline} {c : Context F} {clipPlanes depthTest fog : Bool}
    (reads : Reads p c clipPlanes depthTest fog) :
    p.divider = .perspective2D ↔ selected2D c = true := by
  unfold Pipeline.divider selected2D
  rw [reads.perspective, reads.components, reads.projection2D]
  cases c.perspective with
  | validate => simp [choosePerspective_eq_2D]
  | _ => simp

theorem clipFrustumPerspective_at (p : Pipeline) {depth : Bool} (needed : p.depth = true →
    depth = true) (v : Vertex) (inside : (p.clipFrustumPerspective depth v).2.outside = 0) :
    At p (p.clipFrustumPerspective depth v).2 (divided p.viewport v.clip) := by
  obtain ⟨-, -, -, -, -, -, window⟩ := p.clipFrustumPerspective_spec depth v
  refine ⟨?_, ?_, ?_, fun hdepth => ?_⟩
  all_goals rw [window inside]
  · rfl
  · rfl
  · rfl
  · simp only [Pipeline.project, needed hdepth, if_pos]
    rfl

theorem compileVertex_window (p : Pipeline) (v : Vertex) (element : Nat) (index : Int)
    (draw : Nat) :
    let r := (p.compileVertex v element index draw).2
    let clip := point p.mvp p.components (position p element)
    (p.divider = .perspective2D →
      r.window = ⟨triFromFixed clip.x, triFromFixed clip.y, clip.z, clip.w <<< (12 : Nat)⟩) ∧
    (p.divider ≠ .perspective2D → r.outside = 0 → At p r (divided p.viewport clip)) := by
  have fetched : p.fetch element { v.obj with z := 0, w := 0x10000 } = position p element := by
    unfold position Pipeline.fetch
    cases p.fetched <;> rfl
  intro r clip
  simp only [r, clip, Pipeline.compileVertex, Pipeline.divide, fetched]
  cases path : p.divider with
  | validate => exact absurd path p.divider_ne_validate
  | perspective2D => exact ⟨fun _ => rfl, fun other => absurd rfl other⟩
  | perspective3D | clipAllPerspective3D =>
    refine ⟨fun flat => (by cases flat), fun _ inside => ?_⟩
    exact clipFrustumPerspective_at p (by simp [Pipeline.depth, path]) _ inside
  | perspective3DZ | clipAllPerspective3DZ =>
    refine ⟨fun flat => (by cases flat), fun _ inside => ?_⟩
    exact clipFrustumPerspective_at p (fun _ => rfl) _ inside

/-- In a guarded run, every vertex a draw call compiles and does not clip is at its window
coordinates, whatever was drawn with before. -/
theorem viewport_once (activeUnit : Fin 2) (surface : Int × Int × Int)
    (inverse : Matrixf F → Matrixf F) (ops pre : List (Op F)) (want : Bits)
    (clipPlanes depthTest fog : Bool)
    (safe : Guarded step Safe (init activeUnit surface inverse) ops)
    (hpre : pre ++ [.draw want clipPlanes depthTest fog true] <+: ops) :
    let c := run step (init activeUnit surface inverse) pre
    ∀ p, Reads p (validateTransform c (drawWant want)) clipPlanes depthTest fog →
      ∀ v element index draw, (p.compileVertex v element index draw).2.outside = 0 →
        At p (p.compileVertex v element index draw).2
          (windowOf c.vpt.matrix (product c) p.components (position p element)) := by
  intro c p reads v element index draw inside
  have keeps (c : Context F) (op : Op F) (kept : Kept c) (ok : Safe c op) : Kept (step c op) :=
    step_kept kept op ok
  obtain ⟨inv, fresh⟩ : Kept c := run_invariant keeps (init_kept activeUnit surface inverse)
    (safe.of_prefix ((List.prefix_append pre _).trans hpre))
  have ok : ¬(c.vertexSize = 4 ∧ is2D (toMatrixx (product c)) = true) := safe.next hpre
  obtain ⟨cached, hproduct, -⟩ := validateTransform_cached inv
    (rfl : (drawWant want).mvp = true)
  obtain ⟨-, matrix, current⟩ := validateTransform_fresh fresh (drawWant want)
  have flat := selected2D_eq cached (size_of_validated inv rfl fun four => ok four.2)
  rw [cached.projection2D, hproduct] at flat
  have mvp : p.mvp = Matrix.Coherence.cached c.vpt.matrix (product c) := by
    rw [reads.mvp, cached.mvp, matrix, hproduct]
  obtain ⟨window2D, window3D⟩ := compileVertex_window p v element index draw
  unfold windowOf
  by_cases is2D : is2D (toMatrixx (product c)) = true
  · rw [if_pos is2D]
    rw [Matrix.Coherence.cached, if_pos is2D] at mvp
    rw [mvp] at window2D
    have window := window2D (reads.divider.mpr (flat.trans is2D))
    refine ⟨?_, ?_, ?_, fun _ => ?_⟩
    all_goals rw [window]
  · rw [if_neg is2D]
    rw [Matrix.Coherence.cached, if_neg is2D] at mvp
    have viewport : p.viewport = toMatrixx c.vpt.matrix := by
      rw [reads.viewport, current rfl]
      rfl
    rw [mvp, viewport] at window3D
    refine window3D (fun path => is2D ?_) inside
    rw [← flat]
    exact reads.divider.mp path

private def reading (c : Context ℚ) (components : Components) : Pipeline :=
  { Pipeline.plain c.mvp4.projection2D c.mvp.matrix fun _ => ⟨0, 0, 0, 0x10000⟩ with
    components := components
    mvp := c.mvp
    perspective := c.perspective
    viewport := c.vpt.transform.matrix }

private theorem reading_reads {c : Context ℚ} {components : Components}
    (size : components.size = c.vertexSize) : Reads (reading c components) c false false false :=
  ⟨size, rfl, rfl, rfl, rfl, rfl, rfl, rfl⟩

private abbrev start : Context ℚ := init 0 (0, 0, 2) id

private abbrev threeComponents : List (Op ℚ) := [.viewport 0 0 2 2, .vertexPointer 3 GL.float 0]

/-- A vertex of three components under identity matrices is at the viewport's centre. -/
theorem viewport_once_centre :
    ∃ p, (p.compileVertex .zero 0 0 0).2.window.x = 16 ∧
      At p (p.compileVertex .zero 0 0 0).2 (windowOf (run step start threeComponents).vpt.matrix
        (product (run step start threeComponents)) p.components (position p 0)) := by
  refine ⟨reading (validateTransform (run step start threeComponents) (drawWant {})) .three,
    by decide +kernel, ?_⟩
  refine viewport_once 0 (0, 0, 2) id (threeComponents ++ [.draw {} false false false true])
    threeComponents {} false false false ?_ (List.prefix_refl _) _ (reading_reads (by decide +kernel))
    .zero 0 0 0 (by decide +kernel)
  exact ⟨trivial, trivial, fun four => absurd four.1 (by decide +kernel), trivial⟩

/-- A new context has 4-component vertices: the product takes the viewport in, and the division
applies it again. -/
theorem viewport_applied_twice :
    ∃ p, Reads p (validateTransform (run step start [.viewport 0 0 2 2]) (drawWant {})) false false
        false ∧
      (p.compileVertex .zero 0 0 0).2.outside = 0 ∧
      (p.compileVertex .zero 0 0 0).2.window.x = 32 ∧
      (windowOf (run step start [.viewport 0 0 2 2]).vpt.matrix
        (product (run step start [.viewport 0 0 2 2])) p.components (position p 0)).x = 16 := by
  refine ⟨reading (validateTransform (run step start [.viewport 0 0 2 2]) (drawWant {})) .four,
    reading_reads (by decide +kernel), ?_, ?_, ?_⟩
  · decide +kernel
  · decide +kernel
  · decide +kernel

end RabbitRender.Arrays.Viewport
