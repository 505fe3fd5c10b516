/- RabbitRender/Matrix/Coherence
   layer: proof
   source: swrender/matrix.cpp
   digest: The cached product is current, and carries the viewport exactly on the 2D path, in runs
     that change no depth range under a 2D product and draw no 4-component vertices with one. -/

import Mathlib.Algebra.Order.Field.Rat
import Mathlib.Algebra.Order.Floor.Ring
import Mathlib.Data.Rat.Floor
import Mathlib.Tactic.Common
import RabbitRender.Lib.GuardedRun
import RabbitRender.Matrix.Transforms

set_option autoImplicit false

namespace RabbitRender.Matrix.Coherence

open RabbitRender.GL (GLenum)
open Lib.GuardedRun RabbitRender.Matrix.Transforms

variable {F : Type} [GLfloat F]

/-- `projection.top() * modelview.top()`. -/
def product (c : Context F) : Matrixf F := multiply c.projection.top c.modelview.top

/-- The 2D path is the one selected, or the one the first vertex will select. -/
def selected2D (c : Context F) : Bool :=
  match c.perspective with
  | .validate => c.vertexSize ≠ 4 && c.mvp4.projection2D
  | p => p = .perspective2D

/-- The cached matrix is the product of the current matrices, with the viewport factor exactly
on the 2D path. -/
def MvpCoherent (c : Context F) : Prop :=
  c.mvp.matrix =
    toMatrixx (if selected2D c then multiply c.vpt.matrix (product c) else product c)

def cached (viewport product : Matrixf F) : Transform :=
  if is2D (toMatrixx product) then .load (multiply viewport product) else .load product

/-- While the product is not dirty, the cache is what `update_mvp` computes, and a function
chosen by a vertex is the 2D one exactly for a 2D product. -/
structure Cached (c : Context F) : Prop where
  mvp4 : c.mvp4 = .load (product c)
  mvp : c.mvp = cached c.vpt.matrix (product c)
  chosen : c.perspective ≠ .validate →
    (c.perspective = .perspective2D ↔ c.mvp4.projection2D = true)

theorem cached_of_not_flat {viewport product : Matrixf F} (h : is2D (toMatrixx product) = false) :
    cached viewport product = .load product := by
  rw [cached, h]
  rfl

def Inv (c : Context F) : Prop := c.dirty.mvp = false → Cached c

theorem Cached.projection2D {c : Context F} (h : Cached c) :
    c.mvp4.projection2D = is2D (toMatrixx (product c)) := by
  rw [h.mvp4]
  rfl

theorem selected2D_eq {c : Context F} (h : Cached c) (size : c.perspective = .validate →
    c.vertexSize = 4 → c.mvp4.projection2D = false) :
    selected2D c = c.mvp4.projection2D := by
  unfold selected2D
  split
  · rename_i unresolved
    by_cases four : c.vertexSize = 4
    · simp [four, size unresolved four]
    · simp [four]
  · rename_i resolved
    have chosen := h.chosen resolved
    cases hflat : c.mvp4.projection2D
    all_goals
      rw [hflat] at chosen
      simpa using chosen

theorem Cached.coherent {c : Context F} (h : Cached c) (size : c.perspective = .validate →
    c.vertexSize = 4 → c.mvp4.projection2D = false) : MvpCoherent c := by
  unfold MvpCoherent
  rw [selected2D_eq h size, h.projection2D, h.mvp, cached]
  split_ifs <;> rfl

structure Same (c c' : Context F) : Prop where
  product : product c' = product c
  viewport : c'.vpt.matrix = c.vpt.matrix
  mvp4 : c'.mvp4 = c.mvp4
  mvp : c'.mvp = c.mvp
  perspective : c'.perspective = c.perspective
  vertexSize : c'.vertexSize = c.vertexSize
  dirty : c'.dirty = c.dirty

theorem Same.refl (c : Context F) : Same c c := ⟨rfl, rfl, rfl, rfl, rfl, rfl, rfl⟩

theorem Same.trans {c c' c'' : Context F} (h : Same c c') (h' : Same c' c'') : Same c c'' :=
  ⟨h'.product.trans h.product, h'.viewport.trans h.viewport, h'.mvp4.trans h.mvp4,
    h'.mvp.trans h.mvp, h'.perspective.trans h.perspective, h'.vertexSize.trans h.vertexSize,
    h'.dirty.trans h.dirty⟩

theorem Same.ite {c c' : Context F} (h : Same c c') (b : Bool) :
    Same c (if b then c' else c) := by
  cases b
  · exact Same.refl c
  · exact h

theorem Same.cached {c c' : Context F} (h : Same c c') (hc : Cached c) : Cached c' := by
  refine ⟨?_, ?_, ?_⟩
  · rw [h.mvp4, h.product, hc.mvp4]
  · rw [h.mvp, h.viewport, h.product, hc.mvp]
  · rw [h.perspective, h.mvp4]
    exact hc.chosen

theorem Same.inv {c c' : Context F} (h : Same c c') (inv : Inv c) : Inv c' := by
  intro clean
  rw [h.dirty] at clean
  exact h.cached (inv clean)

theorem validateStacks_same (c : Context F) (dirty : Bits) : Same c (validateStacks c dirty) := by
  refine ((Same.ite ?_ _).trans (Same.ite ?_ _)).trans (Same.ite ?_ _)
  all_goals exact ⟨rfl, rfl, rfl, rfl, rfl, rfl, rfl⟩

theorem validateDerived_same (c : Context F) (dirty : Bits) : Same c (validateDerived c dirty) := by
  refine ((Same.ite ?_ _).trans (Same.ite ?_ _)).trans (Same.ite ?_ _)
  all_goals exact ⟨rfl, rfl, rfl, rfl, rfl, rfl, rfl⟩

theorem updateMvp_cached (c : Context F) :
    Cached { updateMvp c with perspective := .validate } :=
  ⟨rfl, rfl, fun h => absurd rfl h⟩

theorem Cached.withDirty {c : Context F} (h : Cached c) (dirty : Bits) :
    Cached { c with dirty := dirty } := ⟨h.mvp4, h.mvp, h.chosen⟩

variable {want : Bits}

theorem validateTransform_stale (c : Context F) (stale : c.dirty.mvp = true)
    (wanted : want.mvp = true) :
    Cached (validateTransform c want) ∧ (validateTransform c want).perspective = .validate ∧
      product (validateTransform c want) = product c ∧
      (validateTransform c want).vertexSize = c.vertexSize := by
  have bit : (c.dirty.inter want).mvp = true := by simp [Bits.inter, stale, wanted]
  have any : (c.dirty.inter want).any = true := by simp [Bits.any, bit]
  have before := validateStacks_same c (c.dirty.inter want)
  have middle : validateMvp (validateStacks c (c.dirty.inter want)) (c.dirty.inter want) =
      { updateMvp (validateStacks c (c.dirty.inter want)) with perspective := .validate } := by
    rw [validateMvp, if_pos bit]
  have after := validateDerived_same
    (validateMvp (validateStacks c (c.dirty.inter want)) (c.dirty.inter want))
    (c.dirty.inter want)
  rw [middle] at after
  simp only [validateTransform, if_pos any, middle]
  refine ⟨(after.cached (updateMvp_cached _)).withDirty _, after.perspective, ?_, ?_⟩
  · exact after.product.trans before.product
  · exact after.vertexSize.trans before.vertexSize

theorem validateTransform_other (c : Context F) (other : (c.dirty.inter want).mvp = false) :
    ∃ c', Same c c' ∧ (validateTransform c want = c' ∨
      validateTransform c want = { c' with dirty := c'.dirty.diff want }) := by
  by_cases any : (c.dirty.inter want).any = true
  · have middle (c' : Context F) : validateMvp c' (c.dirty.inter want) = c' := by
      simp [validateMvp, other]
    refine ⟨validateDerived (validateStacks c (c.dirty.inter want)) (c.dirty.inter want),
      (validateStacks_same _ _).trans (validateDerived_same _ _), Or.inr ?_⟩
    simp only [validateTransform, if_pos any, middle]
  · exact ⟨c, Same.refl c, Or.inl (by simp only [validateTransform, if_neg any])⟩

theorem validateTransform_inv {c : Context F} (inv : Inv c) (want : Bits) :
    Inv (validateTransform c want) := by
  by_cases hit : (c.dirty.inter want).mvp = true
  · obtain ⟨stale, wanted⟩ : c.dirty.mvp = true ∧ want.mvp = true := by
      simpa [Bits.inter] using hit
    exact fun _ => (validateTransform_stale c stale wanted).1
  · obtain ⟨c', same, h | h⟩ := validateTransform_other c (Bool.not_eq_true _ ▸ hit)
    · rw [h]
      exact same.inv inv
    · rw [h]
      intro clean
      refine (same.cached (inv ?_)).withDirty _
      by_contra stale
      have wanted : want.mvp = true := by
        rw [Bool.not_eq_false] at stale
        simp only [same.dirty, Bits.diff, stale, Bool.true_and, Bool.not_eq_false'] at clean
        exact clean
      exact hit (by simp [Bits.inter, stale, wanted])

theorem validateTransform_cached {c : Context F} (inv : Inv c) (wanted : want.mvp = true) :
    Cached (validateTransform c want) ∧ product (validateTransform c want) = product c ∧
      (validateTransform c want).vertexSize = c.vertexSize ∧
      ((validateTransform c want).perspective = .validate →
        c.dirty.mvp = true ∨ c.perspective = .validate) := by
  by_cases stale : c.dirty.mvp = true
  · obtain ⟨cached, -, hproduct, hsize⟩ := validateTransform_stale c stale wanted
    exact ⟨cached, hproduct, hsize, fun _ => Or.inl stale⟩
  · have clean : c.dirty.mvp = false := Bool.not_eq_true _ ▸ stale
    have other : (c.dirty.inter want).mvp = false := by simp [Bits.inter, clean]
    obtain ⟨c', same, h | h⟩ := validateTransform_other c other
    · rw [h]
      exact ⟨same.cached (inv clean), same.product, same.vertexSize,
        fun unresolved => Or.inr (same.perspective ▸ unresolved)⟩
    · rw [h]
      exact ⟨(same.cached (inv clean)).withDirty _, same.product, same.vertexSize,
        fun unresolved => Or.inr (same.perspective ▸ unresolved)⟩

inductive Op (F : Type) where
  | matrixMode (mode : GLenum)
  | loadIdentity
  | loadMatrixf (m : Matrixf F)
  | loadMatrixx (m : Matrixx)
  | multMatrixf (m : Matrixf F)
  | multMatrixx (m : Matrixx)
  | translatef (x y z : F)
  | scalef (x y z : F)
  | rotatef (a x y z : F)
  | frustumf (left right bottom top zNear zFar : F)
  | orthof (left right bottom top zNear zFar : F)
  | pushMatrix
  | popMatrix
  | viewport (x y w h : Int)
  | depthRangef (zNear zFar : F)
  | vertexPointer (size : Int) (type : GLenum) (stride : Int)
  | validate (want : Bits)
  | draw (want : Bits) (clipPlanes depthTest fog vertices : Bool)

def drawWant (want : Bits) : Bits := { want with mvp := true, viewport := true }

def step (c : Context F) : Op F → Context F
  | .matrixMode mode => glMatrixMode c mode
  | .loadIdentity => glLoadIdentity c
  | .loadMatrixf m => glLoadMatrixf c m
  | .loadMatrixx m => glLoadMatrixx c m
  | .multMatrixf m => glMultMatrixf c m
  | .multMatrixx m => glMultMatrixx c m
  | .translatef x y z => glTranslatef c x y z
  | .scalef x y z => glScalef c x y z
  | .rotatef a x y z => glRotatef c a x y z
  | .frustumf left right bottom top zNear zFar => glFrustumf c left right bottom top zNear zFar
  | .orthof left right bottom top zNear zFar => glOrthof c left right bottom top zNear zFar
  | .pushMatrix => glPushMatrix c
  | .popMatrix => glPopMatrix c
  | .viewport x y w h => glViewport c x y w h
  | .depthRangef zNear zFar => glDepthRangef c zNear zFar
  | .vertexPointer size type stride => glVertexPointer c size type stride
  | .validate want => validateTransform c want
  | .draw want clipPlanes depthTest fog vertices =>
    let c := validateTransform c (drawWant want)
    if vertices then resolvePerspective c clipPlanes depthTest fog else c

/-- The state right after the validation a call makes, when it wants the product. -/
def validated (c : Context F) : Op F → Option (Context F)
  | .validate want => if want.mvp then some (validateTransform c want) else none
  | .draw want _ _ _ _ => some (validateTransform c (drawWant want))
  | _ => none

/-- A path is about to be selected for 4-component vertices under a 2D product. -/
def FourIn2D (c : Context F) : Prop :=
  (c.dirty.mvp = true ∨ c.perspective = .validate) ∧ c.vertexSize = 4 ∧
    is2D (toMatrixx (product c)) = true

/-- A depth range that changes the viewport matrix does not meet a current 2D product, and no
path is selected for 4-component vertices under a 2D product. -/
def Safe (c : Context F) : Op F → Prop
  | .depthRangef zNear zFar => c.dirty.mvp = false → c.mvp4.projection2D = true →
      depthMatrix c.vpt.matrix zNear zFar = c.vpt.matrix
  | .validate want => want.mvp = true → ¬FourIn2D c
  | .draw _ _ _ _ _ => ¬FourIn2D c
  | _ => True

omit [GLfloat F] in
theorem setStack_dirty (c : Context F) (s : MatrixStack F) : (c.setStack s).dirty = c.dirty := by
  unfold Context.setStack
  cases c.current <;> rfl

omit [GLfloat F] in
theorem invalidate_dirty (c : Context F) : (invalidate c).dirty.mvp = true := by
  unfold invalidate
  cases c.current <;> rfl

theorem inv_of_dirty {c : Context F} (h : c.dirty.mvp = true) : Inv c := by
  intro clean
  rw [h] at clean
  cases clean

theorem inv_modify (c : Context F) (f : MatrixStack F → MatrixStack F) : Inv (modify c f) :=
  inv_of_dirty (invalidate_dirty _)

theorem inv_setStack_modify (c : Context F) (f : MatrixStack F → MatrixStack F)
    (s : MatrixStack F) : Inv ((modify c f).setStack s) :=
  inv_of_dirty (by rw [setStack_dirty]; exact invalidate_dirty _)

theorem choosePerspective_eq_2D (clipPlanes depthTest fog : Bool) (size : Int) (flat : Bool) :
    choosePerspective clipPlanes depthTest fog size flat = .perspective2D ↔
      size ≠ 4 ∧ flat = true := by
  unfold choosePerspective
  by_cases both : size ≠ 4 ∧ flat = true
  · simp [both]
  · have not2D : (decide (size ≠ 4) && flat) = false := by simpa using both
    rw [if_neg (by rw [not2D]; exact Bool.false_ne_true)]
    simp only [both, iff_false]
    split_ifs <;> simp

theorem resolvePerspective_inv {c : Context F} (inv : Inv c) (clipPlanes depthTest fog : Bool)
    (size : c.perspective = .validate → c.vertexSize = 4 → c.mvp4.projection2D = false) :
    Inv (resolvePerspective c clipPlanes depthTest fog) := by
  unfold resolvePerspective
  split
  · rename_i unresolved
    intro clean
    have cached := inv clean
    refine ⟨cached.mvp4, cached.mvp, fun _ => (choosePerspective_eq_2D _ _ _ _ _).trans ?_⟩
    refine ⟨fun both => both.2, fun flat => ⟨fun four => ?_, flat⟩⟩
    rw [size unresolved four] at flat
    cases flat
  · exact inv

theorem size_of_validated {c : Context F} (inv : Inv c) (wanted : want.mvp = true)
    (safe : ¬FourIn2D c) : (validateTransform c want).perspective = .validate →
      (validateTransform c want).vertexSize = 4 →
      (validateTransform c want).mvp4.projection2D = false := by
  obtain ⟨cached, hproduct, hsize, hperspective⟩ := validateTransform_cached inv wanted
  intro unresolved four
  rw [cached.projection2D, hproduct, ← Bool.not_eq_true]
  exact fun flat => safe ⟨hperspective unresolved, hsize ▸ four, flat⟩

theorem inv_oglesError {c : Context F} (inv : Inv c) (error : GLenum) : Inv (oglesError c error) :=
  Same.inv (c := c) ⟨rfl, rfl, rfl, rfl, rfl, rfl, rfl⟩ inv

theorem cached_setViewport {c : Context F} (cached : Cached c) (vpt : Viewport F) (dirty : Bits)
    (h : c.mvp4.projection2D = false ∨ vpt.matrix = c.vpt.matrix) :
    Cached { c with vpt := vpt, dirty := dirty } := by
  refine ⟨cached.mvp4, cached.mvp.trans ?_, cached.chosen⟩
  rcases h with notFlat | same
  · rw [cached.projection2D] at notFlat
    exact (cached_of_not_flat notFlat).trans (cached_of_not_flat notFlat).symm
  · rw [same]
    rfl

theorem glViewport_inv {c : Context F} (inv : Inv c) (x y w h : Int) : Inv (glViewport c x y w h) := by
  unfold glViewport
  split_ifs
  · exact inv_oglesError inv _
  · intro clean
    obtain ⟨fresh, notFlat⟩ : c.dirty.mvp = false ∧ c.mvp4.projection2D = false := by
      simpa using clean
    exact cached_setViewport (inv fresh) _ _ (Or.inl notFlat)

theorem glDepthRangef_inv {c : Context F} (inv : Inv c) {zNear zFar : F}
    (safe : Safe c (.depthRangef zNear zFar)) : Inv (glDepthRangef c zNear zFar) := by
  intro fresh
  refine cached_setViewport (inv fresh) _ _ ?_
  rcases hflat : c.mvp4.projection2D
  · exact Or.inl rfl
  · exact Or.inr (safe fresh hflat)

theorem step_inv {c : Context F} (inv : Inv c) (op : Op F) (safe : Safe c op) : Inv (step c op) := by
  cases op with
  | matrixMode mode =>
    simp only [step, glMatrixMode]
    split_ifs
    · exact Same.inv (c := c) ⟨rfl, rfl, rfl, rfl, rfl, rfl, rfl⟩ inv
    · exact Same.inv (c := c) ⟨rfl, rfl, rfl, rfl, rfl, rfl, rfl⟩ inv
    · exact Same.inv (c := c) ⟨rfl, rfl, rfl, rfl, rfl, rfl, rfl⟩ inv
    · exact inv_oglesError inv _
  | loadIdentity => exact inv_setStack_modify _ _ _
  | loadMatrixf m | multMatrixf m | multMatrixx m | translatef x y z | scalef x y z
  | rotatef a x y z => exact inv_modify _ _
  | loadMatrixx m => exact inv_setStack_modify _ _ _
  | frustumf left right bottom top zNear zFar =>
    simp only [step, glFrustumf]
    split
    · exact inv_oglesError inv _
    · exact inv_modify _ _
  | orthof left right bottom top zNear zFar =>
    simp only [step, glOrthof]
    split
    · exact inv_oglesError inv _
    · exact inv_modify _ _
  | pushMatrix =>
    simp only [step, glPushMatrix]
    split
    · exact inv_oglesError inv _
    · exact inv_of_dirty (invalidate_dirty _)
  | popMatrix =>
    simp only [step, glPopMatrix]
    split
    · exact inv_oglesError inv _
    · exact inv_of_dirty (invalidate_dirty _)
  | viewport x y w h => exact glViewport_inv inv x y w h
  | depthRangef zNear zFar => exact glDepthRangef_inv inv safe
  | vertexPointer size type stride =>
    simp only [step, glVertexPointer]
    split_ifs
    · exact inv_oglesError inv _
    · exact fun clean => ⟨(inv clean).mvp4, (inv clean).mvp, (inv clean).chosen⟩
    · exact inv_oglesError inv _
  | validate want => exact validateTransform_inv inv want
  | draw want clipPlanes depthTest fog vertices =>
    have valid := validateTransform_inv inv (drawWant want)
    cases vertices
    · exact valid
    · exact resolvePerspective_inv valid _ _ _ (size_of_validated inv rfl safe)

theorem init_inv (activeUnit : Fin 2) (surface : Int × Int × Int)
    (inverse : Matrixf F → Matrixf F) : Inv (init activeUnit surface inverse) :=
  inv_of_dirty rfl

/-- Right after each validation of the product in a guarded run, the cached matrix is the
product of the current matrices, with the viewport factor exactly on the 2D path. -/
theorem mvp_coherent (activeUnit : Fin 2) (surface : Int × Int × Int)
    (inverse : Matrixf F → Matrixf F) (ops pre : List (Op F)) (op : Op F)
    (safe : Guarded step Safe (init activeUnit surface inverse) ops) (hpre : pre ++ [op] <+: ops) :
    ∀ c ∈ validated (run step (init activeUnit surface inverse) pre) op, MvpCoherent c := by
  have keeps (c : Context F) (op : Op F) (inv : Inv c) (ok : Safe c op) : Inv (step c op) :=
    step_inv inv op ok
  have inv : Inv (run step (init activeUnit surface inverse) pre) :=
    run_invariant_prefix keeps (init_inv activeUnit surface inverse) safe
      ((List.prefix_append pre [op]).trans hpre)
  have ok := safe.next hpre
  intro c hc
  cases op with
  | validate want =>
    simp only [validated] at hc
    split_ifs at hc with wanted
    · obtain rfl := Option.some_inj.mp hc
      exact (validateTransform_cached inv wanted).1.coherent (size_of_validated inv wanted (ok wanted))
    · cases hc
  | draw want clipPlanes depthTest fog vertices =>
    obtain rfl := Option.some_inj.mp hc
    exact (validateTransform_cached inv rfl).1.coherent (size_of_validated inv rfl ok)
  | _ => cases hc

-- The rationals, for concrete runs. The square root and the sine are not used in them.
instance : GLfloat ℚ where
  toFixed v := ⌊v * 65536 + 1 / 2⌋
  ofFixed v := v / 65536
  ofInt v := v
  mul2f v := v * 2
  div2f v := v / 2
  reciprocalf v := 1 / v
  sqrtf v := v
  sincosf v := (v, 1)
  degree := 1 / 57
  gtOne v := 1 < v
  clampToZerof v := max v 0
  isZerof v := v = 0
  isOnef v := v = 1
  cmpf v w := v = w
  eqf v w := v = w
  isZeroOrNegativef v := v ≤ 0

private abbrev start : Context ℚ := init 0 (0, 0, 240) id

/-- The first draw of a run with 2-component vertices. -/
theorem mvp_coherent_first_draw :
    ∃ c ∈ validated (run step start [.vertexPointer 2 GL.float 0])
      (.draw {} false false false true), MvpCoherent c :=
  ⟨_, rfl, mvp_coherent 0 (0, 0, 240) id
    [.vertexPointer 2 GL.float 0, .draw {} false false false true] [.vertexPointer 2 GL.float 0]
    (.draw {} false false false true)
    ⟨trivial, fun four => absurd four.2.1 (by decide), trivial⟩ (List.prefix_refl _) _ rfl⟩

/-- Identity matrices, a draw, then a depth range: the next validation keeps the old product. -/
theorem depth_range_leaves_mvp_stale :
    ∃ c ∈ validated (run step start [.vertexPointer 2 GL.float 0,
      .draw {} false false false true, .depthRangef 0 (1 / 2)]) (.validate { mvp := true }),
      ¬MvpCoherent c := by
  refine ⟨_, rfl, fun coherent => ?_⟩
  have entry := congrFun coherent 10
  revert entry
  decide +kernel

end RabbitRender.Matrix.Coherence
