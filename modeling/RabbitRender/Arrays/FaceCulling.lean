/- RabbitRender/Arrays/FaceCulling
   layer: theorem
   source: swrender/primitives.cpp, swrender/state.cpp, include/gl_context.h
   digest: Which face of a triangle is culled: the sign of its exact area decides as long as twice
     the area fits 32 bits. -/

import RabbitRender.Primitives
import RabbitRender.Raster.Edges
import RabbitRender.Setters.Calls

set_option autoImplicit false

namespace RabbitRender.Arrays.FaceCulling

open RabbitRender.GL (GLenum)
open Fixed
open Raster.Edges (InRange)
open Raster.Trap (Vertex)

/-- `c->cull`; `glFrontFace` refuses every other winding. -/
structure Cull where
  enable : Bool
  cullFace : GLenum
  frontFace : GLenum
  winding : frontFace = GL.cw ∨ frontFace = GL.ccw

/-- `ogles_init_vertex` -/
def Cull.init : Cull := ⟨false, GL.back, GL.ccw, .inr rfl⟩

/-- A mode that `glCullFace` rejects is stored all the same. -/
def Cull.glCullFace (c : Cull) (mode : GLenum) : Cull := { c with cullFace := mode }

def Cull.glFrontFace (c : Cull) (mode : GLenum) : Cull :=
  if valid : mode = GL.cw ∨ mode = GL.ccw then { c with frontFace := mode, winding := valid } else c

/-- The faces and the winding that the context stores. -/
structure Stored {F : Type} (context : Setters.Calls.Context F) (c : Cull) : Prop where
  face : context.cullFace = c.cullFace
  winding : context.frontFace = c.frontFace

theorem Stored.glCullFace {F : Type} {context : Setters.Calls.Context F} {c : Cull}
    (stored : Stored context c) (mode : GLenum) :
    Stored (Setters.Calls.glCullFace context mode) (c.glCullFace mode) := by
  unfold Setters.Calls.glCullFace
  split_ifs <;> exact ⟨rfl, stored.winding⟩

theorem Stored.glFrontFace {F : Type} {context : Setters.Calls.Context F} {c : Cull}
    (stored : Stored context c) (mode : GLenum) :
    Stored (Setters.Calls.glFrontFace context mode) (c.glFrontFace mode) := by
  have listed : mode ∈ [GL.cw, GL.ccw] ↔ mode = GL.cw ∨ mode = GL.ccw := by simp
  unfold Setters.Calls.glFrontFace Cull.glFrontFace
  by_cases valid : mode = GL.cw ∨ mode = GL.ccw
  · rw [if_pos (listed.mpr valid), dif_pos valid]
    exact ⟨stored.face, rfl⟩
  · rw [if_neg (listed.not.mpr valid), dif_neg valid]
    exact ⟨stored.face, stored.winding⟩

/-- `m_area` of `initTriangle`, whose members have 32 bits. -/
def area (v0 v1 v2 : Vertex) : Int :=
  let dx01 := wrap32 (v1.x - v0.x)
  let dy10 := wrap32 (v0.y - v1.y)
  let dx20 := wrap32 (v0.x - v2.x)
  let dy02 := wrap32 (v2.y - v0.y)
  wrap32 (wrap32 (dx01 * dy02) + wrap32 (wrap32 (-dy10) * dx20))

/-- Cutting every member to 32 bits cuts the area to 32 bits. -/
theorem area_window (v0 v1 v2 : Vertices.Vertex) :
    area ⟨v0.window.x, v0.window.y⟩ ⟨v1.window.x, v1.window.y⟩ ⟨v2.window.x, v2.window.y⟩ =
      wrap32 (Primitives.area v0 v1 v2) := by
  have difference (a x d : Int) :
      (a + -x.bmod (2 ^ 32) * d).bmod (2 ^ 32) = (a + -x * d).bmod (2 ^ 32) := by
    rw [Int.neg_mul, Int.neg_mul, ← Int.sub_eq_add_neg, ← Int.sub_eq_add_neg,
      ← Int.sub_bmod_bmod, Int.bmod_mul_bmod, Int.sub_bmod_bmod]
  simp only [area, Primitives.area, wrap32, Int.bmod_mul_bmod, Int.mul_bmod_bmod,
    Int.bmod_add_bmod, Int.add_bmod_bmod]
  exact difference _ _ _

/-- `cull_triangle`, of a triangle with this area. -/
def cullTriangle (c : Cull) (area : Int) : Bool :=
  let winding := if area > 0 then GL.cw else GL.ccw
  let face := if winding = c.frontFace then GL.front else GL.back
  c.enable && face = c.cullFace

def exactArea (v0 v1 v2 : Vertex) : Int :=
  (v1.x - v0.x) * (v2.y - v0.y) - (v1.y - v0.y) * (v2.x - v0.x)

def Cull.Effective (c : Cull) : Prop :=
  c.enable = true ∧ (c.cullFace = GL.front ∨ c.cullFace = GL.back)

/-- The triangle is kept or dropped by the sign of its exact area, and a triangle with an area the
other way when it is reversed. -/
def CulledExactly (c : Cull) (v0 v1 v2 : Vertex) : Prop :=
  cullTriangle c (area v0 v1 v2) = cullTriangle c (exactArea v0 v1 v2) ∧
    (c.Effective → exactArea v0 v1 v2 ≠ 0 →
      cullTriangle c (area v2 v1 v0) = !cullTriangle c (area v0 v1 v2))

theorem exactArea_reverse (v0 v1 v2 : Vertex) : exactArea v2 v1 v0 = -exactArea v0 v1 v2 := by
  unfold exactArea
  ring

theorem area_eq {v0 v1 v2 : Vertex} (h0 : InRange v0) (h1 : InRange v1) (h2 : InRange v2) :
    area v0 v1 v2 = wrap32 (exactArea v0 v1 v2) := by
  obtain ⟨_, _, _, _⟩ := h0
  obtain ⟨_, _, _, _⟩ := h1
  obtain ⟨_, _, _, _⟩ := h2
  have fits (a b : Int) (ha : 0 ≤ a ∧ a < 2 ^ 16) (hb : 0 ≤ b ∧ b < 2 ^ 16) :
      wrap32 (a - b) = a - b := wrap32_of_bounds (by omega) (by omega)
  have back : wrap32 (-(v0.y - v1.y)) = v1.y - v0.y := by
    rw [neg_sub]
    exact fits _ _ (by omega) (by omega)
  simp only [area]
  rw [fits v1.x v0.x (by omega) (by omega), fits v0.y v1.y (by omega) (by omega),
    fits v0.x v2.x (by omega) (by omega), fits v2.y v0.y (by omega) (by omega), back,
    wrap32_add_left, wrap32_add_right]
  congr 1
  unfold exactArea
  ring

theorem mul_bounds {x : Int} (d : Int) (left : 0 ≤ x) (right : x < 2 ^ 16) :
    65535 * min 0 d ≤ x * d ∧ x * d ≤ 65535 * max 0 d := by
  rcases le_total 0 d with up | down
  · rw [min_eq_left up, max_eq_right up]
    have := mul_nonneg left up
    have := mul_le_mul_of_nonneg_right (show x ≤ 65535 by omega) up
    omega
  · rw [min_eq_right down, max_eq_left down]
    have := mul_nonpos_of_nonneg_of_nonpos left down
    have := mul_le_mul_of_nonpos_right (show x ≤ 65535 by omega) down
    omega

theorem exactArea_bounds {v0 v1 v2 : Vertex} (h0 : InRange v0) (h1 : InRange v1)
    (h2 : InRange v2) : -65535 ^ 2 ≤ exactArea v0 v1 v2 ∧ exactArea v0 v1 v2 ≤ 65535 ^ 2 := by
  have columns : exactArea v0 v1 v2 =
      v0.x * (v1.y - v2.y) + v1.x * (v2.y - v0.y) + v2.x * (v0.y - v1.y) := by
    unfold exactArea
    ring
  obtain ⟨left0, right0, top0, bottom0⟩ := h0
  obtain ⟨left1, right1, top1, bottom1⟩ := h1
  obtain ⟨left2, right2, top2, bottom2⟩ := h2
  have b0 := mul_bounds (v1.y - v2.y) left0 right0
  have b1 := mul_bounds (v2.y - v0.y) left1 right1
  have b2 := mul_bounds (v0.y - v1.y) left2 right2
  rw [columns]
  omega

variable {a : Int} {c : Cull}

theorem wrap32_pos_iff (low : -65535 ^ 2 ≤ a) (high : a ≤ 65535 ^ 2) :
    0 < wrap32 a ↔ (0 < a ∧ a < 2 ^ 31) ∨ a < -2 ^ 31 := by
  simp [wrap32, Int.bmod_def]
  omega

theorem cullTriangle_congr (c : Cull) {b : Int} (same : 0 < a ↔ 0 < b) :
    cullTriangle c a = cullTriangle c b := by
  simp only [cullTriangle, gt_iff_lt, same]

theorem cullTriangle_not (effective : c.Effective) {b : Int} (differ : ¬(0 < a ↔ 0 < b)) :
    cullTriangle c a = !cullTriangle c b := by
  obtain ⟨enable, cullFace⟩ := effective
  have winding := c.winding
  by_cases ha : 0 < a
  · have hb : ¬0 < b := fun hb => differ (iff_of_true ha hb)
    simp only [cullTriangle, gt_iff_lt, ha, hb, enable, Bool.true_and, if_true, if_false]
    rcases winding with front | front <;> rcases cullFace with face | face <;>
      simp only [front, face] <;> decide
  · have hb : 0 < b := by
      by_contra hb
      exact differ (iff_of_false ha hb)
    simp only [cullTriangle, gt_iff_lt, ha, hb, enable, Bool.true_and, if_true, if_false]
    rcases winding with front | front <;> rcases cullFace with face | face <;>
      simp only [front, face] <;> decide

theorem cullTriangle_eq_iff (effective : c.Effective) (a b : Int) :
    cullTriangle c a = cullTriangle c b ↔ (0 < a ↔ 0 < b) := by
  refine ⟨fun same => ?_, cullTriangle_congr c⟩
  by_contra differ
  rw [cullTriangle_not effective differ] at same
  exact Bool.not_ne_self _ same

theorem cullTriangle_ineffective (ineffective : ¬c.Effective) (a : Int) :
    cullTriangle c a = false := by
  by_contra culled
  rw [Bool.not_eq_false, cullTriangle, Bool.and_eq_true, decide_eq_true_eq] at culled
  obtain ⟨enable, face⟩ := culled
  refine ineffective ⟨enable, ?_⟩
  by_cases front : (if a > 0 then GL.cw else GL.ccw) = c.frontFace
  · rw [if_pos front] at face
    exact .inl face.symm
  · rw [if_neg front] at face
    exact .inr face.symm

/-- A triangle is culled exactly when no face is culled at all, or when twice its area fits 32 bits
in both directions. -/
theorem culledExactly_iff (c : Cull) {v0 v1 v2 : Vertex} (h0 : InRange v0) (h1 : InRange v1)
    (h2 : InRange v2) :
    CulledExactly c v0 v1 v2 ↔ (c.Effective → |exactArea v0 v1 v2| < 2 ^ 31) := by
  have bounds := exactArea_bounds h0 h1 h2
  have forwards := area_eq h0 h1 h2
  have reversed := area_eq h2 h1 h0
  rw [exactArea_reverse] at reversed
  unfold CulledExactly
  rw [forwards, reversed]
  generalize exactArea v0 v1 v2 = a at *
  obtain ⟨low, high⟩ := bounds
  have sign := wrap32_pos_iff low high
  have sign' := wrap32_pos_iff (a := -a) (by omega) (by omega)
  by_cases effective : c.Effective
  · rw [cullTriangle_eq_iff effective, forall_prop_of_true effective,
      forall_prop_of_true effective, sign, abs_lt]
    constructor
    · rintro ⟨exact, swaps⟩
      refine ⟨?_, by omega⟩
      by_contra least
      -- the least word is its own negative, so the reversed triangle has the same sign
      have same : cullTriangle c (wrap32 (-a)) = cullTriangle c (wrap32 a) :=
        cullTriangle_congr c (by omega)
      rw [swaps (by omega)] at same
      exact Bool.not_ne_self _ same
    · intro fits
      exact ⟨by omega, fun nonzero => cullTriangle_not effective (by omega)⟩
  · refine iff_of_true ⟨?_, fun h => absurd h effective⟩ fun h => absurd h effective
    rw [cullTriangle_ineffective effective, cullTriangle_ineffective effective]

def backCulled : Cull := { Cull.init with enable := true }

theorem culledExactly_iff_corner :
    CulledExactly backCulled ⟨0, 0⟩ ⟨160, 0⟩ ⟨0, 160⟩ ↔
      (backCulled.Effective → |exactArea ⟨0, 0⟩ ⟨160, 0⟩ ⟨0, 160⟩| < 2 ^ 31) :=
  culledExactly_iff backCulled (by decide) (by decide) (by decide)

/-- Half the screen, seen from its front, is dropped. -/
theorem halfScreen_dropped :
    InRange ⟨0, 0⟩ ∧ InRange ⟨0, 65535⟩ ∧ InRange ⟨65535, 65535⟩ ∧
      ¬CulledExactly backCulled ⟨0, 0⟩ ⟨0, 65535⟩ ⟨65535, 65535⟩ := by
  refine ⟨by decide, by decide, by decide, ?_⟩
  rintro ⟨exact, -⟩
  revert exact
  decide +kernel

end RabbitRender.Arrays.FaceCulling
