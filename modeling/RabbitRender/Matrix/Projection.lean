/- RabbitRender/Matrix/Projection
   layer: proof
   source: swrender/matrix.cpp
   digest: The matrices of glFrustum and glOrtho take the planes of the view volume to those of clip
     space; glFrustum only when the volume is centred horizontally. -/

import Mathlib.Tactic.Linarith
import Mathlib.Tactic.Positivity
import RabbitRender.Matrix.Stacks

set_option autoImplicit false

namespace RabbitRender.Matrix.Projection

open RabbitRender.Matrix.Stacks RabbitRender.Matrix.Transforms

inductive Builder where
  | frustum
  | ortho
deriving DecidableEq, Repr

structure Volume where
  left : ℚ
  right : ℚ
  bottom : ℚ
  top : ℚ
  zNear : ℚ
  zFar : ℚ
deriving DecidableEq

def matrixOf (v : Volume) : Builder → Option (Matrixf ℚ)
  | .frustum => frustum v.left v.right v.bottom v.top v.zNear v.zFar
  | .ortho => ortho v.left v.right v.bottom v.top v.zNear v.zFar

/-- `glFrustum` or `glOrtho` -/
def build (c : Context ℚ) (v : Volume) : Builder → Context ℚ
  | .frustum => glFrustumf c v.left v.right v.bottom v.top v.zNear v.zFar
  | .ortho => glOrthof c v.left v.right v.bottom v.top v.zNear v.zFar

structure Valid (v : Volume) (b : Builder) : Prop where
  width : v.left ≠ v.right
  height : v.bottom ≠ v.top
  depth : v.zNear ≠ v.zFar
  ahead : b = .frustum → 0 < v.zNear ∧ 0 < v.zFar

structure Point where
  x : ℚ
  y : ℚ
  z : ℚ
  w : ℚ

/-- `point4__generic` -/
def point4 (m : Matrixf ℚ) (p : Point) : Point :=
  ⟨m 0 * p.x + m 4 * p.y + m 8 * p.z + m 12 * p.w, m 1 * p.x + m 5 * p.y + m 9 * p.z + m 13 * p.w,
    m 2 * p.x + m 6 * p.y + m 10 * p.z + m 14 * p.w,
    m 3 * p.x + m 7 * p.y + m 11 * p.z + m 15 * p.w⟩

inductive Plane where
  | left
  | right
  | bottom
  | top
  | near
  | far
deriving DecidableEq, Repr

/-- The point is on a plane of the view volume. The sides of a frustum meet in the eye and have
their positions at distance `zNear`. -/
def OnVolume (v : Volume) (b : Builder) (p : Point) : Plane → Prop
  | .left => if b = .frustum then v.zNear * p.x = -v.left * p.z else p.x = v.left * p.w
  | .right => if b = .frustum then v.zNear * p.x = -v.right * p.z else p.x = v.right * p.w
  | .bottom => if b = .frustum then v.zNear * p.y = -v.bottom * p.z else p.y = v.bottom * p.w
  | .top => if b = .frustum then v.zNear * p.y = -v.top * p.z else p.y = v.top * p.w
  | .near => p.z = -v.zNear * p.w
  | .far => p.z = -v.zFar * p.w

def OnClip (p : Point) : Plane → Prop
  | .left => p.x = -p.w
  | .right => p.x = p.w
  | .bottom => p.y = -p.w
  | .top => p.y = p.w
  | .near => p.z = -p.w
  | .far => p.z = p.w

/-- The matrix takes each plane of the view volume to that plane of the clip volume. -/
def MapsPlanes (m : Matrixf ℚ) (v : Volume) (b : Builder) : Prop :=
  ∀ plane p, OnVolume v b p plane ↔ OnClip (point4 m p) plane

def Projects (v : Volume) (b : Builder) : Prop :=
  ∃ m, matrixOf v b = some m ∧
    (∀ c : Context ℚ, (build c v b).stack.top = multiply c.stack.top m) ∧ MapsPlanes m v b

theorem multiply_top (s : MatrixStack ℚ) (m : Matrixf ℚ) :
    (s.multiply m).top = multiply s.top m := Function.update_self ..

variable {v : Volume} {m : Matrixf ℚ}

theorem build_top (c : Context ℚ) {b : Builder} (built : matrixOf v b = some m) :
    (build c v b).stack.top = multiply c.stack.top m := by
  have onTop : (modify c (·.multiply m)).stack.top = multiply c.stack.top m := by
    have kept : (Transforms.modify c (·.multiply m)).current = c.current := by
      unfold Transforms.modify invalidate Context.setStack
      cases c.current <;> rfl
    have touched : (c.setStack (c.stack.multiply m)).current = c.current := by
      unfold Context.setStack
      cases c.current <;> rfl
    rw [stack_eq, kept, Transforms.modify, stackOf_invalidate, if_pos touched, stackOf_setStack,
      if_pos rfl]
    exact multiply_top c.stack m
  cases b with
  | frustum =>
    have accepted : frustum v.left v.right v.bottom v.top v.zNear v.zFar = some m := built
    rw [build, glFrustumf, accepted]
    exact onTop
  | ortho =>
    have accepted : ortho v.left v.right v.bottom v.top v.zNear v.zFar = some m := built
    rw [build, glOrthof, accepted]
    exact onTop

@[simp] theorem mul2f_exact (x : ℚ) : GLfloat.mul2f x = x * 2 := rfl

@[simp] theorem reciprocalf_exact (x : ℚ) : GLfloat.reciprocalf x = 1 / x := rfl

@[simp] theorem cmpf_exact (x y : ℚ) : GLfloat.cmpf x y = decide (x = y) := rfl

@[simp] theorem isZeroOrNegativef_exact (x : ℚ) :
    GLfloat.isZeroOrNegativef x = decide (x ≤ 0) := rfl

structure Apart (v : Volume) : Prop where
  width : v.right - v.left ≠ 0
  height : v.top - v.bottom ≠ 0
  depth : v.zFar - v.zNear ≠ 0

theorem Valid.apart {b : Builder} (valid : Valid v b) : Apart v :=
  ⟨sub_ne_zero.mpr valid.width.symm, sub_ne_zero.mpr valid.height.symm,
    sub_ne_zero.mpr valid.depth.symm⟩

theorem frustum_point4 (valid : Valid v .frustum) :
    ∃ m, matrixOf v .frustum = some m ∧ ∀ p, point4 m p =
      ⟨(2 * v.zNear * p.x + 2 * (v.right + v.left) * p.z) / (v.right - v.left),
        (2 * v.zNear * p.y + (v.top + v.bottom) * p.z) / (v.top - v.bottom),
        ((v.zFar + v.zNear) * p.z + 2 * v.zFar * v.zNear * p.w) / (v.zNear - v.zFar), -p.z⟩ := by
  obtain ⟨near, far⟩ := valid.ahead rfl
  refine ⟨_, if_neg ?_, fun p => ?_⟩
  · simp [valid.width, valid.height.symm, valid.depth, near, far]
  · simp [point4, ofColumns]
    exact ⟨by ring, by ring, by ring⟩

theorem ortho_point4 (valid : Valid v .ortho) :
    ∃ m, matrixOf v .ortho = some m ∧ ∀ p, point4 m p =
      ⟨(2 * p.x - (v.right + v.left) * p.w) / (v.right - v.left),
        (2 * p.y - (v.top + v.bottom) * p.w) / (v.top - v.bottom),
        -(2 * p.z + (v.zFar + v.zNear) * p.w) / (v.zFar - v.zNear), p.w⟩ := by
  refine ⟨_, if_neg ?_, fun p => ?_⟩
  · simp [valid.width, valid.height.symm, valid.depth]
  · simp [point4, ofColumns]
    exact ⟨by ring, by ring, by ring⟩

theorem ortho_maps (apart : Apart v)
    (clip : ∀ p, point4 m p = ⟨(2 * p.x - (v.right + v.left) * p.w) / (v.right - v.left),
      (2 * p.y - (v.top + v.bottom) * p.w) / (v.top - v.bottom),
      -(2 * p.z + (v.zFar + v.zNear) * p.w) / (v.zFar - v.zNear), p.w⟩) :
    MapsPlanes m v .ortho := by
  obtain ⟨width, height, depth⟩ := apart
  intro plane p
  rw [clip]
  cases plane with
  | left | right =>
    simp only [OnVolume, OnClip, reduceCtorEq, if_false, div_eq_iff width]
    constructor <;> intro h <;> linarith
  | bottom | top =>
    simp only [OnVolume, OnClip, reduceCtorEq, if_false, div_eq_iff height]
    constructor <;> intro h <;> linarith
  | near | far =>
    simp only [OnVolume, OnClip, div_eq_iff depth]
    constructor <;> intro h <;> linarith

theorem frustum_maps_others (valid : Valid v .frustum)
    (clip : ∀ p, point4 m p =
      ⟨(2 * v.zNear * p.x + 2 * (v.right + v.left) * p.z) / (v.right - v.left),
        (2 * v.zNear * p.y + (v.top + v.bottom) * p.z) / (v.top - v.bottom),
        ((v.zFar + v.zNear) * p.z + 2 * v.zFar * v.zNear * p.w) / (v.zNear - v.zFar), -p.z⟩)
    {plane : Plane} (notLeft : plane ≠ .left) (notRight : plane ≠ .right) (p : Point) :
    OnVolume v .frustum p plane ↔ OnClip (point4 m p) plane := by
  obtain ⟨-, height, -⟩ := valid.apart
  obtain ⟨near, far⟩ := valid.ahead rfl
  have depth : v.zNear - v.zFar ≠ 0 := sub_ne_zero.mpr valid.depth
  rw [clip]
  cases plane with
  | left => exact absurd rfl notLeft
  | right => exact absurd rfl notRight
  | bottom | top =>
    simp only [OnVolume, OnClip, if_true, div_eq_iff height]
    constructor <;> intro h <;> linarith
  | near =>
    simp only [OnVolume, OnClip, div_eq_iff depth]
    refine ⟨fun h => by rw [h]; ring, fun h => ?_⟩
    have scaled : 2 * v.zFar * p.z = 2 * v.zFar * (-v.zNear * p.w) := by linarith
    exact mul_left_cancel₀ (by positivity) scaled
  | far =>
    simp only [OnVolume, OnClip, div_eq_iff depth]
    refine ⟨fun h => by rw [h]; ring, fun h => ?_⟩
    have scaled : 2 * v.zNear * p.z = 2 * v.zNear * (-v.zFar * p.w) := by linarith
    exact mul_left_cancel₀ (by positivity) scaled

theorem frustum_maps_iff (valid : Valid v .frustum)
    (clip : ∀ p, point4 m p =
      ⟨(2 * v.zNear * p.x + 2 * (v.right + v.left) * p.z) / (v.right - v.left),
        (2 * v.zNear * p.y + (v.top + v.bottom) * p.z) / (v.top - v.bottom),
        ((v.zFar + v.zNear) * p.z + 2 * v.zFar * v.zNear * p.w) / (v.zNear - v.zFar), -p.z⟩) :
    MapsPlanes m v .frustum ↔ v.left + v.right = 0 := by
  obtain ⟨width, -, -⟩ := valid.apart
  have near : v.zNear ≠ 0 := (valid.ahead rfl).1.ne'
  constructor
  · intro maps
    -- the point of the left plane one unit in front of the eye
    have left := maps .left ⟨v.left / v.zNear, 0, -1, 1⟩
    rw [clip] at left
    simp only [OnVolume, OnClip, if_true, div_eq_iff width] at left
    have onPlane : v.zNear * (v.left / v.zNear) = -v.left * -1 := by
      rw [mul_div_cancel₀ _ near]
      ring
    have onClip := left.mp onPlane
    have twice : 2 * v.zNear * (v.left / v.zNear) = 2 * v.left := by
      rw [mul_assoc, mul_div_cancel₀ _ near]
    linarith
  · intro centred plane p
    by_cases left : plane = .left
    · subst left
      have symmetric : v.right = -v.left := by linarith
      rw [symmetric] at width
      simp only [clip, OnVolume, OnClip, if_true, div_eq_iff width, symmetric]
      constructor <;> intro h <;> linarith
    · by_cases right : plane = .right
      · subst right
        have symmetric : v.left = -v.right := by linarith
        rw [symmetric] at width
        simp only [clip, OnVolume, OnClip, if_true, div_eq_iff width, symmetric]
        constructor <;> intro h <;> linarith
      · exact frustum_maps_others valid clip left right p

/-- `glOrtho` projects every view volume, `glFrustum` those that are centred horizontally: it
doubles the entry that shifts the others. -/
theorem projects_iff (v : Volume) (b : Builder) (valid : Valid v b) :
    Projects v b ↔ (b = .frustum → v.left + v.right = 0) := by
  cases b with
  | ortho =>
    obtain ⟨m, built, clip⟩ := ortho_point4 valid
    refine iff_of_true ⟨m, built, fun c => build_top c built, ortho_maps valid.apart clip⟩ ?_
    exact fun h => absurd h (by decide)
  | frustum =>
    obtain ⟨m, built, clip⟩ := frustum_point4 valid
    rw [forall_prop_of_true rfl, ← frustum_maps_iff valid clip]
    constructor
    · rintro ⟨m', built', -, maps⟩
      exact Option.some_inj.mp (built.symm.trans built') ▸ maps
    · exact fun maps => ⟨m, built, fun c => build_top c built, maps⟩

def unitVolume : Volume := ⟨-1, 1, -1, 1, 1, 2⟩

theorem projects_unitVolume :
    Valid unitVolume .frustum ∧ (Projects unitVolume .frustum ↔
      (Builder.frustum = .frustum → unitVolume.left + unitVolume.right = 0)) :=
  have valid : Valid unitVolume .frustum :=
    ⟨by decide +kernel, by decide +kernel, by decide +kernel, fun _ => by decide +kernel⟩
  ⟨valid, projects_iff unitVolume .frustum valid⟩

/-- The left half of the same volume is moved too far. -/
theorem frustum_misses_offCentre :
    Valid ⟨0, 1, -1, 1, 1, 2⟩ .frustum ∧ ¬Projects ⟨0, 1, -1, 1, 1, 2⟩ .frustum := by
  have valid : Valid ⟨0, 1, -1, 1, 1, 2⟩ .frustum :=
    ⟨by decide +kernel, by decide +kernel, by decide +kernel, fun _ => by decide +kernel⟩
  refine ⟨valid, ?_⟩
  rintro ⟨m, built, -, maps⟩
  obtain ⟨m', built', clip⟩ := frustum_point4 valid
  obtain rfl : m' = m := Option.some_inj.mp (built'.symm.trans built)
  have centred := (frustum_maps_iff valid clip).mp maps
  norm_num at centred

end RabbitRender.Matrix.Projection
