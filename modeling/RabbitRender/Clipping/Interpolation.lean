/- RabbitRender/Clipping/Interpolation
   layer: result
   source: swrender/array.cpp, swrender/primitives.cpp
   digest: The orientation in which the clippers interpolate the parts of a new vertex. -/

import RabbitRender.Arrays.ColorRange

set_option autoImplicit false

namespace RabbitRender.Clipping.Interpolation

open Fixed Vertices
open Arrays.Compile (Pipeline)
open Arrays.ColorRange
open Arrays.Colors (clipTriangle)
open Primitives

section Vertices

variable (p : Pipeline) (plane : Plane) (cell near far : Vertex)

/-- `near` is inside of the plane and `far` is outside. -/
structure Cut : Prop where
  inside : 0 ≤ distance p plane near
  outside : distance p plane far < 0

/-- The clip parameter: the part of the way from `near` to `far` at which the plane is. -/
def parameter : Int :=
  clipDivide (distance p plane near) (distance p plane near - distance p plane far)

/-- The new vertex on the plane, in an entry that holds `cell`. -/
def meet : Vertex := clipAgainst p plane cell (parameter p plane near far) far near

/-- Every part of `v` that the draw call interpolates is `t` of the way from `near` to `far`. -/
structure Interpolated (t : Int) (v : Vertex) : Prop where
  clip : v.clip = clipVec4 t far.clip near.clip
  eye : v.obj = clipVec4 t far.obj near.obj
  color : p.smooth = true → v.color = clipVec4 t far.color near.color
  texture : ∀ i, (p.tmus && p.textureEnable i) = true →
    v.texture i = clipVec4 t (far.texture i) (near.texture i)
  fog : v.fog = gglMulAddx t (far.fog - near.fog) near.fog 28

end Vertices

/-- Interpolating the difference `d` gives the same value from either end: the part of it that is
added at `t`, rounded down to a word, is half of it, or half of what is left when one is rounded
off. -/
def Balanced (t d : Int) : Prop :=
  2 * wrap32 (t * d / 2 ^ 28) + (if t * d % 2 ^ 28 = 0 then 0 else 1) = d

instance (t d : Int) : Decidable (Balanced t d) := inferInstanceAs (Decidable (_ = _))

/-- The difference is an `int32_t`. -/
def Fits (d : Int) : Prop := |d| < 2 ^ 31

instance (d : Int) : Decidable (Fits d) := inferInstanceAs (Decidable (_ < _))

theorem exchange_iff {t a b : Int} (fits : Fits (a - b)) :
    gglMulAddx t (b - a) a 28 = gglMulAddx t (a - b) b 28 ↔ Balanced t (a - b) := by
  have shifted (x : Int) : x >>> (28 : Nat) = x / 2 ^ 28 := Int.shiftRight_eq_div_pow x 28
  have opposite : t * (b - a) = -(t * (a - b)) := by ring
  have range : |a - b| < 2 ^ 31 := fits
  have nothing : a - b = 0 → t * (a - b) = 0 := fun zero => by rw [zero, mul_zero]
  rw [abs_lt] at range
  unfold gglMulAddx Balanced wrap32
  rw [shifted, shifted, opposite]
  generalize t * (a - b) = x at nothing ⊢
  rw [Int.bmod_def, Int.bmod_def]
  split_ifs <;> omega

theorem product_bounds {t d : Int} (ht : 0 ≤ t ∧ t ≤ 2 ^ 28) :
    -|d| ≤ t * d / 2 ^ 28 ∧ t * d / 2 ^ 28 ≤ |d| := by
  have positive : (0 : Int) < 2 ^ 28 := by norm_num
  have low : -|d| * 2 ^ 28 ≤ t * d := by
    have := mul_le_mul_of_nonneg_left (neg_abs_le d) ht.1
    have := mul_le_mul_of_nonneg_right ht.2 (abs_nonneg d)
    linarith
  have high : t * d ≤ |d| * 2 ^ 28 := by
    have := mul_le_mul_of_nonneg_left (le_abs_self d) ht.1
    have := mul_le_mul_of_nonneg_right ht.2 (abs_nonneg d)
    linarith
  exact ⟨(Int.le_ediv_iff_mul_le positive).mpr low, Int.ediv_le_of_le_mul positive high⟩

/-- At a parameter between the ends: the difference is 0, or the parameter is a half, or both values
round to the same one. -/
theorem balanced_iff {t d : Int} (ht : 0 ≤ t ∧ t ≤ 2 ^ 28) (fits : Fits d) :
    Balanced t d ↔ d * (2 * t - 2 ^ 28) = 0 ∨ d % 2 = 1 ∧ |d * (2 * t - 2 ^ 28)| < 2 ^ 28 := by
  have bounds := product_bounds (d := d) ht
  have range : |d| < 2 ^ 31 := fits
  rw [Balanced, wrap32_of_bounds (by omega) (by omega), abs_lt,
    show d * (2 * t - 2 ^ 28) = 2 * (t * d) - 2 ^ 28 * d by ring]
  generalize t * d = x
  split_ifs <;> omega

def Balanced4 (t : Int) (far near : Vec4) : Prop :=
  Balanced t (far.x - near.x) ∧ Balanced t (far.y - near.y) ∧ Balanced t (far.z - near.z) ∧
    Balanced t (far.w - near.w)

instance (t : Int) (far near : Vec4) : Decidable (Balanced4 t far near) :=
  inferInstanceAs (Decidable (_ ∧ _ ∧ _ ∧ _))

def Fits4 (far near : Vec4) : Prop :=
  Fits (far.x - near.x) ∧ Fits (far.y - near.y) ∧ Fits (far.z - near.z) ∧ Fits (far.w - near.w)

instance (far near : Vec4) : Decidable (Fits4 far near) :=
  inferInstanceAs (Decidable (_ ∧ _ ∧ _ ∧ _))

theorem exchange4_iff {t : Int} {far near : Vec4} (fits : Fits4 far near) :
    clipVec4 t near far = clipVec4 t far near ↔ Balanced4 t far near := by
  obtain ⟨x, y, z, w⟩ := fits
  simp only [clipVec4, Vec4.mk.injEq, exchange_iff x, exchange_iff y, exchange_iff z, exchange_iff w,
    Balanced4]

section Planes

variable (p : Pipeline) (plane : Plane) (cell : Vertex) {near far : Vertex}

/-- The coordinates that the draw call interpolates differ by 32-bit integers. -/
structure FitsAll (near far : Vertex) : Prop where
  clip : Fits4 far.clip near.clip
  color : Fits4 far.color near.color
  texture : ∀ i, Fits4 (far.texture i) (near.texture i)
  fog : Fits (far.fog - near.fog)

/-- Exchanging the ends makes no difference to what the draw call interpolates. -/
structure BalancedAll (t : Int) (near far : Vertex) : Prop where
  clip : Balanced4 t far.clip near.clip
  color : p.smooth = true → Balanced4 t far.color near.color
  texture : ∀ i, (p.tmus && p.textureEnable i) = true → Balanced4 t (far.texture i) (near.texture i)
  fog : Balanced t (far.fog - near.fog)

/-- When the parts of a new vertex are interpolated alike: at a plane of the view volume nothing
computes an eye position, and at a user plane all parts but the eye position start at the wrong end. -/
def Alike (t : Int) (cell near far : Vertex) : Prop :=
  match plane with
  | .frustum _ => cell.obj = clipVec4 t far.obj near.obj
  | .user _ => BalancedAll p t near far

variable {p} {plane}

private theorem interpolated_frustum (i : Nat) (t : Int) (cell near far : Vertex) :
    Interpolated p near far t (clipAgainst p (.frustum i) cell t far near) ↔
      cell.obj = clipVec4 t far.obj near.obj := by
  constructor
  · exact fun h => h.eye
  · intro eye
    refine ⟨rfl, eye, ?_, ?_, rfl⟩
    · exact fun smooth => if_pos smooth
    · exact fun j used => if_pos used

private theorem interpolated_user (i : Nat) (t : Int) (cell : Vertex)
    (fits : FitsAll near far) :
    Interpolated p near far t (clipAgainst p (.user i) cell t far near) ↔
      BalancedAll p t near far := by
  have color (smooth : p.smooth = true) :
      (clipAgainst p (.user i) cell t far near).color = clipVec4 t near.color far.color :=
    if_pos smooth
  have texture (j : Fin 2) (used : (p.tmus && p.textureEnable j) = true) :
      (clipAgainst p (.user i) cell t far near).texture j =
        clipVec4 t (near.texture j) (far.texture j) :=
    if_pos used
  constructor
  · intro h
    refine ⟨(exchange4_iff fits.clip).mp h.clip, ?_, ?_, (exchange_iff fits.fog).mp h.fog⟩
    · intro smooth
      rw [← exchange4_iff fits.color, ← color smooth, h.color smooth]
    · intro j used
      rw [← exchange4_iff (fits.texture j), ← texture j used, h.texture j used]
  · intro h
    refine ⟨(exchange4_iff fits.clip).mpr h.clip, rfl, ?_, ?_, (exchange_iff fits.fog).mpr h.fog⟩
    · intro smooth
      rw [color smooth, (exchange4_iff fits.color).mpr (h.color smooth)]
    · intro j used
      rw [texture j used, (exchange4_iff (fits.texture j)).mpr (h.texture j used)]

end Planes

/-- A fogged vertex at a place, of which clip coordinates and eye position are the same. -/
def placed (x fog : Int) : Vertex :=
  { Vertex.zero with obj := ⟨x, 0, 0, 0x10000⟩, clip := ⟨x, 0, 0, 0x10000⟩, fog := fog }

/-- The user plane 0 is the plane `x = 0`. -/
def sliced : Pipeline :=
  { Pipeline.frustum (fun _ => ⟨0, 0, 0, 0⟩) with clipPlane := fun _ => ⟨0x10000, 0, 0, 0⟩ }

structure Between (low high v : Vec4) : Prop where
  x : low.x ≤ v.x ∧ v.x ≤ high.x
  y : low.y ≤ v.y ∧ v.y ≤ high.y
  z : low.z ≤ v.z ∧ v.z ≤ high.z
  w : low.w ≤ v.w ∧ v.w ≤ high.w

/-- What the draw call interpolates of `v` lies between that of `low` and `high`. -/
structure Within (p : Pipeline) (low high v : Vertex) : Prop where
  clip : Between low.clip high.clip v.clip
  color : p.smooth = true → Between low.color high.color v.color
  texture : ∀ i, (p.tmus && p.textureEnable i) = true →
    Between (low.texture i) (high.texture i) (v.texture i)
  fog : low.fog ≤ v.fog ∧ v.fog ≤ high.fog

/-- The vertices of all triangles lie between `low` and `high`. -/
def AllWithin (p : Pipeline) (low high : Vertex) (ts : List (Vertex × Vertex × Vertex)) : Prop :=
  ∀ t ∈ ts, Within p low high t.1 ∧ Within p low high t.2.1 ∧ Within p low high t.2.2

section Hull

variable {p : Pipeline} {low high : Vertex} {t : Int} (ht : 0 ≤ t ∧ t ≤ 2 ^ 28)

include ht

theorem between_clipVec4 {low high s q : Vec4} (fits : Fits4 high low) (hs : Between low high s)
    (hq : Between low high q) : Between low high (clipVec4 t s q) :=
  ⟨mulAdd_between ht hs.x hq.x (abs_lt.mp fits.1).2,
    mulAdd_between ht hs.y hq.y (abs_lt.mp fits.2.1).2,
    mulAdd_between ht hs.z hq.z (abs_lt.mp fits.2.2.1).2,
    mulAdd_between ht hs.w hq.w (abs_lt.mp fits.2.2.2).2⟩

theorem within_clipVertex (nv : Vertex) {s q : Vertex} (fits : FitsAll low high) (hs : Within p low high s)
    (hq : Within p low high q) : Within p low high (clipVertex p nv t s q) where
  clip := between_clipVec4 ht fits.clip hs.clip hq.clip
  color smooth := by
    rw [show (clipVertex p nv t s q).color = clipVec4 t s.color q.color from if_pos smooth]
    exact between_clipVec4 ht fits.color (hs.color smooth) (hq.color smooth)
  texture i used := by
    rw [show (clipVertex p nv t s q).texture i = clipVec4 t (s.texture i) (q.texture i) from
      if_pos used]
    exact between_clipVec4 ht (fits.texture i) (hs.texture i used) (hq.texture i used)
  fog := mulAdd_between ht hs.fog hq.fog (abs_lt.mp fits.fog).2

omit ht in
theorem keeps_within (fits : FitsAll low high) : Keeps p True (Within p low high) := by
  intro plane t s q ht hs hq
  cases plane with
  | frustum i => exact within_clipVertex (ht trivial) _ fits hs hq
  | user i =>
    -- `clipEye` hands its ends on the other way round; the eye position is none of the parts
    obtain ⟨clip, color, texture, fog⟩ :=
      within_clipVertex (ht trivial) Vertex.zero.clear fits hq hs
    exact ⟨clip, color, texture, fog⟩

end Hull

instance (p : Pipeline) (plane : Plane) (s q : Vertex) : Decidable (NearEdge p plane s q) :=
  inferInstanceAs (Decidable (_ → _))

private def corner (x y fog : Int) (flags : Flags) : Vertex :=
  { Vertex.zero with clip := ⟨x, y, 0, 0x10000⟩, fog := fog, flags := flags }

end RabbitRender.Clipping.Interpolation
