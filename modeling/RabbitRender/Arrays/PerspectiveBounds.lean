/- RabbitRender/Arrays/PerspectiveBounds
   layer: theorem
   source: swrender/vertex.cpp, swrender/matrix.cpp, libpixelflinger/fixed.cpp
   digest: A vertex inside of the view volume is projected into the viewport exactly if its w is at
     least one half. -/

import RabbitRender.Arrays.Compile
import RabbitRender.Matrix.Coherence
import RabbitRender.Reciprocals

set_option autoImplicit false

namespace RabbitRender.Arrays.PerspectiveBounds

open Fixed Vertices RabbitRender.Matrix.Transforms Arrays.Compile Reciprocals

structure Rect where
  left : Int
  top : Int
  width : Int
  height : Int

/-- The rectangle of `ogles_viewport`: the origin of the surface is added, rows count from the
top. -/
def viewportRect (surface : Int × Int × Int) (x y w h : Int) : Rect :=
  ⟨x + surface.1, surface.2.2 - h - (y + surface.2.1), w, h⟩

/-- With a pixel around it, the rectangle has 16.16 coordinates. -/
def Rect.Fixed (r : Rect) : Prop :=
  (-2 ^ 15 ≤ r.left - 1 ∧ r.left + r.width + 1 < 2 ^ 15) ∧
    -2 ^ 15 ≤ r.top - 1 ∧ r.top + r.height + 1 < 2 ^ 15

/-- The counts of the shifts in `gglRecipQ`, with the width of the word that is shifted. -/
def recipShifts (x q : Int) : List (Int × Int) :=
  (if x.natAbs ≤ 2 then [] else [((gglClz x.natAbs : Int), 32)]) ++
    [(shift x q - 1, 64), (shift x q, 32)]

/-- A window coordinate before `TRI_FROM_FIXED`. -/
def fixedWindow (rw x scale origin : Int) : Int := gglMulAddx (gglMulx x rw 16) scale origin 28

def Word (x : Int) : Prop := -2 ^ 31 ≤ x ∧ x < 2 ^ 31

/-- The vertex is divided by a positive `w`, with shifts in range, and lands in the rectangle or
less than a pixel beside it. -/
structure Projects (p : Pipeline) (depth : Bool) (r : Rect) (v : Vertex) : Prop where
  positive : 0 < v.clip.w
  shifts : ∀ s ∈ recipShifts v.clip.w 28, 0 ≤ s.1 ∧ s.1 < s.2
  x : 16 * (r.left - 1) ≤ (p.project depth v).window.x ∧
    (p.project depth v).window.x ≤ 16 * (r.left + r.width + 1)
  y : 16 * (r.top - 1) ≤ (p.project depth v).window.y ∧
    (p.project depth v).window.y ≤ 16 * (r.top + r.height + 1)
  sums : Word (fixedWindow (gglRecip28 v.clip.w) v.clip.x (p.viewport 0) (p.viewport 12)) ∧
    Word (fixedWindow (gglRecip28 v.clip.w) v.clip.y (p.viewport 5) (p.viewport 13))

theorem inside_of_frustumClip {clip : Vec4} (inside : clip.frustumClip = 0) :
    (-clip.w ≤ clip.x ∧ clip.x ≤ clip.w) ∧ -clip.w ≤ clip.y ∧ clip.y ≤ clip.w := by
  unfold Vec4.frustumClip at inside
  split_ifs at inside <;> first | (refine ⟨⟨?_, ?_⟩, ?_, ?_⟩ <;> omega) | exact absurd inside (by decide)

private theorem entry_half {q : ℚ} (n : Int) (half : q = n / 2) :
    (if GLfloat.isZerof q then 0 else GLfloat.toFixed q) = n * 2 ^ 15 := by
  have fixed : GLfloat.toFixed q = n * 2 ^ 15 := by
    show ⌊q * 65536 + 1 / 2⌋ = n * 2 ^ 15
    rw [Int.floor_eq_iff, half]
    push_cast
    constructor <;> linarith
  split_ifs with zero
  · have none : (n : ℚ) = 0 := by
      have value : q = 0 := of_decide_eq_true zero
      linarith
    have zero' : n = 0 := by exact_mod_cast none
    rw [zero', Int.zero_mul]
  · exact fixed

variable {x w : Int}

theorem viewport_entries (c : Context ℚ) {y h : Int} (width : 0 ≤ w) (height : 0 ≤ h) :
    let m := toMatrixx (glViewport c x y w h).vpt.matrix
    let r := viewportRect c.surface x y w h
    m 0 = r.width * 2 ^ 15 ∧ m 12 = (2 * r.left + r.width) * 2 ^ 15 ∧
      m 5 = -r.height * 2 ^ 15 ∧ m 13 = (2 * r.top + r.height) * 2 ^ 15 := by
  have valid : ¬(w < 0 ∨ h < 0) := by omega
  intro m r
  refine ⟨entry_half r.width ?_, entry_half (2 * r.left + r.width) ?_, entry_half (-r.height) ?_,
    entry_half (2 * r.top + r.height) ?_⟩
  · simp only [glViewport, if_neg valid]
    rfl
  · simp only [glViewport, if_neg valid]
    show (w : ℚ) / 2 + ((x + c.surface.1 : Int) : ℚ) = _
    push_cast [r, viewportRect]
    ring
  · simp only [glViewport, if_neg valid]
    show -((h : ℚ) / 2) = _
    push_cast [r, viewportRect]
    ring
  · simp only [glViewport, if_neg valid]
    show (h : ℚ) / 2 - ((y + c.surface.2.1 : Int) : ℚ) + ((c.surface.2.2 - h : Int) : ℚ) = _
    push_cast [r, viewportRect]
    ring

theorem ndc_bounds (large : 2 ^ 15 ≤ w) (word : w < 2 ^ 31) (low : -w ≤ x) (high : x ≤ w) :
    let ndc := gglMulx x (gglRecip28 w) 16
    ndc ≤ 2 ^ 28 + 2 ^ 14 + 2 ∧ -(2 ^ 28 + 2 ^ 14 + 2) ≤ ndc := by
  intro ndc
  have size : (w.natAbs : Int) = w := by omega
  obtain ⟨upper, lower⟩ := gglRecip28_near (x := w) (by omega) (by omega)
  rw [size] at upper lower
  have positive : 0 < gglRecip28 w := by
    by_contra negative
    have product := mul_nonpos_of_nonneg_of_nonpos (show 0 ≤ w by omega) (not_lt.mp negative)
    omega
  have right := mul_le_mul_of_nonneg_right high positive.le
  have left := mul_le_mul_of_nonneg_right low positive.le
  rw [neg_mul] at left
  have shifted : ndc = wrap32 ((x * gglRecip28 w + 2 ^ 15) / 2 ^ 16) := by
    show wrap32 ((x * gglRecip28 w + 2 ^ (16 - 1)) >>> (16 : Nat)) = _
    rw [Int.shiftRight_eq_div_pow]
    rfl
  rw [shifted, wrap32_of_bounds (by omega) (by omega)]
  omega

theorem fixedWindow_bounds {left length scale origin : Int} (large : 2 ^ 15 ≤ w) (word : w < 2 ^ 31)
    (low : -w ≤ x) (high : x ≤ w) (short : 0 ≤ length ∧ length ≤ 4096)
    (scales : scale = length * 2 ^ 15 ∨ scale = -length * 2 ^ 15)
    (place : origin = (2 * left + length) * 2 ^ 15) :
    left * 2 ^ 16 - 2 ^ 14 ≤ fixedWindow (gglRecip28 w) x scale origin ∧
      fixedWindow (gglRecip28 w) x scale origin ≤ (left + length) * 2 ^ 16 + 2 ^ 14 := by
  obtain ⟨above, below⟩ := ndc_bounds large word low high
  set ndc := gglMulx x (gglRecip28 w) 16 with quotient
  have product : -(length * (2 ^ 28 + 2 ^ 14 + 2)) ≤ length * ndc ∧
      length * ndc ≤ length * (2 ^ 28 + 2 ^ 14 + 2) := by
    constructor
    · rw [← mul_neg]
      exact mul_le_mul_of_nonneg_left below short.1
    · exact mul_le_mul_of_nonneg_left above short.1
  have value : fixedWindow (gglRecip28 w) x scale origin =
      wrap32 (ndc * scale / 2 ^ 28) + (2 * left + length) * 2 ^ 15 := by
    rw [place]
    show wrap32 ((ndc * scale) >>> (28 : Nat)) + _ = _
    rw [Int.shiftRight_eq_div_pow]
    rfl
  rcases scales with rfl | rfl
  · have term : ndc * (length * 2 ^ 15) = length * ndc * 2 ^ 15 := by ring
    rw [value, term, wrap32_of_bounds (by omega) (by omega)]
    omega
  · have term : ndc * (-length * 2 ^ 15) = -(length * ndc * 2 ^ 15) := by ring
    rw [value, term, wrap32_of_bounds (by omega) (by omega)]
    omega

theorem triFromFixed_bounds {v low high : Int} (below : low * 2 ^ 16 - 2 ^ 14 ≤ v)
    (above : v ≤ high * 2 ^ 16 + 2 ^ 14) :
    16 * (low - 1) ≤ triFromFixed v ∧ triFromFixed v ≤ 16 * (high + 1) := by
  unfold triFromFixed
  rw [Int.shiftRight_eq_div_pow]
  omega

theorem word_of_bounds {v low high : Int} (below : low * 2 ^ 16 - 2 ^ 14 ≤ v)
    (above : v ≤ high * 2 ^ 16 + 2 ^ 14) (least : -2 ^ 15 ≤ low - 1) (most : high + 1 < 2 ^ 15) :
    Word v := ⟨by omega, by omega⟩

theorem recipShifts_iff (nonnegative : 0 ≤ w) (word : w < 2 ^ 31) :
    (∀ s ∈ recipShifts w 28, 0 ≤ s.1 ∧ s.1 < s.2) ↔ 2 ^ 15 ≤ w := by
  obtain ⟨positive, most⟩ := shift28_bounds (x := w) (by omega)
  unfold recipShifts
  constructor
  · intro all
    have last := all (shift w 28 - 1, 64)
      (List.mem_append_right _ List.mem_cons_self)
    have large := positive.mp (by omega)
    omega
  · intro large
    have count := positive.mpr (by omega)
    have zeros : gglClz w.natAbs < 32 := by
      unfold gglClz
      split_ifs <;> omega
    intro s member
    rw [if_neg (by omega)] at member
    simp only [List.cons_append, List.nil_append, List.mem_cons, List.not_mem_nil, or_false]
      at member
    rcases member with rfl | rfl | rfl
    · exact ⟨Int.natCast_nonneg _, Int.ofNat_lt.mpr zeros⟩
    · exact ⟨by omega, by omega⟩
    · exact ⟨by omega, by omega⟩

/-- A vertex that no plane of the view volume clips is projected into the viewport, by shifts in
range, exactly if its `w` is one half at least. -/
theorem projects_large_iff (c : Context ℚ) {x y w h : Int} (width : 0 ≤ w ∧ w ≤ 4096)
    (height : 0 ≤ h ∧ h ≤ 4096) (fixed : (viewportRect c.surface x y w h).Fixed) {p : Pipeline}
    (viewport : p.viewport = toMatrixx (glViewport c x y w h).vpt.matrix) (depth : Bool)
    {v : Vertex} (word : v.clip.w < 2 ^ 31) (inside : v.clip.frustumClip = 0) :
    Projects p depth (viewportRect c.surface x y w h) v ↔ 2 ^ 15 ≤ v.clip.w := by
  obtain ⟨⟨left, right⟩, bottom, top⟩ := inside_of_frustumClip inside
  have shifts := recipShifts_iff (w := v.clip.w) (by omega) word
  refine ⟨fun projects => shifts.mp projects.shifts, fun large => ?_⟩
  obtain ⟨m0, m12, m5, m13⟩ := viewport_entries c (x := x) (y := y) width.1 height.1
  rw [← viewport] at m0 m12 m5 m13
  have columns := fixedWindow_bounds large word left right width (.inl m0) m12
  have rows := fixedWindow_bounds large word bottom top height (.inr m5) m13
  refine ⟨by omega, shifts.mpr large, triFromFixed_bounds columns.1 columns.2,
    triFromFixed_bounds rows.1 rows.2, ?_, ?_⟩
  · exact word_of_bounds columns.1 columns.2 fixed.1.1 fixed.1.2
  · exact word_of_bounds rows.1 rows.2 fixed.2.1 fixed.2.2

private def centred (w : Int) : Vertex :=
  { Vertex.zero with clip := ⟨w, -w, 0, w⟩ }

private def small : Pipeline :=
  { Pipeline.flat (fun _ => ⟨0, 0, 0, 0⟩) with
    viewport := toMatrixx (glViewport (init 0 (0, 0, 240) id : Context ℚ) 0 0 320 240).vpt.matrix }

theorem projects_corner :
    Projects small false (viewportRect (0, 0, 240) 0 0 320 240) (centred 0x18000) ↔
      2 ^ 15 ≤ (centred 0x18000).clip.w :=
  projects_large_iff (init 0 (0, 0, 240) id) (by decide) (by decide)
    ⟨by decide, by decide⟩ rfl false (by decide) (by decide)

/-- The origin of clip coordinates is inside of all planes, with a `w` of zero. -/
theorem projects_zero :
    (centred 0).clip.frustumClip = 0 ∧
      ¬Projects small false (viewportRect (0, 0, 240) 0 0 320 240) (centred 0) :=
  ⟨by decide, fun projects => absurd projects.positive (by decide)⟩

end RabbitRender.Arrays.PerspectiveBounds
