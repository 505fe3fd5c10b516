/- RabbitRender/Raster/Points
   layer: theorem
   source: libpixelflinger/trap.cpp, swrender/state.cpp
   digest: Anti-aliased points: the coverage of their pixels, and when the ring that is interpolated
     over has no width. -/

import Mathlib.Tactic.Linarith
import Mathlib.Tactic.Ring
import RabbitRender.Raster.Antialiased
import RabbitRender.Setters.Calls

set_option autoImplicit false

namespace RabbitRender.Raster.Points

open Fixed
open Raster.Antialiased (int16)
open Raster.Trap (Vertex Scissor)

/-- `glPointSizex`: the size in 28.4, if it is accepted. -/
def glPointSizex (size : Int32) : Option Int :=
  if size.toInt ≤ 0 then none else some (wrap32 (size.toInt + 2 ^ 11) >>> (12 : Nat))

/-- What the context stores, as long as the size can be rounded in 32 bits. -/
theorem glPointSizex_stored {F : Type} (c : Setters.Calls.Context F) {size : Int32}
    (fits : size.toInt + 2 ^ 11 < 2 ^ 31) : Setters.Calls.glPointSizex c size.toInt =
      match glPointSizex size with
      | none => Setters.Calls.oglesError c GL.invalidEnum
      | some stored => { c with pointSize := stored } := by
  have low := size.le_toInt
  unfold Setters.Calls.glPointSizex glPointSizex
  split_ifs with rejected
  · rfl
  · rw [wrap32_of_bounds (by omega) fits]
    rfl

/-- The pixels of one axis, from `first` on and before `last`, and where the centre of the first
one is from the point. -/
structure Axis where
  first : Int
  last : Int
  start : Int
deriving DecidableEq, Repr

/-- The pixels a point of radius `rad` touches on one axis, inside the scissor. -/
def axis (near far v rad : Int) : Axis :=
  let l := wrap32 (v - rad) >>> (4 : Nat)
  let r := wrap32 (wrap32 (v + rad) + (triOne - 1)) >>> (4 : Nat)
  let start := wrap32 (wrap32 (wrap32 (l * 2 ^ 4) - v) + triHalf)
  let clipped : Int × Int :=
    if l < near then (near, wrap32 (start + wrap32 (wrap32 (near - l) * 2 ^ 4))) else (l, start)
  ⟨clipped.1, if r > far then far else r, clipped.2⟩

/-- `rmin`, `rmax` and `scale`: the coverage falls between two squared radii. -/
structure Ring where
  rmin : Int
  rmax : Int
  scale : Int
deriving DecidableEq, Repr

/-- The ring of width `sqrt(2)` around the circle; without a width it cannot be scaled. -/
def ring (rad : Int) : Option Ring :=
  let rad := wrap32 (rad * 2 ^ 4)
  let sqr2Over2 : Int := 0xB5
  let rmin := wrap32 (rad - sqr2Over2)
  let rmax := wrap32 (rad + sqr2Over2)
  let rmin := wrap32 (rmin * rmin)
  let rmax := wrap32 (rmax * rmax)
  let d := wrap32 (rmax - rmin)
  if d = 0 then none
  else some ⟨rmin >>> (8 : Nat), rmax >>> (8 : Nat), wrap32 (Int.tdiv 0x800000 d)⟩

def coverageFast (x y : Int) (g : Ring) : Int :=
  let d2 := wrap32 (wrap32 (x * x) + wrap32 (y * y))
  if d2 ≥ g.rmax then 0
  else if d2 < g.rmin then 0x7FFF
  else wrap32 (0x7FFF - wrap32 (wrap32 (d2 - g.rmin) * g.scale))

/-- The words of the coverage buffer a row writes: `n` of them from `i` on. -/
def coverageRow (g : Ring) (y : Int) : (n : Nat) → (i x : Int) → List (Int × Int)
  | 0, _, _ => []
  | n + 1, i, x => (i, int16 (coverageFast x y g)) :: coverageRow g y n (i + 1) (wrap32 (x + triOne))

def coverageRows (g : Ring) (x : Axis) : (yc : Nat) → (y : Int) → List (List (Int × Int))
  | 0, _ => []
  | yc + 1, y =>
    coverageRow g y (x.last - x.first).toNat x.first x.start ::
      coverageRows g x yc (wrap32 (y + triOne))

/-- `aa_pointx`: the words that are written before each scanline. Without a result the code divides
by zero. -/
def aaPointx (s : Scissor) (v : Vertex) (size : Int) : Option (List (List (Int × Int))) :=
  let rad := wrap32 (size + 1) >>> (1 : Nat)
  let x := axis s.left s.right v.x rad
  let y := axis s.top s.bottom v.y rad
  let xc := wrap32 (x.last - x.first)
  let yc := wrap32 (y.last - y.first)
  if xc > 0 ∧ yc > 0 then (ring rad).map fun g => coverageRows g x yc.toNat y.start
  else some []

/-- No division by zero, and coverage from none to full in a buffer of `length` words. -/
def Safe (length : Int) (result : Option (List (List (Int × Int)))) : Prop :=
  ∃ rows, result = some rows ∧ ∀ row ∈ rows, ∀ w ∈ row,
    (0 ≤ w.1 ∧ w.1 < length) ∧ 0 ≤ w.2 ∧ w.2 ≤ 0x7FFF

/-- The radii of the sizes that are accepted; the largest sizes become negative. -/
def Radius (rad : Int) : Prop := (0 ≤ rad ∧ rad ≤ 2 ^ 18) ∨ rad = -2 ^ 18

theorem radius_of_accepted {size : Int32} {s : Int} (accepted : glPointSizex size = some s) :
    Radius (wrap32 (s + 1) >>> (1 : Nat)) ∧
      (wrap32 (s + 1) >>> (1 : Nat) = 0 ↔ size.toInt < 0x800) := by
  have low := size.le_toInt
  have high := size.toInt_lt
  have bounds := wrap32_bounds (size.toInt + 2 ^ 11)
  unfold glPointSizex at accepted
  split_ifs at accepted with rejected
  obtain rfl := Option.some.inj accepted
  have small : wrap32 (wrap32 (size.toInt + 2 ^ 11) >>> (12 : Nat) + 1) =
      wrap32 (size.toInt + 2 ^ 11) >>> (12 : Nat) + 1 := by
    rw [Int.shiftRight_eq_div_pow]
    exact wrap32_of_bounds (by omega) (by omega)
  rw [small, Int.shiftRight_eq_div_pow, Int.shiftRight_eq_div_pow]
  unfold Radius
  by_cases fits : size.toInt + 2 ^ 11 < 2 ^ 31
  · rw [wrap32_of_bounds (by omega) fits]
    omega
  · have wrapped : wrap32 (size.toInt + 2 ^ 11) = size.toInt + 2 ^ 11 - 2 ^ 32 := by
      rw [← wrap32_sub_turn]
      exact wrap32_of_bounds (by omega) (by omega)
    rw [wrapped]
    omega

variable {rad : Int} {g : Ring}

theorem ring_width (radius : Radius rad) :
    wrap32 (wrap32 (wrap32 (wrap32 (rad * 2 ^ 4) + 0xB5) * wrap32 (wrap32 (rad * 2 ^ 4) + 0xB5)) -
      wrap32 (wrap32 (wrap32 (rad * 2 ^ 4) - 0xB5) * wrap32 (wrap32 (rad * 2 ^ 4) - 0xB5))) =
      wrap32 (11584 * rad) := by
  unfold Radius at radius
  have scaled : wrap32 (rad * 2 ^ 4) = rad * 2 ^ 4 := wrap32_of_bounds (by omega) (by omega)
  rw [scaled, wrap32_of_bounds (x := rad * 2 ^ 4 + 0xB5) (by omega) (by omega),
    wrap32_of_bounds (x := rad * 2 ^ 4 - 0xB5) (by omega) (by omega), wrap32_sub_left,
    wrap32_sub_right]
  congr 1
  ring

theorem width_cases (radius : Radius rad) :
    rad = 0 ∨ (1 ≤ rad ∧ rad ≤ 724 ∧ wrap32 (11584 * rad) = 11584 * rad) ∨
      (0x800000 < wrap32 (11584 * rad) ∨ wrap32 (11584 * rad) < -0x800000) := by
  unfold Radius at radius
  by_cases fits : -2 ^ 31 ≤ 11584 * rad ∧ 11584 * rad < 2 ^ 31
  · rw [wrap32_of_bounds fits.1 fits.2]
    omega
  · rcases radius with ⟨low, high⟩ | rfl
    · rw [← wrap32_sub_turn, wrap32_of_bounds (by omega) (by omega)]
      omega
    · right
      right
      left
      decide

/-- Between the radii the product that is subtracted from full coverage stays below it. -/
def Lerps (g : Ring) : Prop :=
  g.scale = 0 ∨ (0 ≤ g.rmin ∧ ∀ q, 0 ≤ q → g.rmin + q < g.rmax →
    0 ≤ q * g.scale ∧ q * g.scale ≤ 0x7FFF)

theorem tdiv_eq_zero {n d : Int} (n0 : 0 ≤ n) (large : n < d ∨ d < -n) : n.tdiv d = 0 := by
  rcases large with above | below
  · exact Int.tdiv_eq_zero_of_lt n0 above
  · have quotient : n.tdiv (-d) = 0 := Int.tdiv_eq_zero_of_lt n0 (by omega)
    rwa [Int.tdiv_neg, neg_eq_zero] at quotient

theorem ring_lerps (radius : Radius rad) :
    (ring rad = none ↔ rad = 0) ∧ ∀ g, ring rad = some g → Lerps g := by
  have width := ring_width radius
  unfold ring
  dsimp only
  rw [width]
  rcases width_cases radius with rfl | ⟨low, high, exact⟩ | large
  · refine ⟨iff_of_true rfl rfl, nofun⟩
  · have scaled : wrap32 (rad * 2 ^ 4) = rad * 2 ^ 4 := wrap32_of_bounds (by omega) (by omega)
    rw [exact, if_neg (by omega), scaled,
      wrap32_of_bounds (x := rad * 2 ^ 4 + 0xB5) (by omega) (by omega),
      wrap32_of_bounds (x := rad * 2 ^ 4 - 0xB5) (by omega) (by omega)]
    have inner : (rad * 2 ^ 4 - 0xB5) * (rad * 2 ^ 4 - 0xB5) < 2 ^ 31 := by nlinarith
    have outer : (rad * 2 ^ 4 + 0xB5) * (rad * 2 ^ 4 + 0xB5) < 2 ^ 31 := by nlinarith
    have inner0 : 0 ≤ (rad * 2 ^ 4 - 0xB5) * (rad * 2 ^ 4 - 0xB5) := mul_self_nonneg _
    have outer0 : 0 ≤ (rad * 2 ^ 4 + 0xB5) * (rad * 2 ^ 4 + 0xB5) := mul_self_nonneg _
    have between : (rad * 2 ^ 4 + 0xB5) * (rad * 2 ^ 4 + 0xB5) =
        (rad * 2 ^ 4 - 0xB5) * (rad * 2 ^ 4 - 0xB5) + 11584 * rad := by ring
    rw [wrap32_of_bounds (by omega) inner, wrap32_of_bounds (by omega) outer,
      Int.tdiv_eq_ediv_of_nonneg (by decide)]
    have quotient := Int.mul_ediv_self_le (x := 0x800000) (k := 11584 * rad) (by omega)
    have quotient0 : 0 ≤ 0x800000 / (11584 * rad) := Int.ediv_nonneg (by decide) (by omega)
    have quotientLe : 0x800000 / (11584 * rad) ≤ 0x800000 :=
      Int.ediv_le_self _ (by decide)
    refine ⟨iff_of_false nofun (by omega), ?_⟩
    rintro g ⟨⟩
    rw [wrap32_of_bounds (by omega) (by omega)]
    refine .inr ⟨?_, ?_⟩
    · rw [Int.shiftRight_eq_div_pow]
      exact Int.ediv_nonneg inner0 (by decide)
    · intro q q0 below
      simp only [Int.shiftRight_eq_div_pow] at below ⊢
      have units : 256 * q ≤ 11584 * rad := by omega
      refine ⟨mul_nonneg q0 quotient0, ?_⟩
      -- the scale is at most `2 ^ 23` by the width, and `q` less than the width by `2 ^ 8`
      have product := mul_le_mul_of_nonneg_right units quotient0
      have strict : 256 * q < 11584 * rad := by omega
      by_contra full
      nlinarith
  · rw [if_neg (by omega), tdiv_eq_zero (by decide) large]
    refine ⟨iff_of_false nofun ?_, ?_⟩
    · rintro rfl
      revert large
      decide
    · rintro g ⟨⟩
      exact .inl rfl

theorem coverageFast_bounds (lerps : Lerps g) (x y : Int) :
    0 ≤ coverageFast x y g ∧ coverageFast x y g ≤ 0x7FFF := by
  unfold coverageFast
  dsimp only
  have bounds := wrap32_bounds (wrap32 (x * x) + wrap32 (y * y))
  split_ifs with beyond inside
  · decide
  · decide
  · rcases lerps with flat | ⟨rmin0, between⟩
    · rw [flat, mul_zero]
      decide
    · have product := between (wrap32 (wrap32 (x * x) + wrap32 (y * y)) - g.rmin) (by omega)
        (by omega)
      rw [wrap32_of_bounds (x := wrap32 (wrap32 (x * x) + wrap32 (y * y)) - g.rmin) (by omega)
        (by omega), wrap32_of_bounds (x := _ * g.scale) (by omega) (by omega),
        wrap32_of_bounds (by omega) (by omega)]
      omega

theorem mem_coverageRow {y i x : Int} {n : Nat} (lerps : Lerps g) {w : Int × Int}
    (written : w ∈ coverageRow g y n i x) : (i ≤ w.1 ∧ w.1 < i + n) ∧ 0 ≤ w.2 ∧ w.2 ≤ 0x7FFF := by
  induction n generalizing i x with
  | zero => exact absurd written List.not_mem_nil
  | succ n ih =>
    rcases List.mem_cons.mp written with rfl | later
    · have value := coverageFast_bounds lerps x y
      have word : int16 (coverageFast x y g) = coverageFast x y g :=
        Int.bmod_eq_of_le (by omega) (by omega)
      exact ⟨by omega, by rw [word]; exact value⟩
    · have rest := ih later
      exact ⟨by omega, rest.2⟩

theorem mem_coverageRows {x : Axis} {y : Int} {yc : Nat} (lerps : Lerps g)
    (order : x.first ≤ x.last) {row : List (Int × Int)} (drawn : row ∈ coverageRows g x yc y)
    {w : Int × Int} (written : w ∈ row) :
    (x.first ≤ w.1 ∧ w.1 < x.last) ∧ 0 ≤ w.2 ∧ w.2 ≤ 0x7FFF := by
  induction yc generalizing y with
  | zero => exact absurd drawn List.not_mem_nil
  | succ yc ih =>
    rcases List.mem_cons.mp drawn with rfl | later
    · have word := mem_coverageRow lerps written
      exact ⟨by omega, word.2⟩
    · exact ih later

/-- A scissor inside of a surface whose columns and rows are counted by an `int`, two bytes each. -/
structure Inside (s : Scissor) (length : Int) : Prop where
  left : 0 ≤ s.left ∧ s.left ≤ length
  right : 0 ≤ s.right ∧ s.right ≤ length
  columns : length < 2 ^ 30
  top : 0 ≤ s.top ∧ s.top < 2 ^ 30
  bottom : 0 ≤ s.bottom ∧ s.bottom < 2 ^ 30

theorem axis_bounds (near far v rad : Int) :
    near ≤ (axis near far v rad).first ∧ (axis near far v rad).last ≤ far := by
  unfold axis
  dsimp only
  constructor
  · split_ifs with before
    · exact le_rfl
    · exact not_lt.mp before
  · split_ifs with after
    · exact le_rfl
    · exact not_lt.mp after

theorem axis_count {near far : Int} (near0 : 0 ≤ near ∧ near < 2 ^ 30)
    (far0 : 0 ≤ far ∧ far < 2 ^ 30) (v rad : Int) :
    wrap32 ((axis near far v rad).last - (axis near far v rad).first) =
      (axis near far v rad).last - (axis near far v rad).first := by
  have l := wrap32_bounds (v - rad)
  have r := wrap32_bounds (wrap32 (v + rad) + (triOne - 1))
  have bounds := axis_bounds near far v rad
  unfold axis at bounds ⊢
  dsimp only at bounds ⊢
  rw [Int.shiftRight_eq_div_pow, Int.shiftRight_eq_div_pow] at bounds ⊢
  apply wrap32_of_bounds <;> split_ifs <;> simp only <;> omega

def Within (near far : Int) (v : Int32) : Prop :=
  v.toInt % 16 ≠ 0 ∧ v.toInt + 15 < 2 ^ 31 ∧ near ≤ v.toInt / 16 ∧ v.toInt / 16 < far

instance (near far : Int) (v : Int32) : Decidable (Within near far v) :=
  inferInstanceAs (Decidable (_ ∧ _ ∧ _ ∧ _))

theorem axis_zero (near far : Int) (v : Int32) :
    0 < (axis near far v.toInt 0).last - (axis near far v.toInt 0).first ↔ Within near far v := by
  have low := v.le_toInt
  have high := v.toInt_lt
  unfold axis Within
  dsimp only
  rw [sub_zero, add_zero, wrap32_of_bounds low high, Int.shiftRight_eq_div_pow,
    Int.shiftRight_eq_div_pow, triOne]
  by_cases fits : v.toInt + 15 < 2 ^ 31
  · rw [show (16 : Int) - 1 = 15 from rfl, wrap32_of_bounds (by omega) fits]
    split_ifs <;> simp only <;> omega
  · have wrapped : wrap32 (v.toInt + (16 - 1)) = v.toInt + 15 - 2 ^ 32 := by
      rw [← wrap32_sub_turn]
      exact wrap32_of_bounds (by omega) (by omega)
    rw [wrapped]
    split_ifs <;> simp only <;> omega

theorem aaPointx_safe_iff (s : Scissor) (length : Int) (inside : Inside s length)
    (size v0 v1 : Int32) (coord : Int) (accepted : glPointSizex size = some coord) :
    Safe length (aaPointx s ⟨v0.toInt, v1.toInt⟩ coord) ↔
      ¬(size.toInt < 0x800 ∧ Within s.left s.right v0 ∧ Within s.top s.bottom v1) := by
  obtain ⟨radius, tiny⟩ := radius_of_accepted accepted
  obtain ⟨vanishes, lerps⟩ := ring_lerps radius
  have left := inside.left
  have right := inside.right
  have columns := inside.columns
  have xc := axis_count ⟨left.1, by omega⟩ ⟨right.1, by omega⟩ v0.toInt
    (wrap32 (coord + 1) >>> (1 : Nat))
  have yc := axis_count inside.top inside.bottom v1.toInt (wrap32 (coord + 1) >>> (1 : Nat))
  have bounds := axis_bounds s.left s.right v0.toInt (wrap32 (coord + 1) >>> (1 : Nat))
  unfold aaPointx
  dsimp only
  rw [xc, yc]
  by_cases drawn : (axis s.left s.right v0.toInt (wrap32 (coord + 1) >>> (1 : Nat))).last -
        (axis s.left s.right v0.toInt (wrap32 (coord + 1) >>> (1 : Nat))).first > 0 ∧
      (axis s.top s.bottom v1.toInt (wrap32 (coord + 1) >>> (1 : Nat))).last -
        (axis s.top s.bottom v1.toInt (wrap32 (coord + 1) >>> (1 : Nat))).first > 0
  · rw [if_pos drawn]
    cases scaled : ring (wrap32 (coord + 1) >>> (1 : Nat)) with
    | none =>
      have zero := vanishes.mp scaled
      rw [zero] at drawn
      refine iff_of_false ?_ ?_
      · rintro ⟨rows, none, _⟩
        exact absurd none nofun
      · rw [not_not]
        exact ⟨tiny.mp zero, (axis_zero _ _ v0).mp drawn.1,
          (axis_zero _ _ v1).mp drawn.2⟩
    | some g =>
      refine iff_of_true ⟨_, rfl, ?_⟩ ?_
      · intro row drawnRow w written
        have word := mem_coverageRows (lerps g scaled) (by omega) drawnRow written
        exact ⟨by omega, word.2⟩
      · rintro ⟨small, _⟩
        have none := vanishes.mpr (tiny.mpr small)
        rw [scaled] at none
        exact absurd none nofun
  · rw [if_neg drawn]
    refine iff_of_true ⟨[], rfl, nofun⟩ ?_
    rintro ⟨small, x, y⟩
    rw [tiny.mpr small] at drawn
    exact drawn ⟨(axis_zero _ _ v0).mpr x, (axis_zero _ _ v1).mpr y⟩

/-- A point of one pixel and a half in a row of a hundred pixels. -/
theorem aaPointx_safe_small :
    Safe 100 (aaPointx ⟨0, 0, 100, 100⟩ ⟨(805 : Int32).toInt, (807 : Int32).toInt⟩ 24) :=
  (aaPointx_safe_iff ⟨0, 0, 100, 100⟩ 100
    ⟨by decide, by decide, by decide, by decide, by decide⟩ 0x18000 805 807 24 (by decide)).mpr
    (by decide)

/-- The size is a hundredth of a pixel. -/
theorem aaPointx_vanishing :
    glPointSizex 655 = some 0 ∧ ¬Safe 100 (aaPointx ⟨0, 0, 100, 100⟩ ⟨805, 807⟩ 0) := by
  refine ⟨by decide, ?_⟩
  rintro ⟨rows, result, _⟩
  revert result
  have none : aaPointx ⟨0, 0, 100, 100⟩ ⟨805, 807⟩ 0 = none := by decide
  rw [none]
  exact nofun

end RabbitRender.Raster.Points
