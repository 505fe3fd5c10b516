/- RabbitRender/Raster/Lines
   layer: theorem
   source: libpixelflinger/trap.cpp, libpixelflinger/fixed.cpp
   digest: The quad of an anti-aliased line is within an eighth of a pixel, in 32 bits, if its
     squared length fits and the area of the line is small enough for the reciprocal. -/

import RabbitRender.Raster.Trap
import RabbitRender.SquareRoots
import Mathlib.Tactic.IntervalCases
import Mathlib.Tactic.LinearCombination

set_option autoImplicit false

namespace RabbitRender.Raster.Lines

open Fixed
open Raster.Trap (Vertex)
open SquareRoots

section Quad

variable (v0 v1 : Vertex) (width : Int)

/-- `nx*nx + ny*ny` -/
def squaredLength : Int :=
  let dx := wrap32 (v0.x - v1.x)
  let dy := wrap32 (v0.y - v1.y)
  let nx := wrap32 (-dy)
  let ny := dx
  wrap32 (wrap32 (nx * nx) + wrap32 (ny * ny))

def norm : Int := gglMulx width (gglSqrtRecipx (squaredLength v0 v1)) 4

/-- `nx` and `ny` after they are scaled. -/
def normal : Int × Int :=
  let dx := wrap32 (v0.x - v1.x)
  let dy := wrap32 (v0.y - v1.y)
  let nx := wrap32 (-dy)
  let ny := dx
  (gglMulx nx (norm v0 v1 width) 21, gglMulx ny (norm v0 v1 width) 21)

/-- `aa_linex`: the points passed to `aapolyx`. -/
def aaLinex : List Vertex :=
  let (nx, ny) := normal v0 v1 width
  [⟨wrap32 (v0.x + nx), wrap32 (v0.y + ny)⟩, ⟨wrap32 (v1.x + nx), wrap32 (v1.y + ny)⟩,
    ⟨wrap32 (v1.x - nx), wrap32 (v1.y - ny)⟩, ⟨wrap32 (v0.x - nx), wrap32 (v0.y - ny)⟩]

/-- The sums of `aa_linex`, before they are cut to a word. -/
def lineSums : List Int :=
  let dx := wrap32 (v0.x - v1.x)
  let dy := wrap32 (v0.y - v1.y)
  let nx := wrap32 (-dy)
  let ny := dx
  let a := squaredLength v0 v1
  let (mx, my) := normal v0 v1 width
  [v0.x - v1.x, v0.y - v1.y, -dy, nx * nx, ny * ny, wrap32 (nx * nx) + wrap32 (ny * ny)] ++
    rootSums a ++ [mulxWhole width (gglSqrtRecipx a) 4, mulxWhole nx (norm v0 v1 width) 21,
      mulxWhole ny (norm v0 v1 width) 21, v0.x + mx, v0.y + my, v1.x + mx, v1.y + my, v1.x - mx,
      v1.y - my, v0.x - mx, v0.y - my]

end Quad

structure Line where
  v0 : Vertex
  v1 : Vertex
  width : Int
  inside0 : (0 ≤ v0.x ∧ v0.x < 2 ^ 16) ∧ 0 ≤ v0.y ∧ v0.y < 2 ^ 16
  inside1 : (0 ≤ v1.x ∧ v1.x < 2 ^ 16) ∧ 0 ≤ v1.y ∧ v1.y < 2 ^ 16
  distinct : v0 ≠ v1
  thin : 0 ≤ width ∧ width ≤ 2 ^ 10

namespace Line

variable (l : Line)

def dx : Int := l.v0.x - l.v1.x

def dy : Int := l.v0.y - l.v1.y

def square : Int := l.dx ^ 2 + l.dy ^ 2

/-- The length is divided out of the perpendicular vector. -/
noncomputable def offset (d : Int) : ℝ := d * l.width / (√l.square + √l.square)

/-- The quad has the line in its middle, its normal is an eighth of a pixel at most from the
vector of half the width that is perpendicular to the line, and nothing leaves 32 bits. -/
structure Drawn : Prop where
  quad : ∃ nx ny : Int,
    aaLinex l.v0 l.v1 l.width =
      [⟨l.v0.x + nx, l.v0.y + ny⟩, ⟨l.v1.x + nx, l.v1.y + ny⟩, ⟨l.v1.x - nx, l.v1.y - ny⟩,
        ⟨l.v0.x - nx, l.v0.y - ny⟩] ∧
      (nx - l.offset (-l.dy)) ^ 2 + (ny - l.offset l.dx) ^ 2 ≤ 2 ^ 2
  sums : ∀ s ∈ lineSums l.v0 l.v1 l.width, Word s

end Line

theorem near_of_length {p q D x y : ℝ} (unit : p ^ 2 + q ^ 2 = 1) (length : |D| ≤ 32 / 25)
    (first : |x| ≤ 1 / 2) (second : |y| ≤ 1 / 2) : (p * D + x) ^ 2 + (q * D + y) ^ 2 ≤ 2 ^ 2 := by
  have square : D ^ 2 ≤ (32 / 25) ^ 2 := sq_le_sq.mpr (length.trans (le_abs_self _))
  have squareX : x ^ 2 ≤ (1 / 2) ^ 2 := sq_le_sq.mpr (first.trans (le_abs_self _))
  have squareY : y ^ 2 ≤ (1 / 2) ^ 2 := sq_le_sq.mpr (second.trans (le_abs_self _))
  have whole : (p * D) ^ 2 + (q * D) ^ 2 = D ^ 2 := by
    linear_combination D ^ 2 * unit
  -- twice a product is at most 11/20 of one square and 20/11 of the other
  have mixedX : 0 ≤ (11 * (p * D) - 20 * x) ^ 2 := sq_nonneg _
  have mixedY : 0 ≤ (11 * (q * D) - 20 * y) ^ 2 := sq_nonneg _
  linarith

theorem length_near {w κ t φ : ℝ} (positive : 0 < κ) (thin : 0 ≤ w ∧ w ≤ 2 ^ 10)
    (least : 1 / 2 ^ 24 ≤ κ) (most : κ ≤ 2763 / 1000000) (area : w * κ ≤ 3 / 2)
    (near : |1 - t| ≤ 1 / 5500 + 38 / 25 * κ + 1 / (2 ^ 33 * κ)) (rounded : |φ| ≤ 1 / 2) :
    |(w * t / 2 + 8 * κ * φ) - w / 2| ≤ 32 / 25 := by
  have parts : (w * t / 2 + 8 * κ * φ) - w / 2 = 8 * κ * φ - w / 2 * (1 - t) := by ring
  have scaled : |w / 2 * (1 - t)| ≤
      w / 2 * (1 / 5500 + 38 / 25 * κ + 1 / (2 ^ 33 * κ)) := by
    rw [abs_mul, abs_of_nonneg (by linarith : 0 ≤ w / 2)]
    exact mul_le_mul_of_nonneg_left near (by linarith)
  have rest : |8 * κ * φ| ≤ 4 * κ := by
    rw [abs_mul, abs_of_pos (by positivity : 0 < 8 * κ)]
    have bound := mul_le_mul_of_nonneg_left rounded (by positivity : 0 ≤ 8 * κ)
    linarith
  have inverse : w * (1 / (2 ^ 33 * κ)) ≤ 2 ^ 10 * (1 / (2 ^ 33 * κ)) :=
    mul_le_mul_of_nonneg_right thin.2 (by positivity)
  rw [parts]
  refine (abs_sub _ _).trans ((add_le_add rest scaled).trans ?_)
  rcases le_total κ (1 / 2 ^ 16) with short | long
  · have bound : 1 / (2 ^ 33 * κ) ≤ 1 / 2 ^ 9 :=
      one_div_le_one_div_of_le (by positivity) (by linarith)
    have product : w * κ ≤ 2 ^ 10 * (1 / 2 ^ 16) :=
      mul_le_mul thin.2 short positive.le (by positivity)
    linarith
  · have bound : 1 / (2 ^ 33 * κ) ≤ 1 / 2 ^ 17 :=
      one_div_le_one_div_of_le (by positivity) (by linarith)
    linarith

namespace Line

variable {l : Line}

theorem differences (l : Line) : (-2 ^ 16 < l.dx ∧ l.dx < 2 ^ 16) ∧
    (-2 ^ 16 < l.dy ∧ l.dy < 2 ^ 16) ∧ (l.dx ≠ 0 ∨ l.dy ≠ 0) := by
  obtain ⟨⟨x0, x0'⟩, y0, y0'⟩ := l.inside0
  obtain ⟨⟨x1, x1'⟩, y1, y1'⟩ := l.inside1
  refine ⟨⟨by unfold dx; omega, by unfold dx; omega⟩,
    ⟨by unfold dy; omega, by unfold dy; omega⟩, ?_⟩
  by_contra same
  unfold dx dy at same
  apply l.distinct
  have x : l.v0.x = l.v1.x := by omega
  have y : l.v0.y = l.v1.y := by omega
  cases h0 : l.v0
  cases h1 : l.v1
  simp_all

theorem square_range (l : Line) : 8 ≤ l.square ∨ l.square ∈ ([1, 2, 4, 5] : List Int) := by
  obtain ⟨-, -, some⟩ := l.differences
  by_contra small
  simp only [not_or, not_le] at small
  obtain ⟨few, other⟩ := small
  unfold square at few other
  have low : -3 < l.dx ∧ l.dx < 3 := abs_lt.mp (abs_lt_of_sq_lt_sq (by nlinarith) (by decide))
  have high : -3 < l.dy ∧ l.dy < 3 := abs_lt.mp (abs_lt_of_sq_lt_sq (by nlinarith) (by decide))
  generalize l.dx = x at *
  generalize l.dy = y at *
  obtain ⟨lowX, highX⟩ := low
  obtain ⟨lowY, highY⟩ := high
  interval_cases x <;> interval_cases y <;> simp_all

theorem square_pos (l : Line) : 0 < l.square := by
  rcases l.square_range with large | small
  · omega
  · simp only [List.mem_cons, List.not_mem_nil, or_false] at small
    omega

theorem side_le (l : Line) : (-l.dy) ^ 2 ≤ l.square ∧ l.dx ^ 2 ≤ l.square := by
  unfold square
  rw [neg_sq]
  exact ⟨le_add_of_nonneg_left (sq_nonneg _), le_add_of_nonneg_right (sq_nonneg _)⟩

theorem words (l : Line) : wrap32 (l.v0.x - l.v1.x) = l.dx ∧ wrap32 (l.v0.y - l.v1.y) = l.dy ∧
    wrap32 (-l.dy) = -l.dy := by
  obtain ⟨⟨lowX, highX⟩, ⟨lowY, highY⟩, -⟩ := l.differences
  exact ⟨wrap32_of_bounds (by unfold dx at lowX; omega) (by unfold dx at highX; omega),
    wrap32_of_bounds (by unfold dy at lowY; omega) (by unfold dy at highY; omega),
    wrap32_of_bounds (by omega) (by omega)⟩

theorem square_words (fits : l.square < 2 ^ 31) : Word (-l.dy * -l.dy) ∧ Word (l.dx * l.dx) ∧
    wrap32 (-l.dy * -l.dy) + wrap32 (l.dx * l.dx) = l.square ∧
      squaredLength l.v0 l.v1 = l.square := by
  have whole : l.square = l.dx * l.dx + -l.dy * -l.dy := by
    unfold square
    ring
  have first : 0 ≤ -l.dy * -l.dy := mul_self_nonneg _
  have second : 0 ≤ l.dx * l.dx := mul_self_nonneg _
  have firstWord : Word (-l.dy * -l.dy) := ⟨by omega, by omega⟩
  have secondWord : Word (l.dx * l.dx) := ⟨by omega, by omega⟩
  have sum : wrap32 (-l.dy * -l.dy) + wrap32 (l.dx * l.dx) = l.square := by
    rw [wrap32_of_bounds firstWord.1 firstWord.2, wrap32_of_bounds secondWord.1 secondWord.2, whole]
    exact Int.add_comm _ _
  refine ⟨firstWord, secondWord, sum, ?_⟩
  obtain ⟨x, y, negated⟩ := l.words
  unfold squaredLength
  dsimp only
  rw [x, y, negated, sum]
  exact wrap32_of_bounds (by omega) fits

/-- The length of the line as the reciprocal sees it. -/
noncomputable def scale (l : Line) : ℝ := root l.square

theorem scale_bounds (l : Line) (fits : l.square < 2 ^ 31) :
    1 / 2 ^ 24 ≤ l.scale ∧ l.scale ≤ 2763 / 1000000 ∧ √l.square = 2 ^ 24 * l.scale := by
  have positive := l.square_pos
  have square := root_sq positive
  have some : (1 : ℝ) ≤ l.square := by exact_mod_cast positive
  have few : (l.square : ℝ) ≤ 2 ^ 31 := by exact_mod_cast fits.le
  refine ⟨?_, ?_, ?_⟩
  · exact le_of_sq_le_sq (by unfold scale; norm_num at square ⊢; linarith) (root_pos positive).le
  · exact le_of_sq_le_sq (by unfold scale; norm_num at square ⊢; linarith) (by norm_num)
  · unfold scale root
    field_simp

theorem norm_near (fits : l.square < 2 ^ 31) (area : l.width ^ 2 * l.square ≤ 9 * 2 ^ 46) :
    Word (mulxWhole l.width (gglSqrtRecipx l.square) 4) ∧
      |mulxWhole l.width (gglSqrtRecipx l.square) 4 * (8 * l.scale) - (l.width : ℝ) / 2| ≤
        32 / 25 := by
  obtain ⟨least, most, -⟩ := l.scale_bounds fits
  obtain ⟨near, -⟩ := gglSqrtRecipx_near l.square_range fits
  have positive : 0 < l.scale := lt_of_lt_of_le (by positivity) least
  have thin : 0 ≤ (l.width : ℝ) ∧ (l.width : ℝ) ≤ 2 ^ 10 := by exact_mod_cast l.thin
  have product : (l.width : ℝ) * l.scale ≤ 3 / 2 := by
    have square : l.scale ^ 2 * 2 ^ 48 = l.square := root_sq l.square_pos
    have area' : (l.width : ℝ) ^ 2 * l.square ≤ 9 * 2 ^ 46 := by exact_mod_cast area
    rw [← square] at area'
    exact le_of_sq_le_sq (by norm_num at area' ⊢; linarith) (by norm_num)
  have rounded := mulxWhole_near l.width (gglSqrtRecipx l.square) 3
  set r := gglSqrtRecipx l.square
  set m := mulxWhole l.width r 4
  change |1 - r * l.scale| ≤ 1 / 5500 + 38 / 25 * l.scale + 1 / (2 ^ 33 * l.scale) at near
  constructor
  · have inverse : 1 / (2 ^ 33 * l.scale) ≤ 1 / 2 ^ 9 :=
      one_div_le_one_div_of_le (by positivity) (by linarith)
    obtain ⟨low, high⟩ := abs_le.mp (near.trans (by linarith : _ ≤ (1 / 100 : ℝ)))
    have some : 0 ≤ (r : ℝ) := nonneg_of_mul_nonneg_left (by linarith) positive
    have short : r * (1 / 2 ^ 24) ≤ r * l.scale := mul_le_mul_of_nonneg_left least some
    have few : (l.width : ℝ) * r ≤ 2 ^ 10 * (2 ^ 24 * (101 / 100)) :=
      mul_le_mul thin.2 (by linarith) some (by positivity)
    have sign : 0 ≤ (l.width : ℝ) * r := mul_nonneg thin.1 some
    exact word_of_near rounded (by linarith) (by linarith)
  · have bound := length_near positive thin least most product near rounded
    have whole : l.width * (r * l.scale) / 2 + 8 * l.scale * (m - l.width * r / 2 ^ (3 + 1)) =
        m * (8 * l.scale) := by ring
    rwa [whole] at bound

theorem component_near (fits : l.square < 2 ^ 31) (area : l.width ^ 2 * l.square ≤ 9 * 2 ^ 46)
    {d : Int} (side : d ^ 2 ≤ l.square) :
    let m := mulxWhole l.width (gglSqrtRecipx l.square) 4
    |mulxWhole d m 21 - ((d : ℝ) / √l.square) * (m * (8 * l.scale))| ≤ 1 / 2 ∧
      -600 ≤ mulxWhole d m 21 ∧ mulxWhole d m 21 ≤ 600 := by
  intro m
  obtain ⟨-, near⟩ := norm_near fits area
  obtain ⟨least, -, length⟩ := l.scale_bounds fits
  have positive : 0 < l.scale := lt_of_lt_of_le (by positivity) least
  have thin : 0 ≤ (l.width : ℝ) ∧ (l.width : ℝ) ≤ 2 ^ 10 := by exact_mod_cast l.thin
  have rounded := mulxWhole_near d m 20
  have whole : (d : ℝ) * m / 2 ^ (20 + 1) = (d : ℝ) / √l.square * (m * (8 * l.scale)) := by
    rw [length]
    field_simp
    ring
  rw [whole] at rounded
  refine ⟨rounded, ?_⟩
  have share : |(d : ℝ) / √l.square| ≤ 1 := by
    have root : 0 < √(l.square : ℝ) := Real.sqrt_pos.mpr (by exact_mod_cast l.square_pos)
    have bound : |(d : ℝ)| ≤ √l.square := Real.abs_le_sqrt (by exact_mod_cast side)
    rw [abs_div, abs_of_pos root]
    exact (div_le_one root).mpr bound
  obtain ⟨lowM, highM⟩ := abs_le.mp near
  have half : |m * (8 * l.scale)| ≤ 514 := abs_le.mpr ⟨by linarith, by linarith⟩
  have product : |(d : ℝ) / √l.square * (m * (8 * l.scale))| ≤ 1 * 514 := by
    rw [abs_mul]
    exact mul_le_mul share half (abs_nonneg _) zero_le_one
  obtain ⟨lowP, highP⟩ := abs_le.mp product
  obtain ⟨lowR, highR⟩ := abs_le.mp rounded
  constructor
  · have bound : (-600 : ℝ) ≤ mulxWhole d m 21 := by linarith
    exact_mod_cast bound
  · have bound : (mulxWhole d m 21 : ℝ) ≤ 600 := by linarith
    exact_mod_cast bound

theorem normal_spec (fits : l.square < 2 ^ 31) (area : l.width ^ 2 * l.square ≤ 9 * 2 ^ 46) :
    let m := mulxWhole l.width (gglSqrtRecipx l.square) 4
    norm l.v0 l.v1 l.width = m ∧
      normal l.v0 l.v1 l.width = (mulxWhole (-l.dy) m 21, mulxWhole l.dx m 21) := by
  intro m
  obtain ⟨x, y, negated⟩ := l.words
  obtain ⟨-, -, -, squared⟩ := square_words fits
  have scaled : norm l.v0 l.v1 l.width = m := by
    unfold norm
    rw [squared]
    exact gglMulx_of_word (norm_near fits area).1
  have part {d : Int} (side : d ^ 2 ≤ l.square) : gglMulx d m 21 = mulxWhole d m 21 := by
    obtain ⟨-, low, high⟩ := component_near fits area side
    exact gglMulx_of_word ⟨le_trans (by decide) low, lt_of_le_of_lt high (by decide)⟩
  refine ⟨scaled, ?_⟩
  unfold normal
  dsimp only
  rw [x, y, negated, scaled, part (l.side_le).1, part (l.side_le).2]

theorem offset_eq (d : Int) : l.offset d = d * (l.width / 2) / √l.square := by
  rw [Line.offset, ← two_mul, mul_div_assoc', div_div]

theorem normal_near (fits : l.square < 2 ^ 31) (area : l.width ^ 2 * l.square ≤ 9 * 2 ^ 46) :
    let m := mulxWhole l.width (gglSqrtRecipx l.square) 4
    ((mulxWhole (-l.dy) m 21 : ℝ) - l.offset (-l.dy)) ^ 2 +
      ((mulxWhole l.dx m 21 : ℝ) - l.offset l.dx) ^ 2 ≤ 2 ^ 2 := by
  intro m
  obtain ⟨first, -, -⟩ := component_near fits area l.side_le.1
  obtain ⟨second, -, -⟩ := component_near fits area l.side_le.2
  have root : 0 < √(l.square : ℝ) := Real.sqrt_pos.mpr (by exact_mod_cast l.square_pos)
  have unit : (((-l.dy : Int) : ℝ) / √l.square) ^ 2 + ((l.dx : ℝ) / √l.square) ^ 2 = 1 := by
    have square := Real.sq_sqrt (by exact_mod_cast l.square_pos.le : (0 : ℝ) ≤ l.square)
    rw [div_pow, div_pow, square, ← add_div]
    have sum : (((-l.dy : Int) : ℝ)) ^ 2 + (l.dx : ℝ) ^ 2 = l.square := by
      unfold Line.square
      push_cast
      ring
    rw [sum]
    exact div_self (by exact_mod_cast l.square_pos.ne')
  have near := near_of_length unit (norm_near fits area).2 first second
  have parts (d : Int) : (mulxWhole d m 21 : ℝ) - l.offset d =
      (d : ℝ) / √l.square * (m * (8 * l.scale) - (l.width : ℝ) / 2) +
        (mulxWhole d m 21 - (d : ℝ) / √l.square * (m * (8 * l.scale))) := by
    rw [offset_eq]
    ring
  rw [parts, parts]
  exact near

theorem drawn_of_area (fits : l.square < 2 ^ 31) (area : l.width ^ 2 * l.square ≤ 9 * 2 ^ 46) :
    l.Drawn := by
  obtain ⟨scaled, components⟩ := normal_spec fits area
  obtain ⟨x, y, negated⟩ := l.words
  obtain ⟨firstWord, secondWord, sum, squared⟩ := square_words fits
  obtain ⟨⟨lowX, highX⟩, ⟨lowY, highY⟩, -⟩ := l.differences
  obtain ⟨-, lowMx, highMx⟩ := component_near fits area l.side_le.1
  obtain ⟨-, lowMy, highMy⟩ := component_near fits area l.side_le.2
  have near := normal_near fits area
  have rootWords := (gglSqrtRecipx_near l.square_range fits).2
  have normWord := (norm_near fits area).1
  obtain ⟨⟨x0, x0'⟩, y0, y0'⟩ := l.inside0
  obtain ⟨⟨x1, x1'⟩, y1, y1'⟩ := l.inside1
  have positive := l.square_pos
  dsimp only at scaled components near lowMx highMx lowMy highMy
  set m := mulxWhole l.width (gglSqrtRecipx l.square) 4
  set nx := mulxWhole (-l.dy) m 21
  set ny := mulxWhole l.dx m 21
  have added {v n : Int} (inside : 0 ≤ v ∧ v < 2 ^ 16) (low : -600 ≤ n) (high : n ≤ 600) :
      Word (v + n) ∧ Word (v - n) := ⟨⟨by omega, by omega⟩, by omega, by omega⟩
  have cut {s : Int} (word : Word s) : wrap32 s = s := wrap32_of_bounds word.1 word.2
  have p := added ⟨x0, x0'⟩ lowMx highMx
  have q := added ⟨y0, y0'⟩ lowMy highMy
  have p' := added ⟨x1, x1'⟩ lowMx highMx
  have q' := added ⟨y1, y1'⟩ lowMy highMy
  refine ⟨⟨nx, ny, ?_, near⟩, ?_⟩
  · unfold aaLinex
    rw [components]
    dsimp only
    rw [cut p.1, cut q.1, cut p'.1, cut q'.1, cut p'.2, cut q'.2, cut p.2, cut q.2]
  · unfold lineSums
    rw [components]
    dsimp only
    rw [x, y, negated, squared, scaled, sum]
    simp only [List.forall_mem_append, List.forall_mem_cons, List.not_mem_nil, false_implies,
      implies_true, and_true]
    refine ⟨⟨⟨?_, ?_, ?_, firstWord, secondWord, ?_⟩, rootWords⟩, normWord, ?_, ?_, p.1, q.1, p'.1,
      q'.1, p'.2, q'.2, p.2, q.2⟩
    · exact ⟨by unfold dx at lowX; omega, by unfold dx at highX; omega⟩
    · exact ⟨by unfold dy at lowY; omega, by unfold dy at highY; omega⟩
    · exact ⟨by omega, by omega⟩
    · exact ⟨by omega, fits⟩
    · exact ⟨by omega, by omega⟩
    · exact ⟨by omega, by omega⟩

theorem not_drawn_of_long (long : 2 ^ 31 ≤ l.square) : ¬l.Drawn := by
  intro drawn
  obtain ⟨x, y, negated⟩ := l.words
  have sums := drawn.sums
  unfold lineSums at sums
  dsimp only at sums
  rw [x, y, negated] at sums
  have word {s : Int} (i : s ∈ [l.v0.x - l.v1.x, l.v0.y - l.v1.y, -l.dy, -l.dy * -l.dy,
      l.dx * l.dx, wrap32 (-l.dy * -l.dy) + wrap32 (l.dx * l.dx)]) : Word s :=
    sums s (List.mem_append_left _ (List.mem_append_left _ i))
  have first : Word (-l.dy * -l.dy) := word (by simp)
  have second : Word (l.dx * l.dx) := word (by simp)
  have total : Word (wrap32 (-l.dy * -l.dy) + wrap32 (l.dx * l.dx)) := word (by simp)
  rw [wrap32_of_bounds first.1 first.2, wrap32_of_bounds second.1 second.2] at total
  have whole : l.square = -l.dy * -l.dy + l.dx * l.dx := by
    unfold square
    ring
  rw [whole] at long
  exact absurd total.2 (not_lt.mpr long)

end Line

/-- The quad is drawn if the squared length fits 32 bits and width and length have a product of
98304 square pixels at most; it is not if the squared length does not fit. -/
theorem aaLinex_drawn (l : Line) :
    (l.square < 2 ^ 31 ∧ l.width ^ 2 * l.square ≤ 9 * 2 ^ 46 → l.Drawn) ∧
      (2 ^ 31 ≤ l.square → ¬l.Drawn) :=
  ⟨fun h => Line.drawn_of_area h.1 h.2, Line.not_drawn_of_long⟩

/-- A line whose squared length does not fit has a quad of 427 pixels. -/
example : aaLinex ⟨0, 16000⟩ ⟨48000, 16000⟩ 1024 =
    [⟨0, 12581⟩, ⟨48000, 12581⟩, ⟨48000, 19419⟩, ⟨0, 19419⟩] := by decide +kernel

/-- One of 2727 pixels that does fit, and is wide, is too narrow by five sixteenths of a pixel. -/
example : aaLinex ⟨0, 16000⟩ ⟨43633, 16000⟩ 1023 =
    [⟨0, 15491⟩, ⟨43633, 15491⟩, ⟨43633, 16509⟩, ⟨0, 16509⟩] := by decide +kernel

end RabbitRender.Raster.Lines
