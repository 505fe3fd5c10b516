/- RabbitRender/Pixelflinger/EnvironmentTable
   layer: model and proofs
   source: libpixelflinger/format.cpp, libpixelflinger/pixelflinger.cpp,
     libpixelflinger/scanline.cpp
   digest: The table of the texture environments, in numbers and in the fixed point of the
     scanline. -/

import Mathlib.Algebra.Order.Field.Rat
import Mathlib.Data.Rat.Cast.Order
import Mathlib.Data.Rat.Floor
import Mathlib.Tactic.FieldSimp
import Mathlib.Tactic.LinearCombination
import RabbitRender.Pixelflinger.Overflows

set_option autoImplicit false

namespace RabbitRender.Pixelflinger.EnvironmentTable

open RabbitRender.GL (GLenum)
open Pixelflinger.Fragment Pixelflinger.Widths Pixelflinger.ComponentRange

inductive TexClass
  | alpha | luminance | luminanceAlpha | rgb | rgba
  deriving DecidableEq

def classOf (f : Format) : Option TexClass :=
  let components := (formats f).components
  if components = GGL.alpha then some .alpha
  else if components = GGL.luminance then some .luminance
  else if components = GGL.luminanceAlpha then some .luminanceAlpha
  else if components = GGL.rgb then some .rgb
  else if components = GGL.rgba then some .rgba
  else none

def TexClass.Has (c : TexClass) (j : Component) : Prop :=
  match c with
  | .alpha => j = 0
  | .luminance | .rgb => j ≠ 0
  | .luminanceAlpha | .rgba => True

instance (c : TexClass) (j : Component) : Decidable (c.Has j) := by
  cases c <;> unfold TexClass.Has <;> infer_instance

/-- The modes `ggl_texEnvi` accepts. -/
def modes : List GLenum := [GGL.replace, GGL.modulate, GGL.decal, GGL.blendEnv, GGL.add]

/-- The entries of the table: the fragment, the texel, their product, the fragment mixed with the
constant, the texel laid over the fragment, and the sum. -/
inductive Entry
  | own | texel | product | mixed | laid | sum
  deriving DecidableEq

/-- The table of the standard, for component `j`. DECAL is only defined with the colours of RGB and
RGBA. -/
def table (c : TexClass) (env : GLenum) (j : Component) : Option Entry :=
  if env = GGL.decal then
    match c with
    | .rgb => some (if j = 0 then .own else .texel)
    | .rgba => some (if j = 0 then .own else .laid)
    | .alpha | .luminance | .luminanceAlpha => none
  else if ¬c.Has j then some .own
  else if env = GGL.replace then some .texel
  else if env = GGL.modulate ∨ j = 0 then some .product
  else if env = GGL.blendEnv then some .mixed
  else some .sum

structure Arithmetic (α : Type) where
  mul : α → α → α
  mix : α → α → α → α
  lay : α → α → α → α
  add : α → α → α

/-- An entry of the component of the fragment, the texel's, the texel's alpha and the constant's. -/
def Entry.eval {α : Type} (m : Arithmetic α) (f t a cc : α) : Entry → α
  | .own => f
  | .texel => t
  | .product => m.mul f t
  | .mixed => m.mix f t cc
  | .laid => m.lay f t a
  | .sum => m.add f t

def numbers : Arithmetic ℚ where
  mul f t := f * t
  mix f t cc := f * (1 - t) + cc * t
  lay f t a := f * (1 - a) + t * a
  add f t := min 1 (f + t)

/-- Components with their sizes. The factor of a component is `scaled`, products are truncated, and
the operands of `lay` and `add` have one size. -/
def fixedPoint : Arithmetic (Nat × Nat) where
  mul f t := (f.1 * scaled t.1 t.2 / 2 ^ t.2, f.2)
  mix f t cc := (((2 ^ t.2 - scaled t.1 t.2) * f.1 + t.1 * cc.1) / 2 ^ t.2, f.2)
  lay f t a := ((f.1 + ((t.1 : Int) - f.1) * scaled a.1 a.2 / 2 ^ a.2).toNat, f.2)
  add f t := (min (2 ^ f.2 - 1) (f.1 + t.1), f.2)

/-- The operands, brought to one size where they are laid over each other or added. -/
def operands (env : GLenum) (f t : Nat × Nat) : (Nat × Nat) × (Nat × Nat) :=
  if env = GGL.decal ∨ env = GGL.add then rescale f.1 f.2 t.1 t.2 else (f, t)

theorem operands_missing (env : GLenum) {f t : Nat × Nat} (none : t.2 = 0) :
    (operands env f t).1 = f := by
  have apart : rescale f.1 f.2 t.1 t.2 = (f, t) := if_neg fun present => present.2 none
  unfold operands
  rw [apart, ite_self]

theorem operands_apart {env : GLenum} (decal : env ≠ GGL.decal) (add : env ≠ GGL.add)
    (f t : Nat × Nat) : operands env f t = (f, t) := if_neg (not_or.mpr ⟨decal, add⟩)

def value (component : Nat × Nat) : ℚ := component.1 / (2 ^ component.2 - 1)

def Near (component : Nat × Nat) (bits : Nat) (q : ℚ) : Prop :=
  |(component.1 : ℚ) - (2 ^ component.2 - 1) * q| ≤ 1 + 2 * (2 ^ component.2 / 2 ^ bits)

variable {s c : Nat}

private theorem two_pow_ge (one : 1 ≤ s) : (2 : ℚ) ≤ 2 ^ s :=
  (pow_one (2 : ℚ)).symm.le.trans (pow_le_pow_right₀ (by norm_num) one)

theorem value_mul (one : 1 ≤ s) : (2 ^ s - 1) * value (c, s) = c := by
  have two := two_pow_ge one
  have positive : (2 : ℚ) ^ s - 1 ≠ 0 := by linarith
  exact mul_div_cancel₀ _ positive

theorem value_bounds (one : 1 ≤ s) (range : c < 2 ^ s) : 0 ≤ value (c, s) ∧ value (c, s) ≤ 1 := by
  have two := two_pow_ge one
  have below : (c : ℚ) + 1 ≤ 2 ^ s := by exact_mod_cast range
  have positive : (0 : ℚ) < 2 ^ s - 1 := by linarith
  refine ⟨div_nonneg (Nat.cast_nonneg c) positive.le, ?_⟩
  rw [value, div_le_one positive]
  linarith

theorem scaled_near (hs : s ∈ sizes) (hc : c < 2 ^ s) :
    |(scaled c s : ℚ) / 2 ^ s - value (c, s)| ≤ 1 / 2 ^ s := by
  obtain ⟨one, -⟩ := sizes_bounds s hs
  have two := two_pow_ge one
  have small := two_pow_le hs
  have bit : c >>> (s - 1) < 2 := by
    apply shiftRight_lt
    rw [← Nat.pow_succ', Nat.succ_eq_add_one, Nat.sub_add_cancel one]
    exact hc
  have factor : (scaled c s : ℚ) = c + (c >>> (s - 1) : Nat) := by
    rw [scaled, u32_eq (by omega), Nat.cast_add]
  have high : ((c >>> (s - 1) : Nat) : ℚ) ≤ 1 := by exact_mod_cast Nat.le_of_lt_succ bit
  have low : (0 : ℚ) ≤ (c >>> (s - 1) : Nat) := Nat.cast_nonneg _
  have below : (c : ℚ) + 1 ≤ 2 ^ s := by exact_mod_cast hc
  have start : (0 : ℚ) ≤ c := Nat.cast_nonneg _
  rw [factor]
  have exact : (2 ^ s - 1) * value (c, s) = c := value_mul one
  have whole : (2 : ℚ) ^ s ≠ 0 := by positivity
  generalize ((c >>> (s - 1) : Nat) : ℚ) = b at high low ⊢
  generalize value (c, s) = v at exact ⊢
  generalize (c : ℚ) = x at exact below start ⊢
  generalize (2 : ℚ) ^ s = n at *
  -- the difference is that of the bit and of the value
  have difference : (x + b) / n - v = (b - v) / n := by
    field_simp
    linarith
  have value : 0 ≤ v ∧ v ≤ 1 := by
    constructor <;> nlinarith
  rw [difference, abs_div, abs_of_pos (by linarith : 0 < n)]
  exact div_le_div_of_nonneg_right (abs_le.mpr ⟨by linarith, by linarith⟩) (by linarith)

private theorem floor_near (n : Int) (bits : Nat) :
    |((n / 2 ^ bits : Int) : ℚ) - n / 2 ^ bits| ≤ 1 := by
  have floor : ⌊(n : ℚ) / 2 ^ bits⌋ = n / 2 ^ bits := by
    have cast := Rat.floor_intCast_div_natCast n (2 ^ bits)
    push_cast at cast
    exact cast
  rw [← floor, abs_le]
  have low := Int.floor_le ((n : ℚ) / 2 ^ bits)
  have high := Int.sub_one_lt_floor ((n : ℚ) / 2 ^ bits)
  exact ⟨by linarith, by linarith⟩

private theorem near_of_quotient {n : Int} {bits : Nat} {out : Nat} {q : ℚ}
    (truncated : (out : Int) = n / 2 ^ bits)
    (quotient : |(n : ℚ) / 2 ^ bits - (2 ^ s - 1) * q| ≤ 2 * (2 ^ s / 2 ^ bits)) :
    Near (out, s) bits q := by
  have floor := floor_near n bits
  have cast : (out : ℚ) = ((n / 2 ^ bits : Int) : ℚ) := by
    rw [← truncated, Int.cast_natCast]
  rw [← cast] at floor
  exact (abs_sub_le _ _ _).trans (add_le_add floor quotient)

private theorem share_near {x d n b : ℚ} (size : |x| ≤ n) (unit : |d| ≤ 1 / b) :
    |x * d| ≤ n / b := by
  have whole : 0 ≤ n := (abs_nonneg x).trans size
  calc |x * d| = |x| * |d| := abs_mul x d
    _ ≤ n * (1 / b) := mul_le_mul size unit (abs_nonneg d) whole
    _ = n / b := by ring

theorem near_self {f : Nat × Nat} (one : 1 ≤ f.2) (bits : Nat) : Near f bits (value f) := by
  rw [Near, value_mul one, sub_self, abs_zero]
  positivity

theorem add_near {f t : Nat × Nat} (one : 1 ≤ f.2) (bits : Nat) (same : t.2 = f.2) :
    Near (fixedPoint.add f t) bits (numbers.add (value f) (value t)) := by
  have texel : (2 ^ f.2 - 1) * value t = t.1 := by
    rw [← same]
    exact value_mul (same ▸ one)
  have two := two_pow_ge one
  have whole : ((2 ^ f.2 - 1 : Nat) : ℚ) = 2 ^ f.2 - 1 := by
    have full : 1 ≤ 2 ^ f.2 := Nat.two_pow_pos _
    push_cast [full]
    rfl
  have exact : ((min (2 ^ f.2 - 1) (f.1 + t.1) : Nat) : ℚ) =
      (2 ^ f.2 - 1) * min 1 (value f + value t) := by
    rw [mul_min_of_nonneg _ _ (by linarith), mul_add, mul_one, texel, value_mul one, Nat.cast_min,
      whole, Nat.cast_add]
  unfold Near fixedPoint numbers
  dsimp only
  rw [exact, sub_self, abs_zero]
  positivity

section

variable {f t a cc : Nat × Nat} (hf : Fits f)

include hf

private theorem fits_abs : |(f.1 : ℚ)| ≤ 2 ^ f.2 := by
  rw [abs_of_nonneg (Nat.cast_nonneg _)]
  exact_mod_cast hf.2.le

private theorem fits_value : (2 ^ f.2 - 1) * value f = f.1 := value_mul (sizes_bounds _ hf.1).1

theorem mul_near (ht : Fits t) :
    Near (fixedPoint.mul f t) t.2 (numbers.mul (value f) (value t)) := by
  have factor := scaled_near ht.1 ht.2
  have positive : (0 : ℚ) < 2 ^ t.2 := by positivity
  have room : (0 : ℚ) ≤ 2 ^ f.2 / 2 ^ t.2 := by positivity
  refine near_of_quotient (n := f.1 * scaled t.1 t.2) (by push_cast; rfl) ?_
  have error : ((f.1 * scaled t.1 t.2 : Int) : ℚ) / 2 ^ t.2 -
      (2 ^ f.2 - 1) * numbers.mul (value f) (value t) =
      f.1 * (scaled t.1 t.2 / 2 ^ t.2 - value t) := by
    push_cast
    simp only [numbers]
    linear_combination -value t * fits_value hf
  rw [error]
  exact (share_near (fits_abs hf) factor).trans (by linarith)

private theorem part_near : |(f.1 : ℚ) / 2 ^ f.2 - value f| ≤ 1 / 2 ^ f.2 := by
  have positive : (0 : ℚ) < 2 ^ f.2 := by positivity
  obtain ⟨low, high⟩ := value_bounds (sizes_bounds _ hf.1).1 hf.2
  have part : (f.1 : ℚ) / 2 ^ f.2 - value f = -(value f / 2 ^ f.2) := by
    rw [← fits_value hf]
    field_simp
    ring
  rw [part, abs_neg, abs_div, abs_of_nonneg low, abs_of_pos positive]
  exact div_le_div_of_nonneg_right high positive.le

theorem mix_near (ht : Fits t) (hcc : Fits cc) (same : cc.2 = f.2) :
    Near (fixedPoint.mix f t cc) t.2 (numbers.mix (value f) (value t) (value cc)) := by
  have factor := scaled_near ht.1 ht.2
  have part := part_near ht
  have positive : (0 : ℚ) < 2 ^ t.2 := by positivity
  have rest : ((2 ^ t.2 - scaled t.1 t.2 : Nat) : Int) = 2 ^ t.2 - scaled t.1 t.2 := by
    have whole := scaled_le ht.1 ht.2
    push_cast [whole]
    rfl
  refine near_of_quotient (n := (2 ^ t.2 - scaled t.1 t.2) * f.1 + t.1 * cc.1)
    (by rw [← rest]; push_cast; rfl) ?_
  have constant : (2 ^ f.2 - 1) * value cc = cc.1 := by
    rw [← same]
    exact fits_value hcc
  have error : (((2 ^ t.2 - scaled t.1 t.2) * f.1 + t.1 * cc.1 : Int) : ℚ) / 2 ^ t.2 -
      (2 ^ f.2 - 1) * numbers.mix (value f) (value t) (value cc) =
      -(f.1 * (scaled t.1 t.2 / 2 ^ t.2 - value t)) + cc.1 * (t.1 / 2 ^ t.2 - value t) := by
    push_cast
    simp only [numbers]
    field_simp
    linear_combination -(2 ^ t.2 * (1 - value t)) * fits_value hf - 2 ^ t.2 * value t * constant
  rw [error, two_mul]
  refine (abs_add_le _ _).trans (add_le_add ?_ ?_)
  · rw [abs_neg]
    exact share_near (fits_abs hf) factor
  · exact share_near (same ▸ fits_abs hcc) part

theorem lay_near (ht : Fits t) (ha : Fits a) (same : t.2 = f.2) :
    Near (fixedPoint.lay f t a) a.2 (numbers.lay (value f) (value t) (value a)) := by
  have factor := scaled_near ha.1 ha.2
  have positive : (0 : ℚ) < 2 ^ a.2 := by positivity
  have room : (0 : ℚ) ≤ 2 ^ f.2 / 2 ^ a.2 := by positivity
  have full : (scaled a.1 a.2 : Int) ≤ 2 ^ a.2 := by exact_mod_cast scaled_le ha.1 ha.2
  have texel : (2 ^ f.2 - 1) * value t = t.1 := by
    rw [← same]
    exact fits_value ht
  refine near_of_quotient (n := f.1 * 2 ^ a.2 + (t.1 - f.1) * scaled a.1 a.2) ?_ ?_
  · have joined : ((f.1 : Int) * 2 ^ a.2 + (t.1 - f.1) * scaled a.1 a.2) / 2 ^ a.2 =
        f.1 + (t.1 - f.1) * scaled a.1 a.2 / 2 ^ a.2 := by
      rw [add_comm, Int.add_mul_ediv_right _ _ (by positivity), add_comm]
    rw [joined]
    refine Int.toNat_of_nonneg ?_
    rw [← joined]
    refine Int.ediv_nonneg ?_ (by positivity)
    nlinarith [Int.natCast_nonneg f.1, Int.natCast_nonneg t.1,
      Int.natCast_nonneg (scaled a.1 a.2)]
  · have error : ((f.1 * 2 ^ a.2 + (t.1 - f.1) * scaled a.1 a.2 : Int) : ℚ) / 2 ^ a.2 -
        (2 ^ f.2 - 1) * numbers.lay (value f) (value t) (value a) =
        (t.1 - f.1) * (scaled a.1 a.2 / 2 ^ a.2 - value a) := by
      push_cast
      simp only [numbers]
      field_simp
      linear_combination -(2 ^ a.2 * (1 - value a)) * fits_value hf - 2 ^ a.2 * value a * texel
    have distance : |(t.1 : ℚ) - f.1| ≤ 2 ^ f.2 := by
      have own : (f.1 : ℚ) ≤ 2 ^ f.2 := by exact_mod_cast hf.2.le
      have other : (t.1 : ℚ) ≤ 2 ^ f.2 := by
        rw [← same]
        exact_mod_cast ht.2.le
      have hf0 : (0 : ℚ) ≤ f.1 := Nat.cast_nonneg _
      have ht0 : (0 : ℚ) ≤ t.1 := Nat.cast_nonneg _
      exact abs_le.mpr ⟨by linarith, by linarith⟩
    rw [error]
    exact (share_near distance factor).trans (by linarith)

end

def Entry.Rounds (f t a cc : Nat × Nat) : Entry → Prop
  | .own => 1 ≤ f.2
  | .texel => 1 ≤ t.2
  | .product => Fits f ∧ Fits t
  | .mixed => Fits f ∧ Fits t ∧ Fits cc ∧ cc.2 = f.2
  | .laid => Fits f ∧ Fits t ∧ Fits a ∧ t.2 = f.2
  | .sum => 1 ≤ f.2 ∧ t.2 = f.2

def Entry.bits (t a : Nat × Nat) : Entry → Nat
  | .laid => a.2
  | .own | .texel | .product | .mixed | .sum => t.2

theorem eval_near {f t a cc : Nat × Nat} (e : Entry) (h : e.Rounds f t a cc) :
    Near (e.eval fixedPoint f t a cc) (e.bits t a)
      (e.eval numbers (value f) (value t) (value a) (value cc)) := by
  cases e with
  | own => exact near_self h _
  | texel => exact near_self h _
  | product => exact mul_near h.1 h.2
  | mixed => exact mix_near h.1 h.2.1 h.2.2.1 h.2.2.2
  | laid => exact lay_near h.1 h.2.1 h.2.2.1 h.2.2.2
  | sum => exact add_near h.1 _ h.2

end RabbitRender.Pixelflinger.EnvironmentTable
