/- RabbitRender/Lighting/LinearFog
   layer: theorem
   source: swrender/light.cpp, libpixelflinger/fixed.cpp
   digest: The factor of linear fog after any calls that set fog: its accuracy and its order. -/

import RabbitRender.Matrix.Coherence
import RabbitRender.Reciprocals
import RabbitRender.Setters.Calls

set_option autoImplicit false

namespace RabbitRender.Lighting.LinearFog

open RabbitRender.GL (GLenum)
open Fixed Reciprocals
open Setters.Calls (Fog Context glFogx initial)
open RabbitRender.Matrix

def clampF (f : Int) : Int :=
  let f := if f < 0 then 0 else f
  if f ≥ 0x10000 then 0x10000 else f

def fogLinear (fog : Fog) (z : Int) : Int :=
  clampF (gglMulx (wrap32 (fog.finish - if z < 0 then wrap32 (-z) else z)) fog.invEndMinusStart 16)

variable {F : Type}

def run (c : Context F) (calls : List (GLenum × Int)) : Context F :=
  calls.foldl (fun c call => glFogx c call.1 call.2) c

def InWord (v : Int) : Prop := -2 ^ 31 ≤ v ∧ v < 2 ^ 31

instance (v : Int) : Decidable (InWord v) := inferInstanceAs (Decidable (_ ∧ _))

def factor (fog : Fog) (z : Int) : ℚ :=
  max 0 (min 1 ((fog.finish - z.natAbs : Int) / (fog.finish - fog.start : Int)))

structure Accurate (fog : Fog) (z : Int) : Prop where
  rounding : 0 ≤ shift (fog.finish - fog.start) 16 - 1 ∧ shift (fog.finish - fog.start) 16 - 1 ≤ 31
  last : 0 ≤ shift (fog.finish - fog.start) 16 ∧ shift (fog.finish - fog.start) 16 ≤ 31
  words : InWord (fog.finish - fog.start) ∧ InWord z.natAbs ∧ InWord (fog.finish - z.natAbs) ∧
    InWord (((fog.finish - z.natAbs) * fog.invEndMinusStart + 2 ^ 15) / 2 ^ 16)
  bounds : 0 ≤ fogLinear fog z ∧ fogLinear fog z ≤ 0x10000
  near : |(fogLinear fog z : ℚ) / 2 ^ 16 - factor fog z| < 1 / 64

structure Sharp (fog : Fog) : Prop where
  word : InWord (fog.finish - fog.start)
  long : 8 ≤ (fog.finish - fog.start).natAbs
  multiple : ∃ k, |k * (fog.finish - fog.start) - 2 ^ 32| < 2 ^ 26 - 2 ^ 15

structure Reached (fog : Fog) (z : Int) : Prop where
  size : z.natAbs < 2 ^ 31
  difference : InWord (fog.finish - z.natAbs)
  quotient : (fog.finish - z.natAbs).natAbs < 32764 * (fog.finish - fog.start).natAbs

section Runs

variable {c : Context F} {pname : GLenum} {param : Int}

theorem reciprocal_glFogx
    (kept : c.fog.invEndMinusStart = gglRecipQ (c.fog.finish - c.fog.start) 16) :
    (glFogx c pname param).fog.invEndMinusStart =
      gglRecipQ ((glFogx c pname param).fog.finish - (glFogx c pname param).fog.start) 16 := by
  unfold glFogx Setters.Calls.fogx
  split_ifs
  · exact kept
  · exact kept
  · rfl
  · rfl
  · split
    · exact kept
    · exact kept
  · exact kept

theorem reciprocal_run (calls : List (GLenum × Int))
    (kept : c.fog.invEndMinusStart = gglRecipQ (c.fog.finish - c.fog.start) 16) :
    (run c calls).fog.invEndMinusStart =
      gglRecipQ ((run c calls).fog.finish - (run c calls).fog.start) 16 := by
  induction calls generalizing c with
  | nil => exact kept
  | cons call calls ih =>
    change (run (glFogx c call.1 call.2) calls).fog.invEndMinusStart = _
    exact ih (reciprocal_glFogx kept)

end Runs

section Range

variable {d k : Int}

theorem shift16_eq (long : 8 ≤ d.natAbs) (word : InWord d) :
    1 ≤ shift d 16 ∧ shift d 16 ≤ 29 := by
  have few := gglClz_lt (n := d.natAbs) (m := 29) (by omega) (by obtain ⟨low, high⟩ := word; omega)
    (by decide)
  rw [shift, gglRecipQNormalized_eq (by omega) (by obtain ⟨low, high⟩ := word; omega)]
  dsimp only
  omega

theorem gglRecip_error (long : 8 ≤ d.natAbs) (word : InWord d) :
    |d * gglRecipQ d 16 - 2 ^ 32| ≤ ((d.natAbs / 2 + 335877 : Nat) : Int) := by
  obtain ⟨least, most⟩ := word
  obtain ⟨low, high⟩ := normalized (n := d.natAbs) (by omega) (by omega)
  obtain ⟨-, -, error⟩ := reciprocal_near low high
  have few := gglClz_lt (n := d.natAbs) (m := 29) (by omega) (by omega) (by decide)
  have near := gglRecipQ_error (m := 29) (by omega) (by omega) few le_rfl error
  change 2 ^ 29 * (2 * (d * gglRecipQ d 16)) ≤ _ ∧ _ ≤ 2 ^ 29 * (2 * (d * gglRecipQ d 16) + _) + _ + _
    at near
  rw [abs_le]
  constructor <;> omega

theorem multiples (d i : Int) :
    d * i ≤ 31 * d.natAbs ∨ d * i = 32 * d.natAbs ∨ 33 * d.natAbs ≤ d * i := by
  obtain ⟨j, product⟩ : ∃ j : Int, d * i = j * d.natAbs := by
    rcases Int.natAbs_eq d with positive | negative
    · exact ⟨i, by rw [← positive, Int.mul_comm]⟩
    · exact ⟨-i, by rw [neg_mul_comm, ← negative, Int.mul_comm]⟩
  have positive := Int.natCast_nonneg d.natAbs
  rw [product]
  rcases lt_trichotomy j 32 with less | same | more
  · exact Or.inl (mul_le_mul_of_nonneg_right (by omega) positive)
  · exact Or.inr (Or.inl (by rw [same]))
  · exact Or.inr (Or.inr (mul_le_mul_of_nonneg_right (by omega) positive))

theorem gglRecip_near (long : 8 ≤ d.natAbs) (word : InWord d)
    (multiple : |k * d - 2 ^ 32| < 2 ^ 26 - 2 ^ 15) :
    |d * gglRecipQ d 16 - 2 ^ 32| < 2 ^ 26 - 2 ^ 15 := by
  have error := gglRecip_error long word
  have steps := multiples d (gglRecipQ d 16)
  set i := gglRecipQ d 16
  by_cases same : i = k
  · rwa [same, Int.mul_comm]
  -- the multiples differ by the range at least, so that it is nearly `2 ^ 27`, and `i` is 32
  have apart : d.natAbs ≤ (d * i - k * d).natAbs := by
    rw [Int.mul_comm k, ← mul_sub, Int.natAbs_mul]
    exact Nat.le_mul_of_pos_right _ (by omega)
  rw [abs_lt] at multiple ⊢
  rw [abs_le] at error
  omega

end Range

theorem clampF_cases (v : Int) : v ≤ 0 ∧ clampF v = 0 ∨ 0x10000 ≤ v ∧ clampF v = 0x10000 ∨
    (0 ≤ v ∧ v ≤ 0x10000) ∧ clampF v = v := by
  unfold clampF
  dsimp only
  split_ifs <;> omega

theorem clampF_bounds (v : Int) : 0 ≤ clampF v ∧ clampF v ≤ 0x10000 := by
  have cases := clampF_cases v
  omega

theorem clampF_mono {v w : Int} (le : v ≤ w) : clampF v ≤ clampF w := by
  have left := clampF_cases v
  have right := clampF_cases w
  omega

theorem clampF_near {v : Int} {y p : ℚ} (lower : 2 ^ 32 - 2 ^ 26 + 2 ^ 15 < p)
    (upper : p < 2 ^ 32 + 2 ^ 26 - 2 ^ 15) (low : 2 ^ 16 * (v : ℚ) ≤ y * p + 2 ^ 15)
    (high : y * p + 2 ^ 15 < 2 ^ 16 * (v : ℚ) + 2 ^ 16) :
    |(clampF v : ℚ) / 2 ^ 16 - max 0 (min 1 y)| < 1 / 64 := by
  have positive : 0 < p := by linarith
  rcases lt_or_ge y 0 with below | nonnegative
  · have product : y * p < 0 := mul_neg_of_neg_of_pos below positive
    have none : v < 1 := by
      have less : (v : ℚ) < 1 := by linarith
      exact_mod_cast less
    have value : clampF v = 0 := by
      have cases := clampF_cases v
      omega
    rw [value, min_eq_right (by linarith), max_eq_left below.le]
    norm_num
  rcases lt_or_ge 1 y with above | inside
  · have product : p < y * p := lt_mul_of_one_lt_left positive above
    have large : 64512 < v := by
      have more : (64512 : ℚ) < v := by linarith
      exact_mod_cast more
    have value : 64512 < clampF v := by
      have cases := clampF_cases v
      omega
    have least : (64512 : ℚ) < clampF v := by exact_mod_cast value
    have most : (clampF v : ℚ) ≤ 65536 := by exact_mod_cast (clampF_bounds v).2
    rw [min_eq_left above.le, max_eq_right zero_le_one, abs_lt]
    constructor <;> linarith
  · have apart : |y * p - y * 2 ^ 32| < 2 ^ 26 - 2 ^ 15 := by
      rw [← mul_sub, abs_mul, abs_of_nonneg nonnegative]
      have error : |p - 2 ^ 32| < 2 ^ 26 - 2 ^ 15 := abs_lt.mpr ⟨by linarith, by linarith⟩
      exact (mul_le_of_le_one_left (abs_nonneg _) inside).trans_lt error
    obtain ⟨left, right⟩ := abs_lt.mp apart
    rw [min_eq_right inside, max_eq_right nonnegative]
    rcases clampF_cases v with ⟨less, value⟩ | ⟨more, value⟩ | ⟨-, value⟩
    · have least : (v : ℚ) ≤ 0 := by exact_mod_cast less
      rw [value, abs_lt]
      constructor <;> push_cast <;> linarith
    · have most : (0x10000 : ℚ) ≤ v := by exact_mod_cast more
      rw [value, abs_lt]
      constructor <;> push_cast <;> linarith
    · rw [value, abs_lt]
      constructor <;> linarith

section Value

variable {fog : Fog} {z : Int}

theorem product_word (kept : fog.invEndMinusStart = gglRecipQ (fog.finish - fog.start) 16)
    (sharp : Sharp fog) (reached : Reached fog z) :
    |(fog.finish - z.natAbs) * fog.invEndMinusStart| < 2 ^ 47 - 2 ^ 16 := by
  obtain ⟨k, multiple⟩ := sharp.multiple
  have near := gglRecip_near sharp.long sharp.word multiple
  have error := gglRecip_error sharp.long sharp.word
  rw [← kept] at near error
  obtain ⟨-, ⟨least, most⟩, quotient⟩ := reached
  have long := sharp.long
  set d := fog.finish - fog.start
  set x := fog.finish - z.natAbs
  set i := fog.invEndMinusStart
  have product : (x * i).natAbs * d.natAbs = x.natAbs * (d * i).natAbs := by
    rw [Int.natAbs_mul, Int.natAbs_mul, Nat.mul_assoc, Nat.mul_comm i.natAbs]
  rw [abs_lt] at near
  rw [abs_le] at error
  have bound : x.natAbs * (d * i).natAbs < (2 ^ 47 - 2 ^ 16) * d.natAbs := by
    by_cases short : d.natAbs ≤ 2 ^ 17
    · calc x.natAbs * (d * i).natAbs ≤ 32764 * d.natAbs * (2 ^ 32 + 401413) :=
            Nat.mul_le_mul quotient.le (by omega)
        _ < (2 ^ 47 - 2 ^ 16) * d.natAbs := by omega
    · calc x.natAbs * (d * i).natAbs ≤ 2 ^ 31 * (2 ^ 32 + 2 ^ 26) :=
            Nat.mul_le_mul (by omega) (by omega)
        _ < (2 ^ 47 - 2 ^ 16) * d.natAbs := by omega
  rw [← product] at bound
  have small := Nat.lt_of_mul_lt_mul_right bound
  rw [abs_lt]
  omega

theorem fogLinear_eq (reached : Reached fog z) (product :
      InWord (((fog.finish - z.natAbs) * fog.invEndMinusStart + 2 ^ 15) / 2 ^ 16)) :
    fogLinear fog z =
      clampF (((fog.finish - z.natAbs) * fog.invEndMinusStart + 2 ^ 15) / 2 ^ 16) := by
  have size : (if z < 0 then wrap32 (-z) else z) = z.natAbs := by
    have small := reached.size
    split_ifs
    · rw [wrap32_of_bounds (by omega) (by omega)]
      omega
    · omega
  unfold fogLinear gglMulx
  rw [size, wrap32_of_bounds reached.difference.1 reached.difference.2, Int.shiftRight_eq_div_pow]
  exact congrArg clampF (wrap32_of_bounds product.1 product.2)

theorem accurate (kept : fog.invEndMinusStart = gglRecipQ (fog.finish - fog.start) 16)
    (sharp : Sharp fog) (reached : Reached fog z) :
    Accurate fog z ∧ (fog.start < fog.finish → ∀ z', Reached fog z' → z.natAbs ≤ z'.natAbs →
      fogLinear fog z' ≤ fogLinear fog z) := by
  have word {z : Int} (reached : Reached fog z) :
      InWord (((fog.finish - z.natAbs) * fog.invEndMinusStart + 2 ^ 15) / 2 ^ 16) := by
    have product := abs_lt.mp (product_word kept sharp reached)
    constructor <;> omega
  obtain ⟨k, multiple⟩ := sharp.multiple
  have near := abs_lt.mp (gglRecip_near sharp.long sharp.word multiple)
  have shifts := shift16_eq sharp.long sharp.word
  rw [← kept] at near
  constructor
  · refine ⟨by omega, by omega, ⟨sharp.word, ?_, reached.difference, word reached⟩, ?_, ?_⟩
    · have small := reached.size
      constructor <;> omega
    · exact clampF_bounds _
    · have nonzero : ((fog.finish - fog.start : Int) : ℚ) ≠ 0 := by
        have long := sharp.long
        exact_mod_cast (by omega : fog.finish - fog.start ≠ 0)
      rw [fogLinear_eq reached (word reached), factor]
      set x := fog.finish - z.natAbs
      set i := fog.invEndMinusStart
      set d := fog.finish - fog.start
      have scaled : (x / d * (d * i : Int) : ℚ) = (x * i : Int) := by
        push_cast
        rw [← mul_assoc, div_mul_cancel₀ _ nonzero]
      have above := Int.mul_ediv_self_le (x := x * i + 2 ^ 15) (k := 2 ^ 16) (by decide)
      have below := Int.lt_mul_ediv_self_add (x := x * i + 2 ^ 15) (k := 2 ^ 16) (by decide)
      refine clampF_near (p := (d * i : Int)) ?_ ?_ ?_ ?_
      · have least : 2 ^ 32 - 2 ^ 26 + 2 ^ 15 < d * i := by omega
        exact_mod_cast least
      · have most : d * i < 2 ^ 32 + 2 ^ 26 - 2 ^ 15 := by omega
        exact_mod_cast most
      · rw [scaled]
        exact_mod_cast above
      · rw [scaled]
        exact_mod_cast below
  · intro order z' reached' farther
    rw [fogLinear_eq reached (word reached), fogLinear_eq reached' (word reached')]
    have positive : 0 ≤ fog.invEndMinusStart := by
      by_contra negative
      have product := mul_neg_of_pos_of_neg (by omega : 0 < fog.finish - fog.start)
        (not_le.mp negative)
      omega
    have product := mul_le_mul_of_nonneg_right
      (by omega : fog.finish - z'.natAbs ≤ fog.finish - z.natAbs) positive
    exact clampF_mono (Int.ediv_le_ediv (by decide) (by omega))

end Value

/-- After any fog calls, where the range has a multiple near to `2 ^ 32` and the eye coordinate has
32-bit intermediate results. -/
theorem fogLinear_accurate [Transforms.GLfloat F] (transforms : Transforms.Context F)
    (calls : List (GLenum × Int)) {z : Int} (sharp : Sharp (run (initial transforms) calls).fog)
    (reached : Reached (run (initial transforms) calls).fog z) :
    Accurate (run (initial transforms) calls).fog z ∧
      ((run (initial transforms) calls).fog.start < (run (initial transforms) calls).fog.finish →
        ∀ z', Reached (run (initial transforms) calls).fog z' → z.natAbs ≤ z'.natAbs →
          fogLinear (run (initial transforms) calls).fog z' ≤
            fogLinear (run (initial transforms) calls).fog z) := by
  have first : (0x10000 : Int) = gglRecipQ (0x10000 - 0) 16 := by decide
  exact accurate (reciprocal_run calls first) sharp reached

/-- A range from 1 to 3, and a depth of 2. -/
theorem fogLinear_accurate_middle :
    Accurate (run (initial (F := ℚ) (Transforms.init 0 (0, 0, 240) id))
      [(GL.fogEnd, 0x30000), (GL.fogStart, 0x10000)]).fog (-0x20000) :=
  (fogLinear_accurate _ [(GL.fogEnd, 0x30000), (GL.fogStart, 0x10000)]
    ⟨by decide, by decide, 32768, by decide⟩ ⟨by decide, by decide, by decide⟩).1

/-- With a start that equals the end, the rounding of the reciprocal shifts by -1. With a range of
27306.67, the reciprocal has a value of 2 instead of 2.4. -/
theorem fogLinear_fails : (∃ calls : List (GLenum × Int),
      ¬ Accurate (run (initial (F := ℚ) (Transforms.init 0 (0, 0, 240) id)) calls).fog 0) ∧
    ¬ Accurate (run (initial (F := ℚ) (Transforms.init 0 (0, 0, 240) id))
      [(GL.fogEnd, 0x6AAAAAAB)]).fog 0 := by
  refine ⟨⟨[(GL.fogStart, 0x10000)], fun accurate => ?_⟩, fun accurate => ?_⟩
  · exact absurd accurate.rounding.1 (by decide)
  · have near := accurate.near
    have value : fogLinear (run (initial (F := ℚ) (Transforms.init 0 (0, 0, 240) id))
      [(GL.fogEnd, 0x6AAAAAAB)]).fog 0 = 0xD555 := by decide
    have whole : factor (run (initial (F := ℚ) (Transforms.init 0 (0, 0, 240) id))
        [(GL.fogEnd, 0x6AAAAAAB)]).fog 0 =
      max 0 (min 1 (((0x6AAAAAAB : Int) : ℚ) / ((0x6AAAAAAB : Int) : ℚ))) := rfl
    rw [value, whole] at near
    norm_num [abs_lt] at near

end RabbitRender.Lighting.LinearFog
