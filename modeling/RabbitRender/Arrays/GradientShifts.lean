/- RabbitRender/Arrays/GradientShifts
   layer: theorem
   source: swrender/primitives.cpp, include/ggl_fixed.h
   digest: Every shift of the gradient setup, and the triangles and lines for which all of them are
     defined. -/

import Mathlib.Control.Monad.Writer
import Mathlib.Tactic.Ring
import RabbitRender.Arrays.Gradients

set_option autoImplicit false

namespace RabbitRender.Arrays.GradientShifts

open Arrays.Gradients (Lerp Gradient clzAbs mulx mulAddx wrap64)
open Fixed Vertices

/-- What the setup computes that is not defined for every operand: shifts of 32 and of 64 bits, the
rounded products of `gglMulx`, and the reciprocal of the area. -/
inductive Step where
  | word (count : Int)
  | long (count : Int)
  | product (a b count : Int)
  | reciprocal (x : Int)

def Step.Valid : Step → Prop
  | .word n => 0 ≤ n ∧ n ≤ 31
  | .long n => 0 ≤ n ∧ n ≤ 63
  | .product a b n =>
    (1 ≤ n ∧ n ≤ 32) ∧ mulx a b n = wrap32 ((a * b + 2 ^ (n - 1).toNat) / 2 ^ n.toNat)
  | .reciprocal x => x ≠ 0

abbrev Traced := Writer (List Step)

def shiftRight (x n : Int) : Traced Int := do
  tell [.word n]
  return x >>> (n % 32).toNat

def shiftLeft (x n : Int) : Traced Int := do
  tell [.word n]
  return wrap32 (x <<< (n % 32).toNat)

def shiftRightLong (x n : Int) : Traced Int := do
  tell [.long n]
  return x >>> (n % 64).toNat

def gglMulx (a b n : Int) : Traced Int := do
  tell [.product a b n]
  return mulx a b n

def gglMulAddx (a b c n : Int) : Traced Int := do
  tell [.long n]
  return mulAddx a b c n

def gglRecipQNormalized (x : Int) : Traced (Int × Int) := do
  tell [.reciprocal x]
  return Fixed.gglRecipQNormalized x

/-- The members it leaves out are those `initLerp` sets. -/
def initTriangle (v0 v1 v2 : Vertex) : Lerp :=
  let dx01 := wrap32 (v1.window.x - v0.window.x)
  let dy10 := wrap32 (v0.window.y - v1.window.y)
  let dx20 := wrap32 (v0.window.x - v2.window.x)
  let dy02 := wrap32 (v2.window.y - v0.window.y)
  { dx01, dy10, dx20, dy02, x0 := 0, y0 := 0
    area := wrap32 (dx01 * dy02 + -dy10 * dx20), scale := 0, areaScale := 0 }

def areaScale (l : Lerp) : Traced (Int × Int × Int) := do
  let area ← shiftRight (wrap32 (l.area + triHalf)) 4
  if 2 ≤ area.natAbs then
    let (d, q) ← gglRecipQNormalized area
    let s := 32 - l.leading + 15
    let s := if s < q then q else s
    if s > 32 then
      let d ← shiftRight d (32 - s)
      return (d, q, 32)
    else return (d, q, s)
  else return (0, 0, 0)

def initLerp (tmus : Bool) (l : Lerp) (v0 : Vertex) : Traced Lerp := do
  let (d, q, s) ← areaScale l
  let dx01 ← gglMulx l.dx01 d s
  let dy10 ← gglMulx l.dy10 d s
  let dx20 ← gglMulx l.dx20 d s
  let dy02 ← gglMulx l.dy02 d s
  let l := { l with
    x0 := v0.window.x, y0 := v0.window.y, dx01, dy10, dx20, dy02
    areaScale := (32 + q - s) % 256, scale := 0 }
  if tmus then
    let B := clzAbs [l.x0, l.y0]
    return { l with scale := (max 0 (32 - (l.leading + 16)) + max 0 (32 - (B + 4)) + 1) % 256 }
  else return l

section Iterators

variable (l : Lerp)

def gradient (c0 dc01 dc02 : Int) : Traced Gradient := do
  let s := l.areaScale
  let dcdx ← gglMulAddx dc01 l.dy02 (← gglMulx dc02 l.dy10 s) s
  let dcdy ← gglMulAddx dc02 l.dx01 (← gglMulx dc01 l.dx20 s) s
  let c ← gglMulAddx dcdx l.x0 (← gglMulx dcdy l.y0 4) 4
  return ⟨wrap32 (c0 - c), dcdx, dcdy⟩

def iteratorsScale (c0 c1 c2 : Int) : Traced (Gradient × Int) := do
  let dc01 := wrap32 (c1 - c0)
  let dc02 := wrap32 (c2 - c0)
  let A := clzAbs [c0]
  let B := clzAbs [dc01, dc02]
  let scale := min A (B - l.scale) - 2
  let shifted (c : Int) := if scale ≥ 0 then shiftLeft c scale else shiftRight c (-scale)
  return (← gradient l (← shifted c0) (← shifted dc01) (← shifted dc02), scale)

def iterators1616 (c0 c1 c2 : Int) : Traced Gradient :=
  gradient l c0 (wrap32 (c1 - c0)) (wrap32 (c2 - c0))

def iterators0032 (c0 c1 c2 : Int) : Traced Gradient := do
  let s := l.areaScale - 16
  let dc01 ← shiftRight (wrap32 (c1 - c0)) s
  let dc02 ← shiftRight (wrap32 (c2 - c0)) s
  let dcdx := wrap64 (dc01 * l.dy02 + dc02 * l.dy10)
  let dcdy := wrap64 (dc02 * l.dx01 + dc01 * l.dx20)
  let c ← shiftLeft c0 16
  let back ← shiftRightLong (wrap64 (dcdx * l.x0 + dcdy * l.y0)) 4
  return ⟨wrap64 (c - back), dcdx, dcdy⟩

end Iterators

def value {α : Type} (x : Traced α) : α := x.run.1

def steps {α : Type} (x : Traced α) : List Step := x.run.2

def Sound {α : Type} (x : Traced α) : Prop := ∀ step ∈ steps x, step.Valid

variable {α β : Type}

theorem value_bind (x : Traced α) (f : α → Traced β) : value (x >>= f) = value (f (value x)) :=
  rfl

theorem value_ite (c : Prop) [Decidable c] (x y : Traced α) :
    value (if c then x else y) = if c then value x else value y :=
  apply_ite value c x y

theorem sound_bind (x : Traced α) (f : α → Traced β) :
    Sound (x >>= f) ↔ Sound x ∧ Sound (f (value x)) := by
  unfold Sound
  rw [show steps (x >>= f) = steps x ++ steps (f (value x)) from rfl]
  exact List.forall_mem_append

theorem sound_ite (c : Prop) [Decidable c] (x y : Traced α) :
    Sound (if c then x else y) ↔ if c then Sound x else Sound y :=
  iff_of_eq (apply_ite Sound c x y)

theorem sound_pure (a : α) : Sound (pure a : Traced α) :=
  List.forall_mem_nil _

theorem value_areaScale (l : Lerp) : value (areaScale l) = Gradients.areaScale l := by
  unfold areaScale Gradients.areaScale
  simp only [value_bind, value_ite]
  rfl

theorem value_initLerp (tmus : Bool) (l : Lerp) (v0 : Vertex) :
    value (initLerp tmus l v0) = Gradients.initLerp tmus l v0 := by
  unfold initLerp Gradients.initLerp
  rw [← value_areaScale]
  simp only [value_bind, value_ite]
  rfl

theorem value_iteratorsScale (l : Lerp) (c0 c1 c2 : Int) :
    value (iteratorsScale l c0 c1 c2) = l.iteratorsScale c0 c1 c2 := by
  unfold iteratorsScale Lerp.iteratorsScale
  simp only [value_bind, value_ite]
  rfl

theorem value_iterators1616 (l : Lerp) (c0 c1 c2 : Int) :
    value (iterators1616 l c0 c1 c2) = l.iterators1616 c0 c1 c2 :=
  rfl

theorem value_iterators0032 (l : Lerp) (c0 c1 c2 : Int) :
    value (iterators0032 l c0 c1 c2) = l.iterators0032 c0 c1 c2 :=
  rfl

theorem product_valid (a b n : Int) : (Step.product a b n).Valid ↔ 1 ≤ n ∧ n ≤ 31 := by
  constructor
  · rintro ⟨⟨low, high⟩, rounded⟩
    refine ⟨low, ?_⟩
    by_contra large
    obtain rfl : n = 32 := by omega
    have code : mulx a b 32 = wrap32 ((a * b - 2 ^ 31) / 2 ^ 32) := by
      unfold mulx
      rw [Int.shiftRight_eq_div_pow]
      rfl
    rw [code] at rounded
    have meant : wrap32 ((a * b - 2 ^ 31) / 2 ^ 32) = wrap32 ((a * b + 2 ^ 31) / 2 ^ 32) := rounded
    have next : (a * b + 2 ^ 31) / 2 ^ 32 = (a * b - 2 ^ 31) / 2 ^ 32 + 1 := by omega
    rw [next] at meant
    unfold wrap32 at meant
    rw [Int.bmod_def, Int.bmod_def] at meant
    omega
  · rintro ⟨low, high⟩
    refine ⟨⟨low, by omega⟩, ?_⟩
    have term : wrap32 (2 ^ ((n - 1) % 32).toNat) = 2 ^ (n - 1).toNat := by
      rw [Int.emod_eq_of_lt (by omega) (by omega)]
      have fits : (2 : Int) ^ (n - 1).toNat ≤ 2 ^ 30 := by
        exact_mod_cast Nat.pow_le_pow_right (by omega : 0 < 2) (by omega : (n - 1).toNat ≤ 30)
      have positive : (0 : Int) < 2 ^ (n - 1).toNat := Int.pow_pos (by omega)
      exact wrap32_of_bounds (by omega) (by omega)
    rw [mulx, term, Int.emod_eq_of_lt (by omega) (by omega), Int.shiftRight_eq_div_pow]
    push_cast
    rfl

theorem sound_shiftRight (x n : Int) : Sound (shiftRight x n) ↔ 0 ≤ n ∧ n ≤ 31 :=
  List.forall_mem_singleton

theorem sound_shiftLeft (x n : Int) : Sound (shiftLeft x n) ↔ 0 ≤ n ∧ n ≤ 31 :=
  List.forall_mem_singleton

theorem sound_shiftRightLong (x n : Int) : Sound (shiftRightLong x n) ↔ 0 ≤ n ∧ n ≤ 63 :=
  List.forall_mem_singleton

theorem sound_gglMulx (a b n : Int) : Sound (gglMulx a b n) ↔ 1 ≤ n ∧ n ≤ 31 :=
  List.forall_mem_singleton.trans (product_valid a b n)

theorem sound_gglMulAddx (a b c n : Int) : Sound (gglMulAddx a b c n) ↔ 0 ≤ n ∧ n ≤ 63 :=
  List.forall_mem_singleton

theorem sound_gglRecipQNormalized (x : Int) : Sound (gglRecipQNormalized x) ↔ x ≠ 0 :=
  List.forall_mem_singleton

theorem sound_gradient (l : Lerp) (c0 dc01 dc02 : Int) :
    Sound (gradient l c0 dc01 dc02) ↔ 1 ≤ l.areaScale ∧ l.areaScale ≤ 31 := by
  simp only [gradient, sound_bind, sound_gglMulx, sound_gglMulAddx, sound_pure, and_true]
  omega

theorem sound_iterators1616 (l : Lerp) (c0 c1 c2 : Int) :
    Sound (iterators1616 l c0 c1 c2) ↔ 1 ≤ l.areaScale ∧ l.areaScale ≤ 31 :=
  sound_gradient l c0 _ _

theorem sound_iterators0032 (l : Lerp) (c0 c1 c2 : Int) :
    Sound (iterators0032 l c0 c1 c2) ↔ 16 ≤ l.areaScale ∧ l.areaScale ≤ 47 := by
  simp only [iterators0032, sound_bind, sound_shiftRight, sound_shiftLeft, sound_shiftRightLong,
    sound_pure, and_true]
  omega

/-- The block exponent of `iteratorsScale`. -/
def blockScale (l : Lerp) (c0 c1 c2 : Int) : Int :=
  min (clzAbs [c0]) (clzAbs [wrap32 (c1 - c0), wrap32 (c2 - c0)] - l.scale) - 2

theorem sound_iteratorsScale (l : Lerp) (c0 c1 c2 : Int) :
    Sound (iteratorsScale l c0 c1 c2) ↔
      (-31 ≤ blockScale l c0 c1 c2 ∧ blockScale l c0 c1 c2 ≤ 31) ∧
        1 ≤ l.areaScale ∧ l.areaScale ≤ 31 := by
  have shifted (c n : Int) :
      Sound (if n ≥ 0 then shiftLeft c n else shiftRight c (-n)) ↔ -31 ≤ n ∧ n ≤ 31 := by
    rw [sound_ite, sound_shiftLeft, sound_shiftRight]
    split <;> omega
  unfold blockScale
  simp only [iteratorsScale, sound_bind, shifted, sound_gradient, sound_pure]
  tauto

theorem sound_initLerp (tmus : Bool) (l : Lerp) (v0 : Vertex) :
    Sound (initLerp tmus l v0) ↔ Sound (areaScale l) ∧
      1 ≤ (Gradients.areaScale l).2.2 ∧ (Gradients.areaScale l).2.2 ≤ 31 := by
  simp only [initLerp, sound_bind, value_areaScale, sound_gglMulx, sound_ite, sound_pure, ite_self]
  tauto

/-- Coordinates whose differences fit 32 bits; those in a window are at most 2^16. -/
structure InRange (v : Vertex) : Prop where
  left : -2 ^ 30 < v.window.x
  right : v.window.x < 2 ^ 30
  top : -2 ^ 30 < v.window.y
  bottom : v.window.y < 2 ^ 30

instance (v : Vertex) : Decidable (InRange v) :=
  decidable_of_iff
    ((-2 ^ 30 < v.window.x ∧ v.window.x < 2 ^ 30) ∧ -2 ^ 30 < v.window.y ∧ v.window.y < 2 ^ 30)
    ⟨fun h => ⟨h.1.1, h.1.2, h.2.1, h.2.2⟩, fun h => ⟨⟨h.1, h.2⟩, h.3, h.4⟩⟩

inductive Primitive where
  | triangle (v0 v1 v2 : Vertex)
  | line (v0 v1 : Vertex)

namespace Primitive

def vertices : Primitive → List Vertex
  | triangle v0 v1 v2 => [v0, v1, v2]
  | line v0 v1 => [v0, v1]

/-- The vertex that `lerp_triangle` hands to `initLerp`. -/
def first : Primitive → Vertex
  | triangle v0 _ _ => v0
  | line v0 _ => v0

def lerp : Primitive → Lerp
  | triangle v0 v1 v2 => initTriangle v0 v1 v2
  | line v0 v1 => Gradients.initLine v0 v1

/-- The longest way along an axis from the first vertex to another one, in sixteenths of a pixel. -/
def side : Primitive → Nat
  | triangle v0 v1 v2 =>
    max (max (v1.window.x - v0.window.x).natAbs (v1.window.y - v0.window.y).natAbs)
      (max (v2.window.x - v0.window.x).natAbs (v2.window.y - v0.window.y).natAbs)
  | line v0 v1 => max (v1.window.x - v0.window.x).natAbs (v1.window.y - v0.window.y).natAbs

/-- Twice the area of a triangle. A line has the difference of two squares in its place. -/
def cross : Primitive → Int
  | triangle v0 v1 v2 =>
    (v1.window.x - v0.window.x) * (v2.window.y - v0.window.y) -
      (v1.window.y - v0.window.y) * (v2.window.x - v0.window.x)
  | line v0 v1 => (v1.window.x - v0.window.x) ^ 2 - (v1.window.y - v0.window.y) ^ 2

def area (p : Primitive) : Int := wrap32 (p.cross + triHalf) / 16

structure ShiftsValid (p : Primitive) : Prop where
  initLerp (tmus : Bool) : Sound (initLerp tmus p.lerp p.first)
  iteratorsScale (tmus : Bool) (c0 c1 c2 : Int) :
    Sound (iteratorsScale (Gradients.initLerp tmus p.lerp p.first) c0 c1 c2)
  iterators1616 (tmus : Bool) (c0 c1 c2 : Int) :
    Sound (iterators1616 (Gradients.initLerp tmus p.lerp p.first) c0 c1 c2)
  iterators0032 (tmus : Bool) (c0 c1 c2 : Int) :
    Sound (iterators0032 (Gradients.initLerp tmus p.lerp p.first) c0 c1 c2)

/-- Sides below 4096 pixels, and an area of four times the highest digit of the longest one. -/
def Wide (p : Primitive) : Prop :=
  p.side < 2 ^ 16 ∧ 4 * 2 ^ p.side.log2 ≤ p.area.natAbs

end Primitive

variable {k : Nat}

theorem gglClz_ge_iff {n : Nat} (digits : k ≤ 31) : 32 - k ≤ gglClz n ↔ n < 2 ^ k := by
  unfold gglClz
  split
  next zero =>
    subst zero
    exact iff_of_true (by omega) (Nat.two_pow_pos k)
  next some =>
    rw [← Nat.log2_lt some]
    omega

theorem foldl_or_lt_iff (xs : List Int) (b : Nat) :
    (xs.map fun x => (x.natAbs : Int)).foldl (fun bits x => bits ||| x.toNat) b < 2 ^ k ↔
      b < 2 ^ k ∧ ∀ x ∈ xs, x.natAbs < 2 ^ k := by
  induction xs generalizing b with
  | nil => simp
  | cons x xs ih =>
    have both : b ||| x.natAbs < 2 ^ k ↔ b < 2 ^ k ∧ x.natAbs < 2 ^ k :=
      ⟨fun h => ⟨Nat.left_le_or.trans_lt h, Nat.right_le_or.trans_lt h⟩,
        fun h => Nat.or_lt_two_pow h.1 h.2⟩
    simp only [List.map_cons, List.foldl_cons, Int.toNat_natCast, ih, both, List.forall_mem_cons]
    exact and_assoc

theorem clzAbs_ge_iff (digits : k ≤ 31) (xs : List Int) :
    32 - (k : Int) ≤ clzAbs xs ↔ ∀ x ∈ xs, x.natAbs < 2 ^ k := by
  have unsigned : (xs.map fun x => (x.natAbs : Int)).any (· < 0) = false := by
    simp
  have zeros := gglClz_ge_iff digits (n := (xs.map fun x => (x.natAbs : Int)).foldl
    (fun bits x => bits ||| x.toNat) 0)
  have all := (foldl_or_lt_iff (k := k) xs 0).trans (and_iff_right (Nat.two_pow_pos k))
  unfold clzAbs Gradients.clzOr
  rw [unsigned]
  simp only [Bool.false_eq_true, if_false]
  rw [← all, ← zeros]
  omega

theorem clzAbs_bounds (xs : List Int) : 0 ≤ clzAbs xs ∧ clzAbs xs ≤ 32 := by
  have most (n : Nat) : gglClz n ≤ 32 := by
    unfold gglClz
    split <;> omega
  unfold clzAbs Gradients.clzOr
  split
  · decide
  · have := most ((xs.map fun x => (x.natAbs : Int)).foldl (fun bits x => bits ||| x.toNat) 0)
    omega

/-- What the setup of a primitive with this side and this area has to work on. -/
structure Sized (l : Lerp) (side : Nat) (area : Int) : Prop where
  small : side < 2 ^ 31
  digits (k : Nat) :
    (∀ x ∈ [l.dy02, l.dy10, l.dx01, l.dx20], x.natAbs < 2 ^ k) ↔ side < 2 ^ k
  rounded : wrap32 (l.area + triHalf) >>> (4 : Nat) = area
  most : area.natAbs ≤ 2 ^ 17 * side
  least : side ≤ 1 → area = 0

theorem gglRecipQNormalized_bounds (x : Int) :
    (Fixed.gglRecipQNormalized x).1.natAbs ≤ 2 ^ 31 := by
  have half (r : Nat) (fits : r < 2 ^ 32) : r >>> (1 : Nat) < 2 ^ 31 := by
    rw [Nat.shiftRight_eq_div_pow]
    omega
  have reciprocal (a : Nat) : (if a <<< gglClz a % 2 ^ 32 = 0x80000000 then a <<< gglClz a % 2 ^ 32
      else newton (a <<< gglClz a % 2 ^ 32) (newton (a <<< gglClz a % 2 ^ 32)
        ((0x2E800 <<< 14 + 2 ^ 32 - (a <<< gglClz a % 2 ^ 32) >>> 1) % 2 ^ 32))) < 2 ^ 32 := by
    split
    all_goals exact Nat.mod_lt _ (by decide)
  unfold Fixed.gglRecipQNormalized
  dsimp only
  split
  · split <;> decide
  · have := half _ (reciprocal x.natAbs)
    dsimp only
    split <;> omega

theorem gglRecipQNormalized_exponent (x : Int) :
    (Fixed.gglRecipQNormalized x).2 =
      if x.natAbs ≤ 2 then 0 else 30 - (gglClz x.natAbs : Int) - 1 := by
  unfold Fixed.gglRecipQNormalized
  dsimp only
  split <;> rfl

section Sized

variable {l : Lerp} {side : Nat} {area : Int}

theorem Sized.leading (sized : Sized l side area) (some : side ≠ 0) :
    l.leading = 31 - side.log2 := by
  have highest : side.log2 < 31 := (Nat.log2_lt some).mpr sized.small
  have below := (clzAbs_ge_iff (k := side.log2 + 1) (by omega) _).mpr
    ((sized.digits _).mpr Nat.lt_log2_self)
  have above : ¬32 - (side.log2 : Int) ≤ l.leading := by
    unfold Lerp.leading
    rw [clzAbs_ge_iff (by omega), sized.digits, not_lt]
    exact Nat.log2_self_le some
  unfold Lerp.leading at above ⊢
  omega

/-- The exponent of the area does not reach the shift that its sides ask for, and is as large as
their digits where the area is. -/
theorem Sized.exponent (sized : Sized l side area) (large : 2 ≤ area.natAbs) :
    -1 ≤ (Fixed.gglRecipQNormalized area).2 ∧
      (Fixed.gglRecipQNormalized area).2 ≤ min 25 (side.log2 + 15) ∧
      ((side.log2 : Int) ≤ (Fixed.gglRecipQNormalized area).2 ↔
        4 * 2 ^ side.log2 ≤ area.natAbs) := by
  have sides : 2 ≤ side := by
    by_contra tiny
    have := sized.least (by omega)
    omega
  have fits : area.natAbs < 2 ^ 28 := by
    have bounds := wrap32_bounds (l.area + triHalf)
    have rounded := sized.rounded
    rw [Int.shiftRight_eq_div_pow] at rounded
    omega
  have highest : area.natAbs.log2 < 28 := (Nat.log2_lt (by omega)).mpr fits
  have most : area.natAbs.log2 < side.log2 + 18 := by
    rw [Nat.log2_lt (by omega)]
    have digits : side < 2 ^ (side.log2 + 1) := Nat.lt_log2_self
    calc area.natAbs ≤ 2 ^ 17 * side := sized.most
      _ < 2 ^ 17 * 2 ^ (side.log2 + 1) := Nat.mul_lt_mul_of_pos_left digits (by decide)
      _ = 2 ^ (side.log2 + 18) := by
        rw [← pow_add]
        congr 1
        omega
  have lowest : 1 ≤ side.log2 := (Nat.le_log2 (by omega)).mpr sides
  have four : 4 * 2 ^ side.log2 = 2 ^ (side.log2 + 2) := by
    rw [pow_add]
    omega
  rw [gglRecipQNormalized_exponent, four, ← Nat.le_log2 (by omega)]
  split
  next two =>
    have small : area.natAbs.log2 < 2 := (Nat.log2_lt (by omega)).mpr (by omega)
    omega
  next more =>
    unfold gglClz
    rw [if_neg (by omega)]
    have some : 1 ≤ area.natAbs.log2 := (Nat.le_log2 (by omega)).mpr (by omega)
    omega

theorem Sized.shift (sized : Sized l side area) (large : 2 ≤ area.natAbs) :
    (if 32 - l.leading + 15 < (Fixed.gglRecipQNormalized area).2 then
      (Fixed.gglRecipQNormalized area).2 else 32 - l.leading + 15) = side.log2 + 16 := by
  have some : side ≠ 0 := by
    rintro rfl
    have := sized.least (by omega)
    omega
  have exponent := sized.exponent large
  rw [sized.leading some, if_neg (by omega)]
  omega

theorem Sized.areaScale_eq (sized : Sized l side area) (large : 2 ≤ area.natAbs) :
    Gradients.areaScale l =
      let (d, q) := Fixed.gglRecipQNormalized area
      if (side.log2 : Int) + 16 > 32 then
        (d >>> ((32 - ((side.log2 : Int) + 16)) % 32).toNat, q, 32)
      else (d, q, side.log2 + 16) := by
  unfold Gradients.areaScale
  simp only [sized.rounded, sized.shift large, if_pos large]

theorem Sized.sound_areaScale (sized : Sized l side area) (large : 2 ≤ area.natAbs) :
    Sound (areaScale l) ↔ side.log2 ≤ 16 := by
  have rounded : value (shiftRight (wrap32 (l.area + triHalf)) 4) = area := sized.rounded
  have reciprocal : value (gglRecipQNormalized area) = Fixed.gglRecipQNormalized area := rfl
  unfold areaScale
  rw [sound_bind, sound_shiftRight, rounded, if_pos large, sound_bind, sound_gglRecipQNormalized,
    reciprocal]
  dsimp only
  rw [sized.shift large, sound_ite, sound_bind, sound_shiftRight]
  by_cases deep : (side.log2 : Int) + 16 > 32
  · rw [if_pos deep]
    omega
  · rw [if_neg deep]
    have pure := sound_pure ((Fixed.gglRecipQNormalized area).1,
      (Fixed.gglRecipQNormalized area).2, (side.log2 : Int) + 16)
    refine ⟨fun _ => by omega, fun _ => ⟨by omega, by omega, pure⟩⟩

theorem Sized.sound_initLerp (sized : Sized l side area) (large : 2 ≤ area.natAbs) (tmus : Bool)
    (v0 : Vertex) : Sound (initLerp tmus l v0) ↔ side < 2 ^ 16 := by
  have some : side ≠ 0 := by
    rintro rfl
    have := sized.least (by omega)
    omega
  rw [GradientShifts.sound_initLerp, sized.sound_areaScale large, sized.areaScale_eq large,
    ← Nat.log2_lt some]
  dsimp only
  split <;> dsimp only <;> omega

theorem initLerp_areaScale (tmus : Bool) (l : Lerp) (v0 : Vertex) :
    (Gradients.initLerp tmus l v0).areaScale =
      (32 + (Gradients.areaScale l).2.1 - (Gradients.areaScale l).2.2) % 256 := by
  unfold Gradients.initLerp
  dsimp only
  split <;> rfl

theorem Sized.areaScale_value (sized : Sized l side area) (large : 2 ≤ area.natAbs)
    (short : side.log2 < 16) (tmus : Bool) (v0 : Vertex) :
    (Gradients.initLerp tmus l v0).areaScale =
      16 + (Fixed.gglRecipQNormalized area).2 - side.log2 := by
  have exponent := sized.exponent large
  rw [initLerp_areaScale, sized.areaScale_eq large]
  dsimp only
  rw [if_neg (by omega)]
  dsimp only
  omega

theorem mulx_small {a d : Int} {n : Nat} (short : n < 16) (side : a.natAbs < 2 ^ (n + 1))
    (fits : d.natAbs ≤ 2 ^ 31) : (mulx a d (n + 16)).natAbs < 2 ^ 18 := by
  have formula := ((product_valid a d (n + 16)).mpr (by omega)).2
  have unit : (0 : Int) < 2 ^ (n + 16) := Int.pow_pos (by omega)
  have product : (a * d).natAbs ≤ 2 ^ 16 * 2 ^ (n + 16) := by
    rw [Int.natAbs_mul]
    calc a.natAbs * d.natAbs ≤ 2 ^ (n + 1) * 2 ^ 31 := Nat.mul_le_mul side.le fits
      _ = 2 ^ 16 * 2 ^ (n + 16) := by
        rw [← pow_add, ← pow_add]
        congr 1
        omega
  have half : (2 : Int) ^ ((n : Int) + 16 - 1).toNat ≤ 2 ^ (n + 16) := by
    have count : ((n : Int) + 16 - 1).toNat ≤ n + 16 := by omega
    exact_mod_cast Nat.pow_le_pow_right (by omega : 0 < 2) count
  have positive : (0 : Int) < 2 ^ ((n : Int) + 16 - 1).toNat := Int.pow_pos (by omega)
  have both : -(2 ^ 16 * 2 ^ (n + 16)) ≤ a * d ∧ a * d ≤ 2 ^ 16 * (2 : Int) ^ (n + 16) := by
    have cast : ((2 ^ 16 * 2 ^ (n + 16) : Nat) : Int) = 2 ^ 16 * 2 ^ (n + 16) := by
      rw [Int.natCast_mul, Int.natCast_pow, Int.natCast_pow]
      rfl
    omega
  have low : -2 ^ 16 ≤ (a * d + 2 ^ ((n : Int) + 16 - 1).toNat) / 2 ^ (n + 16) :=
    (Int.le_ediv_iff_mul_le unit).mpr (by omega)
  have high : (a * d + 2 ^ ((n : Int) + 16 - 1).toNat) / 2 ^ (n + 16) < 2 ^ 16 + 2 :=
    (Int.ediv_lt_iff_lt_mul unit).mpr (by omega)
  rw [show ((n : Int) + 16).toNat = n + 16 by omega, wrap32_of_bounds (by omega) (by omega)]
    at formula
  omega

theorem Sized.scale_bounds (sized : Sized l side area) (large : 2 ≤ area.natAbs)
    (short : side.log2 < 16) (tmus : Bool) {v0 : Vertex} (inRange : InRange v0) :
    0 ≤ (Gradients.initLerp tmus l v0).scale ∧ (Gradients.initLerp tmus l v0).scale ≤ 29 := by
  have each := (sized.digits (side.log2 + 1)).mpr Nat.lt_log2_self
  have fits := gglRecipQNormalized_bounds area
  have value : Gradients.areaScale l = ((Fixed.gglRecipQNormalized area).1,
      (Fixed.gglRecipQNormalized area).2, (side.log2 : Int) + 16) := by
    rw [sized.areaScale_eq large]
    dsimp only
    rw [if_neg (by omega)]
  obtain ⟨left, right, top, bottom⟩ := inRange
  have leading := (clzAbs_ge_iff (k := 18) (by omega)
    [mulx l.dy02 (Fixed.gglRecipQNormalized area).1 (side.log2 + 16),
      mulx l.dy10 (Fixed.gglRecipQNormalized area).1 (side.log2 + 16),
      mulx l.dx01 (Fixed.gglRecipQNormalized area).1 (side.log2 + 16),
      mulx l.dx20 (Fixed.gglRecipQNormalized area).1 (side.log2 + 16)]).mpr (by
        simp only [List.forall_mem_cons, List.not_mem_nil, false_implies, implies_true, and_true]
          at each ⊢
        exact ⟨mulx_small short each.1 fits, mulx_small short each.2.1 fits,
          mulx_small short each.2.2.1 fits, mulx_small short each.2.2.2 fits⟩)
  have place := (clzAbs_ge_iff (k := 30) (by omega) [v0.window.x, v0.window.y]).mpr (by
    simp only [List.forall_mem_cons, List.not_mem_nil, false_implies, implies_true, and_true]
    omega)
  unfold Gradients.initLerp
  rw [value]
  cases tmus with
  | false =>
    have none : (0 : Int) ≤ 29 := by decide
    exact ⟨le_rfl, none⟩
  | true =>
    dsimp only
    rw [if_pos rfl]
    unfold Lerp.leading
    dsimp only
    have := clzAbs_bounds [v0.window.x, v0.window.y]
    omega

theorem Sized.sound_iff (sized : Sized l side area) {v0 : Vertex} (inRange : InRange v0) :
    ((∀ tmus, Sound (initLerp tmus l v0)) ∧ ∀ tmus c0 c1 c2,
      Sound (iteratorsScale (Gradients.initLerp tmus l v0) c0 c1 c2) ∧
        Sound (iterators1616 (Gradients.initLerp tmus l v0) c0 c1 c2) ∧
        Sound (iterators0032 (Gradients.initLerp tmus l v0) c0 c1 c2)) ↔
      side < 2 ^ 16 ∧ 4 * 2 ^ side.log2 ≤ area.natAbs := by
  have unit := Nat.two_pow_pos side.log2
  by_cases large : 2 ≤ area.natAbs
  · have some : side ≠ 0 := by
      rintro rfl
      have := sized.least (by omega)
      omega
    have exponent := sized.exponent large
    rw [← Nat.log2_lt some, ← exponent.2.2]
    simp only [sized.sound_initLerp large, ← Nat.log2_lt some, forall_const]
    refine and_congr_right fun short => ?_
    simp only [sound_iteratorsScale, sound_iterators1616, sound_iterators0032,
      sized.areaScale_value large short]
    constructor
    · intro sound
      have := (sound false 0 0 0).2.2
      omega
    · intro deep tmus c0 c1 c2
      have scale := sized.scale_bounds large short tmus inRange
      have value := clzAbs_bounds [c0]
      have differences := clzAbs_bounds [wrap32 (c1 - c0), wrap32 (c2 - c0)]
      unfold blockScale
      omega
  · refine iff_of_false (fun sound => ?_) (by omega)
    have none : Gradients.areaScale l = (0, 0, 0) := by
      unfold Gradients.areaScale
      simp only [sized.rounded, if_neg large]
    have shift := ((GradientShifts.sound_initLerp false l v0).mp (sound.1 false)).2.1
    rw [none] at shift
    exact absurd shift (by decide)

end Sized

theorem cross_bound (side : Nat) {a b c d : Int} (ha : a.natAbs ≤ side) (hb : b.natAbs ≤ side)
    (hc : c.natAbs ≤ side) (hd : d.natAbs ≤ side) : (a * d - b * c).natAbs ≤ 2 * side ^ 2 := by
  have first : (a * d).natAbs ≤ side * side := by
    rw [Int.natAbs_mul]
    exact Nat.mul_le_mul ha hd
  have second : (b * c).natAbs ≤ side * side := by
    rw [Int.natAbs_mul]
    exact Nat.mul_le_mul hb hc
  rw [pow_two]
  omega

theorem area_bounds {cross : Int} {side : Nat} (bound : cross.natAbs ≤ 2 * side ^ 2) :
    (wrap32 (cross + triHalf) / 16).natAbs ≤ 2 ^ 17 * side ∧
      (side ≤ 1 → wrap32 (cross + triHalf) / 16 = 0) := by
  have kept := wrap32_bounds (cross + triHalf)
  rw [pow_two] at bound
  unfold triHalf at kept ⊢
  by_cases short : side < 2 ^ 10
  · have linear : side * side ≤ 2 ^ 10 * side := Nat.mul_le_mul_right side short.le
    rw [wrap32_of_bounds (by omega) (by omega)]
    refine ⟨by omega, fun unit => ?_⟩
    have square : side * side ≤ 1 * 1 := Nat.mul_le_mul unit unit
    omega
  · omega

theorem rounded_eq (cross : Int) :
    wrap32 (wrap32 cross + triHalf) >>> (4 : Nat) = wrap32 (cross + triHalf) / 16 := by
  rw [Int.shiftRight_eq_div_pow]
  exact congrArg (· / 16) (wrap32_add_left _ _)

private theorem difference_fits {a b : Int} (ha : -2 ^ 30 < a ∧ a < 2 ^ 30)
    (hb : -2 ^ 30 < b ∧ b < 2 ^ 30) : wrap32 (a - b) = a - b :=
  wrap32_of_bounds (by omega) (by omega)

namespace Primitive

theorem sized_triangle {v0 v1 v2 : Vertex} (h0 : InRange v0) (h1 : InRange v1) (h2 : InRange v2) :
    Sized (lerp (triangle v0 v1 v2)) (side (triangle v0 v1 v2)) (area (triangle v0 v1 v2)) := by
  obtain ⟨left0, right0, top0, bottom0⟩ := h0
  obtain ⟨left1, right1, top1, bottom1⟩ := h1
  obtain ⟨left2, right2, top2, bottom2⟩ := h2
  have dx01 : wrap32 (v1.window.x - v0.window.x) = v1.window.x - v0.window.x :=
    difference_fits ⟨left1, right1⟩ ⟨left0, right0⟩
  have dy10 : wrap32 (v0.window.y - v1.window.y) = v0.window.y - v1.window.y :=
    difference_fits ⟨top0, bottom0⟩ ⟨top1, bottom1⟩
  have dx20 : wrap32 (v0.window.x - v2.window.x) = v0.window.x - v2.window.x :=
    difference_fits ⟨left0, right0⟩ ⟨left2, right2⟩
  have dy02 : wrap32 (v2.window.y - v0.window.y) = v2.window.y - v0.window.y :=
    difference_fits ⟨top2, bottom2⟩ ⟨top0, bottom0⟩
  have bounds := area_bounds (cross_bound (side (triangle v0 v1 v2))
    (a := v1.window.x - v0.window.x) (b := v1.window.y - v0.window.y)
    (c := v2.window.x - v0.window.x) (d := v2.window.y - v0.window.y)
    (by dsimp only [side]; omega) (by dsimp only [side]; omega) (by dsimp only [side]; omega)
    (by dsimp only [side]; omega))
  refine ⟨?_, fun k => ?_, ?_, bounds.1, bounds.2⟩
  · simp only [side, Nat.max_lt]
    omega
  · have up : (v0.window.y - v1.window.y).natAbs = (v1.window.y - v0.window.y).natAbs := by
      omega
    have back : (v0.window.x - v2.window.x).natAbs = (v2.window.x - v0.window.x).natAbs := by
      omega
    simp only [lerp, initTriangle, dx01, dy10, dx20, dy02, side, List.forall_mem_cons,
      List.not_mem_nil, false_implies, implies_true, and_true, up, back, Nat.max_lt]
    tauto
  · simp only [lerp, initTriangle, dx01, dy10, dx20, dy02, rounded_eq]
    unfold area cross
    congr 3
    ring

theorem sized_line {v0 v1 : Vertex} (h0 : InRange v0) (h1 : InRange v1) :
    Sized (lerp (line v0 v1)) (side (line v0 v1)) (area (line v0 v1)) := by
  obtain ⟨left0, right0, top0, bottom0⟩ := h0
  obtain ⟨left1, right1, top1, bottom1⟩ := h1
  have dx : wrap32 (v1.window.x - v0.window.x) = v1.window.x - v0.window.x :=
    difference_fits ⟨left1, right1⟩ ⟨left0, right0⟩
  have dy : wrap32 (v0.window.y - v1.window.y) = v0.window.y - v1.window.y :=
    difference_fits ⟨top0, bottom0⟩ ⟨top1, bottom1⟩
  have squares : cross (line v0 v1) = (v1.window.x - v0.window.x) * (v1.window.x - v0.window.x) -
      (v1.window.y - v0.window.y) * (v1.window.y - v0.window.y) := by
    unfold cross
    ring
  have bounds := cross_bound (side (line v0 v1))
    (a := v1.window.x - v0.window.x) (b := v1.window.y - v0.window.y)
    (c := v1.window.y - v0.window.y) (d := v1.window.x - v0.window.x)
    (by dsimp only [side]; omega) (by dsimp only [side]; omega) (by dsimp only [side]; omega)
    (by dsimp only [side]; omega)
  rw [← squares] at bounds
  refine ⟨?_, fun k => ?_, ?_, (area_bounds bounds).1, (area_bounds bounds).2⟩
  · dsimp only [side]
    omega
  · simp only [lerp, Gradients.initLine, dx, dy, side, List.forall_mem_cons, List.not_mem_nil,
      false_implies, implies_true, and_true]
    omega
  · simp only [lerp, Gradients.initLine, dx, dy, rounded_eq]
    unfold area cross
    congr 3
    ring

theorem sized {p : Primitive} (inRange : ∀ v ∈ p.vertices, InRange v) :
    Sized p.lerp p.side p.area := by
  cases p with
  | triangle v0 v1 v2 =>
    simp only [vertices, List.forall_mem_cons, List.not_mem_nil, false_implies, implies_true,
      and_true] at inRange
    exact sized_triangle inRange.1 inRange.2.1 inRange.2.2
  | line v0 v1 =>
    simp only [vertices, List.forall_mem_cons, List.not_mem_nil, false_implies, implies_true,
      and_true] at inRange
    exact sized_line inRange.1 inRange.2

theorem first_mem (p : Primitive) : p.first ∈ p.vertices := by
  cases p <;> exact List.mem_cons_self

theorem shiftsValid_iff (p : Primitive) (inRange : ∀ v ∈ p.vertices, InRange v) :
    p.ShiftsValid ↔ p.Wide := by
  have sound := (sized inRange).sound_iff (inRange _ p.first_mem)
  unfold Wide
  rw [← sound]
  constructor
  · rintro ⟨initLerp, iteratorsScale, iterators1616, iterators0032⟩
    exact ⟨initLerp, fun tmus c0 c1 c2 => ⟨iteratorsScale tmus c0 c1 c2,
      iterators1616 tmus c0 c1 c2, iterators0032 tmus c0 c1 c2⟩⟩
  · rintro ⟨initLerp, iterators⟩
    exact ⟨initLerp, fun tmus c0 c1 c2 => (iterators tmus c0 c1 c2).1,
      fun tmus c0 c1 c2 => (iterators tmus c0 c1 c2).2.1,
      fun tmus c0 c1 c2 => (iterators tmus c0 c1 c2).2.2⟩

def placed (x y : Int) : Vertex := { Vertex.zero with window := ⟨x, y, 0, 0x10000⟩ }

theorem shiftsValid_halfSquare :
    (triangle (placed 0 0) (placed 1600 0) (placed 0 1600)).ShiftsValid :=
  (shiftsValid_iff (triangle (placed 0 0) (placed 1600 0) (placed 0 1600)) (by decide)).mpr
    ⟨by decide, by decide⟩

/-- The two squares of a diagonal line cancel, and nothing is inverted: its factor is shifted by
zero. -/
theorem diagonal_unshifted :
    ¬∀ p : Primitive, (∀ v ∈ p.vertices, InRange v) → p.ShiftsValid := by
  intro always
  have valid := always (line (placed 0 0) (placed 1600 1600)) (by decide)
  have shift := ((sound_initLerp false _ _).mp (valid.initLerp false)).2.1
  exact absurd shift (by decide)

end Primitive

end RabbitRender.Arrays.GradientShifts
