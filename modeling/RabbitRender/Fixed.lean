/- RabbitRender/Fixed
   layer: model
   source: include/ggl_fixed.h, libpixelflinger/fixed.cpp, swrender/matrix.h
   digest: Fixed-point arithmetic. Explicit conversions to 32 bits are kept; signed sums are
     exact. -/

import Mathlib.Algebra.Group.Int.Defs
import Mathlib.Algebra.Group.Nat.Defs
import RabbitRender.GL

set_option autoImplicit false

namespace RabbitRender.Fixed

/-- Conversion of a wider integer to `int32_t`. -/
def wrap32 (x : Int) : Int := Int.bmod x (2 ^ 32)

theorem wrap32_bounds (x : Int) : -2 ^ 31 ≤ wrap32 x ∧ wrap32 x < 2 ^ 31 := by
  unfold wrap32
  constructor
  · exact Int.le_bmod (by decide)
  · exact Int.bmod_lt (by decide)

theorem wrap32_of_bounds {x : Int} (low : -2 ^ 31 ≤ x) (high : x < 2 ^ 31) : wrap32 x = x := by
  unfold wrap32
  exact Int.bmod_eq_of_le (by omega) (by omega)

theorem wrap32_natCast_le (n : Nat) : wrap32 n ≤ n ∧ (wrap32 n = n ↔ n < 2 ^ 31) := by
  have bounds := wrap32_bounds n
  by_cases small : n < 2 ^ 31
  · rw [wrap32_of_bounds (by omega) (by omega)]
    exact ⟨Int.le_refl _, iff_of_true rfl small⟩
  · exact ⟨by omega, iff_of_false (by omega) small⟩

theorem wrap32_natCast {n : Nat} (h : n < 2 ^ 31) : wrap32 n = n := (wrap32_natCast_le n).2.2 h

@[simp] theorem wrap32_wrap32 (x : Int) : wrap32 (wrap32 x) = wrap32 x := Int.bmod_bmod

@[simp] theorem wrap32_add_left (x y : Int) : wrap32 (wrap32 x + y) = wrap32 (x + y) :=
  Int.bmod_add_bmod

theorem wrap32_add_right (x y : Int) : wrap32 (x + wrap32 y) = wrap32 (x + y) :=
  Int.add_bmod_bmod

theorem wrap32_sub_left (x y : Int) : wrap32 (wrap32 x - y) = wrap32 (x - y) :=
  Int.bmod_sub_bmod

theorem wrap32_sub_right (x y : Int) : wrap32 (x - wrap32 y) = wrap32 (x - y) :=
  Int.sub_bmod_bmod

theorem wrap32_mul_left (x y : Int) : wrap32 (wrap32 x * y) = wrap32 (x * y) :=
  Int.bmod_mul_bmod

theorem wrap32_mul_right (x y : Int) : wrap32 (x * wrap32 y) = wrap32 (x * y) :=
  Int.mul_bmod_bmod

theorem wrap32_sub_turn (x : Int) : wrap32 (x - 2 ^ 32) = wrap32 x := Int.sub_bmod_right x (2 ^ 32)

theorem wrap32_shift (x : Int) : wrap32 (x * 2 ^ 16) >>> (16 : Nat) = Int.bmod x (2 ^ 16) := by
  unfold wrap32
  rw [Int.shiftRight_eq_div_pow, Int.bmod_def, Int.bmod_def]
  split <;> split <;> omega

def gglMulx (a b : Int) (shift : Nat) : Int := wrap32 ((a * b + 2 ^ (shift - 1)) >>> shift)

theorem gglMulx_one (x : Int) : gglMulx 0x10000 x 16 = wrap32 x := by
  have whole : (0x10000 * x + 2 ^ (16 - 1)) >>> (16 : Nat) = x := by
    rw [Int.shiftRight_eq_div_pow]
    omega
  unfold gglMulx
  rw [whole]

def gglMulAddx (a b c : Int) (shift : Nat) : Int := wrap32 ((a * b) >>> shift) + c

def gglMulSubx (a b c : Int) (shift : Nat) : Int := wrap32 ((a * b) >>> shift) - c

/-- `gglClz` of a non-negative `int32_t`. -/
def gglClz (x : Nat) : Nat := if x = 0 then 32 else 31 - Nat.log2 x

def fixedMax : Int := 0x7FFFFFFF

def fixedMin : Int := -0x80000000

/-- One Newton-Raphson step of `gglRecipQNormalized`, on 64-bit words. -/
def newton (a r : Nat) : Nat :=
  let e := (a * r) >>> 32 % 2 ^ 32
  ((2 ^ 31 + 2 ^ 64 - e) % 2 ^ 64 * r % 2 ^ 64) >>> 30 % 2 ^ 32

def gglRecipQNormalized (x : Int) : Int × Int :=
  let a := x.natAbs
  if a ≤ 2 then (if x < 0 then fixedMin else fixedMax, 0)
  else
    let lz := gglClz a
    let a := a <<< lz % 2 ^ 32
    let r := if a = 0x80000000 then a
      else newton a (newton a ((0x2E800 <<< 14 + 2 ^ 32 - a >>> 1) % 2 ^ 32))
    let r : Int := (r >>> 1 : Nat)
    (if x < 0 then -r else r, 30 - lz - 1)

/-- Shift counts out of range are taken modulo the width of the shifted word. -/
def gglRecipQ (x : Int) (q : Int) : Int :=
  let (r, exponent) := gglRecipQNormalized x
  let shift := exponent + (16 - q)
  wrap32 (r + 2 ^ ((shift - 1) % 64).toNat) >>> (shift % 32).toNat

def gglRecip28 (x : Int) : Int := gglRecipQ x 28

/-- The loop of `slow_muldiv`; it shifts `lo` into `r` bit by bit. -/
def slowDivide (c : Nat) : Nat → (r lo result : Nat) → Nat
  | 0, _, _, result => result
  | bits + 1, r, lo, result =>
    let r := r <<< 1 ||| lo >>> 31
    let lo := lo <<< 1 % 2 ^ 32
    if r ≥ c then slowDivide c bits (r - c) lo (result <<< 1 ||| 1)
    else slowDivide c bits r lo (result <<< 1)

def slowMuldiv (a b c : Nat) : Nat :=
  let hi := (a * b) >>> 32
  let lo := (a * b) % 2 ^ 32
  if hi ≥ c then 0x7FFFFFFF
  else if hi = 0 then (if lo / c ≥ 2 ^ 31 then 0x7FFFFFFF else lo / c)
  else slowDivide c 32 hi lo 0

/-- `gglClz` of an `int32_t`. -/
def clz32 (x : Int) : Nat := if x < 0 then 0 else gglClz x.toNat

namespace MulDiv

/-- `if (n<0) n = -n`; the least word stays negative. -/
def magnitude (n : Int) : Int := if n < 0 then wrap32 (-n) else n

/-- `if (r >= c) { r -= c; q++; }` -/
def subtract (c : Int) (t : Int × Int) : Int × Int :=
  if t.1 ≥ c then (wrap32 (t.1 - c), wrap32 (t.2 + 1)) else t

/-- The loop of `quick_muldiv`, which takes the bits of `a` from the highest one on. -/
def quickWords (b c : Int) : Nat → (a r q : Int) → Int
  | 0, _, _, q => q
  | i + 1, a, r, q =>
    let r := if a < 0 then wrap32 (wrap32 (r * 2) + b) else wrap32 (r * 2)
    let t := subtract c (subtract c (r, wrap32 (q * 2)))
    quickWords b c i (wrap32 (a * 2)) t.1 t.2

/-- The turns of `while (--i)`; a counter that starts at zero passes through all words. -/
def turns (i : Nat) : Nat := if i = 0 then 2 ^ 32 else i

def quickMuldiv (a b c : Int) : Int :=
  quickWords b c (turns (32 - clz32 a)) (wrap32 (a * 2 ^ clz32 a)) 0 0

def uint32 (x : Int) : Nat := (x % 2 ^ 32).toNat

/-- `a^b^c` is negative. -/
def negative (a b c : Int) : Bool := Bool.xor (a < 0) (Bool.xor (b < 0) (c < 0))

def larger (a b : Int) : Int := max (magnitude a) (magnitude b)

def smaller (a b : Int) : Int := min (magnitude a) (magnitude b)

end MulDiv

open MulDiv in
/-- `gglMulDivi` of 32-bit words, each sum and shift of which is one again. -/
def gglMulDivi (a b c : Int) : Int :=
  let x := larger a b
  let y := smaller a b
  let c' := magnitude c
  let result := if y ≤ c' then quickMuldiv x y c'
    else wrap32 (slowMuldiv (uint32 x) (uint32 y) (uint32 c'))
  if negative a b c then wrap32 (-result) else result

def gglRecipFast (x : Int) : Int :=
  let lz := clz32 x
  wrap32 (((0xC0000000 - x <<< ((lz + 31) % 32)) % 2 ^ 32) >>> ((62 - lz) % 32))

/-- `1/sqrt(x)` with `x = 1 - N/16`, `N` from 8 down to 1. -/
def gglSqrtReciprocApproxTab : List Int :=
  [0x16A09, 0x15555, 0x143D1, 0x134BF, 0x1279A, 0x11C01, 0x111AC, 0x10865]

/-- One Newton-Raphson step of `gglSqrtRecipx`: `x/2*(3-(a*x)*x)`. -/
def sqrtNewton (a x : Int) : Int :=
  gglMulx (x >>> (1 : Nat)) (0x30000 - gglMulx (gglMulx a x 16) x 16) 16

def gglSqrtRecipx (a : Int) : Int :=
  if a = 0 then fixedMax
  else if a = 0x10000 then a
  else
    let lz := clz32 a
    let x := gglSqrtReciprocApproxTab.getD (a >>> ((60 - lz) % 32) % 8).toNat 0
    let exp : Int := lz - 16
    let x := if exp ≤ 0 then x >>> ((-exp) >>> (1 : Nat)).toNat
      else wrap32 (x <<< (exp >>> (1 : Nat) + exp % 2).toNat)
    let x := if exp % 2 = 1 then gglMulx x 0x16A09 16 >>> (1 : Nat) else x
    sqrtNewton a (sqrtNewton a x)

/-- The bits of the quotient, the highest first; `n` is the remainder less the divisor. -/
def divideBits (d : Int) : Nat → (n : Int) → (q : Nat) → Nat
  | 0, _, q => q
  | bits + 1, n, q =>
    if n ≥ 0 then divideBits d bits (n * 2 - d) (2 * q + 1)
    else divideBits d bits ((n + d) * 2 - d) (2 * q)

/-- How often the loops of `gglDivQ` turn: `i >> 3` times eight and `i & 7`. Both count down to
zero, a counter below zero passes through all 32-bit words. -/
def divideTurns (i : Int) : Nat :=
  if i > 0 then i.toNat else if i = 0 then 2 ^ 32 else (2 ^ 35 + i).toNat

def gglDivQ (n d i : Int) : Int :=
  let nd : Int := (gglClz d.natAbs : Int) - gglClz n.natAbs
  let d' : Int := if nd > 0 then (d.natAbs <<< nd.toNat : Nat) else d.natAbs
  let n' : Int := if nd > 0 then n.natAbs else (n.natAbs <<< (-nd).toNat : Nat)
  let q := divideBits d' (divideTurns (i + nd + 1)) (n' - d') 0
  if (n < 0) ≠ (d < 0) then wrap32 (-q) else wrap32 q

def gglDivQ16 (n d : Int) : Int := gglDivQ n d 16

/-- `clipDivide`: a 4.28 quotient. The divisor is the difference of two distances, as an
`int32_t`. -/
def clipDivide (a b : Int) : Int := gglMulDivi (2 ^ 28) (wrap32 a) (wrap32 b)

/-- `TRI_ONE`, a pixel; `TRI_FRACTION_BITS` is 4. -/
def triOne : Int := 16

def triHalf : Int := 8

def triCeil (x : Int) : Int := (x + 15) / 16 * 16

def triSnapNextHalf (x : Int) : Int := triCeil (x + triHalf) - triHalf

def triSnapPrevHalf (x : Int) : Int := triCeil (x - triHalf) - triHalf

def triFromFixed (x : Int) : Int := (x + 2 ^ 11) >>> (12 : Nat)

def gglClampx (c : Int) : Int := if c < 0 then 0 else if c > 0x10000 then 0x10000 else c

def mla2a (a0 b0 a1 b1 c : Int) : Int := wrap32 ((a0 * b0 + a1 * b1) >>> (16 : Nat) + c)

def mla3a (a0 b0 a1 b1 a2 b2 c : Int) : Int :=
  wrap32 ((a0 * b0 + a1 * b1 + a2 * b2) >>> (16 : Nat) + c)

def mla4 (a0 b0 a1 b1 a2 b2 a3 b3 : Int) : Int :=
  wrap32 ((a0 * b0 + a1 * b1 + a2 * b2 + a3 * b3 + 0x8000) >>> (16 : Nat))

example : gglRecip28 0x10000 = 2 ^ 28 ∧ gglRecipFast 0x20000 = 0x8000 ∧
    gglDivQ16 (-7) 2 = -229376 ∧ clipDivide 1 2 = 2 ^ 27 ∧
      clipDivide 655360000 1310720000 = 17367564 := by decide +kernel

end RabbitRender.Fixed
