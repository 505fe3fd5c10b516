/- RabbitRender/Lib/BitFields
   layer: library
   digest: Numbers packed in disjoint fields of a machine word. -/

import Mathlib.Data.Nat.Bitwise

set_option autoImplicit false

namespace RabbitRender.Lib.BitFields

/-- `size` bits from bit `shift` on. -/
structure Field where
  shift : Nat
  size : Nat
deriving DecidableEq, Repr

namespace Field

variable {w : Nat}

def mask (w : Nat) (f : Field) : BitVec w := BitVec.ofNat w (2 ^ f.size - 1) <<< f.shift

/-- The word that holds `v` in the field, and zero elsewhere. -/
def build (w : Nat) (f : Field) (v : Nat) : BitVec w := BitVec.ofNat w v <<< f.shift &&& f.mask w

def read (f : Field) (x : BitVec w) : Nat := ((x &&& f.mask w) >>> f.shift).toNat

def clear (f : Field) (x : BitVec w) : BitVec w := x &&& ~~~f.mask w

def Apart (f g : Field) : Prop := f.shift + f.size ≤ g.shift ∨ g.shift + g.size ≤ f.shift

instance (f g : Field) : Decidable (f.Apart g) := inferInstanceAs (Decidable (_ ∨ _))

/-- The field lies inside words of width `w`. -/
def Inside (w : Nat) (f : Field) : Prop := f.shift + f.size ≤ w

instance (f : Field) : Decidable (f.Inside w) := inferInstanceAs (Decidable (_ ≤ _))

theorem getLsbD_mask (f : Field) (i : Nat) :
    (f.mask w).getLsbD i = (decide (i < w) && decide (f.shift ≤ i ∧ i < f.shift + f.size)) := by
  simp only [mask, BitVec.getLsbD_shiftLeft, BitVec.getLsbD_ofNat, Nat.testBit_two_pow_sub_one]
  by_cases below : f.shift ≤ i
  · have inside : i - f.shift < f.size ↔ i < f.shift + f.size := by omega
    by_cases hi : i < w
    · have : i - f.shift < w := by omega
      simp [hi, below, this, inside]
    · simp [hi]
  · have : i < f.shift := Nat.lt_of_not_le below
    simp [this, below]

theorem getLsbD_build (f : Field) (v i : Nat) :
    (f.build w v).getLsbD i = ((f.mask w).getLsbD i && v.testBit (i - f.shift)) := by
  simp only [build, BitVec.getLsbD_and, BitVec.getLsbD_shiftLeft, BitVec.getLsbD_ofNat,
    getLsbD_mask]
  by_cases hi : i < w <;> by_cases below : f.shift ≤ i
  · have : i - f.shift < w := by omega
    simp [hi, below, Nat.not_lt.mpr below, this, Bool.and_comm]
  · simp [below]
  · simp [hi]
  · simp [hi]

theorem getLsbD_clear (f : Field) (x : BitVec w) (i : Nat) :
    (f.clear x).getLsbD i = (x.getLsbD i && !(f.mask w).getLsbD i) := by
  simp only [clear, BitVec.getLsbD_and, BitVec.getLsbD_not]
  by_cases hi : i < w
  · simp [hi]
  · simp [BitVec.getLsbD_of_ge x i (Nat.le_of_not_lt hi)]

@[simp] theorem clear_or (f : Field) (x y : BitVec w) : f.clear (x ||| y) = f.clear x ||| f.clear y :=
  BitVec.and_or_distrib_right

@[simp] theorem clear_build_self (f : Field) (v : Nat) : f.clear (f.build w v) = 0#w := by
  apply BitVec.eq_of_getLsbD_eq
  intro i hi
  rw [getLsbD_clear, getLsbD_build]
  cases (f.mask w).getLsbD i <;> simp

variable {f g : Field}

theorem clear_build_apart (apart : f.Apart g) (v : Nat) : f.clear (g.build w v) = g.build w v := by
  apply BitVec.eq_of_getLsbD_eq
  intro i hi
  rw [getLsbD_clear, getLsbD_build, getLsbD_mask, getLsbD_mask]
  simp only [Apart] at apart
  by_cases inside : g.shift ≤ i ∧ i < g.shift + g.size
  · have outside : ¬(f.shift ≤ i ∧ i < f.shift + f.size) := by omega
    simp [inside, outside]
  · simp [inside]

theorem clear_clear (f g : Field) (x : BitVec w) : f.clear (g.clear x) = g.clear (f.clear x) := by
  simp only [clear, BitVec.and_assoc]
  rw [BitVec.and_comm (~~~g.mask w)]

theorem clear_or_build_read (f : Field) (x : BitVec w) :
    f.clear x ||| f.build w (f.read x) = x := by
  apply BitVec.eq_of_getLsbD_eq
  intro i hi
  rw [BitVec.getLsbD_or, getLsbD_clear, getLsbD_build, read]
  by_cases field : f.shift ≤ i ∧ i < f.shift + f.size
  · have masked : (f.mask w).getLsbD i = true := by rw [getLsbD_mask]; simp [hi, field]
    rw [← BitVec.getLsbD, BitVec.getLsbD_ushiftRight, BitVec.getLsbD_and,
      Nat.add_sub_cancel' field.1, masked]
    simp
  · have masked : (f.mask w).getLsbD i = false := by rw [getLsbD_mask]; simp [field]
    simp [masked]

theorem eq_of_clear_eq {x y : BitVec w} (outside : f.clear x = f.clear y)
    (field : f.read x = f.read y) : x = y := by
  rw [← clear_or_build_read f x, ← clear_or_build_read f y, outside, field]

theorem testBit_read (f : Field) (x : BitVec w) (i : Nat) :
    (f.read x).testBit i = (x.getLsbD (f.shift + i) && (f.mask w).getLsbD (f.shift + i)) := by
  rw [read, ← BitVec.getLsbD, BitVec.getLsbD_ushiftRight, BitVec.getLsbD_and]

theorem read_or (f : Field) (x y : BitVec w) : f.read (x ||| y) = f.read x ||| f.read y := by
  apply Nat.eq_of_testBit_eq
  intro i
  rw [Nat.testBit_or, testBit_read, testBit_read, testBit_read, BitVec.getLsbD_or,
    Bool.and_or_distrib_right]

theorem read_build_self (inside : f.Inside w) (v : Nat) :
    f.read (f.build w v) = v % 2 ^ f.size := by
  apply Nat.eq_of_testBit_eq
  intro i
  rw [testBit_read, getLsbD_build, Nat.testBit_mod_two_pow, getLsbD_mask, Nat.add_sub_cancel_left]
  simp only [Inside] at inside
  by_cases hi : i < f.size
  · have : f.shift + i < w := by omega
    simp [hi, this]
  · simp [hi]

theorem read_build_apart (apart : f.Apart g) (v : Nat) : f.read (g.build w v) = 0 := by
  apply Nat.eq_of_testBit_eq
  intro i
  rw [testBit_read, getLsbD_build, getLsbD_mask, getLsbD_mask, Nat.zero_testBit]
  simp only [Apart] at apart
  by_cases inside : g.shift ≤ f.shift + i ∧ f.shift + i < g.shift + g.size
  · have outside : ¬(f.shift + i < f.shift + f.size) := by omega
    simp [outside]
  · simp [inside]

theorem read_clear_apart (apart : f.Apart g) (x : BitVec w) : f.read (g.clear x) = f.read x := by
  apply Nat.eq_of_testBit_eq
  intro i
  rw [testBit_read, testBit_read, getLsbD_clear, getLsbD_mask, getLsbD_mask]
  simp only [Apart] at apart
  by_cases inside : i < f.size
  · have outside : ¬(g.shift ≤ f.shift + i ∧ f.shift + i < g.shift + g.size) := by omega
    simp [outside]
  · simp [inside]

theorem read_eq_of_masked {value x mask : BitVec w} (covered : f.mask w &&& mask = f.mask w)
    (same : (value ^^^ x) &&& mask = 0#w) : f.read x = f.read value := by
  have masked : value &&& mask = x &&& mask := by
    rw [← BitVec.xor_eq_zero_iff, ← same]
    apply BitVec.eq_of_getLsbD_eq
    intro i hi
    simp only [BitVec.getLsbD_xor, BitVec.getLsbD_and, Bool.and_xor_distrib_right]
  have field (y : BitVec w) : y &&& f.mask w = y &&& mask &&& f.mask w := by
    rw [BitVec.and_assoc, BitVec.and_comm mask, covered]
  rw [read, read, field x, field value, masked]

end Field

end RabbitRender.Lib.BitFields
