/- RabbitRender/Lib/ByteMemory
   layer: library
   digest: A memory of bytes, with little-endian words and rows of equal words. -/

import Mathlib.Algebra.Order.Ring.Int
import Mathlib.Tactic.Linarith
import Mathlib.Tactic.Ring

set_option autoImplicit false

namespace RabbitRender.Lib.ByteMemory

abbrev Memory := Int → UInt8

/-- The byte `i` of a word. -/
def byteOf (v i : Nat) : UInt8 := UInt8.ofNat (v >>> (8 * i))

/-- `size` bytes of `v` are stored at `a`. -/
def store (m : Memory) (a : Int) (size v : Nat) : Memory := fun b =>
  if a ≤ b ∧ b < a + size then byteOf v (b - a).toNat else m b

/-- The word of `size` bytes at `a`. -/
def load (m : Memory) (a : Int) : Nat → Nat
  | 0 => 0
  | size + 1 => (m a).toNat + 256 * load m (a + 1) size

/-- `count` equal words one after the other. -/
def fill (m : Memory) (a : Int) (size v : Nat) : Nat → Memory
  | 0 => m
  | count + 1 => fill (store m a size v) (a + size) size v count

/-- Rows of `count` equal words. -/
def fillRows (m : Memory) (a stride : Int) (size v count : Nat) : Nat → Memory
  | 0 => m
  | rows + 1 => fillRows (fill m a size v count) (a + stride) stride size v count rows

variable {m : Memory} {a b stride : Int} {size v count rows : Nat}

theorem store_outside (h : b < a ∨ a + size ≤ b) : store m a size v b = m b :=
  if_neg fun inside => by omega

theorem store_inside {i : Nat} (h : i < size) : store m a size v (a + i) = byteOf v i := by
  have inside : a ≤ a + i ∧ a + i < a + size := by omega
  rw [store, if_pos inside]
  congr 1
  omega

theorem load_congr {m' : Memory} (h : ∀ i < size, m (a + i) = m' (a + i)) :
    load m a size = load m' a size := by
  induction size generalizing a with
  | zero => rfl
  | succ size ih =>
    have first : m a = m' a := by simpa using h 0 (Nat.succ_pos size)
    have rest : load m (a + 1) size = load m' (a + 1) size := by
      apply ih
      intro i hi
      have next := h (i + 1) (Nat.succ_lt_succ hi)
      rwa [Nat.cast_succ, Int.add_comm (i : Int) 1, ← Int.add_assoc] at next
    rw [load, load, first, rest]

theorem two_pow_succ_bytes (size : Nat) : 2 ^ ((size + 1) * 8) = 2 ^ 8 * 2 ^ (size * 8) := by
  rw [Nat.succ_mul, Nat.add_comm, Nat.pow_add]

theorem load_lt (m : Memory) (a : Int) (size : Nat) : load m a size < 2 ^ (size * 8) := by
  induction size generalizing a with
  | zero => exact Nat.zero_lt_one
  | succ size ih =>
    have byte := (m a).toNat_lt
    have rest := ih (a + 1)
    rw [load, two_pow_succ_bytes]
    omega

theorem load_eq (h : ∀ i < size, m (a + i) = byteOf v i) : load m a size = v % 2 ^ (size * 8) := by
  induction size generalizing a v with
  | zero => simp [load, Nat.mod_one]
  | succ size ih =>
    have first : m a = byteOf v 0 := by simpa using h 0 (Nat.succ_pos size)
    have rest : load m (a + 1) size = v / 2 ^ 8 % 2 ^ (size * 8) := by
      apply ih
      intro i hi
      have next := h (i + 1) (Nat.succ_lt_succ hi)
      rw [Nat.cast_succ, Int.add_comm (i : Int) 1, ← Int.add_assoc] at next
      rw [next, byteOf, byteOf, ← Nat.shiftRight_eq_div_pow, ← Nat.shiftRight_add]
      congr 2
      omega
    have low : (byteOf v 0).toNat = v % 2 ^ 8 := by
      simp [byteOf]
    rw [load, first, rest, low, two_pow_succ_bytes, Nat.mod_mul]
    rfl

theorem load_store (m : Memory) (a : Int) (size v : Nat) :
    load (store m a size v) a size = v % 2 ^ (size * 8) :=
  load_eq fun _ hi => store_inside hi

theorem load_store_apart {size' : Nat} (apart : b + size' ≤ a ∨ a + size ≤ b) :
    load (store m a size v) b size' = load m b size' :=
  load_congr fun i hi => store_outside (by omega)

theorem fill_apply (m : Memory) (a b : Int) (v count : Nat) (positive : 0 < size) :
    fill m a size v count b =
      if a ≤ b ∧ b < a + size * count then byteOf v ((b - a) % size).toNat else m b := by
  induction count generalizing m a with
  | zero =>
    rw [fill, if_neg]
    simp only [Nat.cast_zero, Int.mul_zero]
    omega
  | succ count ih =>
    have length : (size : Int) * (count + 1 : Nat) = size + size * count := by
      push_cast
      ring
    rw [fill, ih, length]
    have tail : (0 : Int) ≤ size * count := by positivity
    by_cases before : b < a
    · rw [if_neg (by omega), if_neg (by omega), store_outside (.inl before)]
    by_cases inside : b < a + size
    · rw [if_neg (by omega), if_pos (by omega), store, if_pos (by omega),
        Int.emod_eq_of_lt (by omega) (by omega)]
    by_cases after : b < a + (size + size * count)
    · rw [if_pos (by omega), if_pos (by omega), ← Int.sub_sub, Int.sub_emod_right]
    · rw [if_neg (by omega), if_neg (by omega), store_outside (.inr (by omega))]

def InRows (a stride : Int) (size count rows : Nat) (b : Int) : Prop :=
  ∃ row < rows, a + stride * row ≤ b ∧ b < a + stride * row + size * count

theorem inRows_succ :
    InRows a stride size count (rows + 1) b ↔
      (a ≤ b ∧ b < a + size * count) ∨ InRows (a + stride) stride size count rows b := by
  constructor
  · rintro ⟨row, bound, covered⟩
    cases row with
    | zero => exact .inl (by simpa using covered)
    | succ row =>
      refine .inr ⟨row, Nat.lt_of_succ_lt_succ bound, ?_⟩
      have place : a + stride + stride * row = a + stride * (row + 1 : Nat) := by
        push_cast
        ring
      rwa [place]
  · rintro (covered | ⟨row, bound, covered⟩)
    · exact ⟨0, Nat.succ_pos rows, by simpa using covered⟩
    · refine ⟨row + 1, Nat.succ_lt_succ bound, ?_⟩
      have place : a + stride * (row + 1 : Nat) = a + stride + stride * row := by
        push_cast
        ring
      rwa [place]

theorem fillRows_outside (positive : 0 < size) (outside : ¬InRows a stride size count rows b) :
    fillRows m a stride size v count rows b = m b := by
  induction rows generalizing m a with
  | zero => rfl
  | succ rows ih =>
    rw [inRows_succ, not_or] at outside
    rw [fillRows, ih outside.2, fill_apply _ _ _ _ _ positive, if_neg outside.1]

theorem fillRows_inside (positive : 0 < size) (words : (size : Int) ∣ stride)
    (inside : InRows a stride size count rows b) :
    fillRows m a stride size v count rows b = byteOf v ((b - a) % size).toNat := by
  induction rows generalizing m a with
  | zero =>
    obtain ⟨_, bound, _⟩ := inside
    exact absurd bound (Nat.not_lt_zero _)
  | succ rows ih =>
    rw [fillRows]
    by_cases later : InRows (a + stride) stride size count rows b
    · obtain ⟨k, rfl⟩ := words
      rw [ih later, ← Int.sub_sub, Int.sub_mul_emod_self_left]
    · rw [fillRows_outside positive later, fill_apply _ _ _ _ _ positive,
        if_pos ((inRows_succ.mp inside).resolve_right later)]

theorem inRows_contiguous :
    InRows a (size * count : Nat) size count rows b ↔
      InRows a (size * count : Nat) size (count * rows) 1 b := by
  have whole : ∀ row : Nat, ((size * count : Nat) : Int) * row = size * count * row := fun row => by
    push_cast
    ring
  simp only [InRows, whole]
  constructor
  · rintro ⟨row, bound, low, high⟩
    have last : (size : Int) * count * (row + 1) ≤ size * count * rows := by
      gcongr
      exact_mod_cast bound
    have first : (0 : Int) ≤ size * count * row := by positivity
    refine ⟨0, Nat.one_pos, ?_⟩
    push_cast
    constructor <;> linarith
  · rintro ⟨row, bound, low, high⟩
    obtain rfl : row = 0 := Nat.lt_one_iff.mp bound
    push_cast at low high
    have positive : (0 : Int) < size * count := by
      by_contra none
      have zero : (size : Int) * count = 0 := le_antisymm (not_lt.mp none) (by positivity)
      rw [← mul_assoc, zero] at high
      linarith
    have division := Int.mul_ediv_add_emod (b - a) (size * count)
    have remainder := Int.emod_nonneg (b - a) positive.ne'
    have below := Int.emod_lt_of_pos (b - a) positive
    have quotient : 0 ≤ (b - a) / (size * count) := Int.ediv_nonneg (by linarith) positive.le
    have inside : (b - a) / (size * count) < rows := by
      rw [Int.ediv_lt_iff_lt_mul positive]
      linarith
    refine ⟨((b - a) / (size * count)).toNat, by omega, ?_⟩
    rw [Int.toNat_of_nonneg quotient]
    constructor <;> linarith

theorem fillRows_none : fillRows m a stride size v 0 rows = m := by
  induction rows generalizing a with
  | zero => rfl
  | succ rows ih => exact ih

end RabbitRender.Lib.ByteMemory
