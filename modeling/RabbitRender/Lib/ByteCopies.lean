/- RabbitRender/Lib/ByteCopies
   layer: library
   digest: Copies between areas of a memory of bytes that do not overlap, and rows of them. -/

import RabbitRender.Lib.ByteMemory

set_option autoImplicit false

namespace RabbitRender.Lib.ByteCopies

open Lib.ByteMemory

/-- `size` bytes at `dst` become those that are at `src`. -/
def copy (m : Memory) (dst src : Int) (size : Nat) : Memory := fun b =>
  if dst ≤ b ∧ b < dst + size then m (src + (b - dst)) else m b

/-- Two areas of `size` bytes do not overlap. -/
def Apart (dst src : Int) (size : Nat) : Prop := dst + size ≤ src ∨ src + size ≤ dst

instance (dst src : Int) (size : Nat) : Decidable (Apart dst src size) :=
  inferInstanceAs (Decidable (_ ∨ _))

/-- `memcpy`, whose behaviour is only defined for areas that do not overlap. -/
def memcpy (dst src : Int) (size : Nat) (m : Memory) : Option Memory :=
  if Apart dst src size then some (copy m dst src size) else none

/-- One row, and `rows` more of them; the pointers are moved from row to row. -/
def copyRows (dpitch spitch : Int) (size : Nat) :
    (rows : Nat) → (dst src : Int) → Memory → Option Memory
  | 0, dst, src, m => memcpy dst src size m
  | rows + 1, dst, src, m => (memcpy dst src size m).bind fun m =>
      copyRows dpitch spitch size rows (dst + dpitch) (src + spitch) m

variable {dst src : Int} {size rows : Nat} {m : Memory}

theorem copy_append {first second : Nat} (apart : Apart dst src (first + second)) (m : Memory) :
    copy (copy m dst src first) (dst + first) (src + first) second =
      copy m dst src (first + second) := by
  unfold Apart at apart
  push_cast at apart
  funext b
  unfold copy
  push_cast
  by_cases low : b < dst + first
  · rw [if_neg (by omega)]
    by_cases inside : dst ≤ b
    · rw [if_pos ⟨inside, low⟩, if_pos (by omega)]
    · rw [if_neg (by omega), if_neg (by omega)]
  · by_cases inside : b < dst + first + second
    · have place : src + first + (b - (dst + first)) = src + (b - dst) := by omega
      have outer : dst + first ≤ b ∧ b < dst + first + second := by omega
      have whole : dst ≤ b ∧ b < dst + (first + second) := by omega
      -- the first part did not reach what the second one reads
      have unread : ¬(dst ≤ src + (b - dst) ∧ src + (b - dst) < dst + first) := by omega
      rw [if_pos outer, if_pos whole, place, if_neg unread]
    · rw [if_neg (by omega), if_neg (by omega), if_neg (by omega)]

theorem copyRows_contiguous (apart : Apart dst src (size * (rows + 1))) :
    copyRows size size size rows dst src m = memcpy dst src (size * (rows + 1)) m := by
  induction rows generalizing dst src m with
  | zero => rw [copyRows, Nat.zero_add, Nat.mul_one]
  | succ rows ih =>
    have length : size * (rows + 1 + 1) = size + size * (rows + 1) := by ring
    rw [length] at apart ⊢
    have first : Apart dst src size := by
      unfold Apart at *
      push_cast at apart
      have rest : (0 : Int) ≤ size * (rows + 1) := by positivity
      omega
    have rest : Apart (dst + size) (src + size) (size * (rows + 1)) := by
      unfold Apart at *
      push_cast at *
      omega
    rw [copyRows, memcpy, if_pos first, Option.bind_some, ih rest, memcpy, memcpy, if_pos rest,
      if_pos apart, copy_append apart]

def RowsApart (dpitch spitch : Int) (size rows : Nat) (dst src : Int) : Prop :=
  ∀ i ≤ rows, ∀ j ≤ rows, Apart (dst + dpitch * i) (src + spitch * j) size

theorem copyRows_defined {dpitch spitch : Int} (apart : RowsApart dpitch spitch size rows dst src)
    (m : Memory) : ∃ m', copyRows dpitch spitch size rows dst src m = some m' := by
  induction rows generalizing dst src m with
  | zero =>
    have first := apart 0 le_rfl 0 le_rfl
    simp only [Nat.cast_zero, mul_zero, add_zero] at first
    exact ⟨_, if_pos first⟩
  | succ rows ih =>
    have first := apart 0 (Nat.zero_le _) 0 (Nat.zero_le _)
    simp only [Nat.cast_zero, mul_zero, add_zero] at first
    have rest : RowsApart dpitch spitch size rows (dst + dpitch) (src + spitch) := by
      intro i hi j hj
      have next := apart (i + 1) (Nat.succ_le_succ hi) (j + 1) (Nat.succ_le_succ hj)
      push_cast at next
      rwa [mul_add, mul_add, mul_one, mul_one, add_comm (dpitch * i), add_comm (spitch * j),
        ← add_assoc, ← add_assoc] at next
    rw [copyRows, memcpy, if_pos first, Option.bind_some]
    exact ih rest _

private theorem row_of_byte {start b : Int} (low : start ≤ b)
    (high : b < start + (size * (rows + 1) : Nat)) :
    ∃ i ≤ rows, start + size * (i : Nat) ≤ b ∧ b < start + size * (i : Nat) + size := by
  push_cast at high
  have positive : (0 : Int) < size := by
    by_contra none
    have zero : (size : Int) = 0 := by omega
    rw [zero] at high
    omega
  have division := Int.mul_ediv_add_emod (b - start) size
  have remainder := Int.emod_nonneg (b - start) positive.ne'
  have below := Int.emod_lt_of_pos (b - start) positive
  have quotient : 0 ≤ (b - start) / size := Int.ediv_nonneg (by omega) positive.le
  have inside : (b - start) / size < rows + 1 := by
    rw [Int.ediv_lt_iff_lt_mul positive, mul_comm]
    omega
  refine ⟨((b - start) / size).toNat, by omega, ?_⟩
  rw [Int.toNat_of_nonneg quotient]
  constructor <;> omega

theorem apart_of_rows (apart : RowsApart size size size rows dst src) :
    Apart dst src (size * (rows + 1)) := by
  by_contra overlap
  unfold Apart at overlap
  have low : dst ≤ max dst src ∧ src ≤ max dst src := ⟨le_max_left _ _, le_max_right _ _⟩
  have high : max dst src < dst + (size * (rows + 1) : Nat) ∧
      max dst src < src + (size * (rows + 1) : Nat) := by omega
  obtain ⟨i, hi, written⟩ := row_of_byte low.1 high.1
  obtain ⟨j, hj, read⟩ := row_of_byte low.2 high.2
  have rows := apart i hi j hj
  unfold Apart at rows
  omega

def runCopies (move : Int → Int → Memory → Option Memory) : List (Int × Int) → Memory → Option Memory
  | [], m => some m
  | (dst, src) :: rest, m => (move dst src m).bind (runCopies move rest)

def Ordered (size : Nat) (copies : List (Int × Int)) : Prop :=
  copies.Pairwise fun a b => Apart a.1 b.2 size ∧ Apart a.1 b.1 size

theorem copy_inside {k : Nat} (low : k < size) : copy m dst src size (dst + k) = m (src + k) := by
  have place : src + (dst + k - dst) = src + k := by omega
  rw [copy, if_pos (by omega), place]

theorem copy_outside {b : Int} (outside : b < dst ∨ dst + size ≤ b) :
    copy m dst src size b = m b :=
  if_neg fun inside => by omega

theorem copy_apart {other : Int} {k : Nat} (apart : Apart dst other size) (low : k < size) :
    copy m dst src size (other + k) = m (other + k) := by
  apply copy_outside
  unfold Apart at apart
  omega

theorem runCopies_ordered {move : Int → Int → Memory → Option Memory} {copies : List (Int × Int)}
    (each : ∀ a ∈ copies, ∀ m, move a.1 a.2 m = some (copy m a.1 a.2 size))
    (ordered : Ordered size copies) (m : Memory) :
    ∃ m', runCopies move copies m = some m' ∧
      (∀ a ∈ copies, ∀ k < size, m' (a.1 + (k : Nat)) = m (a.2 + (k : Nat))) ∧
      ∀ b, (∀ a ∈ copies, b < a.1 ∨ a.1 + size ≤ b) → m' b = m b := by
  induction copies generalizing m with
  | nil => exact ⟨m, rfl, nofun, fun b _ => rfl⟩
  | cons first rest ih =>
    obtain ⟨ahead, ordered⟩ := List.pairwise_cons.mp ordered
    obtain ⟨m', run, moved, kept⟩ := ih (fun a inside => each a (List.mem_cons_of_mem _ inside))
      ordered (copy m first.1 first.2 size)
    refine ⟨m', ?_, ?_, ?_⟩
    · rw [runCopies, each first List.mem_cons_self, Option.bind_some, run]
    · intro a inside k low
      rcases List.mem_cons.mp inside with rfl | inside
      · -- none of the later copies writes here
        have later : m' (a.1 + k) = copy m a.1 a.2 size (a.1 + k) := by
          apply kept
          intro b inside
          have apart := (ahead b inside).2
          unfold Apart at apart
          omega
        rw [later, copy_inside low]
      · rw [moved a inside k low, copy_apart (ahead a inside).1 low]
    · intro b outside
      rw [kept b fun a inside => outside a (List.mem_cons_of_mem _ inside),
        copy_outside (outside first List.mem_cons_self)]

end RabbitRender.Lib.ByteCopies
