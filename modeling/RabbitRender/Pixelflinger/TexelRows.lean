/- RabbitRender/Pixelflinger/TexelRows
   layer: model and proofs
   source: libpixelflinger/scanline.cpp
   digest: The scanline that converts a row of 32-bit texels to 565 pixels, and the pointer it never
     sets. -/

import RabbitRender.Lib.ByteMemory
import RabbitRender.Pixelflinger.SourceOver

set_option autoImplicit false

namespace RabbitRender.Pixelflinger.TexelRows

open Lib.ByteMemory Pixelflinger.SourceOver

/-- The pointers of `scanline_t32cb16`. The union of `dst` and `dst32` is commented out, so that
nothing sets `dst32`. -/
structure Cursor where
  memory : Memory
  dst : Int
  dst32 : Int
  src : Nat

section

variable (row : Nat → BitVec 32)

def pixel (i : Nat) : Nat := (convertAbgr8888ToRgb565 (row i)).toNat

/-- The lines at `last_one`. -/
def lastOne (c : Cursor) : Cursor where
  memory := store c.memory c.dst 2 (pixel row c.src)
  dst := c.dst + 2
  dst32 := c.dst32
  src := c.src + 1

def pair (c : Cursor) : Cursor where
  memory := store c.memory c.dst32 4 (pixel row c.src ||| pixel row (c.src + 1) <<< 16)
  dst := c.dst
  dst32 := c.dst32 + 4
  src := c.src + 2

def pairs : Nat → Cursor → Nat × Cursor
  | ct + 2, c => pairs ct (pair row c)
  | ct, c => (ct, c)

/-- `uintptr_t(dst)&2`. -/
def Misaligned (dst : Int) : Prop := dst / 2 % 2 = 1

instance (dst : Int) : Decidable (Misaligned dst) := inferInstanceAs (Decidable (_ = _))

/-- `ct--` of a `size_t` with the given number of bits. -/
def decrement (bits ct : Nat) : Nat := if ct = 0 then 2 ^ bits - 1 else ct - 1

def alignFirst (bits count : Nat) (c : Cursor) : Nat × Cursor :=
  if count = 1 ∨ Misaligned c.dst then (decrement bits count, lastOne row c) else (count, c)

/-- The test after the loop. After the jump back to `last_one` there is no pixel left, so that the
loop and the test do nothing. -/
def finish (left : Nat × Cursor) : Memory :=
  if 0 < left.1 then (lastOne row left.2).memory else left.2.memory

def scanlineT32cb16 (bits : Nat) (m : Memory) (dst dst32 : Int) (count : Nat) : Memory :=
  let (ct, c) := alignFirst row bits count ⟨m, dst, dst32, 0⟩
  finish row (pairs row ct c)

/-- The pixels of the destination are those of the row, and no other byte changes. -/
structure Copied (dst : Int) (count : Nat) (m m' : Memory) : Prop where
  inside : ∀ i < count, load m' (dst + 2 * (i : Nat)) 2 = pixel row i
  outside : ∀ b, b < dst ∨ dst + 2 * (count : Nat) ≤ b → m' b = m b

theorem pixel_lt (i : Nat) : pixel row i < 2 ^ (2 * 8) := (convertAbgr8888ToRgb565 (row i)).isLt

theorem copied_none (dst : Int) (m : Memory) : Copied row dst 0 m m where
  inside _ none := absurd none (Nat.not_lt_zero _)
  outside _ _ := rfl

theorem Copied.snoc {dst : Int} {count : Nat} {m m' : Memory} (copied : Copied row dst count m m') :
    Copied row dst (count + 1) m (store m' (dst + 2 * (count : Nat)) 2 (pixel row count)) where
  inside i bound := by
    by_cases last : i = count
    · subst last
      rw [load_store, Nat.mod_eq_of_lt (pixel_lt row i)]
    · rw [load_store_apart (.inl (by omega))]
      exact copied.inside i (by omega)
  outside b beyond := by
    rw [store_outside (by omega)]
    exact copied.outside b (by omega)

def Short (dst : Int) (count : Nat) : Prop :=
  (count = 0 ∧ ¬Misaligned dst) ∨ count = 1 ∨ (count = 2 ∧ Misaligned dst)

instance (dst : Int) (count : Nat) : Decidable (Short dst count) :=
  inferInstanceAs (Decidable (_ ∨ _))

theorem short_copied (bits : Nat) (m : Memory) {dst : Int} (dst32 : Int) {count : Nat}
    (short : Short dst count) :
    Copied row dst count m (scanlineT32cb16 row bits m dst dst32 count) := by
  have first : Copied row dst 1 m (store m dst 2 (pixel row 0)) := by
    have none := (copied_none row dst m).snoc
    rwa [Nat.cast_zero, mul_zero, add_zero] at none
  obtain ⟨rfl, aligned⟩ | rfl | ⟨rfl, misaligned⟩ := short
  · have start : alignFirst row bits 0 ⟨m, dst, dst32, 0⟩ = (0, ⟨m, dst, dst32, 0⟩) :=
      if_neg (not_or.mpr ⟨by decide, aligned⟩)
    unfold scanlineT32cb16
    rw [start]
    exact copied_none row dst m
  · exact first
  · have start : alignFirst row bits 2 ⟨m, dst, dst32, 0⟩ = (1, lastOne row ⟨m, dst, dst32, 0⟩) :=
      if_pos (.inr misaligned)
    unfold scanlineT32cb16
    rw [start]
    exact first.snoc

end

def uniform (white : Bool) (_ : Nat) : BitVec 32 := if white then 0xFFFFFFFF#32 else 0#32

def uniformByte (white : Bool) : UInt8 := if white then 0xFF else 0

private theorem uniform_bytes : ∀ white, ∀ k < 4,
    (k < 2 → byteOf (pixel (uniform white) 0) k = uniformByte white) ∧
      byteOf (pixel (uniform white) 0 ||| pixel (uniform white) 0 <<< 16) k =
        uniformByte white := by
  decide

section

variable {white : Bool} {b : Int}

theorem store_uniform {m : Memory} {a : Int} {size v : Nat}
    (bytes : ∀ k < size, byteOf v k = uniformByte white)
    (kept : (a ≤ b ∧ b < a + size) ∨ m b = uniformByte white) :
    store m a size v b = uniformByte white := by
  by_cases inside : a ≤ b ∧ b < a + size
  · rw [store, if_pos inside]
    exact bytes _ (by omega)
  · rw [store, if_neg inside]
    exact kept.resolve_left inside

variable {c : Cursor}

theorem lastOne_uniform (kept : (c.dst ≤ b ∧ b < c.dst + 2) ∨ c.memory b = uniformByte white) :
    (lastOne (uniform white) c).memory b = uniformByte white :=
  store_uniform (fun k small => (uniform_bytes white k (by omega)).1 small) kept

theorem pair_uniform (kept : (c.dst32 ≤ b ∧ b < c.dst32 + 4) ∨ c.memory b = uniformByte white) :
    (pair (uniform white) c).memory b = uniformByte white :=
  store_uniform (fun k small => (uniform_bytes white k small).2) kept

theorem pairs_uniform (ct : Nat) (kept : c.memory b = uniformByte white) :
    (pairs (uniform white) ct c).2.memory b = uniformByte white := by
  fun_induction pairs (uniform white) ct c with
  | case1 ct c ih => exact ih (pair_uniform (.inr kept))
  | case2 ct c => exact kept

theorem finish_uniform {left : Nat × Cursor} (kept : left.2.memory b = uniformByte white) :
    finish (uniform white) left b = uniformByte white := by
  unfold finish
  split_ifs
  · exact lastOne_uniform (.inr kept)
  · exact kept

end

theorem loop_writes (ct : Nat) (c : Cursor) :
    finish (uniform true) (pairs (uniform true) (ct + 2) c) c.dst32 = 0xFF := by
  apply finish_uniform
  exact pairs_uniform ct (pair_uniform (.inl ⟨le_rfl, by omega⟩))

/-- For every row, and wherever the pointer that is not set points, the row is copied. -/
def Copies (bits : Nat) (dst : Int) (count : Nat) : Prop :=
  ∀ (row : Nat → BitVec 32) (m : Memory) (dst32 : Int),
    Copied row dst count m (scanlineT32cb16 row bits m dst dst32 count)

theorem not_copies_of_loop {bits count : Nat} {dst : Int} (ct : Nat)
    (enters : ∀ row c, c.dst = dst → ∃ c' : Cursor, c'.dst32 = c.dst32 ∧
      alignFirst row bits count c = (ct + 2, c')) : ¬Copies bits dst count := by
  intro copies
  have outside := (copies (uniform true) (fun _ => 0) (dst + 2 * count)).outside
    (dst + 2 * count) (.inr le_rfl)
  obtain ⟨c, place, start⟩ := enters (uniform true) ⟨fun _ => 0, dst, dst + 2 * count, 0⟩ rfl
  unfold scanlineT32cb16 at outside
  rw [start] at outside
  have written := loop_writes ct c
  rw [place] at written
  exact absurd (written.symm.trans outside) (by decide)

theorem not_copies_of_empty {bits : Nat} {dst : Int} (misaligned : Misaligned dst) :
    ¬Copies bits dst 0 := by
  intro copies
  have outside := (copies (uniform false) (fun _ => 0xFF) dst).outside dst (.inr (by simp))
  have start : alignFirst (uniform false) bits 0 ⟨fun _ => 0xFF, dst, dst, 0⟩ =
      (decrement bits 0, lastOne (uniform false) ⟨fun _ => 0xFF, dst, dst, 0⟩) :=
    if_pos (.inr misaligned)
  have written : finish (uniform false) (pairs (uniform false) (decrement bits 0)
      (lastOne (uniform false) ⟨fun _ => 0xFF, dst, dst, 0⟩)) dst = 0 := by
    apply finish_uniform
    apply pairs_uniform
    exact lastOne_uniform (.inl ⟨le_rfl, Int.lt_add_of_pos_right dst (by decide)⟩)
  unfold scanlineT32cb16 at outside
  rw [start] at outside
  exact absurd (written.symm.trans outside) (by decide)

/-- The scanline copies a row exactly when it never comes to the loop. -/
theorem copies_iff (bits : Nat) (dst : Int) (count : Nat) :
    Copies bits dst count ↔ Short dst count := by
  refine ⟨fun copies => ?_, fun short row m dst32 => short_copied row bits m dst32 short⟩
  by_contra long
  simp only [Short, not_or, not_and] at long
  obtain ⟨empty, single, double⟩ := long
  by_cases misaligned : Misaligned dst
  · obtain rfl | several : count = 0 ∨ 2 ≤ count := by omega
    · exact not_copies_of_empty misaligned copies
    · obtain ⟨ct, rfl⟩ : ∃ ct, count = ct + 3 :=
        ⟨count - 3, by have two : count ≠ 2 := fun same => double same misaligned; omega⟩
      refine not_copies_of_loop ct (fun row c same => ⟨lastOne row c, rfl, ?_⟩) copies
      subst same
      exact if_pos (.inr misaligned)
  · obtain ⟨ct, rfl⟩ : ∃ ct, count = ct + 2 :=
      ⟨count - 2, by have none : count ≠ 0 := fun same => empty same misaligned; omega⟩
    refine not_copies_of_loop ct (fun row c same => ⟨c, rfl, ?_⟩) copies
    subst same
    exact if_neg (not_or.mpr ⟨single, misaligned⟩)

/-- An aligned row of four texels goes where the pointer that is not set points. -/
theorem row_of_four_lost : ¬Copies 32 0 4 :=
  not_copies_of_loop 2 fun _ c same => ⟨c, rfl, by
    refine if_neg (not_or.mpr ⟨by decide, ?_⟩)
    rw [same]
    decide⟩

end RabbitRender.Pixelflinger.TexelRows
