/- RabbitRender/Pixelflinger/Packing
   layer: proof
   source: libpixelflinger/buffer.cpp
   digest: Components in range are packed without reaching into one another's bits. -/

import RabbitRender.Pixelflinger.ComponentRange

set_option autoImplicit false

namespace RabbitRender.Pixelflinger.Packing

open RabbitRender.GL (GLenum)
open Pixelflinger.Pixels Pixelflinger.Fragment Pixelflinger.Widths Pixelflinger.ComponentRange

variable {v k : Nat} {p : Pixel} {t : Target} {i : Component}

theorem dithered_lt {e n d : Nat} (hv : v < 2 ^ (d + n)) (he : e < 2 ^ n) :
    v - v / 2 ^ d + e < 2 ^ (d + n) := by
  have full := Nat.two_pow_pos d
  obtain ⟨D, hD⟩ : ∃ D, 2 ^ d = D + 1 := ⟨2 ^ d - 1, by omega⟩
  have product : 2 ^ (d + n) = 2 ^ n * D + 2 ^ n := by
    rw [Nat.pow_add, Nat.mul_comm, hD, Nat.mul_succ]
  have quotient : v / 2 ^ d + 1 ≤ 2 ^ n := by
    rw [Nat.succ_le_iff, Nat.div_lt_iff_lt_mul full, ← Nat.pow_add, Nat.add_comm n]
    exact hv
  have remainder := Nat.mod_lt v full
  have split := Nat.div_add_mod' v (2 ^ d)
  have top : (v / 2 ^ d + 1) * D ≤ 2 ^ n * D := Nat.mul_le_mul_right D quotient
  rw [hD] at split remainder top ⊢
  rw [Nat.mul_succ] at split
  rw [Nat.succ_mul] at top
  omega

def dithered (v sbits dbits : Nat) (dither : Option (Fin 64)) : Nat :=
  match dither with
  | some d =>
    if dbits < sbits then
      let fixed := u32 (v + (2 ^ 32 - v >>> dbits))
      if sbits - dbits ≤ 6 then u32 (fixed + (d.val >>> (6 - (sbits - dbits))) <<< 0)
      else u32 (fixed + (d.val <<< (sbits - dbits - 6)) <<< 0)
    else v
  | none => v

theorem dithered_lt_size {sbits dbits : Nat} (dither : Option (Fin 64)) (hv : v < 2 ^ sbits)
    (word : sbits ≤ 32) : dithered v sbits dbits dither < 2 ^ sbits := by
  have small : (2 : Nat) ^ sbits ≤ 2 ^ 32 := Nat.pow_le_pow_right (by decide) word
  unfold dithered
  split
  · rename_i d
    have entry : d.val < 2 ^ 6 := d.isLt
    have fixed : u32 (v + (2 ^ 32 - v >>> dbits)) = v - v / 2 ^ dbits := by
      rw [← Nat.shiftRight_eq_div_pow]
      exact sub32_eq (Nat.shiftRight_le _ _) (hv.trans_le small)
    rw [fixed]
    split_ifs with narrower fine
    · obtain ⟨n, rfl⟩ := Nat.exists_eq_add_of_le narrower.le
      rw [Nat.add_sub_cancel_left] at fine ⊢
      refine (u32_le _).trans_lt (dithered_lt hv ?_)
      rw [Nat.shiftLeft_zero]
      apply shiftRight_lt
      rw [← Nat.pow_add, Nat.add_sub_cancel' fine]
      exact entry
    · obtain ⟨n, rfl⟩ := Nat.exists_eq_add_of_le narrower.le
      rw [Nat.add_sub_cancel_left] at fine ⊢
      refine (u32_le _).trans_lt (dithered_lt hv ?_)
      have exponent : n = 6 + (n - 6) := by omega
      rw [Nat.shiftLeft_zero, Nat.shiftLeft_eq]
      calc d.val * 2 ^ (n - 6) < 2 ^ 6 * 2 ^ (n - 6) :=
            Nat.mul_lt_mul_of_pos_right entry (Nat.two_pow_pos _)
        _ = 2 ^ n := by rw [← Nat.pow_add, ← exponent]
    · exact hv
  · exact hv

theorem downshiftComponent_eq (word v sh dh dl : Nat) (dither : Option (Fin 64)) :
    downshiftComponent word v sh 0 dh dl 0 0 dither =
      word ||| if dl ≠ 0 then
        if dh - dl < sh then u32 ((dithered v sh (dh - dl) dither >>> (sh - (dh - dl))) <<< dl)
        else u32 (dithered v sh (dh - dl) dither <<< (dh - sh))
      else if dh < sh then dithered v sh (dh - dl) dither >>> (sh - dh)
      else u32 (dithered v sh (dh - dl) dither <<< (dh - sh)) := by
  unfold downshiftComponent dithered
  cases dither <;> simp only [Nat.sub_zero, ne_eq, not_true_eq_false, if_false, false_or] <;>
    split_ifs <;> rfl

def placed (t : Target) (p : Pixel) (i : Component) : Nat :=
  let range := (formats t.format).c i
  downshiftComponent 0 (widened p range i).1 (widened p range i).2 0 range.h range.l 0 0 t.dither

/-- The sizes of the components of a shaded pixel, the last where 24 bits are mixed. -/
def shadedSizes : List Nat := 32 :: sizes

private theorem shadedSizes_bounds : ∀ s ∈ shadedSizes, s ≤ 32 := by decide

private theorem shadedSizes_widen : ∀ s ∈ shadedSizes, ∀ f i, s < formatBits f i →
    Widens s (formatBits f i) := by
  decide +kernel

def Packable (p : Pixel) : Prop := ∀ i, p.s i ∈ shadedSizes ∧ p.c i < 2 ^ p.s i

private theorem formatBits_le : ∀ f i, formatBits f i ≤ 32 := by decide

theorem widened_lt (h : Packable p) (f : Format) (i : Component) :
    (widened p ((formats f).c i) i).1 < 2 ^ (widened p ((formats f).c i) i).2 ∧
      formatBits f i ≤ (widened p ((formats f).c i) i).2 ∧
      (widened p ((formats f).c i) i).2 ≤ 32 := by
  obtain ⟨size, range⟩ := h i
  unfold widened
  split_ifs with narrower
  · exact ⟨gglExpand_lt range (shadedSizes_widen _ size f i narrower) narrower, le_rfl,
      formatBits_le f i⟩
  · exact ⟨range, Nat.le_of_not_lt narrower, shadedSizes_bounds _ size⟩

theorem lt_of_testBit {n : Nat} (h : v < 2 ^ n) (bit : v.testBit k = true) : k < n := by
  by_contra outside
  have high : (2 : Nat) ^ n ≤ 2 ^ k := Nat.pow_le_pow_right (by decide) (Nat.le_of_not_lt outside)
  rw [Nat.testBit_lt_two_pow (h.trans_le high)] at bit
  exact Bool.false_ne_true bit

theorem testBit_of_u32 (bit : (u32 v).testBit k = true) : v.testBit k = true := by
  rw [u32, Nat.testBit_mod_two_pow, Bool.and_eq_true] at bit
  exact bit.2

theorem shifted_inside {size low high : Nat} (bound : v < 2 ^ size) (ordered : low ≤ high)
    (narrow : high - low ≤ size)
    (bit : (if low ≠ 0 then
        if high - low < size then u32 ((v >>> (size - (high - low))) <<< low)
        else u32 (v <<< (high - size))
      else if high < size then v >>> (size - high) else u32 (v <<< (high - size))).testBit k =
        true) : low ≤ k ∧ k < high := by
  split_ifs at bit with inner narrower narrower
  · have bit := testBit_of_u32 bit
    rw [Nat.testBit_shiftLeft, Nat.testBit_shiftRight, Bool.and_eq_true, decide_eq_true_iff] at bit
    have index := lt_of_testBit bound bit.2
    omega
  · have bit := testBit_of_u32 bit
    rw [Nat.testBit_shiftLeft, Bool.and_eq_true, decide_eq_true_iff] at bit
    have index := lt_of_testBit bound bit.2
    omega
  · rw [Nat.testBit_shiftRight] at bit
    have index := lt_of_testBit bound bit
    omega
  · have bit := testBit_of_u32 bit
    rw [Nat.testBit_shiftLeft, Bool.and_eq_true, decide_eq_true_iff] at bit
    have index := lt_of_testBit bound bit.2
    omega

def Inside (f : Format) (i : Component) (k : Nat) : Prop :=
  ((formats f).c i).l ≤ k ∧ k < ((formats f).c i).h

instance (f : Format) (i : Component) (k : Nat) : Decidable (Inside f i k) :=
  inferInstanceAs (Decidable (_ ∧ _))

private theorem places_ordered : ∀ f i, ((formats f).c i).l ≤ ((formats f).c i).h := by decide

theorem placed_inside (h : Packable p) (bit : (placed t p i).testBit k = true) :
    Inside t.format i k := by
  obtain ⟨range, narrow, word⟩ := widened_lt h t.format i
  rw [placed, downshiftComponent_eq, Nat.zero_or] at bit
  exact shifted_inside (dithered_lt_size t.dither range word) (places_ordered t.format i) narrow
    bit

theorem downshiftComponent_or (word v sh dh dl : Nat) (dither : Option (Fin 64)) :
    downshiftComponent word v sh 0 dh dl 0 0 dither =
      word ||| downshiftComponent 0 v sh 0 dh dl 0 0 dither := by
  rw [downshiftComponent_eq, downshiftComponent_eq 0, Nat.zero_or]

theorem writeComponent_word (t : Target) (p : Pixel) (packed : Nat × Nat) (i : Component) :
    (writeComponent t p packed i).1 =
      if Written t i then packed.1 ||| placed t p i else packed.1 := by
  unfold writeComponent
  split_ifs
  · exact downshiftComponent_or _ _ _ _ _ _
  · rfl

theorem testBit_foldl (t : Target) (p : Pixel) (is : List Component) (packed : Nat × Nat)
    (k : Nat) : (is.foldl (writeComponent t p) packed).1.testBit k =
      (packed.1.testBit k || is.any fun i => decide (Written t i) && (placed t p i).testBit k) := by
  induction is generalizing packed with
  | nil => simp
  | cons i is ih =>
    rw [List.foldl_cons, ih, writeComponent_word, List.any_cons]
    split_ifs with written
    · simp only [Nat.testBit_or, written, decide_true, Bool.true_and, Bool.or_assoc]
    · simp only [written, decide_false, Bool.false_and, Bool.false_or]

theorem mask_foldl (t : Target) (p q : Pixel) (is : List Component) (v w mask : Nat) :
    (is.foldl (writeComponent t p) (v, mask)).2 = (is.foldl (writeComponent t q) (w, mask)).2 := by
  induction is generalizing v w mask with
  | nil => rfl
  | cons i is ih =>
    rw [List.foldl_cons, List.foldl_cons]
    by_cases written : Written t i
    · simp only [writeComponent, if_pos written]
      exact ih _ _ _
    · simp only [writeComponent, if_neg written]
      exact ih _ _ _

def Present (f : Format) (i : Component) : Prop :=
  ¬(GGL.luminance ≤ (formats f).components ∧ (i = 2 ∨ i = 3)) ∧ ((formats f).c i).h ≠ 0

instance (f : Format) (i : Component) : Decidable (Present f i) :=
  inferInstanceAs (Decidable (_ ∧ _))

theorem places_apart : ∀ f i j, Present f i → Present f j → i ≠ j →
    ((formats f).c i).h ≤ ((formats f).c j).l ∨ ((formats f).c j).h ≤ ((formats f).c i).l := by
  decide +kernel

theorem testBit_packed_of
    (stays : ∀ j k, Written t j → (placed t p j).testBit k = true → Inside t.format j k)
    (present : Present t.format i) (inside : Inside t.format i k) :
    (([0, 1, 2, 3] : List Component).foldl (writeComponent t p) (0, 0)).1.testBit k =
      (decide (Written t i) && (placed t p i).testBit k) := by
  rw [testBit_foldl, Nat.zero_testBit, Bool.false_or]
  have other (j : Component) (distinct : i ≠ j) :
      (decide (Written t j) && (placed t p j).testBit k) = false := by
    rw [Bool.and_eq_false_iff]
    by_contra both
    simp only [not_or, Bool.not_eq_false, decide_eq_true_eq] at both
    obtain ⟨written, bit⟩ := both
    obtain ⟨above, below⟩ := stays j k written bit
    obtain ⟨low, high⟩ := inside
    obtain first | last := places_apart _ _ _ present ⟨written.1, written.2.1⟩ distinct
    · omega
    · omega
  apply Bool.eq_iff_iff.mpr
  rw [List.any_eq_true]
  constructor
  · rintro ⟨j, -, bit⟩
    by_cases same : i = j
    · exact same ▸ bit
    · rw [other j same] at bit
      exact absurd bit Bool.false_ne_true
  · intro bit
    exact ⟨i, by fin_cases i <;> simp, bit⟩

theorem testBit_packed (h : Packable p) (present : Present t.format i)
    (inside : Inside t.format i k) :
    (([0, 1, 2, 3] : List Component).foldl (writeComponent t p) (0, 0)).1.testBit k =
      (decide (Written t i) && (placed t p i).testBit k) :=
  testBit_packed_of (fun _ _ _ bit => placed_inside h bit) present inside

private theorem testBit_ite {c : Prop} [Decidable c] {a b a' b' : Nat}
    (ha : a.testBit k = a'.testBit k) (hb : b.testBit k = b'.testBit k) :
    (if c then a else b).testBit k = (if c then a' else b').testBit k := by
  split
  · exact ha
  · exact hb

theorem testBit_not32 {s s' : Nat} (same : s.testBit k = s'.testBit k) :
    (not32 s).testBit k = (not32 s').testBit k := by
  rw [not32, not32, Nat.testBit_xor, Nat.testBit_xor, same]

theorem testBit_logicOp {op : GLenum} {s s' d : Nat} (same : s.testBit k = s'.testBit k) :
    (logicOp op s d).testBit k = (logicOp op s' d).testBit k := by
  unfold logicOp
  repeat' apply testBit_ite
  all_goals first
    | rfl
    | exact same
    | exact testBit_not32 same
    | simp only [Nat.testBit_and, Nat.testBit_or, Nat.testBit_xor, same, testBit_not32 same]
    | exact testBit_not32 (by simp only [Nat.testBit_and, Nat.testBit_or, Nat.testBit_xor, same])

theorem writePixel_apart {q : Pixel} (hp : Packable p) (hq : Packable q)
    (present : Present t.format i) (size : p.s i = q.s i) (same : p.c i = q.c i)
    (inside : Inside t.format i k) : (writePixel t p).testBit k = (writePixel t q).testBit k := by
  have component : placed t p i = placed t q i := by
    unfold placed widened
    simp only [size, same]
  have packed : (([0, 1, 2, 3] : List Component).foldl (writeComponent t p) (0, 0)).1.testBit k =
      (([0, 1, 2, 3] : List Component).foldl (writeComponent t q) (0, 0)).1.testBit k := by
    rw [testBit_packed hp present inside, testBit_packed hq present inside, component]
  have mask := mask_foldl t p q [0, 1, 2, 3] 0 0 0
  unfold writePixel
  dsimp only
  rw [Nat.testBit_mod_two_pow, Nat.testBit_mod_two_pow, mask]
  congr 1
  split_ifs
  · rw [Nat.testBit_or, Nat.testBit_or]
    congr 1
    cases t.logicOp with
    | none => exact packed
    | some op => simp only [Nat.testBit_and, testBit_logicOp packed]
  · exact packed

private theorem formatBits_shaded : ∀ f j, formatBits f j ≠ 0 →
    formatBits f j ∈ shadedSizes ∧ formatBits f j + 8 ∈ shadedSizes := by decide

theorem texelBits_shaded {x : TexUnit} (j : Component) (present : texelBits x j ≠ 0) :
    texelBits x j ∈ shadedSizes := by
  obtain ⟨bits, same | ⟨mixed, -⟩⟩ := texelBits_eq present
  · rw [same]
    exact (formatBits_shaded _ _ bits).1
  · rw [mixed]
    exact (formatBits_shaded _ _ bits).2

theorem units_shaded {pixels : Pixel × Pixel} {units : List TexUnit}
    (own : ∀ j, pixels.1.s j ∈ shadedSizes) (j : Component) :
    (units.foldl applyUnit pixels).1.s j ∈ shadedSizes := by
  induction units generalizing pixels with
  | nil => exact own j
  | cons x units ih =>
    exact ih fun i => applyUnit_size (P := (· ∈ shadedSizes)) own texelBits_shaded i

theorem blending_shaded {b : Blending} {fragment : Pixel} (own : ∀ j, fragment.s j ∈ shadedSizes)
    (j : Component) : (blending b fragment).s j ∈ shadedSizes := by
  have size : (blending b fragment).s j =
      (rescale (fragment.c j) (fragment.s j) ((readDestination b).c j)
        ((readDestination b).s j)).1.2 := rfl
  obtain same | ⟨present, other⟩ := (rescale_sizes (Pixel.get fragment j)
    (Pixel.get (readDestination b) j)).1
  · exact size.trans same ▸ own j
  · have bits : (Pixel.get (readDestination b) j).2 = formatBits b.format j :=
      readWord_size _ _ _ _
    rw [bits] at present
    exact size.trans (other.trans bits) ▸ (formatBits_shaded _ _ present).1

theorem shade_size (x : Inputs) (j : Component) : (shade x).s j ∈ shadedSizes := by
  have textured (i : Component) : (x.units.foldl applyUnit
      (startFragment x.color, x.texel)).1.s i ∈ shadedSizes :=
    units_shaded (fun _ => (by decide : 8 ∈ shadedSizes)) i
  have covered (i : Component) : (applyCoverage x.coverage (x.units.foldl applyUnit
      (startFragment x.color, x.texel)).1).s i ∈ shadedSizes := by
    cases x.coverage with
    | none => exact textured i
    | some cf => exact textured i
  have fogged (i : Component) : (applyFog x.fog (applyCoverage x.coverage (x.units.foldl applyUnit
      (startFragment x.color, x.texel)).1)).s i ∈ shadedSizes := by
    cases x.fog with
    | none => exact covered i
    | some g =>
      unfold applyFog
      dsimp only
      split_ifs
      · exact covered 0
      · decide
  unfold shade
  cases x.blending with
  | none => exact fogged j
  | some b => exact blending_shaded fogged j

end RabbitRender.Pixelflinger.Packing
