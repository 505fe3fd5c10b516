/- RabbitRender/Pixelflinger/PixelMoves
   layer: proof
   source: libpixelflinger/raster.cpp
   digest: `ggl_copyPixels` moves the pixels of its rectangle in every direction of the overlap,
     unless the raster position cannot be rounded. -/

import RabbitRender.Pixelflinger.CopyPixels
import RabbitRender.Pixelflinger.RectCopies

set_option autoImplicit false

namespace RabbitRender.Pixelflinger.PixelMoves

open Fixed (wrap32 wrap32_of_bounds wrap32_bounds)
open Lib.ByteMemory Lib.ByteCopies Pixelflinger.State Pixelflinger.Pixels
open Pixelflinger.ClearBounds (Sound address InPixels)
open Pixelflinger.Scanlines (pointer rowPitch)
open Pixelflinger.RectCopies (Addressable addressable_inside)
open Pixelflinger.CopyPixels
open Textures.DrawTex (gglFixedToIntRound)

structure Clipped (near far : Int) (s t : Span) : Prop where
  length : t.length = min far (s.dst + s.length) - max near s.dst
  dst : t.dst = max near s.dst
  src : 0 < t.length → t.src = s.src + (t.dst - s.dst)

theorem clip_clipped {near far extent : Int} {s : Span} (room : 2 * extent + 2 ^ 15 ≤ 2 ^ 31)
    (position : -2 ^ 15 ≤ s.dst ∧ s.dst < 2 ^ 15) (start : 0 ≤ s.src ∧ s.src ≤ extent)
    (finish : 0 ≤ s.src + s.length ∧ s.src + s.length ≤ extent)
    (near0 : 0 ≤ near ∧ near ≤ extent) (far0 : 0 ≤ far ∧ far ≤ extent) :
    Clipped near far s (clip near far s) := by
  have toNear : near - s.dst ≤ extent + 2 ^ 15 := by omega
  have offset : wrap32 (near - s.dst) = near - s.dst := wrap32_of_bounds (by omega) (by omega)
  have toFar : wrap32 (far - s.dst) = far - s.dst := wrap32_of_bounds (by omega) (by omega)
  have between : wrap32 (far - near) = far - near := wrap32_of_bounds (by omega) (by omega)
  have beyond : wrap32 (s.dst + s.length) = s.dst + s.length :=
    wrap32_of_bounds (by omega) (by omega)
  unfold clip clipNear
  by_cases before : s.dst < near
  · have rest : wrap32 (s.length - (near - s.dst)) = s.length - (near - s.dst) :=
      wrap32_of_bounds (by omega) (by omega)
    have same : near + (s.length - (near - s.dst)) = s.dst + s.length := by omega
    -- where anything is left of the row, its source is inside the surface
    have moved (left : 0 < s.length - (near - s.dst)) :
        wrap32 (s.src + (near - s.dst)) = s.src + (near - s.dst) :=
      wrap32_of_bounds (by omega) (by omega)
    simp only [if_pos before, offset, rest, clipFar, same, beyond]
    by_cases after : far < s.dst + s.length
    · rw [if_pos after]
      constructor
      · simp only [between]
        omega
      · simp only
        omega
      · simp only [between]
        intro left
        exact moved (by omega)
    · rw [if_neg after]
      constructor
      · simp only
        omega
      · simp only
        omega
      · exact moved
  · simp only [if_neg before, clipFar, beyond]
    by_cases after : far < s.dst + s.length
    · rw [if_pos after]
      constructor
      · simp only [toFar]
        omega
      · simp only
        omega
      · intro _
        simp only
        omega
    · rw [if_neg after]
      constructor
      all_goals omega

section Rows

variable {s : Surface}

theorem stride_abs (sound : Sound s) : (s.width : Int) ≤ |s.stride| := by
  have row := sound.row
  rw [Int.abs_eq_natAbs]
  omega

theorem rows_far {y y' : Int} (stride : Int) (other : y ≠ y') :
    y * stride + |stride| ≤ y' * stride ∨ y' * stride + |stride| ≤ y * stride := by
  have step {a b : Int} (before : a < b) :
      a * stride + |stride| ≤ b * stride ∨ b * stride + |stride| ≤ a * stride := by
    rcases le_or_gt 0 stride with up | down
    · left
      rw [abs_of_nonneg up]
      calc a * stride + stride = (a + 1) * stride := by ring
        _ ≤ b * stride := mul_le_mul_of_nonneg_right before up
    · right
      rw [abs_of_neg down]
      have next := mul_le_mul_of_nonpos_right (Int.add_one_le_iff.mpr before) down.le
      linarith
  rcases lt_or_gt_of_ne other with before | after
  · exact step before
  · exact (step after).symm

theorem rows_apart (sound : Sound s) {x x' y y' : Int} {n : Nat}
    (inside : 0 ≤ x ∧ x + n ≤ s.width) (inside' : 0 ≤ x' ∧ x' + n ≤ s.width) (other : y ≠ y') :
    Apart (address s x y) (address s x' y') (n * (formats s.format).size) := by
  have width := stride_abs sound
  have size0 : (0 : Int) ≤ (formats s.format).size := Int.natCast_nonneg _
  unfold Apart address
  push_cast
  rcases rows_far s.stride other with before | after
  · left
    have units : x + y * s.stride + n ≤ x' + y' * s.stride := by omega
    have bytes := mul_le_mul_of_nonneg_right units size0
    linarith
  · right
    have units : x' + y' * s.stride + n ≤ x + y * s.stride := by omega
    have bytes := mul_le_mul_of_nonneg_right units size0
    linarith

theorem address_inj (sound : Sound s) {x x' y y' : Int} {k k' : Nat}
    (column : 0 ≤ x ∧ x < s.width) (column' : 0 ≤ x' ∧ x' < s.width)
    (byte : k < (formats s.format).size) (byte' : k' < (formats s.format).size)
    (same : address s x y + k = address s x' y' + k') : x = x' ∧ y = y' ∧ k = k' := by
  have row : y = y' := by
    by_contra other
    have apart := rows_apart sound (n := 1) ⟨column.1, by omega⟩ ⟨column'.1, by omega⟩ other
    rw [one_mul] at apart
    unfold Apart at apart
    omega
  subst row
  have units : (x - x') * (formats s.format).size = (k' : Int) - k := by
    unfold address at same
    linarith
  have place : x = x' := by
    by_contra other
    rcases lt_or_gt_of_ne other with before | after
    · have step : (x - x') * (formats s.format).size ≤ -1 * ((formats s.format).size : Int) :=
        mul_le_mul_of_nonneg_right (by omega) (Int.natCast_nonneg _)
      omega
    · have step : 1 * ((formats s.format).size : Int) ≤ (x - x') * (formats s.format).size :=
        mul_le_mul_of_nonneg_right (by omega) (Int.natCast_nonneg _)
      omega
  subst place
  rw [sub_self, zero_mul] at units
  exact ⟨rfl, rfl, by omega⟩

theorem addressable (sound : Sound s) {x y : Int} {n : Nat} (column : 0 ≤ x ∧ x ≤ s.width)
    (top : 0 ≤ y) (bottom : y + n < s.height) :
    Addressable s (formats s.format).size x y n := by
  have bytes := sound.bytes
  have width := stride_abs sound
  apply addressable_inside column.1 (by omega) top bottom
  rw [Int.abs_eq_natAbs]
  exact_mod_cast bytes

theorem pointer_rows (sound : Sound s) {x y : Int} {n : Nat} (column : 0 ≤ x ∧ x ≤ s.width)
    (top : 0 ≤ y) (bottom : y + n < s.height) :
    pointer s (formats s.format).size x y + rowPitch s (formats s.format).size * n =
      address s x (y + n) := by
  have fits := addressable sound column top bottom
  have last := fits.offset n le_rfl
  rw [← fits.spaced n le_rfl, pointer, wrap32_of_bounds last.1 last.2, address]
  ring

end Rows

theorem topToBottom_eq (bpr : Int) (n : Nat) (dst src : Int) :
    topToBottom bpr n dst src =
      (List.range n).map fun j => (dst + bpr * (j : Nat), src + bpr * (j : Nat)) := by
  induction n generalizing dst src with
  | zero => rfl
  | succ n ih =>
    rw [topToBottom, ih, List.range_succ_eq_map, List.map_cons, List.map_map]
    congr 1
    · simp only [Nat.cast_zero, mul_zero, add_zero]
    · apply List.map_congr_left
      intro j _
      simp only [Function.comp_apply, Nat.cast_succ]
      congr 1 <;> ring

theorem bottomToTop_eq (bpr : Int) (n : Nat) (dst src : Int) :
    bottomToTop bpr n (dst + n * bpr) (src + n * bpr) =
      ((List.range n).map fun j => (dst + bpr * (j : Nat), src + bpr * (j : Nat))).reverse := by
  induction n with
  | zero => rfl
  | succ n ih =>
    have back (a : Int) : a + (n + 1 : Nat) * bpr - bpr = a + n * bpr := by
      push_cast
      ring
    rw [bottomToTop, back, back, ih, List.range_succ, List.map_append, List.reverse_append,
      List.map_singleton, List.reverse_singleton, List.singleton_append, mul_comm (n : Int) bpr]

/-- A block of `n` columns and `h` rows of a surface. -/
structure Block (s : Surface) (x y : Int) (n h : Nat) : Prop where
  columns : 0 ≤ x ∧ x + n ≤ s.width
  rows : 0 ≤ y ∧ y + h ≤ s.height

def places (s : Surface) (x y xs ys : Int) (j : Nat) : Int × Int :=
  (address s x (y + (j : Nat)), address s xs (ys + (j : Nat)))

/-- The copies of a block in the order `ggl_copyPixels` makes them in. -/
def blockCopies (s : Surface) (x y xs ys : Int) (n h : Nat) : Copies where
  addresses :=
    if ys < y then ((List.range h).map (places s x y xs ys)).reverse
    else (List.range h).map (places s x y xs ys)
  rowsize := n * (formats s.format).size
  move := ys = y

section Blocks

variable {s : Surface} {x y xs ys : Int} {n h : Nat}

theorem mem_blockCopies {a : Int × Int} :
    a ∈ (blockCopies s x y xs ys n h).addresses ↔ ∃ j < h, places s x y xs ys j = a := by
  unfold blockCopies
  split <;> simp only [List.mem_reverse, List.mem_map, List.mem_range]

theorem blockCopies_inRow (target : Block s x y n h) (source : Block s xs ys n h) :
    ∀ a ∈ (blockCopies s x y xs ys n h).addresses,
      InRow s (n * (formats s.format).size) a.1 ∧ InRow s (n * (formats s.format).size) a.2 := by
  intro a member
  obtain ⟨j, row, rfl⟩ := mem_blockCopies.mp member
  have targetRow := target.rows
  have sourceRow := source.rows
  constructor
  · exact ⟨x, y + j, n, target.columns, ⟨by omega, by omega⟩, rfl, rfl⟩
  · exact ⟨xs, ys + j, n, source.columns, ⟨by omega, by omega⟩, rfl, rfl⟩

theorem blockCopies_ordered (sound : Sound s) (target : Block s x y n h)
    (source : Block s xs ys n h) :
    Ordered (n * (formats s.format).size) (blockCopies s x y xs ys n h).addresses := by
  have written {i j : Nat} (other : i ≠ j) :
      Apart (places s x y xs ys i).1 (places s x y xs ys j).1 (n * (formats s.format).size) :=
    rows_apart sound target.columns target.columns (by omega)
  have read {i j : Nat} (other : y + i ≠ ys + j) :
      Apart (places s x y xs ys i).1 (places s x y xs ys j).2 (n * (formats s.format).size) :=
    rows_apart sound target.columns source.columns other
  have increasing : (List.range h).Pairwise (· < ·) := List.pairwise_lt_range
  unfold Ordered blockCopies
  by_cases above : ys < y
  · simp only [if_pos above, List.pairwise_reverse, List.pairwise_map]
    apply increasing.imp
    intro i j before
    exact ⟨read (by omega), written (by omega)⟩
  · simp only [if_neg above, List.pairwise_map]
    apply increasing.imp
    intro i j before
    exact ⟨read (by omega), written (by omega)⟩

theorem blockCopies_move (sound : Sound s) (target : Block s x y n h) (source : Block s xs ys n h)
    {a : Int × Int} (member : a ∈ (blockCopies s x y xs ys n h).addresses) (m : Memory) :
    (blockCopies s x y xs ys n h).moveRow a.1 a.2 m =
      some (copy m a.1 a.2 (n * (formats s.format).size)) := by
  obtain ⟨j, row, rfl⟩ := mem_blockCopies.mp member
  rw [Copies.moveRow]
  by_cases same : ys = y
  · have move : (blockCopies s x y xs ys n h).move = true := decide_eq_true same
    rw [if_pos move]
    rfl
  · have move : ¬(blockCopies s x y xs ys n h).move = true := by
      rw [blockCopies, decide_eq_true_iff]
      exact same
    have apart : Apart (places s x y xs ys j).1 (places s x y xs ys j).2
        (n * (formats s.format).size) :=
      rows_apart sound target.columns source.columns (by omega)
    rw [if_neg move]
    exact if_pos apart

theorem exists_pixel {b : Int} (low : address s x y ≤ b)
    (high : b < address s x y + (n * (formats s.format).size : Nat)) :
    ∃ i < n, ∃ k < (formats s.format).size, b = address s (x + (i : Nat)) y + (k : Nat) := by
  obtain ⟨d, place⟩ : ∃ d : Nat, b = address s x y + d := ⟨(b - address s x y).toNat, by omega⟩
  have below : d < n * (formats s.format).size := by omega
  have size0 : 0 < (formats s.format).size := Nat.pos_of_mul_pos_left (Nat.zero_lt_of_lt below)
  refine ⟨d / (formats s.format).size, (Nat.div_lt_iff_lt_mul size0).mpr below,
    d % (formats s.format).size, Nat.mod_lt _ size0, ?_⟩
  have parts : (d : Int) = (formats s.format).size * (d / (formats s.format).size : Nat) +
      (d % (formats s.format).size : Nat) := by exact_mod_cast (Nat.div_add_mod _ _).symm
  rw [place, parts]
  unfold address
  ring

theorem blockCopies_run (sound : Sound s) (target : Block s x y n h) (source : Block s xs ys n h)
    (m : Memory) :
    ∃ m', (blockCopies s x y xs ys n h).run m = some m' ∧
      (∀ i < n, ∀ j < h, ∀ k < (formats s.format).size,
        m' (address s (x + (i : Nat)) (y + (j : Nat)) + (k : Nat)) =
          m (address s (xs + (i : Nat)) (ys + (j : Nat)) + (k : Nat))) ∧
      ∀ b, (∀ i < n, ∀ j < h, ∀ k < (formats s.format).size,
        b ≠ address s (x + (i : Nat)) (y + (j : Nat)) + (k : Nat)) → m' b = m b := by
  obtain ⟨m', run, moved, kept⟩ := runCopies_ordered
    (fun a member m => blockCopies_move sound target source member m)
    (blockCopies_ordered sound target source) m
  refine ⟨m', run, ?_, ?_⟩
  · intro i column j row k byte
    have inside : i * (formats s.format).size + k < n * (formats s.format).size :=
      calc i * (formats s.format).size + k < (i + 1) * (formats s.format).size := by
            rw [Nat.add_mul, Nat.one_mul]
            exact Nat.add_lt_add_left byte _
        _ ≤ n * (formats s.format).size := Nat.mul_le_mul_right _ column
    have place (a b : Int) : address s (a + i) b + k =
        address s a b + (i * (formats s.format).size + k : Nat) := by
      unfold address
      push_cast
      ring
    rw [place, place]
    exact moved (places s x y xs ys j) (mem_blockCopies.mpr ⟨j, row, rfl⟩) _ inside
  · intro b outside
    apply kept
    intro a member
    obtain ⟨j, row, rfl⟩ := mem_blockCopies.mp member
    by_contra inside
    obtain ⟨i, column, k, byte, place⟩ : ∃ i < n, ∃ k < (formats s.format).size,
        b = address s (x + (i : Nat)) (y + (j : Nat)) + (k : Nat) := by
      apply exists_pixel
      · have low : ¬b < address s x (y + j) := fun low => inside (.inl low)
        exact not_lt.mp low
      · have high : ¬address s x (y + j) + (n * (formats s.format).size : Nat) ≤ b :=
          fun high => inside (.inr high)
        exact not_le.mp high
    exact outside i column j row k byte place

end Blocks

/-- A colour buffer whose columns and rows can be counted twice in an `int`, and a scissor inside
it. -/
structure Ready (c : Context) : Prop where
  sound : Sound c.color
  width : 2 * (c.color.width : Int) + 2 ^ 15 ≤ 2 ^ 31
  height : 2 * (c.color.height : Int) + 2 ^ 15 ≤ 2 ^ 31
  left : 0 ≤ c.scissor.left ∧ c.scissor.left ≤ c.color.width
  right : 0 ≤ c.scissor.right ∧ c.scissor.right ≤ c.color.width
  top : 0 ≤ c.scissor.top ∧ c.scissor.top ≤ c.color.height
  bottom : 0 ≤ c.scissor.bottom ∧ c.scissor.bottom ≤ c.color.height

def position (x : Int32) : Int := gglFixedToIntRound x.toInt

theorem position_bounds (x : Int32) : -2 ^ 15 ≤ position x ∧ position x < 2 ^ 15 := by
  have bounds := wrap32_bounds (x.toInt + 0x8000)
  unfold position gglFixedToIntRound
  rw [Int.shiftRight_eq_div_pow]
  omega

theorem int_bounds (x : Int32) : -2 ^ 31 ≤ x.toInt ∧ x.toInt < 2 ^ 31 :=
  ⟨x.le_toInt, x.toInt_lt⟩

theorem not_leaves {extent : Nat} {start length : Int} (small : extent < 2 ^ 31)
    (low : 0 ≤ start) (positive : 0 ≤ length) (high : start + length ≤ extent) :
    ¬leaves extent start length := by
  unfold leaves unsigned
  omega

theorem bounds_of_not_leaves {extent : Nat} {start length : Int32} (small : extent < 2 ^ 31)
    (stays : ¬leaves extent start.toInt length.toInt) :
    (0 ≤ start.toInt ∧ start.toInt ≤ extent) ∧
      0 ≤ start.toInt + length.toInt ∧ start.toInt + length.toInt ≤ extent := by
  have startBounds := int_bounds start
  have lengthBounds := int_bounds length
  unfold leaves unsigned at stays
  omega

section Call

variable {c : Context} {r : Request}

theorem moved_none {x y : Int} (empty : SourceInside c r → ∀ px py, ¬Target c r x y px py)
    (m : Memory) : Moved c r x y m m where
  inside := fun source px py _ target => absurd target (empty source px py)
  outside := fun _ _ => rfl

theorem moved_same (m : Memory) : Moved c r r.xs.toInt r.ys.toInt m m where
  inside := by
    intro _ px py k _ _
    rw [add_sub_cancel, add_sub_cancel]
  outside := fun _ _ => rfl

theorem columns_clipped (ready : Ready c) (stays : ¬leaves c.color.width r.xs.toInt r.width.toInt) :
    Clipped c.scissor.left c.scissor.right ⟨position r.rasterX, r.xs.toInt, r.width.toInt⟩
      (columns c r) := by
  obtain ⟨start, finish⟩ := bounds_of_not_leaves ready.sound.width stays
  exact clip_clipped ready.width (position_bounds _) start finish ready.left ready.right

theorem rows_clipped (ready : Ready c)
    (stays : ¬leaves c.color.height r.ys.toInt r.height.toInt) :
    Clipped c.scissor.top c.scissor.bottom ⟨position r.rasterY, r.ys.toInt, r.height.toInt⟩
      (rows c r) := by
  obtain ⟨start, finish⟩ := bounds_of_not_leaves ready.sound.height stays
  exact clip_clipped ready.height (position_bounds _) start finish ready.top ready.bottom

theorem stays_of_target (ready : Ready c) {x y px py : Int} (source : SourceInside c r)
    (target : Target c r x y px py) :
    ¬(leaves c.color.width r.xs.toInt r.width.toInt ∨
      leaves c.color.height r.ys.toInt r.height.toInt) := by
  obtain ⟨⟨left, right⟩, top, bottom⟩ := source
  obtain ⟨⟨_, low, high⟩, _, above, below⟩ := target
  rw [not_or]
  exact ⟨not_leaves ready.sound.width left (by omega) right,
    not_leaves ready.sound.height top (by omega) bottom⟩

theorem rowCopies_block (ready : Ready c)
    (stays : ¬(leaves c.color.width r.xs.toInt r.width.toInt ∨
      leaves c.color.height r.ys.toInt r.height.toInt))
    (wide : 0 < (columns c r).length) (high : 0 < (rows c r).length) :
    Block c.color (columns c r).dst (rows c r).dst (columns c r).length.toNat
        (rows c r).length.toNat ∧
      Block c.color (columns c r).src (rows c r).src (columns c r).length.toNat
        (rows c r).length.toNat := by
  rw [not_or] at stays
  obtain ⟨xStart, xFinish⟩ := bounds_of_not_leaves ready.sound.width stays.1
  obtain ⟨yStart, yFinish⟩ := bounds_of_not_leaves ready.sound.height stays.2
  have x := columns_clipped ready stays.1
  have y := rows_clipped ready stays.2
  have xSrc := x.src wide
  have ySrc := y.src high
  have xLength := x.length
  have yLength := y.length
  have xDst := x.dst
  have yDst := y.dst
  have left := ready.left
  have right := ready.right
  have top := ready.top
  have bottom := ready.bottom
  simp only at xSrc ySrc xLength yLength xDst yDst
  refine ⟨⟨⟨?_, ?_⟩, ?_, ?_⟩, ⟨?_, ?_⟩, ?_, ?_⟩ <;> omega

theorem copies_eq {s : Surface} (sound : Sound s) {x y xs ys n h : Int} (wide : 0 < n)
    (high : 0 < h) (target : Block s x y n.toNat h.toNat) (source : Block s xs ys n.toNat h.toNat) :
    let size := (formats s.format).size
    let src := pointer s size xs ys
    let dst := pointer s size x y
    let bpr := rowPitch s size
    let rowsize := (wrap32 (n * size)).toNat
    (if ys < y then
        (⟨bottomToTop bpr h.toNat (dst + h * bpr) (src + h * bpr), rowsize, false⟩ : Copies)
      else ⟨topToBottom bpr h.toNat dst src, rowsize, ys = y⟩) =
      blockCopies s x y xs ys n.toNat h.toNat := by
  intro size src dst bpr rowsize
  have line : rowsize = n.toNat * size := by
    have width := stride_abs sound
    have row := target.columns
    have bytes : s.stride.natAbs * size < 2 ^ 31 := sound.line
    have units : n * size ≤ (s.stride.natAbs * size : Nat) := by
      push_cast
      exact mul_le_mul_of_nonneg_right (by omega) (Int.natCast_nonneg _)
    have positive : 0 ≤ n * size := mul_nonneg wide.le (Int.natCast_nonneg _)
    have exact : wrap32 (n * size) = n * size := wrap32_of_bounds (by omega) (by omega)
    have count : n * size = (n.toNat * size : Nat) := by
      push_cast
      rw [Int.toNat_of_nonneg wide.le]
    rw [show rowsize = (wrap32 (n * size)).toNat from rfl, exact, count, Int.toNat_natCast]
  have tops : (List.range h.toNat).map (fun j => (dst + bpr * (j : Nat), src + bpr * (j : Nat))) =
      (List.range h.toNat).map (places s x y xs ys) := by
    apply List.map_congr_left
    intro j member
    have row := List.mem_range.mp member
    have targetRows := target.rows
    have sourceRows := source.rows
    have targetColumns := target.columns
    have sourceColumns := source.columns
    rw [places, ← pointer_rows sound ⟨targetColumns.1, by omega⟩ targetRows.1 (by omega),
      ← pointer_rows sound ⟨sourceColumns.1, by omega⟩ sourceRows.1 (by omega)]
  have count : h = h.toNat := (Int.toNat_of_nonneg high.le).symm
  unfold blockCopies
  by_cases above : ys < y
  · have loop := bottomToTop_eq bpr h.toNat dst src
    rw [← count, tops] at loop
    have other : decide (ys = y) = false := decide_eq_false (ne_of_lt above)
    rw [if_pos above, if_pos above, loop, line, other]
  · rw [if_neg above, if_neg above, topToBottom_eq, tops, line]

theorem rowCopies_cases (ready : Ready c) (r : Request) :
    (rowCopies c r = none ∧
      ∀ m, Moved c r (position r.rasterX) (position r.rasterY) m m) ∨
    (¬(leaves c.color.width r.xs.toInt r.width.toInt ∨
        leaves c.color.height r.ys.toInt r.height.toInt) ∧
      0 < (columns c r).length ∧ 0 < (rows c r).length ∧
      rowCopies c r = some (blockCopies c.color (columns c r).dst (rows c r).dst
        (columns c r).src (rows c r).src (columns c r).length.toNat (rows c r).length.toNat)) := by
  unfold rowCopies
  by_cases out : leaves c.color.width r.xs.toInt r.width.toInt ∨
      leaves c.color.height r.ys.toInt r.height.toInt
  · left
    refine ⟨if_pos out, moved_none ?_⟩
    intro source px py target
    exact stays_of_target ready source target out
  have stays := not_or.mp out
  have x := columns_clipped ready stays.1
  have y := rows_clipped ready stays.2
  rw [if_neg out]
  by_cases empty : (columns c r).length ≤ 0 ∨ (rows c r).length ≤ 0
  · left
    refine ⟨if_pos empty, moved_none ?_⟩
    rintro _ px py ⟨⟨scissorX, insideX⟩, scissorY, insideY⟩
    have xLength := x.length
    have yLength := y.length
    simp only at xLength yLength
    omega
  have positive : 0 < (columns c r).length ∧ 0 < (rows c r).length := by
    rw [not_or, not_le, not_le] at empty
    exact empty
  rw [if_neg empty]
  by_cases same : (columns c r).src = (columns c r).dst ∧ (rows c r).src = (rows c r).dst
  · left
    rw [if_pos same]
    have xSrc := x.src positive.1
    have ySrc := y.src positive.2
    simp only at xSrc ySrc
    have xs : position r.rasterX = r.xs.toInt := by omega
    have ys : position r.rasterY = r.ys.toInt := by omega
    rw [xs, ys]
    exact ⟨rfl, moved_same⟩
  · right
    have block := rowCopies_block ready out positive.1 positive.2
    rw [if_neg same]
    refine ⟨out, positive.1, positive.2, ?_⟩
    have copies := copies_eq ready.sound positive.1 positive.2 block.1 block.2
    rw [← copies]
    dsimp only
    split <;> rfl

theorem copyPixels_moved (ready : Ready c) (r : Request) (m : Memory) :
    ∃ m', copyPixels c r m = some m' ∧
      Moved c r (position r.rasterX) (position r.rasterY) m m' := by
  unfold copyPixels
  rcases rowCopies_cases ready r with ⟨none, moved⟩ | ⟨stays, wide, high, some⟩
  · rw [none]
    exact ⟨m, rfl, moved m⟩
  obtain ⟨start, finish⟩ := bounds_of_not_leaves ready.sound.width (not_or.mp stays).1
  obtain ⟨top, bottom⟩ := bounds_of_not_leaves ready.sound.height (not_or.mp stays).2
  have x := columns_clipped ready (not_or.mp stays).1
  have y := rows_clipped ready (not_or.mp stays).2
  have xSrc := x.src wide
  have ySrc := y.src high
  have xLength := x.length
  have yLength := y.length
  have xDst := x.dst
  have yDst := y.dst
  simp only at xSrc ySrc xLength yLength xDst yDst
  obtain ⟨target, origin⟩ := rowCopies_block ready stays wide high
  obtain ⟨m', run, inside, outside⟩ := blockCopies_run ready.sound target origin m
  rw [some]
  refine ⟨m', run, ?_, ?_⟩
  · rintro _ px py k ⟨⟨scissorX, insideX⟩, scissorY, insideY⟩ byte
    have column : px = (columns c r).dst + (px - (columns c r).dst).toNat := by omega
    have row : py = (rows c r).dst + (py - (rows c r).dst).toNat := by omega
    have moved := inside (px - (columns c r).dst).toNat (by omega)
      (py - (rows c r).dst).toNat (by omega) k byte
    have sourceColumn : (columns c r).src + (px - (columns c r).dst).toNat =
        r.xs.toInt + (px - position r.rasterX) := by omega
    have sourceRow : (rows c r).src + (py - (rows c r).dst).toNat =
        r.ys.toInt + (py - position r.rasterY) := by omega
    rwa [← column, ← row, sourceColumn, sourceRow] at moved
  · intro b other
    apply outside
    intro i column j row k byte place
    apply other
    refine ⟨⟨⟨start.1, finish.2⟩, top.1, bottom.2⟩, (columns c r).dst + i, (rows c r).dst + j, k, ?_, byte, place⟩
    refine ⟨⟨⟨?_, ?_⟩, ?_, ?_⟩, ⟨?_, ?_⟩, ?_, ?_⟩ <;> omega

theorem rowCopies_within (ready : Ready c) {p : Copies} (copies : rowCopies c r = some p)
    {a : Int × Int} (member : a ∈ p.addresses) :
    InRow c.color p.rowsize a.1 ∧ InRow c.color p.rowsize a.2 := by
  rcases rowCopies_cases ready r with ⟨none, _⟩ | ⟨stays, wide, high, some⟩
  · rw [none] at copies
    exact absurd copies.symm (Option.some_ne_none p)
  · obtain ⟨target, origin⟩ := rowCopies_block ready stays wide high
    rw [some] at copies
    obtain rfl := Option.some.inj copies
    exact blockCopies_inRow target origin a member

/-- The sum that rounds the raster position fits in an `int`. -/
def Rounds (x : Int32) : Prop := x.toInt + 0x8000 < 2 ^ 31

instance (x : Int32) : Decidable (Rounds x) :=
  inferInstanceAs (Decidable (x.toInt + 0x8000 < 2 ^ 31))

/-- Nothing has to be moved to bring the corner to `(x, y)`. -/
def Still (c : Context) (r : Request) (x y : Int) : Prop :=
  SourceInside c r →
    (x = r.xs.toInt ∧ y = r.ys.toInt) ∨ ∀ b, ¬InPixels c.color (Target c r x y) b

theorem position_rounded (x : Int32) :
    (Rounds x → position x = rounded x) ∧ (¬Rounds x → position x ≠ rounded x) := by
  have bounds := int_bounds x
  unfold Rounds position gglFixedToIntRound rounded
  rw [Int.shiftRight_eq_div_pow]
  constructor
  · intro fits
    rw [wrap32_of_bounds (by omega) fits]
    norm_num
  · intro wraps
    have wrapped := wrap32_bounds (x.toInt + 0x8000)
    omega

theorem moved_of_still {x y : Int} (still : Still c r x y) (m : Memory) : Moved c r x y m m := by
  by_cases source : SourceInside c r
  · rcases still source with ⟨rfl, rfl⟩ | empty
    · exact moved_same m
    · constructor
      · intro _ px py k target byte
        exact absurd ⟨px, py, k, target, byte, rfl⟩ (empty (address c.color px py + k))
      · exact fun _ _ => rfl
  · exact moved_none (fun inside => absurd inside source) m

theorem moved_unique {x y : Int} {m a b : Memory} (first : Moved c r x y m a)
    (second : Moved c r x y m b) : a = b := by
  funext i
  by_cases inside : SourceInside c r ∧ InPixels c.color (Target c r x y) i
  · obtain ⟨source, px, py, k, target, byte, rfl⟩ := inside
    rw [first.inside source px py k target byte, second.inside source px py k target byte]
  · rw [first.outside i inside, second.outside i inside]

theorem still_of_moved (ready : Ready c) {x y x' y' : Int} (other : x ≠ x' ∨ y ≠ y')
    (moves : ∀ m, ∃ m', Moved c r x y m m' ∧ Moved c r x' y' m m') : Still c r x y := by
  intro source
  by_contra move
  rw [not_or, not_and_or, not_forall] at move
  obtain ⟨away, b, reached⟩ := move
  obtain ⟨px, py, k, target, byte, rfl⟩ := not_not.mp reached
  obtain ⟨⟨left, right⟩, top, bottom⟩ := source
  -- only the byte that has to be moved here is set
  let set := address c.color (r.xs.toInt + (px - x)) (r.ys.toInt + (py - y)) + k
  obtain ⟨m', moved, moved'⟩ := moves fun a => if a = set then 1 else 0
  have here := moved.inside ⟨⟨left, right⟩, top, bottom⟩ px py k target byte
  rw [if_pos rfl] at here
  have targetColumn := target.1
  have scissorRight := ready.right
  have scissorLeft := ready.left
  have column : 0 ≤ px ∧ px < c.color.width := by omega
  have sourceColumn : 0 ≤ r.xs.toInt + (px - x) ∧ r.xs.toInt + (px - x) < c.color.width := by
    omega
  by_cases inside : InPixels c.color (Target c r x' y') (address c.color px py + k)
  · obtain ⟨px', py', k', target', byte', place⟩ := inside
    have targetColumn' := target'.1
    obtain ⟨rfl, rfl, rfl⟩ := address_inj ready.sound column ⟨by omega, by omega⟩ byte byte' place
    have there := moved'.inside ⟨⟨left, right⟩, top, bottom⟩ px py k target' byte
    rw [here] at there
    split_ifs at there with same
    · have pixel := address_inj ready.sound ⟨by omega, by omega⟩ sourceColumn byte byte same
      omega
    · exact absurd there (by decide)
  · have there := moved'.outside _ fun both => inside both.2
    rw [here] at there
    split_ifs at there with same
    · have pixel := address_inj ready.sound column sourceColumn byte byte same
      omega
    · exact absurd there (by decide)

/-- The condition under which a call is a clipped `memmove`. -/
def Placed (c : Context) (r : Request) : Prop :=
  (Rounds r.rasterX ∧ Rounds r.rasterY) ∨
    (Still c r (rounded r.rasterX) (rounded r.rasterY) ∧
      Still c r (position r.rasterX) (position r.rasterY))

end Call

theorem copyPixels_moves_iff (c : Context) (ready : Ready c) (r : Request) :
    Moves c r ↔ Placed c r := by
  constructor
  · intro moves
    by_cases fits : Rounds r.rasterX ∧ Rounds r.rasterY
    · exact .inl fits
    right
    have other : rounded r.rasterX ≠ position r.rasterX ∨
        rounded r.rasterY ≠ position r.rasterY := by
      rcases not_and_or.mp fits with x | y
      · exact .inl ((position_rounded r.rasterX).2 x).symm
      · exact .inr ((position_rounded r.rasterY).2 y).symm
    have both (m : Memory) : ∃ m',
        Moved c r (rounded r.rasterX) (rounded r.rasterY) m m' ∧
          Moved c r (position r.rasterX) (position r.rasterY) m m' := by
      obtain ⟨m', run, moved⟩ := moves.moved m
      obtain ⟨m'', run', moved'⟩ := copyPixels_moved ready r m
      rw [run] at run'
      obtain rfl := Option.some.inj run'
      exact ⟨m', moved, moved'⟩
    constructor
    · exact still_of_moved ready other both
    · apply still_of_moved ready (other.imp Ne.symm Ne.symm)
      intro m
      obtain ⟨m', moved, moved'⟩ := both m
      exact ⟨m', moved', moved⟩
  · intro placed
    constructor
    · intro m
      obtain ⟨m', run, moved⟩ := copyPixels_moved ready r m
      refine ⟨m', run, ?_⟩
      rcases placed with ⟨x, y⟩ | ⟨exact, computed⟩
      · rwa [← (position_rounded r.rasterX).1 x, ← (position_rounded r.rasterY).1 y]
      · rw [moved_unique moved (moved_of_still computed m)]
        exact moved_of_still exact m
    · intro p copies a member
      exact rowCopies_within ready copies member

def wide : Context :=
  gglColorBuffer initContext
    { width := 40000, height := 1, stride := 40000, format := Format.rgb565 } true

theorem wide_ready : Ready wide where
  sound := ⟨by decide, by decide, by decide, by decide, by decide⟩
  width := by decide
  height := by decide
  left := by decide
  right := by decide
  top := by decide
  bottom := by decide

/-- Most of the row is moved by ten pixels. -/
theorem copyPixels_moves_overlapping : Moves wide ⟨0, 0, 30000, 1, 0xA0000, 0⟩ :=
  (copyPixels_moves_iff wide wide_ready ⟨0, 0, 30000, 1, 0xA0000, 0⟩).mpr
    (.inl ⟨by decide, by decide⟩)

/-- The raster position is half a pixel before column 32768. -/
theorem copyPixels_beyond : ¬Moves wide ⟨0, 0, 40000, 1, 0x7FFF8000, 0⟩ := by
  intro moves
  obtain ⟨m', run, moved⟩ := moves.moved fun b => if b = 0 then 1 else 0
  have copies : rowCopies wide ⟨0, 0, 40000, 1, 0x7FFF8000, 0⟩ =
      some ⟨[(0, 65536)], 14464, true⟩ := by decide
  have result : m' = copy (fun b => if b = 0 then 1 else 0) 0 65536 14464 := by
    rw [copyPixels, copies] at run
    exact (Option.some.inj run).symm
  have pixel := moved.inside (by decide) 32768 0 0 (by decide) (by decide)
  rw [result] at pixel
  revert pixel
  decide

end RabbitRender.Pixelflinger.PixelMoves
