/- RabbitRender/Pixelflinger/RectCopies
   layer: proof
   source: libpixelflinger/scanline.cpp, libpixelflinger/trap.cpp
   digest: A rectangle that is copied at once or row by row holds what the scanlines of its rows
     copy. -/

import RabbitRender.Pixelflinger.Scanlines
import RabbitRender.Pixelflinger.StepAgreement

set_option autoImplicit false

namespace RabbitRender.Pixelflinger.RectCopies

open Fixed (wrap32 wrap32_of_bounds)
open Lib.ByteMemory Lib.ByteCopies Pixelflinger.State Pixelflinger.Stepping Pixelflinger.Scanlines

/-- No `int` overflows on the way to one of the rows. -/
structure Addressable (s : Surface) (size : Nat) (x y : Int) (rows : Nat) : Prop where
  pitch : -2 ^ 31 ≤ s.stride * size ∧ s.stride * size < 2 ^ 31
  offset : ∀ k ≤ rows, -2 ^ 31 ≤ (x + s.stride * (y + (k : Nat))) * size ∧
    (x + s.stride * (y + (k : Nat))) * size < 2 ^ 31

variable {s : Surface} {size : Nat} {x y : Int}

theorem addressable_inside {rows : Nat} (left : 0 ≤ x) (right : x ≤ |s.stride|) (top : 0 ≤ y)
    (bottom : y + rows < s.height) (bytes : |s.stride| * s.height * size < 2 ^ 31) :
    Addressable s size x y rows := by
  have size0 : (0 : Int) ≤ size := Int.natCast_nonneg size
  have stride0 := abs_nonneg s.stride
  have bounds (k : Nat) (last : k ≤ rows) :
      |s.stride * (y + k)| * size + |s.stride| * size ≤ |s.stride| * s.height * size := by
    have row : 0 ≤ y + k := by omega
    rw [abs_mul, abs_of_nonneg row, ← add_mul]
    apply mul_le_mul_of_nonneg_right _ size0
    calc |s.stride| * (y + k) + |s.stride| = |s.stride| * (y + k + 1) := by ring
      _ ≤ |s.stride| * s.height := mul_le_mul_of_nonneg_left (by omega) stride0
  have column : x * size ≤ |s.stride| * size := mul_le_mul_of_nonneg_right right size0
  have first : 0 ≤ x * size := mul_nonneg left size0
  constructor
  · have one := bounds 0 (Nat.zero_le rows)
    have rest : 0 ≤ |s.stride * (y + (0 : Nat))| * size := mul_nonneg (abs_nonneg _) size0
    have low := neg_abs_le (s.stride * size)
    have high := le_abs_self (s.stride * size)
    rw [abs_mul, abs_of_nonneg size0] at low high
    constructor <;> linarith
  · intro k last
    have row := bounds k last
    have low := mul_le_mul_of_nonneg_right (neg_abs_le (s.stride * (y + k))) size0
    have high := mul_le_mul_of_nonneg_right (le_abs_self (s.stride * (y + k))) size0
    rw [neg_mul] at low
    rw [add_mul]
    have pitch : 0 ≤ |s.stride| * size := mul_nonneg stride0 size0
    constructor <;> linarith

theorem pointer_congr (s : Surface) (size : Nat) (x : Int) {y' : Int} (same : y ≡ y' [ZMOD 2 ^ 32]) :
    pointer s size x y = pointer s size x y' := by
  have offset : (x + s.stride * y) * size ≡ (x + s.stride * y') * size [ZMOD 2 ^ 32] :=
    ((same.mul_left s.stride).add_left x).mul_right size
  have rest : (x + s.stride * y) * size % (2 ^ 32 : Nat) =
      (x + s.stride * y') * size % (2 ^ 32 : Nat) := offset
  unfold pointer wrap32
  rw [Int.bmod_def, Int.bmod_def, rest]

def Spaced (s : Surface) (size : Nat) (x y pitch : Int) (rows : Nat) : Prop :=
  ∀ k ≤ rows, pointer s size x (y + (k : Nat)) = pointer s size x y + pitch * (k : Nat)

theorem Addressable.spaced {rows : Nat} (h : Addressable s size x y rows) :
    Spaced s size x y (rowPitch s size) rows := by
  intro k last
  have first := h.offset 0 (Nat.zero_le rows)
  rw [Nat.cast_zero, add_zero] at first
  have row := h.offset k last
  rw [pointer, pointer, rowPitch, wrap32_of_bounds row.1 row.2,
    wrap32_of_bounds first.1 first.2, wrap32_of_bounds h.pitch.1 h.pitch.2]
  ring

theorem Spaced.next {rows : Nat} {y' pitch : Int} (h : Spaced s size x y pitch (rows + 1))
    (next : y' ≡ y + 1 [ZMOD 2 ^ 32]) :
    pointer s size x y' = pointer s size x y + pitch ∧ Spaced s size x y' pitch rows := by
  have one := h 1 (Nat.le_add_left 1 rows)
  rw [Nat.cast_one, mul_one] at one
  have first := (pointer_congr s size x next).trans one
  refine ⟨first, fun k last => ?_⟩
  have later := h (k + 1) (Nat.succ_le_succ last)
  have row : y' + k ≡ y + (k + 1 : Nat) [ZMOD 2 ^ 32] := by
    push_cast
    rw [add_comm (k : Int) 1, ← add_assoc]
    exact next.add_right k
  rw [pointer_congr s size x row, later, first]
  push_cast
  ring

theorem stepRow_next (r : Rasterizer) :
    (stepYNop r).iterators.y ≡ r.iterators.y + 1 [ZMOD 2 ^ 32] :=
  StepAgreement.wrap32_modEq _

theorem rectGeneric_rows {r : Rasterizer} {rows : Nat} {dpitch spitch : Int}
    (nop : r.context.stepY = .nop)
    (pixels : Spaced r.context.color (pixelSize r) r.iterators.xl r.iterators.y dpitch rows)
    (texels : Spaced (r.context.texture 0).surface (pixelSize r)
      ((r.texShade 0 0).v >>> (16 : Nat) + r.iterators.xl)
      ((r.texShade 0 1).v >>> (16 : Nat) + r.iterators.y) spitch rows) (m : Memory) :
    rectGeneric scanlineMemcpy rows r m =
      copyRows dpitch spitch (copyCount r * pixelSize r) rows (copyDst r) (copySrc r) m := by
  induction rows generalizing r m with
  | zero => rfl
  | succ rows ih =>
    have step : stepY r = stepYNop r := by
      unfold stepY
      rw [nop]
    have row := stepRow_next r
    obtain ⟨dst, pixels⟩ := pixels.next row
    have texelRow := row.add_left ((r.texShade 0 1).v >>> (16 : Nat))
    rw [← add_assoc] at texelRow
    obtain ⟨src, texels⟩ := texels.next texelRow
    have later (m : Memory) := ih (r := stepYNop r) nop pixels texels m
    have dst : copyDst (stepYNop r) = copyDst r + dpitch := dst
    have src : copySrc (stepYNop r) = copySrc r + spitch := src
    rw [rectGeneric, copyRows, step]
    simp only [later, dst, src]
    rfl

private theorem start_memcpy {r : Rasterizer} {t : Int} (selected : (start r t).rect = .memcpy) :
    (start r t).context.stepY = .nop := by
  have chosen {stepY : StepY} {picked : State.Scanline} (h : pickRect stepY picked = .memcpy) :
      stepY = .nop := by
    by_contra other
    have generic : pickRect stepY picked = .generic := if_neg fun both => other both.1
    exact absurd (generic.symm.trans h) (by decide)
  unfold start at selected ⊢
  cases first : r.context.initY with
  | initY =>
    rw [first] at selected
    exact chosen selected
  | noop => rfl
  | packed => rfl
  | error => rfl

private theorem pitch_of_contiguous {r : Rasterizer} (contiguous : Contiguous r)
    (stride : s.stride = r.context.color.stride)
    (pitch : -2 ^ 31 ≤ s.stride * pixelSize r ∧ s.stride * pixelSize r < 2 ^ 31) :
    rowPitch s (pixelSize r) = (copyCount r * pixelSize r : Nat) := by
  rw [rowPitch, wrap32_of_bounds pitch.1 pitch.2, stride, ← contiguous.2]
  push_cast
  rfl

section

variable {r : Rasterizer} {rows : Nat} (nop : r.context.stepY = .nop)
  (pixels : Addressable r.context.color (pixelSize r) r.iterators.xl r.iterators.y rows)
  (texels : Addressable (r.context.texture 0).surface (pixelSize r)
    ((r.texShade 0 0).v >>> (16 : Nat) + r.iterators.xl)
    ((r.texShade 0 1).v >>> (16 : Nat) + r.iterators.y) rows)

include nop pixels texels

theorem rectGeneric_of_rectMemcpy {m m' : Memory} (copied : rectMemcpy rows r m = some m') :
    rectGeneric scanlineMemcpy rows r m = some m' := by
  rw [rectGeneric_rows nop pixels.spaced texels.spaced]
  unfold rectMemcpy at copied
  split_ifs at copied with contiguous
  · have apart : Apart (copyDst r) (copySrc r) (copyCount r * pixelSize r * (rows + 1)) := by
      by_contra overlap
      have undefined : memcpy (copyDst r) (copySrc r) (copyCount r * pixelSize r * (rows + 1)) m =
          none := if_neg overlap
      exact absurd (undefined.symm.trans copied) nofun
    rw [pitch_of_contiguous contiguous rfl pixels.pitch,
      pitch_of_contiguous contiguous contiguous.1.symm texels.pitch, copyRows_contiguous apart]
    exact copied
  · exact copied

omit nop in
theorem rectMemcpy_defined (apart : RowsApart (rowPitch r.context.color (pixelSize r))
      (rowPitch (r.context.texture 0).surface (pixelSize r)) (copyCount r * pixelSize r) rows
      (copyDst r) (copySrc r)) (m : Memory) : ∃ m', rectMemcpy rows r m = some m' := by
  unfold rectMemcpy
  split_ifs with contiguous
  · rw [pitch_of_contiguous contiguous rfl pixels.pitch,
      pitch_of_contiguous contiguous contiguous.1.symm texels.pitch] at apart
    exact ⟨_, if_pos (apart_of_rows apart)⟩
  · exact copyRows_defined apart m

end

/-- Where `rect_memcpy` is selected, it leaves the memory that `rect_generic` leaves with the
scanline that copies, and it does so for every texture that is apart from the colour buffer. -/
theorem rect_agrees (r : Rasterizer) (t : Int) (rows : Nat)
    (selected : (start r t).rect = .memcpy)
    (pixels : Addressable r.context.color (pixelSize r) r.iterators.xl t rows)
    (texels : Addressable (r.context.texture 0).surface (pixelSize r)
      ((r.texShade 0 0).v >>> (16 : Nat) + r.iterators.xl)
      ((r.texShade 0 1).v >>> (16 : Nat) + t) rows) (m : Memory) :
    (∀ m', rectMemcpy rows (start r t) m = some m' →
      rectGeneric scanlineMemcpy rows (start r t) m = some m') ∧
    (RowsApart (rowPitch r.context.color (pixelSize r))
        (rowPitch (r.context.texture 0).surface (pixelSize r)) (copyCount r * pixelSize r) rows
        (copyDst (start r t)) (copySrc (start r t)) →
      ∃ m', rectMemcpy rows (start r t) m = some m') := by
  have nop := start_memcpy selected
  have same : (start r t).context.color = r.context.color ∧
      (start r t).context.texture = r.context.texture ∧ (start r t).texShade = r.texShade ∧
      (start r t).iterators.xl = r.iterators.xl ∧ (start r t).iterators.xr = r.iterators.xr ∧
      (start r t).iterators.y = t := by
    unfold start
    cases r.context.initY <;> exact ⟨rfl, rfl, rfl, rfl, rfl, rfl⟩
  generalize start r t = started at nop same ⊢
  obtain ⟨color, texture, texShade, xl, xr, y⟩ := same
  have size : pixelSize started = pixelSize r := by
    rw [pixelSize, color, pixelSize]
  have count : copyCount started = copyCount r := by
    rw [copyCount, xl, xr, copyCount]
  rw [← color, ← size, ← xl, ← y] at pixels
  rw [← texture, ← texShade, ← size, ← xl, ← y] at texels
  rw [← color, ← texture, ← size, ← count]
  exact ⟨fun m' copied => rectGeneric_of_rectMemcpy nop pixels texels copied,
    fun apart => rectMemcpy_defined pixels texels apart m⟩

private def image565 (data : Int) : GGLSurface where
  width := 4
  height := 4
  stride := 4
  data := data
  format := Format.rgb565

/-- Whole rows of a texture beside the colour buffer, from the second row on. -/
private def blitter : Rasterizer where
  context :=
    let bound := gglBindTexture (gglColorBuffer initContext (image565 0) true) (image565 0x100)
    let enabled := gglEnableTexture2d bound true
    Picker.gglPick (gglTexEnvi enabled GGL.textureEnv GGL.textureEnvMode GGL.replace)
  shade :=
    { a := ⟨0, 0, 0⟩, r := ⟨0, 0, 0⟩, g := ⟨0, 0, 0⟩, b := ⟨0, 0, 0⟩
      z := ⟨0, 0, 0⟩, w := ⟨0, 0, 0⟩, f := ⟨0, 0, 0⟩ }
  texShade _ _ := ⟨0, 0, 0, 0⟩
  iterators := ⟨0, 4, 0, 0, 0, 0, 0, 0, 0, 0⟩
  texIterators _ _ := ⟨0, 0, 0, 0⟩
  packed := 0
  packed8888 := 0
  rect := .generic

theorem rect_agrees_whole :
    ∃ m', rectMemcpy 1 (start blitter 1) (fun _ => 0) = some m' ∧
      rectGeneric scanlineMemcpy 1 (start blitter 1) (fun _ => 0) = some m' := by
  have pixels : Addressable blitter.context.color (pixelSize blitter) blitter.iterators.xl 1 1 :=
    addressable_inside (by decide +kernel) (by decide +kernel) (by decide) (by decide +kernel)
      (by decide +kernel)
  have texels : Addressable (blitter.context.texture 0).surface (pixelSize blitter)
      ((blitter.texShade 0 0).v >>> (16 : Nat) + blitter.iterators.xl)
      ((blitter.texShade 0 1).v >>> (16 : Nat) + 1) 1 :=
    addressable_inside (by decide +kernel) (by decide +kernel) (by decide +kernel)
      (by decide +kernel) (by decide +kernel)
  obtain ⟨refines, defined⟩ := rect_agrees blitter 1 1 (by decide +kernel) pixels texels
    fun _ => 0
  obtain ⟨m', copied⟩ := defined (by unfold RowsApart; decide +kernel)
  exact ⟨m', copied, refines m' copied⟩

end RabbitRender.Pixelflinger.RectCopies
