/- RabbitRender/Textures/RowPitch
   layer: results
   source: swrender/texture.cpp
   digest: When the rows of the client are accessed at multiples of the aligned row length. -/

import Mathlib.Tactic.IntervalCases
import Mathlib.Tactic.Ring
import RabbitRender.Textures.ClientRows
import RabbitRender.Textures.Coverage

set_option autoImplicit false

namespace RabbitRender.Textures.RowPitch

open Fixed (wrap32)
open RabbitRender.GL (GLenum)
open Textures.Uploads Textures.ClientRows
open Textures.Coverage (wrap32_eq)
open Textures.Units (convertGLPixelFormat)

def rowLength (width : Int) (size alignment : Nat) : Int :=
  alignment * ((width * size + (alignment - 1 : Nat)) / alignment)

/-- A row of the client begins where its number says, and the stride of the surface is a row. -/
structure Exact (t : Transfer) (alignment : Nat) : Prop where
  stride : t.stride alignment * pixelSize t.formatIdx =
    rowLength t.width (pixelSize t.formatIdx) alignment
  rows : ∀ y, t.clientRow alignment y =
    y * rowLength t.width (pixelSize t.formatIdx) alignment

variable {width : Int} {size alignment : Nat}

theorem rowLength_nonneg (hw : 0 ≤ width) (size alignment : Nat) :
    0 ≤ rowLength width size alignment := by
  have product : 0 ≤ width * size := Int.mul_nonneg hw (Int.natCast_nonneg _)
  apply Int.mul_nonneg (Int.natCast_nonneg _)
  exact Int.ediv_nonneg (by omega) (Int.natCast_nonneg _)

theorem rowBytes_eq (hw : 0 ≤ width) (small : width * size + (alignment - 1 : Nat) < 2 ^ 31) :
    rowBytes width size alignment = rowLength width size alignment := by
  have product : 0 ≤ width * size := Int.mul_nonneg hw (Int.natCast_nonneg _)
  rw [rowBytes, wrap32_eq (by omega) (by omega), if_pos small, rowLength]

theorem rowBytes_lt (legal : alignment ∈ [1, 2, 4, 8])
    (large : 2 ^ 31 ≤ width * size + (alignment - 1 : Nat)) :
    rowBytes width size alignment < rowLength width size alignment := by
  have bound : wrap32 (width * size + (alignment - 1 : Nat)) < 2 ^ 31 := Int.bmod_lt (by decide)
  unfold rowBytes rowLength
  simp only [List.mem_cons, List.not_mem_nil, or_false] at legal
  rcases legal with rfl | rfl | rfl | rfl
  all_goals omega

theorem tdiv_mul_eq_iff {a : Int} (ha : 0 ≤ a) (size : Nat) :
    Int.tdiv a size * size = a ↔ (size : Int) ∣ a := by
  rw [Int.tdiv_eq_ediv_of_nonneg ha]
  exact ⟨fun whole => ⟨_, by rw [Int.mul_comm, whole]⟩, Int.ediv_mul_cancel⟩

theorem tdiv_mul_lt {a b : Int} (less : a < b) (hb : 0 < b) (size : Nat) :
    Int.tdiv a size * size < b := by
  rcases Int.le_total 0 a with positive | negative
  · rw [Int.tdiv_eq_ediv_of_nonneg positive]
    rcases Nat.eq_zero_or_pos size with rfl | some
    · simpa using hb
    · exact (Int.ediv_mul_le a (by omega)).trans_lt less
  · have opposite : 0 ≤ (-a).tdiv size :=
      Int.tdiv_nonneg (by omega) (Int.natCast_nonneg size)
    rw [Int.neg_tdiv] at opposite
    have product : Int.tdiv a size * size ≤ 0 :=
      Int.mul_nonpos_of_nonpos_of_nonneg (by omega) (Int.natCast_nonneg size)
    omega

/-- The stride, multiplied by the size of a pixel, is the row exactly if the row does not overflow and
is a whole number of pixels. -/
theorem stride_mul_eq_iff (hw : 0 ≤ width) (size : Nat) (legal : alignment ∈ [1, 2, 4, 8]) :
    Int.tdiv (rowBytes width size alignment) size * size = rowLength width size alignment ↔
      width * size + (alignment - 1 : Nat) < 2 ^ 31 ∧
        (size : Int) ∣ rowLength width size alignment := by
  by_cases small : width * size + (alignment - 1 : Nat) < 2 ^ 31
  · rw [rowBytes_eq hw small, tdiv_mul_eq_iff (rowLength_nonneg hw size alignment)]
    exact ⟨fun whole => ⟨small, whole⟩, And.right⟩
  · have less := rowBytes_lt legal (not_lt.mp small)
    have positive : 0 < rowLength width size alignment := by
      have nonneg := rowLength_nonneg hw size alignment
      unfold rowLength at nonneg ⊢
      simp only [List.mem_cons, List.not_mem_nil, or_false] at legal
      rcases legal with rfl | rfl | rfl | rfl <;> omega
    have apart := tdiv_mul_lt less positive size
    exact iff_of_false apart.ne fun both => small both.1

theorem pixels_fill_row (pixels : size ∈ [1, 2, 4]) (legal : alignment ∈ [1, 2, 4, 8]) (width : Int) :
    (size : Int) ∣ rowLength width size alignment := by
  unfold rowLength
  simp only [List.mem_cons, List.not_mem_nil, or_false] at pixels legal
  rcases pixels with rfl | rfl | rfl <;> rcases legal with rfl | rfl | rfl | rfl <;> omega

theorem formatIdx_of_valid {format type : GLenum}
    (valid : Units.validFormatType format type = GL.noError) :
    convertGLPixelFormat format type ∈ [8, 3, 1, 9, 0xA, 4, 7, 6] := by
  unfold Units.validFormatType at valid
  split_ifs at valid with packed rgb known range
  · cases valid
  · cases valid
  · cases valid
  · cases valid
  · rw [not_or, not_lt, not_lt] at range
    have types : type = GL.unsignedByte ∨ type = GL.unsignedShort4444 ∨
        type = GL.unsignedShort5551 ∨ type = GL.unsignedShort565 := by
      by_contra other
      simp only [not_or] at other
      exact known other
    rcases types with rfl | rfl | rfl | rfl
    · obtain ⟨low, high⟩ : 0x1906 ≤ format ∧ format ≤ 0x190A := range
      interval_cases format <;> decide
    · obtain rfl : format = GL.rgba := by_contra fun other => packed ⟨.inl rfl, other⟩
      decide
    · obtain rfl : format = GL.rgba := by_contra fun other => packed ⟨.inr rfl, other⟩
      decide
    · obtain rfl : format = GL.rgb := by_contra fun other => rgb ⟨rfl, other⟩
      decide

theorem accepted_cases {t : Transfer} (accepted : t.reject = GL.noError) :
    0 ≤ t.width ∧ t.formatIdx ∈ [8, 3, 1, 9, 0xA, 4, 7, 6] := by
  cases t with
  | texImage a =>
    simp only [Transfer.reject] at accepted
    split_ifs at accepted with rejected
    · exact absurd accepted rejected
    · cases accepted
    · rw [not_not, Units.TexImage.reject] at rejected
      split_ifs at rejected with target negative
      · cases rejected
      · cases rejected
      · cases rejected
      · refine ⟨?_, formatIdx_of_valid rejected⟩
        show 0 ≤ a.width
        omega
  | texSubImage a texture surface =>
    have valid : a.reject = GL.noError := by
      by_contra rejected
      simp only [Transfer.reject, if_pos rejected] at accepted
      exact rejected accepted
    unfold TexSubImage.reject at valid
    split_ifs at valid with target negative
    · cases valid
    · cases valid
    · refine ⟨?_, formatIdx_of_valid valid⟩
      show 0 ≤ a.width
      omega
  | readPixels a readSurface =>
    simp only [Transfer.reject, ReadPixels.reject] at accepted
    split_ifs at accepted with format type negative place none
    · cases accepted
    · cases accepted
    · cases accepted
    · cases accepted
    · cases accepted
    · cases accepted
    · constructor
      · show 0 ≤ a.width
        omega
      · show a.formatIdx ∈ _
        unfold ReadPixels.formatIdx at none ⊢
        split_ifs at none ⊢
        · decide
        · decide
        · exact absurd rfl none

theorem pixelSize_pos {formatIdx : Nat} (known : formatIdx ∈ [8, 3, 1, 9, 0xA, 4, 7, 6]) :
    0 < pixelSize formatIdx := by
  revert formatIdx
  decide

theorem clientRow_eq {t : Transfer} (nonneg : 0 ≤ t.stride alignment) (y : Int) :
    t.clientRow alignment y = y * (t.stride alignment * pixelSize t.formatIdx) := by
  cases t with
  | texImage a | texSubImage a texture surface =>
    have upwards : ¬(imageRequest alignment (convertGLPixelFormat a.format a.type) a.width
      a.height).stride < 0 := not_lt.mpr nonneg
    exact (congrArg (· + _) (if_neg upwards)).trans (Int.zero_add _)
  | readPixels a readSurface =>
    have same : (Transfer.readPixels a readSurface).stride alignment =
      (imageRequest alignment a.formatIdx a.width a.height).stride := rfl
    rw [same] at nonneg ⊢
    generalize hs : (imageRequest alignment a.formatIdx a.width a.height).stride = s at nonneg
    have row : (Transfer.readPixels a readSurface).clientRow alignment y =
        (if -s < 0 then - -s * (pixelSize a.formatIdx : Int) * (a.height - 1) else 0) +
          (a.height - 1 - y) * (-s * pixelSize a.formatIdx) := by
      rw [← hs]
      rfl
    have last : (Transfer.readPixels a readSurface).formatIdx = a.formatIdx := rfl
    rw [row, last]
    rcases Int.lt_or_eq_of_le nonneg with positive | zero
    · rw [if_pos (by omega)]
      ring
    · rw [← zero, if_neg (by decide)]
      ring

/-- The condition on a transfer: its rows do not leave 31 bits, and where pixels take three bytes the
aligned row is a whole number of them. -/
def WholeRows (t : Transfer) (alignment : Nat) : Prop :=
  t.width * pixelSize t.formatIdx + (alignment - 1 : Nat) < 2 ^ 31 ∧
    (t.formatIdx = 3 → (3 : Int) ∣ rowLength t.width 3 alignment)

instance (t : Transfer) (alignment : Nat) : Decidable (WholeRows t alignment) :=
  inferInstanceAs (Decidable (_ ∧ (_ → _)))

theorem whole_pixels_iff {formatIdx : Nat} (known : formatIdx ∈ [8, 3, 1, 9, 0xA, 4, 7, 6])
    (legal : alignment ∈ [1, 2, 4, 8]) (width : Int) :
    (pixelSize formatIdx : Int) ∣ rowLength width (pixelSize formatIdx) alignment ↔
      (formatIdx = 3 → (3 : Int) ∣ rowLength width 3 alignment) := by
  by_cases three : formatIdx = 3
  · subst three
    exact ⟨fun whole _ => whole, fun whole => whole rfl⟩
  · have pixels : pixelSize formatIdx ∈ [1, 2, 4] := by
      revert formatIdx
      decide
    exact iff_of_true (pixels_fill_row pixels legal width) fun is => absurd is three

/-- A call that passes its checks accesses row `y` of the client at `y` aligned rows, exactly if the
condition holds: the stride is a quotient that need not be exact. -/
theorem exact_iff {t : Transfer} {alignment : Nat} (legal : alignment ∈ [1, 2, 4, 8])
    (accepted : t.reject = GL.noError) : Exact t alignment ↔ WholeRows t alignment := by
  obtain ⟨hw, known⟩ := accepted_cases accepted
  have pitch := stride_mul_eq_iff hw (pixelSize t.formatIdx) legal
  rw [WholeRows, ← whole_pixels_iff known legal t.width, ← pitch]
  constructor
  · intro exact
    exact exact.stride
  · intro stride
    have length := rowLength_nonneg hw (pixelSize t.formatIdx) alignment
    have nonneg : 0 ≤ t.stride alignment := by
      by_contra negative
      have product : t.stride alignment * pixelSize t.formatIdx < 0 :=
        Int.mul_neg_of_neg_of_pos (not_le.mp negative) (by exact_mod_cast pixelSize_pos known)
      have same : t.stride alignment * pixelSize t.formatIdx =
          rowLength t.width (pixelSize t.formatIdx) alignment := stride
      omega
    refine ⟨stride, fun y => ?_⟩
    rw [clientRow_eq nonneg y]
    exact congrArg (y * ·) stride

def narrow : Transfer :=
  .texImage
    { target := GL.texture2D, level := 0, internalformat := GL.rgb, width := 2, height := 2,
      border := 0, format := GL.rgb, type := GL.unsignedByte, hasPixels := true }

/-- Without alignment the rows of the image are whole. -/
theorem exact_iff_narrow : Exact narrow 1 ↔ WholeRows narrow 1 :=
  exact_iff (by decide) (by decide)

/-- Rows aligned to four bytes are eight bytes apart, but the second is taken from the sixth byte on. -/
theorem narrow_not_exact : narrow.reject = GL.noError ∧ ¬Exact narrow 4 := by
  refine ⟨by decide, fun exact => ?_⟩
  exact absurd exact.stride (by decide)

end RabbitRender.Textures.RowPitch
