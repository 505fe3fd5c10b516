/- RabbitRender/Textures/FramebufferCopies
   layer: theorem
   source: swrender/texture.cpp, libpixelflinger/trap.cpp, libpixelflinger/buffer.cpp,
     libpixelflinger/scanline.cpp
   digest: Which pixels a copy from the colour buffer reads, and the texels they land in. -/

import RabbitRender.Textures.Coverage
import RabbitRender.Textures.DrawTexCopies

set_option autoImplicit false

namespace RabbitRender.Textures.FramebufferCopies

open Fixed
open Pixelflinger.State (Scissor)
open Textures.DrawTex (Rect)
open Textures.DrawTexCopies (clip Drawn)
open Textures.Levels (GGLSurface Pointer)
open Textures.TexelFetch
open Textures.Uploads (CopyTexImage CopyTexSubImage imageRequest samePixels)

/-- What `copyPixels` does: the block as it is, or a rectangle with a 1:1 mapping of the source. -/
inductive Transfer where
  | block
  | rectangle (unit : TextureUnit) (rect : Rect)

/-- `texCoord2i`; the unit of the rasterizer for copies keeps its first modes. -/
def start (i : Int) : Axis := ⟨wrap32 (wrap32 i * 2 ^ 16), 0, 0, 0, .tiled⟩

def copyPixels (dst : GGLSurface) (xoffset yoffset : Int) (src : GGLSurface) (x y w h : Int) :
    Transfer :=
  if samePixels dst xoffset yoffset src x y then .block
  else
    .rectangle ⟨.oneToOne, start (x - xoffset), start (y - yoffset)⟩
      ⟨xoffset, yoffset, wrap32 (xoffset + w), wrap32 (yoffset + h)⟩

/-- The part of the colour buffer that a call asks for, and the place in the texture. -/
structure Region where
  xoffset : Int
  yoffset : Int
  x : Int
  y : Int
  width : Int
  height : Int
deriving DecidableEq, Repr

/-- The end of both calls. The bottom row is stored first in textures, and `(x, y)` is the
lower-left corner of the colour buffer. -/
def Region.copy (r : Region) (cb level : GGLSurface) : Transfer :=
  let txSurface := { level with stride := -level.stride }
  let y := wrap32 (cb.height - wrap32 (r.y + r.height))
  let width := if wrap32 (r.x + r.width) > cb.width then wrap32 (cb.width - r.x) else r.width
  let height := if wrap32 (y + r.height) > cb.height then wrap32 (cb.height - y) else r.height
  copyPixels txSurface r.xoffset r.yoffset cb r.x y width height

inductive Call where
  | texImage (a : CopyTexImage)
  | texSubImage (a : CopyTexSubImage)

def Call.region : Call → Region
  | .texImage a => ⟨0, 0, a.x, a.y, a.width, a.height⟩
  | .texSubImage a => ⟨a.xoffset, a.yoffset, a.x, a.y, a.width, a.height⟩

inductive Accepted (cb : GGLSurface) : Call → GGLSurface → Prop
  | texImage (a : CopyTexImage) (alignment formatIdx : Nat) (data : Option Pointer) :
      (a.from cb.format).reject = GL.noError →
      Accepted cb (.texImage a) ((imageRequest alignment formatIdx a.width a.height).surface data)
  | texSubImage (a : CopyTexSubImage) (o : Units.TextureObject) (level : GGLSurface) :
      a.reject = GL.noError → a.width ≠ 0 → a.height ≠ 0 → a.refuse o level = GL.noError →
      Accepted cb (.texSubImage a) level

/-- The rows that a bound surface is off by. The data of a colour buffer with a negative stride has
been moved to the last row, and is moved once more. -/
def rowsOff (cb : GGLSurface) : Int := if cb.stride < 0 then cb.height - 1 else 0

/-- The pixel in column `u` and row `v` of the colour buffer goes to the texel `(i, j)`. The strides
of the level and of the destination have opposite signs, so that the rows of one are those of the
other from the last one on. -/
def Transfer.Moves (cb level : GGLSurface) (pipe : Pipeline) (u v i j : Int) : Transfer → Prop
  | .block =>
    (0 ≤ u ∧ u < cb.width) ∧ (0 ≤ v ∧ v < cb.height) ∧ i = u ∧ j = level.height - 1 - v
  | .rectangle unit rect => ∃ px py,
    let scissor : Scissor := { right := level.width, bottom := level.height }
    let fetch := unit.fetch pipe cb.width cb.height (clip scissor rect).t px py
    Drawn scissor rect px py ∧ u ∈ fetch.1.reads ∧ v + rowsOff cb ∈ fetch.2.reads ∧
      i = px ∧ j = level.height - 1 - py

/-- The framebuffer has its first row at the bottom: of the pixels that the call asks for, this one
belongs to the texel `(i, j)`. -/
structure Region.Assigns (r : Region) (cb level : GGLSurface) (u v i j : Int) : Prop where
  column : 0 ≤ u - r.x ∧ u - r.x < r.width
  row : 0 ≤ cb.height - 1 - v - r.y ∧ cb.height - 1 - v - r.y < r.height
  right : i = r.xoffset + (u - r.x)
  up : j = r.yoffset + (cb.height - 1 - v - r.y)
  texel : (0 ≤ i ∧ i < level.width) ∧ 0 ≤ j ∧ j < level.height

/-- Every pixel that is copied comes from the colour buffer and goes to its own texel. -/
def Region.CopiesRight (r : Region) (cb level : GGLSurface) (pipe : Pipeline) : Prop :=
  ∀ u v i j, (r.copy cb level).Moves cb level pipe u v i j →
    ((0 ≤ u ∧ u < cb.width) ∧ 0 ≤ v ∧ v < cb.height) ∧ r.Assigns cb level u v i j

/-- What is left of an extent right of `start`; a sum that overflows does not count as too large. -/
def kept (start extent size : Int) : Int :=
  if start + extent < 2 ^ 31 then min extent (size - start) else extent

/-- What is left of an extent above `y`, from rows counted upwards. -/
def keptAbove (y extent size : Int) : Int :=
  if y < 0 ∧ size - y < 2 ^ 31 then y + extent else extent

/-- The pixels drawn of an extent from `offset` on. -/
def drawn (offset extent size : Int) : Int :=
  if offset + extent < 2 ^ 31 then min extent (size - offset) else extent

namespace Region

variable (r : Region) (cb level : GGLSurface)

def columns : Int := drawn r.xoffset (kept r.x r.width cb.width) level.width

def rows : Int := drawn r.yoffset (keptAbove r.y r.height cb.height) level.height

/-- The coordinates of 16 bits reach the last texel; a row read in place only has the distance in
16 bits. -/
def fits (distance last : Int) : Pipeline → Prop
  | .nearest true _ => -2 ^ 15 ≤ distance ∧ distance < 2 ^ 15
  | _ => last ≤ 2 ^ 15

def rowDistance : Int := r.yoffset + cb.height - r.y - level.height

structure ColumnsRight (pipe : Pipeline) : Prop where
  left : 0 ≤ r.x
  right : r.x + r.columns cb level ≤ cb.width
  texels : r.xoffset + r.columns cb level ≤ level.width
  coordinates : fits (r.x - r.xoffset) (r.x + r.columns cb level) pipe

structure RowsRight (pipe : Pipeline) : Prop where
  top : 0 ≤ r.yoffset + r.rowDistance cb level
  bottom : r.yoffset + r.rows cb level + r.rowDistance cb level ≤ cb.height
  texels : r.yoffset + r.rows cb level ≤ level.height
  within : level.height - 2 * r.yoffset ≤ r.height
  above : r.rows cb level ≤ level.height - 2 * r.yoffset
  turned : (level.height - 2 * r.yoffset - r.height - rowsOff cb) % 2 ^ 16 = 0
  coordinates : fits (r.rowDistance cb level + rowsOff cb)
    (r.yoffset + r.rows cb level + r.rowDistance cb level + rowsOff cb) pipe

/-- A block has all of the texture's pixels. Of a rectangle, one that is not empty needs both
axes. -/
def Right (pipe : Pipeline) : Prop :=
  if samePixels { level with stride := -level.stride } r.xoffset r.yoffset cb r.x
      (wrap32 (cb.height - wrap32 (r.y + r.height))) then
    cb.width = 0 ∨ cb.height = 0 ∨ (r.width = level.width ∧ r.height = level.height)
  else
    r.columns cb level ≤ 0 ∨ r.rows cb level ≤ 0 ∨
      (r.ColumnsRight cb level pipe ∧ r.RowsRight cb level pipe)

end Region

theorem axis_iff (row clampIterator : Bool) (k e o size : Int) {d n : Int} (some : 0 < n)
    (low : -1 ≤ d) :
    (∀ p, o ≤ p → p < o + n → (Pipeline.nearest row clampIterator).texel k p = p + e + d ∧
      0 ≤ p + e ∧ p + e < size) ↔
      (0 ≤ o + e ∧ o + n + e ≤ size) ∧ (k - (e + d)) % 2 ^ 16 = 0 ∧
        Region.fits (e + d) (o + n + e + d) (.nearest row clampIterator) := by
  constructor
  · intro all
    have first := all o (by omega) (by omega)
    have last := all (o + n - 1) (by omega) (by omega)
    cases row <;> simp only [Pipeline.texel, Region.fits, low16, Int.bmod_def] at first last ⊢ <;>
      omega
  · rintro ⟨⟨above, below⟩, same, fits⟩ p left right
    refine ⟨?_, by omega, by omega⟩
    cases row <;> simp only [Pipeline.texel, Region.fits, low16, Int.bmod_def] at fits ⊢ <;> omega

variable {extent : Int} {size : Nat}

theorem kept_eq {start : Int} (word : -2 ^ 31 ≤ start ∧ start < 2 ^ 31)
    (positive : 0 ≤ extent ∧ extent < 2 ^ 31) (sized : size < 2 ^ 31) :
    (if wrap32 (start + extent) > size then wrap32 (size - start) else extent) =
      kept start extent size := by
  unfold kept wrap32
  simp only [Int.bmod_def]
  split <;> split <;> split <;> omega

theorem kept_bounds {start : Int} (word : -2 ^ 31 ≤ start ∧ start < 2 ^ 31)
    (positive : 0 ≤ extent ∧ extent < 2 ^ 31) (sized : size < 2 ^ 31) :
    -2 ^ 31 ≤ kept start extent size ∧ kept start extent size ≤ extent := by
  unfold kept
  split <;> omega

theorem keptAbove_eq {y : Int} (word : -2 ^ 31 ≤ y ∧ y < 2 ^ 31)
    (positive : 0 ≤ extent ∧ extent < 2 ^ 31) (sized : size < 2 ^ 31) :
    (if wrap32 (wrap32 (size - wrap32 (y + extent)) + extent) > size then
      wrap32 (size - wrap32 (size - wrap32 (y + extent))) else extent) =
      keptAbove y extent size := by
  have below : wrap32 (wrap32 (size - wrap32 (y + extent)) + extent) = wrap32 (size - y) := by
    rw [wrap32_sub_right, wrap32_add_left]
    congr 1
    ring
  have back : wrap32 (size - wrap32 (size - wrap32 (y + extent))) = wrap32 (y + extent) := by
    rw [wrap32_sub_right, sub_sub_cancel, wrap32_wrap32]
  rw [below, back]
  unfold keptAbove wrap32
  simp only [Int.bmod_def]
  split <;> split <;> split <;> omega

theorem keptAbove_bounds {y : Int} (word : -2 ^ 31 ≤ y ∧ y < 2 ^ 31)
    (positive : 0 ≤ extent ∧ extent < 2 ^ 31) (size : Nat) :
    -2 ^ 31 ≤ keptAbove y extent size ∧ keptAbove y extent size ≤ extent := by
  unfold keptAbove
  split <;> omega

theorem drawn_pixels {o : Int} (offset : 0 ≤ o ∧ o < 2 ^ 31)
    (word : -2 ^ 31 ≤ extent ∧ extent < 2 ^ 31) (sized : size < 2 ^ 31) (p : Int) :
    (max o 0 ≤ p ∧ p < max o 0 + wrap32 (min (wrap32 (o + extent)) size - max o 0)) ↔
      o ≤ p ∧ p < o + drawn o extent size := by
  rw [max_eq_left offset.1]
  unfold drawn wrap32
  simp only [Int.bmod_def]
  split <;> split <;> split <;> omega

theorem start_reads (row clampIterator : Bool) (k size ys px py p u : Int) :
    u ∈ ((start k).fetch .oneToOne size ys px py p (.nearest row clampIterator)).reads ↔
      u = (Pipeline.nearest row clampIterator).texel k p := by
  have origin : (start k).i0 = wrap32 (k * 2 ^ 16) := wrap32_mul_left _ _
  have place : (start k).mapped p >>> (16 : Nat) = low16 (k + p) := by
    rw [mapped_start origin, Int.shiftRight_eq_div_pow]
    omega
  simp only [Axis.fetch, if_true, single, List.mem_singleton, place, origin, start_shift]
  cases row <;> rfl

/-- What the calls check of a region, whose members have the type `GLint`; the extents of a surface
come from that type. -/
structure Region.Checked (r : Region) (cb level : GGLSurface) : Prop where
  x : -2 ^ 31 ≤ r.x ∧ r.x < 2 ^ 31
  y : -2 ^ 31 ≤ r.y ∧ r.y < 2 ^ 31
  width : 0 ≤ r.width ∧ r.width < 2 ^ 31
  height : 0 ≤ r.height ∧ r.height < 2 ^ 31
  xoffset : 0 ≤ r.xoffset ∧ r.xoffset < 2 ^ 31
  yoffset : 0 ≤ r.yoffset ∧ r.yoffset < 2 ^ 31
  buffer : cb.width < 2 ^ 31 ∧ cb.height < 2 ^ 31
  texture : level.width < 2 ^ 31 ∧ level.height < 2 ^ 31
  inside : wrap32 (r.xoffset + r.width) ≤ level.width ∧
    wrap32 (r.yoffset + r.height) ≤ level.height

section Checked

variable {r : Region} {cb level : GGLSurface}

private theorem columns_le (checked : r.Checked cb level) : r.columns cb level ≤ r.width := by
  have bounds := kept_bounds checked.x checked.width checked.buffer.1
  unfold Region.columns drawn
  split <;> omega

private theorem rows_le (checked : r.Checked cb level) : r.rows cb level ≤ r.height := by
  have bounds := keptAbove_bounds checked.y checked.height cb.height
  unfold Region.rows drawn
  split <;> omega

theorem moves_iff (checked : r.Checked cb level)
    (rectangle : ¬samePixels { level with stride := -level.stride } r.xoffset r.yoffset cb r.x
      (wrap32 (cb.height - wrap32 (r.y + r.height))))
    (row clampIterator : Bool) (u v i j : Int) :
    (r.copy cb level).Moves cb level (.nearest row clampIterator) u v i j ↔
      ∃ px py, ((r.xoffset ≤ px ∧ px < r.xoffset + r.columns cb level) ∧
          r.yoffset ≤ py ∧ py < r.yoffset + r.rows cb level) ∧
        u = (Pipeline.nearest row clampIterator).texel (r.x - r.xoffset) px ∧
        v + rowsOff cb = (Pipeline.nearest row clampIterator).texel
          (wrap32 (cb.height - wrap32 (r.y + r.height)) - r.yoffset) py ∧
        i = px ∧ j = level.height - 1 - py := by
  have bounds := kept_bounds checked.x checked.width checked.buffer.1
  have boundsAbove := keptAbove_bounds checked.y checked.height cb.height
  have width := checked.width
  have height := checked.height
  simp only [Region.copy, copyPixels, if_neg rectangle, Transfer.Moves, TextureUnit.fetch,
    start_reads, Drawn, clip, kept_eq checked.x checked.width checked.buffer.1,
    keptAbove_eq checked.y checked.height checked.buffer.2]
  simp only [drawn_pixels checked.xoffset ⟨bounds.1, by omega⟩ checked.texture.1,
    drawn_pixels checked.yoffset ⟨boundsAbove.1, by omega⟩ checked.texture.2]
  rfl

private theorem columnsRight_iff (checked : r.Checked cb level) (some : 0 < r.columns cb level)
    (row clampIterator : Bool) :
    (∀ px, r.xoffset ≤ px → px < r.xoffset + r.columns cb level →
      let u := (Pipeline.nearest row clampIterator).texel (r.x - r.xoffset) px
      (0 ≤ u ∧ u < cb.width) ∧ (0 ≤ u - r.x ∧ u - r.x < r.width) ∧
        px = r.xoffset + (u - r.x) ∧ 0 ≤ px ∧ px < level.width) ↔
      r.ColumnsRight cb level (.nearest row clampIterator) := by
  have axis := axis_iff row clampIterator (r.x - r.xoffset) (r.x - r.xoffset) r.xoffset cb.width
    (d := 0) some (by omega)
  have narrow := columns_le checked
  have offset := checked.xoffset
  have reach : r.xoffset + r.columns cb level + (r.x - r.xoffset) + 0 =
      r.x + r.columns cb level := by omega
  rw [reach, add_zero] at axis
  constructor
  · intro all
    have ⟨⟨left, right⟩, _, coordinates⟩ := axis.mp fun px low high => by
      have := all px low high
      omega
    have last := all (r.xoffset + r.columns cb level - 1) (by omega) (by omega)
    exact ⟨by omega, by omega, by omega, coordinates⟩
  · rintro ⟨left, right, texels, coordinates⟩ px low high
    have := axis.mpr ⟨⟨by omega, by omega⟩, by omega, coordinates⟩ px low high
    omega

private theorem rowsRight_iff (checked : r.Checked cb level) (some : 0 < r.rows cb level)
    (row clampIterator : Bool) :
    (∀ py, r.yoffset ≤ py → py < r.yoffset + r.rows cb level →
      let v := (Pipeline.nearest row clampIterator).texel
        (wrap32 (cb.height - wrap32 (r.y + r.height)) - r.yoffset) py - rowsOff cb
      (0 ≤ v ∧ v < cb.height) ∧
        (0 ≤ cb.height - 1 - v - r.y ∧ cb.height - 1 - v - r.y < r.height) ∧
        level.height - 1 - py = r.yoffset + (cb.height - 1 - v - r.y) ∧
        0 ≤ level.height - 1 - py ∧ level.height - 1 - py < level.height) ↔
      r.RowsRight cb level (.nearest row clampIterator) := by
  have off : -1 ≤ rowsOff cb := by
    unfold rowsOff
    split <;> omega
  obtain ⟨k, origin⟩ : ∃ k, k = wrap32 (cb.height - wrap32 (r.y + r.height)) - r.yoffset :=
    ⟨_, rfl⟩
  have phase : (k - (r.rowDistance cb level + rowsOff cb)) % 2 ^ 16 =
      (level.height - 2 * r.yoffset - r.height - rowsOff cb) % 2 ^ 16 := by
    rw [origin, Region.rowDistance]
    unfold wrap32
    simp only [Int.bmod_def]
    split <;> split <;> omega
  have axis := axis_iff row clampIterator k (r.rowDistance cb level) r.yoffset cb.height some off
  rw [phase] at axis
  rw [← origin]
  have low := rows_le checked
  have offset := checked.yoffset
  have distance : r.rowDistance cb level = r.yoffset + cb.height - r.y - level.height := rfl
  constructor
  · intro all
    have ⟨⟨top, bottom⟩, turned, coordinates⟩ := axis.mp fun py low high => by
      have := all py low high
      omega
    have first := all r.yoffset (by omega) (by omega)
    have last := all (r.yoffset + r.rows cb level - 1) (by omega) (by omega)
    exact ⟨top, bottom, by omega, by omega, by omega, turned, coordinates⟩
  · rintro ⟨top, bottom, texels, within, above, turned, coordinates⟩ py low high
    have := axis.mpr ⟨⟨top, bottom⟩, turned, coordinates⟩ py low high
    omega

private theorem rectangle_iff (checked : r.Checked cb level)
    (rectangle : ¬samePixels { level with stride := -level.stride } r.xoffset r.yoffset cb r.x
      (wrap32 (cb.height - wrap32 (r.y + r.height))))
    (row clampIterator : Bool) :
    r.CopiesRight cb level (.nearest row clampIterator) ↔
      r.columns cb level ≤ 0 ∨ r.rows cb level ≤ 0 ∨
        (r.ColumnsRight cb level (.nearest row clampIterator) ∧
          r.RowsRight cb level (.nearest row clampIterator)) := by
  constructor
  · intro right
    by_cases wide : r.columns cb level ≤ 0
    · exact .inl wide
    by_cases high : r.rows cb level ≤ 0
    · exact .inr (.inl high)
    have moved (px py : Int) (column : r.xoffset ≤ px ∧ px < r.xoffset + r.columns cb level)
        (drawn : r.yoffset ≤ py ∧ py < r.yoffset + r.rows cb level) :=
      right _ _ _ _ ((moves_iff checked rectangle row clampIterator _ _ _ _).mpr
        ⟨px, py, ⟨column, drawn⟩, rfl, sub_add_cancel _ _, rfl, rfl⟩)
    refine .inr (.inr ⟨(columnsRight_iff checked (by omega) row clampIterator).mp ?_,
      (rowsRight_iff checked (by omega) row clampIterator).mp ?_⟩)
    · intro px left before
      obtain ⟨⟨inside, _⟩, column, _, place, _, texel, _⟩ :=
        moved px r.yoffset ⟨left, before⟩ (by omega)
      exact ⟨inside, column, place, texel⟩
    · intro py above before
      obtain ⟨⟨_, inside⟩, _, drawn, _, place, texel⟩ :=
        moved r.xoffset py (by omega) ⟨above, before⟩
      exact ⟨inside, drawn, place, texel.2⟩
  · rintro (narrow | low | ⟨columns, rows⟩) u v i j moves
    · obtain ⟨px, py, ⟨column, _⟩, _⟩ :=
        (moves_iff checked rectangle row clampIterator u v i j).mp moves
      omega
    · obtain ⟨px, py, ⟨_, drawn⟩, _⟩ :=
        (moves_iff checked rectangle row clampIterator u v i j).mp moves
      omega
    · obtain ⟨px, py, ⟨column, drawn⟩, rfl, texel, rfl, rfl⟩ :=
        (moves_iff checked rectangle row clampIterator u v i j).mp moves
      obtain rfl := eq_sub_of_add_eq texel
      have horizontal := (columnsRight_iff checked (by omega) row clampIterator).mpr columns i
        column.1 column.2
      have vertical := (rowsRight_iff checked (by omega) row clampIterator).mpr rows py
        drawn.1 drawn.2
      exact ⟨⟨horizontal.1, vertical.1⟩, horizontal.2.1, vertical.2.1, horizontal.2.2.1,
        vertical.2.2.1, horizontal.2.2.2, vertical.2.2.2⟩

private theorem block_iff (checked : r.Checked cb level)
    (block : samePixels { level with stride := -level.stride } r.xoffset r.yoffset cb r.x
      (wrap32 (cb.height - wrap32 (r.y + r.height)))) (pipe : Pipeline) :
    r.CopiesRight cb level pipe ↔
      cb.width = 0 ∨ cb.height = 0 ∨ (r.width = level.width ∧ r.height = level.height) := by
  have same := block
  simp only [samePixels, Bool.and_eq_true, decide_eq_true_eq] at same
  obtain ⟨⟨⟨⟨⟨_, columns⟩, rows⟩, _⟩, x, y⟩, xoffset, yoffset⟩ := same
  have moves (u v i j : Int) : (r.copy cb level).Moves cb level pipe u v i j ↔
      (0 ≤ u ∧ u < cb.width) ∧ (0 ≤ v ∧ v < cb.height) ∧ i = u ∧ j = level.height - 1 - v := by
    simp only [Region.copy, copyPixels, if_pos block, Transfer.Moves]
  have ⟨_, _, ⟨_, _⟩, ⟨_, _⟩, _, _, ⟨_, _⟩, ⟨_, _⟩, inside, inside'⟩ := checked
  rw [xoffset, zero_add, wrap32_of_bounds (by omega) (by omega)] at inside
  rw [yoffset, zero_add, wrap32_of_bounds (by omega) (by omega)] at inside'
  have origin : (cb.height - (r.y + r.height)) % 2 ^ 32 = 0 := by
    rw [wrap32_sub_right] at y
    unfold wrap32 at y
    rw [Int.bmod_def] at y
    split at y <;> omega
  constructor
  · intro right
    by_cases wide : cb.width = 0
    · exact .inl wide
    by_cases high : cb.height = 0
    · exact .inr (.inl high)
    obtain ⟨_, column, bottom, _, _, _⟩ := right (cb.width - 1) 0 _ _
      ((moves _ _ _ _).mpr ⟨by omega, by omega, rfl, rfl⟩)
    obtain ⟨_, _, top, _, _, _⟩ := right (cb.width - 1) (cb.height - 1) _ _
      ((moves _ _ _ _).mpr ⟨by omega, by omega, rfl, rfl⟩)
    exact .inr (.inr ⟨by omega, by omega⟩)
  · rintro (narrow | low | ⟨width, height⟩) u v i j moved
    · have := (moves u v i j).mp moved
      omega
    · have := (moves u v i j).mp moved
      omega
    · obtain ⟨column, row, rfl, rfl⟩ := (moves u v i j).mp moved
      exact ⟨⟨column, row⟩, by omega, by omega, by omega, by omega, by omega⟩

end Checked

structure Call.Words (call : Call) (cb level : GGLSurface) : Prop where
  x : -2 ^ 31 ≤ call.region.x ∧ call.region.x < 2 ^ 31
  y : -2 ^ 31 ≤ call.region.y ∧ call.region.y < 2 ^ 31
  extents : call.region.width < 2 ^ 31 ∧ call.region.height < 2 ^ 31
  offsets : call.region.xoffset < 2 ^ 31 ∧ call.region.yoffset < 2 ^ 31
  buffer : cb.width < 2 ^ 31 ∧ cb.height < 2 ^ 31
  texture : level.width < 2 ^ 31 ∧ level.height < 2 ^ 31

private theorem uint32_eq {x : Int} (positive : 0 ≤ x) (word : x < 2 ^ 31) :
    (Levels.uint32 x : Int) = x := by
  unfold Levels.uint32
  omega

theorem checked_of_accepted {call : Call} {cb level : GGLSurface} (words : call.Words cb level)
    (accepted : Accepted cb call level) : call.region.Checked cb level := by
  obtain ⟨x, y, extents, offsets, buffer, texture⟩ := words
  cases accepted with
  | texImage a alignment formatIdx data accepted =>
    have positive : 0 ≤ a.width ∧ 0 ≤ a.height := Coverage.copyTexImage_extents accepted
    have extents : a.width < 2 ^ 31 ∧ a.height < 2 ^ 31 := extents
    have width : (Levels.uint32 a.width : Int) = a.width := uint32_eq positive.1 extents.1
    have height : (Levels.uint32 a.height : Int) = a.height := uint32_eq positive.2 extents.2
    refine ⟨x, y, ⟨positive.1, extents.1⟩, ⟨positive.2, extents.2⟩, ⟨le_rfl, offsets.1⟩,
      ⟨le_rfl, offsets.2⟩, buffer, texture, ?_⟩
    change wrap32 (0 + a.width) ≤ Levels.uint32 a.width ∧
      wrap32 (0 + a.height) ≤ Levels.uint32 a.height
    rw [zero_add, zero_add, wrap32_of_bounds (by omega) extents.1,
      wrap32_of_bounds (by omega) extents.2, width, height]
    exact ⟨le_rfl, le_rfl⟩
  | texSubImage a o level accepted wide high fits =>
    have positive : (0 ≤ a.xoffset ∧ 0 ≤ a.yoffset) ∧ 0 ≤ a.width ∧ 0 ≤ a.height := by
      unfold CopyTexSubImage.reject at accepted
      split_ifs at accepted with target negative
      · exact absurd accepted (by decide)
      · exact absurd accepted (by decide)
      · omega
    have inside : wrap32 (a.xoffset + a.width) ≤ level.width ∧
        wrap32 (a.yoffset + a.height) ≤ level.height := by
      unfold CopyTexSubImage.refuse at fits
      split_ifs at fits with format outside
      · exact absurd fits (by decide)
      · exact absurd fits (by decide)
      · omega
    exact ⟨x, y, ⟨positive.2.1, extents.1⟩, ⟨positive.2.2, extents.2⟩,
      ⟨positive.1.1, offsets.1⟩, ⟨positive.1.2, offsets.2⟩, buffer, texture, inside⟩

/-- The copy of an accepted call is right exactly where its region is. -/
theorem copiesRight_iff {call : Call} {cb level : GGLSurface} (words : call.Words cb level)
    (accepted : Accepted cb call level) (row clampIterator : Bool) :
    call.region.CopiesRight cb level (.nearest row clampIterator) ↔
      call.region.Right cb level (.nearest row clampIterator) := by
  have checked := checked_of_accepted words accepted
  unfold Region.Right
  split
  next block => exact block_iff checked block _
  next rectangle => exact rectangle_iff checked rectangle row clampIterator

structure Region.Ordinary (r : Region) (cb level : GGLSurface) : Prop where
  x : r.x + r.width < 2 ^ 31
  y : -2 ^ 30 ≤ r.y
  inside : r.xoffset + r.width ≤ level.width ∧ r.yoffset + r.height ≤ level.height
  buffer : cb.width < 2 ^ 15 ∧ cb.height < 2 ^ 15
  texture : level.width < 2 ^ 15 ∧ level.height < 2 ^ 15
  forward : 0 ≤ cb.stride ∧ 0 ≤ level.stride

/-- With ordinary sizes a copy is right when nothing is left of it, or when it starts in the colour
buffer, does not reach above it, and has as many rows of the texture above it as below. -/
theorem right_iff_of_ordinary {r : Region} {cb level : GGLSurface} (checked : r.Checked cb level)
    (ordinary : r.Ordinary cb level) (row clampIterator : Bool) :
    r.Right cb level (.nearest row clampIterator) ↔
      min r.width (cb.width - r.x) ≤ 0 ∨ min r.height (r.y + r.height) ≤ 0 ∨
        (0 ≤ r.x ∧ r.y + r.height ≤ cb.height ∧ level.height = r.height + 2 * r.yoffset) := by
  obtain ⟨x, y, ⟨inside, inside'⟩, ⟨cbWidth, cbHeight⟩, ⟨width, height⟩, forward⟩ := ordinary
  have ⟨_, _, ⟨_, _⟩, ⟨_, _⟩, ⟨_, _⟩, ⟨_, _⟩, _, _, _⟩ := checked
  have turned : ¬samePixels { level with stride := -level.stride } r.xoffset r.yoffset cb r.x
      (wrap32 (cb.height - wrap32 (r.y + r.height))) := by
    simp only [samePixels, Bool.and_eq_true, decide_eq_true_eq]
    omega
  have columns : r.columns cb level = min r.width (cb.width - r.x) := by
    unfold Region.columns drawn kept
    omega
  have rows : r.rows cb level = if r.y < 0 then r.y + r.height else r.height := by
    unfold Region.rows drawn keptAbove
    split <;> split <;> omega
  have off : rowsOff cb = 0 := if_neg (by omega)
  have distance : r.rowDistance cb level = r.yoffset + cb.height - r.y - level.height := rfl
  unfold Region.Right
  rw [if_neg turned, columns]
  constructor
  · rintro (narrow | low | ⟨⟨left, _, _, _⟩, ⟨top, _, _, within, _, whole, _⟩⟩)
    · exact .inl narrow
    · refine .inr (.inl ?_)
      split at rows <;> omega
    · exact .inr (.inr ⟨left, by omega, by omega⟩)
  · rintro (narrow | low | ⟨left, above, half⟩)
    · exact .inl narrow
    · refine .inr (.inl ?_)
      split at rows <;> omega
    · by_cases narrow : min r.width (cb.width - r.x) ≤ 0
      · exact .inl narrow
      by_cases low : r.rows cb level ≤ 0
      · exact .inr (.inl low)
      have below : r.rows cb level ≤ r.y + r.height := by split at rows <;> omega
      have fewer : r.rows cb level ≤ r.height := by split at rows <;> omega
      refine .inr (.inr ⟨⟨left, by omega, by omega, ?_⟩,
        ⟨by omega, by omega, by omega, by omega, by omega, by omega, ?_⟩⟩)
      all_goals cases row <;> dsimp only [Region.fits] <;> omega

/-- Two by two pixels, copied as a square of this side from the column `x` on. -/
def square : GGLSurface := { width := 2, height := 2, stride := 2, format := 1 }

def copySquare (x side : Int) : Call := .texSubImage ⟨GL.texture2D, 0, 0, 0, x, 0, side, side⟩

private def rgba : Units.TextureObject := { internalformat := GL.rgba }

private theorem copySquare_accepted : Accepted square (copySquare 0 2) square ∧
    Accepted square (copySquare (-1) 2) square :=
  ⟨.texSubImage _ rgba _ (by decide) (by decide) (by decide) (by decide),
    .texSubImage _ rgba _ (by decide) (by decide) (by decide) (by decide)⟩

private theorem copySquare_words : (copySquare 0 2).Words square square ∧
    (copySquare (-1) 2).Words square square :=
  ⟨⟨by decide, by decide, by decide, by decide, by decide, by decide⟩,
    ⟨by decide, by decide, by decide, by decide, by decide, by decide⟩⟩

theorem copiesRight_square :
    (copySquare 0 2).region.CopiesRight square square (.nearest false false) :=
  (copiesRight_iff copySquare_words.1 copySquare_accepted.1 false false).mpr
    ((right_iff_of_ordinary (checked_of_accepted copySquare_words.1 copySquare_accepted.1)
      ⟨by decide, by decide, by decide, by decide, by decide, by decide⟩ false false).mpr
      (by decide))

/-- A square that begins left of the colour buffer has its first column read from outside of it. -/
theorem leftOfBuffer_copied :
    ¬∀ (call : Call) (cb level : GGLSurface), call.Words cb level → Accepted cb call level →
      ∀ row clampIterator, call.region.CopiesRight cb level (.nearest row clampIterator) := by
  intro always
  have right := always (copySquare (-1) 2) square square copySquare_words.2
    copySquare_accepted.2 false false
  have checked := checked_of_accepted copySquare_words.2 copySquare_accepted.2
  rcases (rectangle_iff checked (by decide) false false).mp right with
    narrow | low | ⟨⟨left, _⟩, _⟩
  · exact absurd narrow (by decide)
  · exact absurd low (by decide)
  · exact absurd left (by decide)

end RabbitRender.Textures.FramebufferCopies
