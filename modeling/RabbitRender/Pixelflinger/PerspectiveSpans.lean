/- RabbitRender/Pixelflinger/PerspectiveSpans
   layer: model and proofs
   source: libpixelflinger/scanline.cpp
   digest: The perspective scanlines, the spans they draw with the inner scanline, and that these
     cover the line once and in order. -/

import RabbitRender.Arrays.Gradients
import RabbitRender.Pixelflinger.Stepping

set_option autoImplicit false

namespace RabbitRender.Pixelflinger.PerspectiveSpans

open Fixed Pixelflinger.State Pixelflinger.Stepping
open Arrays.Gradients (mulx)
open Textures.TexelFetch (rescale)

/-- A call of `c->span`: the bounds and the texture iterators it finds. -/
structure Span where
  xl : Int
  xr : Int
  texIterators : Fin 2 → Coord → CoordIterators

/-- An element of `st` in `tc`: a coordinate and what the division by `w` makes of it. -/
structure Chain where
  v : Int
  q : Int

structure Progress where
  xl : Int
  w : Int
  tc : Fin 2 → Coord → Chain
  texIterators : Fin 2 → Coord → CoordIterators

/-- `1 << SPAN_BITS`. -/
def spanLength : Nat := 32

/-- The scale of the reciprocal of the first `w`, in bits. -/
def iwscale (w : Int) : Int := 32 - clz32 (gglRecipQ w 30)

def firstValue (d : CoordShade) (xs ys : Int) : Int :=
  wrap32 (d.v + d.dy * ys + d.dx * xs + wrap32 (d.dx + d.dy) >>> (1 : Nat))

def firstChain (d : CoordShade) (xs ys w : Int) : Chain where
  v := firstValue d xs ys
  q := mulx (firstValue d xs ys) (gglRecipQ w 30) (iwscale w)

/-- A coordinate at the end of a span; `span` is 0 for those of the full length. -/
def nextChain (d : CoordShade) (tc : Chain) (iw scale span : Int) : Chain :=
  let v := wrap32 (tc.v + if span ≠ 0 then d.dx * span else d.dx * spanLength)
  ⟨v, mulx v iw scale⟩

/-- The iterators of a coordinate over the span that ends in `next`. -/
def spanIterators (ti : CoordIterators) (tc next : Chain) (scale span : Int) : CoordIterators :=
  let rise := wrap32 (next.q - tc.q)
  let dvdx := if span ≠ 0 then Int.tdiv rise span else rise >>> (5 : Nat)
  { ti with
    ydvdy := rescale tc.q (ti.scale + (scale - 30))
    dvdx := rescale dvdx (ti.scale + (scale - 30)) }

/-- One span for the units in `active`, and the call that draws it. -/
def drawSpan (m : Rasterizer) (active : Fin 2 → Bool) (scale span : Int) (p : Progress) :
    Progress × Span :=
  let length := if span ≠ 0 then span else spanLength
  let w := wrap32 (p.w + m.shade.w.dvdx * length)
  let iw := gglRecipQ w 30
  let next (i : Fin 2) (j : Coord) : Chain :=
    if active i then nextChain (m.texShade i j) (p.tc i j) iw scale span else p.tc i j
  let ti (i : Fin 2) (j : Coord) : CoordIterators :=
    if active i then spanIterators (p.texIterators i j) (p.tc i j) (next i j) scale span
    else p.texIterators i j
  (⟨p.xl + length, w, next, ti⟩, ⟨p.xl, p.xl + length, ti⟩)

/-- `w` at the first pixel. -/
def firstW (m : Rasterizer) : Int :=
  wrap32 (m.iterators.xl * m.shade.w.dvdx + m.iterators.ydwdy)

def firstProgress (m : Rasterizer) : Progress where
  xl := m.iterators.xl
  w := firstW m
  tc i j := firstChain (m.texShade i j) m.iterators.xl m.iterators.y (firstW m)
  texIterators := m.texIterators

/-- `xc`, a `uint32_t`. -/
def columnCount (m : Rasterizer) : Nat := ((m.iterators.xr - m.iterators.xl) % 2 ^ 32).toNat

/-- The loop of `scanline_perspective`: spans of the full length, and then what remains. -/
def perspectiveLoop (m : Rasterizer) (active : Fin 2 → Bool) (scale remainder : Int) :
    Nat → Progress → List Span
  | 0, p => if remainder ≠ 0 then [(drawSpan m active scale remainder p).2] else []
  | numSpans + 1, p =>
    let (next, span) := drawSpan m active scale 0 p
    span :: perspectiveLoop m active scale remainder numSpans next

def scanlinePerspective (m : Rasterizer) : List Span :=
  let remainder := columnCount m % spanLength
  let numSpans := columnCount m / spanLength
  perspectiveLoop m (fun i => (m.context.texture i).enable) (iwscale (firstW m)) remainder
    numSpans (firstProgress m)

/-- The loop of `scanline_perspective_single`. -/
def singleLoop (m : Rasterizer) (active : Fin 2 → Bool) (scale : Int) :
    Nat → Progress → List Span
  | 0, _ => []
  | numSpans + 1, p =>
    let (next, span) := drawSpan m active scale 0 p
    span :: singleLoop m active scale numSpans next

def singleUnit (c : Context) : Fin 2 := Fin.ofNat 2 (31 - gglClz c.enabledTmu.toNat)

/-- What remains is drawn first, or the whole line where `w` is constant. -/
def scanlinePerspectiveSingle (m : Rasterizer) : List Span :=
  let active (i : Fin 2) : Bool := i = singleUnit m.context
  let scale := iwscale (firstW m)
  let (premainder, numSpans) :=
    if m.shade.w.dvdx = 0 then (wrap32 (columnCount m), 0)
    else ((columnCount m % spanLength : Nat), columnCount m / spanLength)
  if m.shade.w.dvdx = 0 ∨ premainder ≠ 0 then
    let (next, span) := drawSpan m active scale premainder (firstProgress m)
    span :: singleLoop m active scale numSpans next
  else singleLoop m active scale numSpans (firstProgress m)

/-- The pixels from `xl` up to `xr`, not included. -/
def columns (xl xr : Int) : List Int := (List.range (xr - xl).toNat).map fun k : Nat => xl + k

theorem columns_append {x y z : Int} (low : x ≤ y) (high : y ≤ z) :
    columns x y ++ columns y z = columns x z := by
  have total : (z - x).toNat = (y - x).toNat + (z - y).toNat := by omega
  unfold columns
  rw [total, List.range_add, List.map_append, List.map_map]
  congr 1
  apply List.map_congr_left
  intro k _
  simp only [Function.comp_apply]
  push_cast
  omega

/-- None of the spans is empty, and their pixels are those of the line, once each and in order. -/
structure Partitions (xl xr : Int) (spans : List Span) : Prop where
  nonempty : ∀ s ∈ spans, s.xl < s.xr
  pixels : spans.flatMap (fun s => columns s.xl s.xr) = columns xl xr

theorem partitions_nil (x : Int) : Partitions x x [] := ⟨by simp, by simp [columns]⟩

theorem partitions_cons {xl xr : Int} {s : Span} {rest : List Span} (left : s.xl = xl)
    (wide : s.xl < s.xr) (high : s.xr ≤ xr) (h : Partitions s.xr xr rest) :
    Partitions xl xr (s :: rest) where
  nonempty := by
    intro t mem
    rcases List.mem_cons.mp mem with rfl | mem
    · exact wide
    · exact h.nonempty t mem
  pixels := by
    subst left
    rw [List.flatMap_cons, h.pixels]
    exact columns_append wide.le high

section

variable (m : Rasterizer) (active : Fin 2 → Bool) (scale : Int)

private theorem drawSpan_full (p : Progress) :
    (drawSpan m active scale 0 p).1.xl = p.xl + spanLength := rfl

variable {span : Int}

private theorem drawSpan_part (part : span ≠ 0) (p : Progress) :
    (drawSpan m active scale span p).1.xl = p.xl + span := by
  simp only [drawSpan, if_pos part]

private theorem partitions_span {p : Progress} {xr : Int} {rest : List Span}
    (wide : p.xl < (drawSpan m active scale span p).1.xl)
    (high : (drawSpan m active scale span p).1.xl ≤ xr)
    (h : Partitions (drawSpan m active scale span p).1.xl xr rest) :
    Partitions p.xl xr ((drawSpan m active scale span p).2 :: rest) := by
  have left : (drawSpan m active scale span p).2.xl = p.xl := rfl
  have right : (drawSpan m active scale span p).2.xr =
      (drawSpan m active scale span p).1.xl := rfl
  apply partitions_cons left
  · rw [left, right]
    exact wide
  · rw [right]
    exact high
  · rw [right]
    exact h

theorem perspectiveLoop_partitions {remainder : Int} (rest : 0 ≤ remainder) (numSpans : Nat)
    (p : Progress) :
    Partitions p.xl (p.xl + numSpans * spanLength + remainder)
      (perspectiveLoop m active scale remainder numSpans p) := by
  induction numSpans generalizing p with
  | zero =>
    unfold perspectiveLoop
    by_cases part : remainder ≠ 0
    · rw [if_pos part]
      have stop := drawSpan_part m active scale part p
      have last : p.xl + (0 : Nat) * spanLength + remainder =
          (drawSpan m active scale remainder p).1.xl := by
        rw [stop]
        omega
      rw [last]
      exact partitions_span m active scale (by omega) le_rfl (partitions_nil _)
    · rw [if_neg part]
      have whole : p.xl + (0 : Nat) * spanLength + remainder = p.xl := by omega
      rw [whole]
      exact partitions_nil _
  | succ numSpans ih =>
    have stop := drawSpan_full m active scale p
    have tail := ih (drawSpan m active scale 0 p).1
    have last : (drawSpan m active scale 0 p).1.xl + numSpans * spanLength + remainder =
        p.xl + (numSpans + 1 : Nat) * spanLength + remainder := by
      rw [stop]
      push_cast
      ring
    rw [last] at tail
    have length : spanLength = 32 := rfl
    rw [length] at stop tail ⊢
    exact partitions_span m active scale (by omega) (by omega) tail

theorem singleLoop_eq (numSpans : Nat) (p : Progress) :
    singleLoop m active scale numSpans p = perspectiveLoop m active scale 0 numSpans p := by
  induction numSpans generalizing p with
  | zero => rfl
  | succ numSpans ih => exact congrArg (_ :: ·) (ih _)

theorem singleLoop_partitions (numSpans : Nat) (p : Progress) :
    Partitions p.xl (p.xl + numSpans * spanLength) (singleLoop m active scale numSpans p) := by
  rw [singleLoop_eq, ← Int.add_zero (p.xl + numSpans * spanLength)]
  exact perspectiveLoop_partitions m active scale le_rfl numSpans p

theorem partFirst_partitions (pos : 0 < span) (numSpans : Nat) (p : Progress) :
    Partitions p.xl (p.xl + span + numSpans * spanLength)
      ((drawSpan m active scale span p).2 ::
        singleLoop m active scale numSpans (drawSpan m active scale span p).1) := by
  have stop := drawSpan_part m active scale pos.ne' p
  have tail := singleLoop_partitions m active scale numSpans (drawSpan m active scale span p).1
  have length : spanLength = 32 := rfl
  rw [length] at tail ⊢
  apply partitions_span
  · omega
  · omega
  · rw [stop] at tail ⊢
    exact tail

end

private theorem columnCount_eq {m : Rasterizer} (wide : m.iterators.xl < m.iterators.xr)
    (fits : m.iterators.xr - m.iterators.xl < 2 ^ 31) :
    (columnCount m : Int) = m.iterators.xr - m.iterators.xl := by
  unfold columnCount
  omega

theorem perspective_partitions {m : Rasterizer} (wide : m.iterators.xl < m.iterators.xr)
    (fits : m.iterators.xr - m.iterators.xl < 2 ^ 31) :
    Partitions m.iterators.xl m.iterators.xr (scanlinePerspective m) := by
  have count := columnCount_eq wide fits
  have length : spanLength = 32 := rfl
  have spans := perspectiveLoop_partitions m (fun i => (m.context.texture i).enable)
    (iwscale (firstW m)) (Int.natCast_nonneg (columnCount m % spanLength))
    (columnCount m / spanLength) (firstProgress m)
  have last : m.iterators.xl + (columnCount m / spanLength : Nat) * spanLength +
      (columnCount m % spanLength : Nat) = m.iterators.xr := by
    rw [length]
    omega
  have first : (firstProgress m).xl = m.iterators.xl := rfl
  rw [first, last] at spans
  exact spans

theorem single_partitions {m : Rasterizer} (wide : m.iterators.xl < m.iterators.xr)
    (fits : m.iterators.xr - m.iterators.xl < 2 ^ 31) :
    Partitions m.iterators.xl m.iterators.xr (scanlinePerspectiveSingle m) := by
  have count := columnCount_eq wide fits
  have first : (firstProgress m).xl = m.iterators.xl := rfl
  have length : spanLength = 32 := rfl
  unfold scanlinePerspectiveSingle
  by_cases constant : m.shade.w.dvdx = 0
  · have whole : wrap32 (columnCount m) = m.iterators.xr - m.iterators.xl := by
      rw [count]
      exact wrap32_of_bounds (by omega) fits
    simp only [constant, true_or, if_true, whole]
    have spans := partFirst_partitions m (fun i => i = singleUnit m.context) (iwscale (firstW m))
      (sub_pos.mpr wide) 0 (firstProgress m)
    have last : m.iterators.xl + (m.iterators.xr - m.iterators.xl) + (0 : Nat) * spanLength =
        m.iterators.xr := by omega
    rw [first, last] at spans
    exact spans
  · simp only [constant, if_false, false_or]
    have last : m.iterators.xl + (columnCount m % spanLength : Nat) +
        (columnCount m / spanLength : Nat) * spanLength = m.iterators.xr := by
      rw [length]
      omega
    by_cases part : ((columnCount m % spanLength : Nat) : Int) ≠ 0
    · rw [if_pos part]
      have spans := partFirst_partitions m (fun i => i = singleUnit m.context)
        (iwscale (firstW m)) (lt_of_le_of_ne (Int.natCast_nonneg _) part.symm)
        (columnCount m / spanLength) (firstProgress m)
      rw [first, last] at spans
      exact spans
    · rw [if_neg part]
      have spans := singleLoop_partitions m (fun i => i = singleUnit m.context)
        (iwscale (firstW m)) (columnCount m / spanLength) (firstProgress m)
      rw [not_not.mp part, add_zero] at last
      rw [first, last] at spans
      exact spans

/-- Every line is drawn by spans that partition it, with one enabled unit or with more. -/
theorem spans_partition {m : Rasterizer} (wide : m.iterators.xl < m.iterators.xr)
    (fits : m.iterators.xr - m.iterators.xl < 2 ^ 31) :
    Partitions m.iterators.xl m.iterators.xr (scanlinePerspective m) ∧
      Partitions m.iterators.xl m.iterators.xr (scanlinePerspectiveSingle m) :=
  ⟨perspective_partitions wide fits, single_partitions wide fits⟩

private def lineRasterizer : Rasterizer where
  context := gglEnableTexture2d initContext true
  shade :=
    { a := ⟨0, 0, 0⟩, r := ⟨0, 0, 0⟩, g := ⟨0, 0, 0⟩, b := ⟨0, 0, 0⟩, z := ⟨0, 0, 0⟩
      w := ⟨0x10000, 16, 0⟩, f := ⟨0, 0, 0⟩ }
  texShade _ _ := ⟨0, 0x100, 0, 0⟩
  iterators := ⟨3, 100, 0, 0, 0, 0, 0, 0, 0x10000, 0⟩
  texIterators _ _ := ⟨0, 0, 0, 0⟩
  packed := 0
  packed8888 := 0
  rect := .generic

theorem spans_partition_line :
    Partitions 3 100 (scanlinePerspective lineRasterizer) ∧
      Partitions 3 100 (scanlinePerspectiveSingle lineRasterizer) :=
  spans_partition (m := lineRasterizer) (by decide) (by decide)

end RabbitRender.Pixelflinger.PerspectiveSpans
