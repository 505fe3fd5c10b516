/- RabbitRender/Textures/DrawTex
   layer: theorem
   source: swrender/texture.cpp, include/ggl_fixed.h
   digest: The rectangles of glDrawTex and the coordinates of the units, and when a size is divided
     by that has no whole pixel left. -/

import RabbitRender.Arrays.VertexArrays
import RabbitRender.Drawing.Machine
import RabbitRender.Pixelflinger.Calls

set_option autoImplicit false

namespace RabbitRender.Textures.DrawTex

open Arrays.VertexArrays (gglIntToFixed)
open Drawing.Machine (isEmpty)
open Fixed
open Pixelflinger.Calls (unitMask)

def gglFixedToIntRound (f : Int) : Int := wrap32 (f + 0x8000) >>> (16 : Nat)

/-- Division of `int`: by zero there is no result, and the one quotient that does not fit wraps. -/
def divide (a b : Int) : Option Int := if b = 0 then none else some (wrap32 (a.tdiv b))

structure CropRect where
  u : Int
  v : Int
  w : Int
  h : Int

structure Placement where
  x : Int
  y : Int
  z : Int
  w : Int
  h : Int

/-- The arguments of `recti`. -/
structure Rect where
  l : Int
  t : Int
  r : Int
  b : Int
deriving DecidableEq, Repr

/-- The coordinates of a unit at the origin, and their steps to the right and downwards. The other
entries of `texcoords` are zero. -/
structure Texcoords where
  s0 : Int
  dsdx : Int
  t0 : Int
  dtdy : Int
deriving DecidableEq, Repr

/-- What a call reads: the units that are enabled and the crop rectangles of their textures, the
size of the texture of the first one, and the height of the color buffer. -/
structure Setting where
  enable : Fin 2 → Bool
  cropRect : Fin 2 → CropRect
  width : Nat
  height : Nat
  cbHeight : Nat

inductive Outcome where
  | nothing
  /-- One texel is copied to each pixel, from the texel that belongs to the origin on. -/
  | copied (s0 t0 z : Int) (rect : Rect)
  | scaled (texcoords : Fin 2 → Option Texcoords) (z : Int) (rect : Rect)

/-- The coordinates of one unit; `w` and `h` are in pixels, `y` is counted from the top. -/
def texcoords (c : CropRect) (x y w h : Int) : Option Texcoords := do
  let ucr := gglIntToFixed c.u
  let vcr := gglIntToFixed c.v
  let wcr := gglIntToFixed c.w
  let hcr := gglIntToFixed c.h
  let dsdx ← divide wcr w
  let dtdy ← divide (wrap32 (-hcr)) h
  some
    { s0 := wrap32 (ucr - gglMulx dsdx x 16)
      dsdx := dsdx
      t0 := wrap32 (wrap32 (vcr + hcr) - gglMulx dtdy y 16)
      dtdy := dtdy }

def Setting.unit (s : Setting) (i : Fin 2) (x y w h : Int) : Option (Option Texcoords) :=
  if s.enable i then (texcoords (s.cropRect i) x y w h).map some else some none

def Setting.drawTexxOESImp (s : Setting) (p : Placement) : Option Outcome := do
  let y := wrap32 (gglIntToFixed s.cbHeight - wrap32 (p.y + p.h))
  let w := p.w >>> (16 : Nat)
  let h := p.h >>> (16 : Nat)
  let unit0 ← s.unit 0 p.x y w h
  let unit1 ← s.unit 1 p.x y w h
  let l := gglFixedToIntRound p.x
  let t := gglFixedToIntRound y
  some (.scaled ![unit0, unit1] p.z ⟨l, t, wrap32 (l + w), wrap32 (t + h)⟩)

def Setting.drawTexxOES (s : Setting) (p : Placement) : Option Outcome :=
  if isEmpty p.w p.h then some .nothing else s.drawTexxOESImp p

def Placement.toFixed (p : Placement) : Placement :=
  ⟨gglIntToFixed p.x, gglIntToFixed p.y, gglIntToFixed p.z, gglIntToFixed p.w, gglIntToFixed p.h⟩

/-- Only the first unit is enabled, and the crop rectangle is as large as the destination and
upside down. -/
def Setting.OneToOne (s : Setting) (w h : Int) : Prop :=
  unitMask s.enable = 1 ∧ w = (s.cropRect 0).w ∧ h = wrap32 (-(s.cropRect 0).h)

instance (s : Setting) (w h : Int) : Decidable (s.OneToOne w h) :=
  inferInstanceAs (Decidable (_ ∧ _ ∧ _))

/-- The end of the copied texels lies beyond the texture; the sums are taken as `uint32_t`. -/
def Setting.outside (s : Setting) (s0 t0 x y w h : Int) : Bool :=
  s.width < (s0 + x + w) % 2 ^ 32 || s.height < (t0 + y + h) % 2 ^ 32

def Setting.drawTexiOES (s : Setting) (p : Placement) : Option Outcome :=
  let c := s.cropRect 0
  if s.OneToOne p.w p.h then
    if isEmpty p.w p.h then some .nothing
    else
      let y := wrap32 (s.cbHeight - wrap32 (p.y + p.h))
      let s0 := wrap32 (c.u - p.x)
      let t0 := wrap32 (wrap32 (c.v + c.h) - y)
      -- the slow case counts from the top what already does
      if s.outside s0 t0 p.x y p.w p.h then s.drawTexxOESImp { p with y := y }.toFixed
      else
        some (.copied s0 t0 (gglIntToFixed p.z)
          ⟨p.x, y, wrap32 (p.x + p.w), wrap32 (y + p.h)⟩)
  else s.drawTexxOESImp p.toFixed

/-- `glDrawTexx` and `glDrawTexf`, whose arguments are converted to 16.16 first, and `glDrawTexi`
and `glDrawTexs`; a vector form passes its elements on. -/
inductive Call where
  | fixed (p : Placement)
  | integer (p : Placement)

def Setting.run (s : Setting) : Call → Option Outcome
  | .fixed p => s.drawTexxOES p
  | .integer p => s.drawTexiOES p

def Setting.Undivided (s : Setting) : Call → Prop
  | .fixed p => isEmpty p.w p.h
  | .integer p => s.OneToOne p.w p.h ∧
      (isEmpty p.w p.h ∨
        ¬s.outside (wrap32 ((s.cropRect 0).u - p.x))
          (wrap32 (wrap32 ((s.cropRect 0).v + (s.cropRect 0).h) -
            wrap32 (s.cbHeight - wrap32 (p.y + p.h))))
          p.x (wrap32 (s.cbHeight - wrap32 (p.y + p.h))) p.w p.h)

/-- Both sizes keep a whole pixel: a fixed one is at least one pixel, and the low half of an
integer one, which is all that its conversion to 16.16 keeps, is not zero. -/
def Call.WholePixels : Call → Prop
  | .fixed p => 0x10000 ≤ p.w ∧ 0x10000 ≤ p.h
  | .integer p => p.w % 0x10000 ≠ 0 ∧ p.h % 0x10000 ≠ 0

private theorem divide_isSome (a b : Int) : (divide a b).isSome ↔ b ≠ 0 := by
  unfold divide
  split <;> simp_all

private theorem texcoords_isSome (c : CropRect) (x y w h : Int) :
    (texcoords c x y w h).isSome ↔ w ≠ 0 ∧ h ≠ 0 := by
  have toRight := divide_isSome (gglIntToFixed c.w) w
  have down := divide_isSome (wrap32 (-gglIntToFixed c.h)) h
  unfold texcoords
  cases first : divide (gglIntToFixed c.w) w with
  | none => simp_all
  | some dsdx =>
    cases second : divide (wrap32 (-gglIntToFixed c.h)) h with
    | none => simp_all
    | some dtdy => simp_all

private theorem unit_isSome (s : Setting) (i : Fin 2) (x y w h : Int) :
    (s.unit i x y w h).isSome ↔ s.enable i = false ∨ (w ≠ 0 ∧ h ≠ 0) := by
  unfold Setting.unit
  split
  next on => simp [on, texcoords_isSome]
  next off => exact iff_of_true rfl (.inl (by simpa using off))

private theorem drawTexxOESImp_isSome (s : Setting) (p : Placement) :
    (s.drawTexxOESImp p).isSome ↔
      (∀ i, s.enable i = false) ∨ (p.w >>> (16 : Nat) ≠ 0 ∧ p.h >>> (16 : Nat) ≠ 0) := by
  have first := unit_isSome s 0 p.x (wrap32 (gglIntToFixed s.cbHeight - wrap32 (p.y + p.h)))
    (p.w >>> (16 : Nat)) (p.h >>> (16 : Nat))
  have second := unit_isSome s 1 p.x (wrap32 (gglIntToFixed s.cbHeight - wrap32 (p.y + p.h)))
    (p.w >>> (16 : Nat)) (p.h >>> (16 : Nat))
  have both : (s.drawTexxOESImp p).isSome ↔
      (s.unit 0 p.x (wrap32 (gglIntToFixed s.cbHeight - wrap32 (p.y + p.h)))
        (p.w >>> (16 : Nat)) (p.h >>> (16 : Nat))).isSome ∧
      (s.unit 1 p.x (wrap32 (gglIntToFixed s.cbHeight - wrap32 (p.y + p.h)))
        (p.w >>> (16 : Nat)) (p.h >>> (16 : Nat))).isSome := by
    simp [Setting.drawTexxOESImp, Option.isSome_bind, Option.any_eq_true, Option.isSome_iff_exists]
  rw [both, first, second, Fin.forall_fin_two, ← and_or_right]

theorem gglIntToFixed_shift (i : Int) : gglIntToFixed i >>> (16 : Nat) = Int.bmod i (2 ^ 16) :=
  wrap32_shift i

private theorem gglIntToFixed_shift_eq_zero (i : Int) :
    gglIntToFixed i >>> (16 : Nat) ≠ 0 ↔ i % 0x10000 ≠ 0 := by
  rw [gglIntToFixed_shift, Int.bmod_def]
  split <;> omega

private theorem drawTexxOES_isSome (s : Setting) (p : Placement) :
    (s.drawTexxOES p).isSome ↔
      isEmpty p.w p.h ∨ (∀ i, s.enable i = false) ∨ (0x10000 ≤ p.w ∧ 0x10000 ≤ p.h) := by
  unfold Setting.drawTexxOES
  split
  next empty => exact iff_of_true rfl (.inl empty)
  next sized =>
    have nonneg : 0 ≤ p.w ∧ 0 ≤ p.h := by
      simp only [isEmpty, Bool.or_eq_true, decide_eq_true_eq] at sized
      omega
    have shifts : (p.w >>> (16 : Nat) ≠ 0 ∧ p.h >>> (16 : Nat) ≠ 0) ↔
        (0x10000 ≤ p.w ∧ 0x10000 ≤ p.h) := by
      rw [Int.shiftRight_eq_div_pow, Int.shiftRight_eq_div_pow]
      omega
    rw [drawTexxOESImp_isSome, shifts]
    exact (or_iff_right sized).symm

theorem drawTexxOESImp_toFixed_isSome (s : Setting) (p : Placement) :
    (s.drawTexxOESImp p.toFixed).isSome ↔
      (∀ i, s.enable i = false) ∨ (p.w % 0x10000 ≠ 0 ∧ p.h % 0x10000 ≠ 0) := by
  rw [drawTexxOESImp_isSome]
  exact or_congr_right
    (and_congr (gglIntToFixed_shift_eq_zero p.w) (gglIntToFixed_shift_eq_zero p.h))

private theorem drawTexiOES_isSome (s : Setting) (p : Placement) :
    (s.drawTexiOES p).isSome ↔
      s.Undivided (.integer p) ∨ (∀ i, s.enable i = false) ∨
        (p.w % 0x10000 ≠ 0 ∧ p.h % 0x10000 ≠ 0) := by
  unfold Setting.drawTexiOES Setting.Undivided
  by_cases matched : s.OneToOne p.w p.h
  · rw [if_pos matched]
    by_cases empty : isEmpty p.w p.h
    · rw [if_pos empty]
      exact iff_of_true rfl (.inl ⟨matched, .inl empty⟩)
    · rw [if_neg empty]
      dsimp only
      split
      next beyond =>
        rw [drawTexxOESImp_toFixed_isSome]
        simp [matched, empty, beyond]
      next inside => exact iff_of_true rfl (.inl ⟨matched, .inr inside⟩)
  · rw [if_neg matched, drawTexxOESImp_toFixed_isSome]
    simp [matched]

/-- No divisor is zero exactly when the call ends before a division, no unit is enabled, or both
sizes keep a whole pixel. -/
theorem drawTex_divides_iff (s : Setting) (call : Call) :
    (s.run call).isSome ↔
      s.Undivided call ∨ (∀ i, s.enable i = false) ∨ call.WholePixels := by
  cases call with
  | fixed p => exact drawTexxOES_isSome s p
  | integer p => exact drawTexiOES_isSome s p

/-- Half a pixel is no empty rectangle, and its width is divided by. -/
theorem halfPixel_divides_by_zero :
    ¬∀ (s : Setting) (call : Call), (s.run call).isSome := by
  intro total
  have half := total ⟨fun i => i = 0, fun _ => ⟨0, 0, 1, -1⟩, 1, 1, 1⟩
    (.fixed ⟨0, 0, 0, 0x8000, 0x10000⟩)
  exact absurd half (by decide)

end RabbitRender.Textures.DrawTex
