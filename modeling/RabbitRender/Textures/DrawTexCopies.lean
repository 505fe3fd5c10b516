/- RabbitRender/Textures/DrawTexCopies
   layer: theorem
   source: swrender/texture.cpp, libpixelflinger/trap.cpp, libpixelflinger/pixelflinger.cpp,
     libpixelflinger/scanline.cpp
   digest: When the rectangle that glDrawTex copies has the texels that the scaled one would
     have. -/

import RabbitRender.Textures.DrawTex
import RabbitRender.Textures.TexelFetch

set_option autoImplicit false

namespace RabbitRender.Textures.DrawTexCopies

open Arrays.VertexArrays (gglIntToFixed)
open Drawing.Machine (isEmpty)
open Fixed
open Pixelflinger.Calls (unitMask)
open Pixelflinger.State (Scissor)
open Textures.DrawTex Textures.TexelFetch

/-- What earlier calls left of the first unit. A unit that is not dirty has been validated, which
ends a 1:1 mapping. -/
structure Leftover where
  unit : TextureUnit
  dirty : Bool
  validated : dirty = false → unit.gen = .automatic

/-- What a call finds besides the placement: the active unit, whether the texture is complete, the
scanline that its filters and the pixel formats pick, and the scissor. -/
structure Scene where
  active : Fin 2
  complete : Bool
  pipe : Pipeline
  scissor : Scissor

/-- `texGeni` acts on the active unit, and the first one is made active only when it is dirty.
`texCoord2i` acts on the unit that is active when `glDrawTex` is called. -/
def copyUnit (c : Scene) (l : Leftover) (s0 t0 : Int) : TextureUnit :=
  let u := if l.dirty ∨ c.active = 0 then { l.unit with gen := .oneToOne } else l.unit
  if c.active = 0 then
    { u with
      s := { u.s with i0 := wrap32 (s0 * 2 ^ 16), scale := 0 }
      t := { u.t with i0 := wrap32 (t0 * 2 ^ 16), scale := 0 } }
  else u

/-- `validate_tmu`, which disables a texture that is not complete, the wrap modes, which are set on
the active unit, and `texCoordGradScale8xv`. -/
def scaleUnit (c : Scene) (l : Leftover) (coords : Texcoords) : Option TextureUnit :=
  if l.dirty ∧ c.complete = false then none
  else
    let gen := if l.dirty then .automatic else l.unit.gen
    let wrap (w : Wrap) := if l.dirty ∨ c.active = 0 then Wrap.clamp else w
    some
      { gen := gen
        s := ⟨coords.s0, coords.dsdx, 0, 0, wrap l.unit.s.wrap⟩
        t := ⟨coords.t0, 0, coords.dtdy, 0, wrap l.unit.t.wrap⟩ }

/-- The rectangle that `recti` draws of this one. -/
def clip (scissor : Scissor) (r : Rect) : Rect :=
  ⟨max r.l scissor.left, max r.t scissor.top, min r.r scissor.right, min r.b scissor.bottom⟩

/-- `recti` draws the pixel; the extents are differences of `int`. -/
def Drawn (scissor : Scissor) (r : Rect) (px py : Int) : Prop :=
  let c := clip scissor r
  (c.l ≤ px ∧ px < c.l + wrap32 (c.r - c.l)) ∧ c.t ≤ py ∧ py < c.t + wrap32 (c.b - c.t)

/-- The texels of the slow case at a pixel, if it gets that far and the unit stays enabled. -/
def slowFetch (s : Setting) (c : Scene) (l : Leftover) (p : Placement) (px py : Int) :
    Option (Fetch × Fetch) :=
  match s.drawTexxOESImp p.toFixed with
  | some (.scaled coords _ rect) =>
    ((coords 0).bind (scaleUnit c l)).map fun u =>
      u.fetch c.pipe s.width s.height (clip c.scissor rect).t px py
  | _ => none

/-- Whatever earlier calls left, the copy reads, at each pixel it draws, texels of the texture, and
the ones that the slow case takes. -/
def CopiesTexels (s : Setting) (c : Scene) (p : Placement) (s0 t0 : Int) (rect : Rect) : Prop :=
  ∀ (l : Leftover) (px py : Int), Drawn c.scissor rect px py →
    ∃ slow, slowFetch s c l p px py = some slow ∧
      let copy := (copyUnit c l s0 t0).fetch c.pipe s.width s.height (clip c.scissor rect).t px py
      copy.1.Agrees slow.1 s.width ∧ copy.2.Agrees slow.2 s.height

def top (s : Setting) (p : Placement) : Int := wrap32 (s.cbHeight - wrap32 (p.y + p.h))

def destination (s : Setting) (p : Placement) : Rect :=
  ⟨p.x, top s p, wrap32 (p.x + p.w), wrap32 (top s p + p.h)⟩

def originTexel (s : Setting) (p : Placement) : Int × Int :=
  ((s.cropRect 0).u - p.x, (s.cropRect 0).v + (s.cropRect 0).h - top s p)

private theorem only_first {enable : Fin 2 → Bool} (mask : unitMask enable = 1) :
    enable 0 = true ∧ enable 1 = false := by
  unfold unitMask at mask
  cases first : enable 0 <;> cases second : enable 1 <;> simp_all

variable {s : Setting} {p : Placement} {c : Scene} {px py : Int}

private theorem drawTexxOESImp_first (mask : unitMask s.enable = 1) (p : Placement) :
    s.drawTexxOESImp p =
      (texcoords (s.cropRect 0) p.x (wrap32 (gglIntToFixed s.cbHeight - wrap32 (p.y + p.h)))
        (p.w >>> (16 : Nat)) (p.h >>> (16 : Nat))).map fun coords =>
        .scaled ![some coords, none] p.z
          ⟨gglFixedToIntRound p.x,
            gglFixedToIntRound (wrap32 (gglIntToFixed s.cbHeight - wrap32 (p.y + p.h))),
            wrap32 (gglFixedToIntRound p.x + p.w >>> (16 : Nat)),
            wrap32 (gglFixedToIntRound
              (wrap32 (gglIntToFixed s.cbHeight - wrap32 (p.y + p.h))) + p.h >>> (16 : Nat))⟩ := by
  have ⟨on, off⟩ := only_first mask
  simp only [Setting.drawTexxOESImp, Setting.unit, on, off, if_true, Bool.false_eq_true, if_false]
  cases texcoords (s.cropRect 0) p.x
    (wrap32 (gglIntToFixed s.cbHeight - wrap32 (p.y + p.h))) (p.w >>> (16 : Nat))
    (p.h >>> (16 : Nat)) <;> rfl

private theorem drawTexxOESImp_ne_copied (s : Setting) (p : Placement) (s0 t0 z : Int)
    (rect : Rect) : s.drawTexxOESImp p ≠ some (.copied s0 t0 z rect) := by
  simp [Setting.drawTexxOESImp, Option.bind_eq_some_iff]

private theorem copied_cases {s0 t0 z : Int} {rect : Rect}
    (copied : s.drawTexiOES p = some (.copied s0 t0 z rect)) :
    s.OneToOne p.w p.h ∧ s0 = wrap32 ((s.cropRect 0).u - p.x) ∧
      t0 = wrap32 (wrap32 ((s.cropRect 0).v + (s.cropRect 0).h) - top s p) ∧
      rect = destination s p := by
  unfold Setting.drawTexiOES at copied
  by_cases matched : s.OneToOne p.w p.h
  · rw [if_pos matched] at copied
    by_cases empty : isEmpty p.w p.h
    · rw [if_pos empty] at copied
      simp at copied
    · rw [if_neg empty] at copied
      dsimp only at copied
      split at copied
      next beyond => exact absurd copied (drawTexxOESImp_ne_copied s _ _ _ _ _)
      next inside =>
        simp only [Option.some.injEq, Outcome.copied.injEq] at copied
        obtain ⟨rfl, rfl, rfl, rfl⟩ := copied
        exact ⟨matched, rfl, rfl, rfl⟩
  · rw [if_neg matched] at copied
    exact absurd copied (drawTexxOESImp_ne_copied s _ _ _ _ _)

private theorem gglIntToFixed_eq (i : Int) : gglIntToFixed i = low16 i * 2 ^ 16 := by
  unfold gglIntToFixed wrap32 low16
  rw [Int.bmod_def, Int.bmod_def]
  split <;> split <;> omega

private theorem divide_low16 {i : Int} (sized : low16 i ≠ 0) :
    divide (low16 i * 2 ^ 16) (low16 i) = some 0x10000 := by
  unfold divide
  rw [if_neg sized, Int.mul_tdiv_cancel_left _ sized]
  rfl

private theorem top_scaled (s : Setting) (p : Placement) :
    wrap32 (top s p * 2 ^ 16) = wrap32 ((s.cbHeight - (p.y + p.h)) * 2 ^ 16) := by
  rw [top, wrap32_mul_left, sub_mul, ← wrap32_sub_right, wrap32_mul_left, wrap32_sub_right, sub_mul]

private theorem texcoords_oneToOne (matched : s.OneToOne p.w p.h) (wide : low16 p.w ≠ 0)
    (high : low16 p.h ≠ 0) :
    ∃ coords, texcoords (s.cropRect 0) p.toFixed.x
        (wrap32 (gglIntToFixed s.cbHeight - wrap32 (p.toFixed.y + p.toFixed.h)))
        (p.toFixed.w >>> (16 : Nat)) (p.toFixed.h >>> (16 : Nat)) = some coords ∧
      coords.dsdx = 0x10000 ∧ coords.dtdy = 0x10000 ∧
      coords.s0 = wrap32 ((originTexel s p).1 * 2 ^ 16) ∧
      coords.t0 = wrap32 ((originTexel s p).2 * 2 ^ 16) := by
  have ⟨_, width, height⟩ := matched
  have right : divide (gglIntToFixed (s.cropRect 0).w) (low16 p.w) = some 0x10000 := by
    rw [← width, gglIntToFixed_eq]
    exact divide_low16 wide
  have down : divide (wrap32 (-gglIntToFixed (s.cropRect 0).h)) (low16 p.h) = some 0x10000 := by
    have negated : wrap32 (-gglIntToFixed (s.cropRect 0).h) = low16 p.h * 2 ^ 16 := by
      rw [height, gglIntToFixed_eq]
      unfold wrap32 low16
      rw [Int.bmod_def, Int.bmod_def, Int.bmod_def, Int.bmod_def]
      split <;> split <;> split <;> split <;> omega
    rw [negated]
    exact divide_low16 high
  refine ⟨⟨wrap32 (gglIntToFixed (s.cropRect 0).u - gglMulx 0x10000 p.toFixed.x 16), 0x10000,
    wrap32 (wrap32 (gglIntToFixed (s.cropRect 0).v + gglIntToFixed (s.cropRect 0).h) -
      gglMulx 0x10000
        (wrap32 (gglIntToFixed s.cbHeight - wrap32 (p.toFixed.y + p.toFixed.h))) 16), 0x10000⟩,
    ?_, rfl, rfl, ?_, ?_⟩
  · have toRight : p.toFixed.w >>> (16 : Nat) = low16 p.w := gglIntToFixed_shift p.w
    have downwards : p.toFixed.h >>> (16 : Nat) = low16 p.h := gglIntToFixed_shift p.h
    rw [toRight, downwards]
    simp only [texcoords, right, down]
    rfl
  · simp only [gglMulx_one, originTexel, Placement.toFixed, gglIntToFixed, wrap32_sub_left,
      wrap32_sub_right, sub_mul]
  · simp only [gglMulx_one, originTexel, Placement.toFixed, gglIntToFixed, wrap32_sub_left,
      wrap32_sub_right, wrap32_add_left, wrap32_add_right]
    rw [sub_mul _ (top s p), ← wrap32_sub_right _ (top s p * 2 ^ 16), top_scaled,
      wrap32_sub_right]
    congr 1
    ring

def copyAxis (a : Axis) (i : Int) : Axis := { a with i0 := wrap32 (i * 2 ^ 16), scale := 0 }

private theorem copyUnit_active (active : c.active = 0) (l : Leftover) (s0 t0 : Int) :
    copyUnit c l s0 t0 = ⟨.oneToOne, copyAxis l.unit.s s0, copyAxis l.unit.t t0⟩ := by
  simp only [copyUnit, active, or_true, if_true]
  rfl

private theorem low16_ne_zero (i : Int) : low16 i ≠ 0 ↔ i % 0x10000 ≠ 0 := by
  unfold low16
  rw [Int.bmod_def]
  split <;> omega

private theorem slowFetch_cases {l : Leftover} {slow : Fetch × Fetch} (matched : s.OneToOne p.w p.h)
    (sampled : slowFetch s c l p px py = some slow) :
    (l.dirty = true → c.complete = true) ∧ p.w % 0x10000 ≠ 0 ∧ p.h % 0x10000 ≠ 0 := by
  have ⟨on, _⟩ := only_first matched.1
  unfold slowFetch at sampled
  cases result : s.drawTexxOESImp p.toFixed with
  | none => simp [result] at sampled
  | some outcome =>
    have divided := (drawTexxOESImp_toFixed_isSome s p).mp (by rw [result]; rfl)
    refine ⟨?_, divided.resolve_left fun off => absurd (off 0) (by simp [on])⟩
    intro dirty
    by_contra incomplete
    have disabled (coords : Texcoords) : scaleUnit c l coords = none :=
      if_pos ⟨dirty, by simpa using incomplete⟩
    rw [result] at sampled
    cases outcome with
    | nothing => simp at sampled
    | copied s0 t0 z rect => simp at sampled
    | scaled coords z rect => simp [disabled] at sampled

private theorem slowFetch_weights {l : Leftover} (matched : s.OneToOne p.w p.h)
    (wide : low16 p.w ≠ 0) (high : low16 p.h ≠ 0) (complete : l.dirty = true → c.complete = true)
    (own : l.dirty = true ∨ c.active = 0) (px py : Int) :
    ∃ slow, slowFetch s c l p px py = some slow ∧
      slow.1.weights = [(c.pipe.clamped s.width (low16 ((originTexel s p).1 + px)), 16)] ∧
      slow.2.weights = [(c.pipe.clamped s.height (low16 ((originTexel s p).2 + py)), 16)] := by
  obtain ⟨coords, computed, right, down, s0, t0⟩ := texcoords_oneToOne matched wide high
  have enabled : ¬(l.dirty = true ∧ c.complete = false) := by
    rintro ⟨dirty, incomplete⟩
    rw [complete dirty] at incomplete
    exact absurd incomplete (by decide)
  have gen : (if l.dirty then TexGen.automatic else l.unit.gen) = .automatic := by
    split
    next dirty => rfl
    next clean => exact l.validated (by simpa using clean)
  have unit : scaleUnit c l coords =
      some ⟨.automatic, ⟨coords.s0, 0x10000, 0, 0, .clamp⟩,
        ⟨coords.t0, 0, 0x10000, 0, .clamp⟩⟩ := by
    simp only [scaleUnit, if_neg enabled, gen, own, if_true, right, down]
  have bounds := low16_bounds ((originTexel s p).1 + px)
  have bounds' := low16_bounds ((originTexel s p).2 + py)
  obtain ⟨z, rect, scaled⟩ : ∃ z rect, s.drawTexxOESImp p.toFixed =
      some (.scaled ![some coords, none] z rect) := by
    rw [drawTexxOESImp_first matched.1, computed]
    exact ⟨_, _, rfl⟩
  refine ⟨TextureUnit.fetch ⟨.automatic, ⟨coords.s0, 0x10000, 0, 0, .clamp⟩,
    ⟨coords.t0, 0, 0x10000, 0, .clamp⟩⟩ c.pipe s.width s.height (clip c.scissor rect).t px py,
    ?_, ?_, ?_⟩
  · simp only [slowFetch, scaled, Matrix.cons_val_zero, Option.bind_some, unit, Option.map_some]
  · exact fetch_clamped rfl bounds.1 bounds.2
      (iterator_right rfl rfl rfl rfl s0 _ px py) s.width px c.pipe
  · exact fetch_clamped rfl bounds'.1 bounds'.2
      (iterator_down rfl rfl rfl rfl t0 _ px py) s.height py c.pipe

private theorem slowFetch_dirty (s : Setting) (c : Scene) (p : Placement) (px py : Int)
    (l l' : Leftover) (dirty : l.dirty = true) (dirty' : l'.dirty = true) :
    slowFetch s c l p px py = slowFetch s c l' p px py := by
  have same (coords : Texcoords) : scaleUnit c l coords = scaleUnit c l' coords := by
    simp only [scaleUnit, dirty, dirty', true_or, true_and, if_true]
  have units : scaleUnit c l = scaleUnit c l' := funext same
  unfold slowFetch
  rw [units]

private def dirtyAt (k : Int) (wrap : Wrap) : Leftover where
  unit := ⟨.oneToOne, ⟨wrap32 (k * 2 ^ 16), 0, 0, 0, wrap⟩, ⟨0, 0, 0, 0, wrap⟩⟩
  dirty := true
  validated := by simp

private theorem active_of_copiesTexels {s0 t0 : Int} {rect : Rect}
    (copies : CopiesTexels s c p s0 t0 rect) (drawn : Drawn c.scissor rect px py) :
    c.active = 0 := by
  by_contra other
  obtain ⟨slow, sampled, agrees, _⟩ := copies (dirtyAt (-2 ^ 15 - px) .tiled) px py drawn
  obtain ⟨slow', sampled', agrees', _⟩ := copies (dirtyAt (-2 ^ 15 - px + 1) .tiled) px py drawn
  rw [slowFetch_dirty s c p px py _ (dirtyAt (-2 ^ 15 - px + 1) .tiled) rfl rfl, sampled',
    Option.some.injEq] at sampled
  have same := agrees.same.trans ((congrArg (fun f => f.1.weights) sampled.symm).trans
    agrees'.same.symm)
  simp only [copyUnit, if_neg other, dirtyAt, true_or, if_true, TextureUnit.fetch] at same
  exact mapped_weights_ne rfl rfl rfl rfl (by omega) _ _ _ _ _ same

private theorem start_right (s : Setting) (p : Placement) :
    wrap32 (wrap32 ((s.cropRect 0).u - p.x) * 2 ^ 16) = wrap32 ((originTexel s p).1 * 2 ^ 16) :=
  wrap32_mul_left _ _

private theorem start_down (s : Setting) (p : Placement) :
    wrap32 (wrap32 (wrap32 ((s.cropRect 0).v + (s.cropRect 0).h) - top s p) * 2 ^ 16) =
      wrap32 ((originTexel s p).2 * 2 ^ 16) := by
  rw [wrap32_sub_left, wrap32_mul_left]
  rfl

private theorem exact_of_copiesTexels
    (copies : CopiesTexels s c p (wrap32 ((s.cropRect 0).u - p.x))
      (wrap32 (wrap32 ((s.cropRect 0).v + (s.cropRect 0).h) - top s p)) (destination s p))
    (matched : s.OneToOne p.w p.h) (active : c.active = 0) (complete : c.complete = true)
    (wide : low16 p.w ≠ 0) (high : low16 p.h ≠ 0) (drawn : Drawn c.scissor (destination s p) px py) :
    c.pipe.Exact s.width (originTexel s p).1 px ∧
      c.pipe.Exact s.height (originTexel s p).2 py := by
  obtain ⟨slow, sampled, right, down⟩ := slowFetch_weights (l := dirtyAt 0 .clamp) matched wide
    high (fun _ => complete) (.inl rfl) px py
  have agrees (wrap : Wrap) :
      let copy := TextureUnit.fetch
        ⟨.oneToOne, copyAxis (dirtyAt 0 wrap).unit.s (wrap32 ((s.cropRect 0).u - p.x)),
          copyAxis (dirtyAt 0 wrap).unit.t
            (wrap32 (wrap32 ((s.cropRect 0).v + (s.cropRect 0).h) - top s p))⟩
        c.pipe s.width s.height (clip c.scissor (destination s p)).t px py
      copy.1.Agrees slow.1 s.width ∧ copy.2.Agrees slow.2 s.height := by
    obtain ⟨slow', sampled', copied⟩ := copies (dirtyAt 0 wrap) px py drawn
    rw [slowFetch_dirty s c p px py _ (dirtyAt 0 .clamp) rfl rfl, sampled,
      Option.some.injEq] at sampled'
    rw [copyUnit_active active, ← sampled'] at copied
    exact copied
  exact ⟨(mapped_agrees_iff (fun _ => start_right s p) (fun _ => rfl) s.width _ px py px
      c.pipe right).mp fun wrap => (agrees wrap).1,
    (mapped_agrees_iff (fun _ => start_down s p) (fun _ => rfl) s.height _ px py py
      c.pipe down).mp fun wrap => (agrees wrap).2⟩

/-- The copy has the texels of the slow case exactly when nothing is drawn, or the first unit is
active, its texture is complete, the sizes keep whole pixels, and every pixel has a texel that a
clamped coordinate reaches. -/
theorem copiesTexels_iff {s : Setting} {p : Placement} {s0 t0 z : Int} {rect : Rect}
    (copied : s.drawTexiOES p = some (.copied s0 t0 z rect)) (c : Scene) :
    CopiesTexels s c p s0 t0 rect ↔
      (∀ px py, ¬Drawn c.scissor (destination s p) px py) ∨
      (c.active = 0 ∧ c.complete = true ∧ p.w % 0x10000 ≠ 0 ∧ p.h % 0x10000 ≠ 0 ∧
        ∀ px py, Drawn c.scissor (destination s p) px py →
          c.pipe.Exact s.width (originTexel s p).1 px ∧
          c.pipe.Exact s.height (originTexel s p).2 py) := by
  obtain ⟨matched, rfl, rfl, rfl⟩ := copied_cases copied
  constructor
  · intro copies
    refine or_iff_not_imp_left.mpr fun notAll => ?_
    obtain ⟨px, notRow⟩ := not_forall.mp notAll
    obtain ⟨py, notNot⟩ := not_forall.mp notRow
    have drawn := not_not.mp notNot
    have active := active_of_copiesTexels copies drawn
    obtain ⟨slow, sampled, _⟩ := copies (dirtyAt 0 .clamp) px py drawn
    obtain ⟨complete, wide, high⟩ := slowFetch_cases matched sampled
    refine ⟨active, complete rfl, wide, high, fun px py drawn => ?_⟩
    exact exact_of_copiesTexels copies matched active (complete rfl)
      ((low16_ne_zero p.w).mpr wide) ((low16_ne_zero p.h).mpr high) drawn
  · rintro (nothing | ⟨active, complete, wide, high, exact⟩) l px py drawn
    · exact absurd drawn (nothing px py)
    · obtain ⟨slow, sampled, right, down⟩ := slowFetch_weights matched
        ((low16_ne_zero p.w).mpr wide) ((low16_ne_zero p.h).mpr high) (fun _ => complete)
        (.inr active) px py
      have ⟨toRight, downwards⟩ := exact px py drawn
      refine ⟨slow, sampled, ?_⟩
      rw [copyUnit_active active]
      exact ⟨(mapped_agrees_iff (fun _ => start_right s p) (fun _ => rfl) s.width _ px py px
          c.pipe (a := fun wrap => copyAxis { l.unit.s with wrap := wrap } _) right).mpr toRight
          l.unit.s.wrap,
        (mapped_agrees_iff (fun _ => start_down s p) (fun _ => rfl) s.height _ px py py
          c.pipe (a := fun wrap => copyAxis { l.unit.t with wrap := wrap } _) down).mpr downwards
          l.unit.t.wrap⟩

/-- One texel drawn to one pixel, from a crop rectangle that starts at `u`. -/
def onePixel (u : Int) : Setting := ⟨fun i => i = 0, fun _ => ⟨u, 1, 1, -1⟩, 1, 1, 1⟩

def oneScissor : Scissor := { right := 1, bottom := 1 }

theorem copiesTexels_onePixel :
    CopiesTexels (onePixel 0) ⟨0, true, .nearest true false, oneScissor⟩ ⟨0, 0, 0, 1, 1⟩ 0 0
      ⟨0, 0, 1, 1⟩ := by
  refine (copiesTexels_iff (s := onePixel 0) (p := ⟨0, 0, 0, 1, 1⟩) (z := 0) rfl
    ⟨0, true, .nearest true false, oneScissor⟩).mpr
    (.inr ⟨rfl, rfl, by decide, by decide, fun px py drawn => ?_⟩)
  have bounds : (0 ≤ px ∧ px < 1) ∧ 0 ≤ py ∧ py < 1 := drawn
  obtain rfl : px = 0 := by omega
  obtain rfl : py = 0 := by omega
  exact ⟨.inl (by decide), .inl (by decide)⟩

/-- A crop rectangle that starts left of the texture and ends in it. -/
theorem leftOfTexture_copied :
    ¬∀ (s : Setting) (c : Scene) (p : Placement) (s0 t0 z : Int) (rect : Rect),
      s.drawTexiOES p = some (.copied s0 t0 z rect) → CopiesTexels s c p s0 t0 rect := by
  intro always
  have copies := always (onePixel (-1)) ⟨0, true, .nearest true false, oneScissor⟩
    ⟨0, 0, 0, 1, 1⟩ (-1) 0 0 ⟨0, 0, 1, 1⟩ rfl
  have drawn : Drawn oneScissor ⟨0, 0, 1, 1⟩ 0 0 := by
    unfold Drawn
    decide
  obtain ⟨_, _, agrees, _⟩ := copies (dirtyAt 0 .clamp) 0 0 drawn
  have texel := agrees.inside (-1) (by decide)
  omega

end RabbitRender.Textures.DrawTexCopies
