/- RabbitRender/Pixelflinger/Overflows
   layer: proof
   source: libpixelflinger/scanline.cpp
   digest: For colour textures a stage of the pipeline that is not safe leaves a component outside its
     range, so the safe runs are those whose stages all stay in range. -/

import RabbitRender.Pixelflinger.Packing

set_option autoImplicit false

namespace RabbitRender.Pixelflinger.Overflows

open RabbitRender.GL (GLenum)
open Lib.GuardedRun Pixelflinger.Pixels Pixelflinger.Fragment Pixelflinger.Widths
open Pixelflinger.ComponentRange Pixelflinger.Packing

def colourSizes : List Nat := [1, 2, 3, 4, 5, 6, 8, 9, 10, 11, 12, 13, 14, 16]

variable {s : Nat} {x : TexUnit} {pixels : Pixel × Pixel}

theorem mem_colourSizes : s ∈ colourSizes ↔ s ∈ sizes ∧ s ≤ 16 := by
  simp only [colourSizes, sizes, List.mem_cons, List.not_mem_nil, or_false]
  omega

def Shaped (p : Pixel) : Prop := ∀ j, p.s j ∈ colourSizes

theorem Shaped.sized {p : Pixel} (shaped : Shaped p) (range : InRange p) : Sized p :=
  fun j => ⟨(mem_colourSizes.mp (shaped j)).1, range j⟩

/-- A unit with a colour texture. In DECAL mode a texture with alpha has the colours as well. -/
structure Coloured (x : TexUnit) : Prop where
  narrow : ∀ j, texelBits x j ≤ 16
  full : x.env = GGL.decal → texelBits x 0 ≠ 0 → ∀ j, texelBits x j ≠ 0

instance (x : TexUnit) : Decidable (Coloured x) :=
  decidable_of_iff
    ((∀ j, texelBits x j ≤ 16) ∧
      (x.env = GGL.decal → texelBits x 0 ≠ 0 → ∀ j, texelBits x j ≠ 0))
    ⟨fun h => ⟨h.1, h.2⟩, fun h => ⟨h.narrow, h.full⟩⟩

private theorem sz24_bits : 16 < formatBits Format.sz24 1 := by decide

theorem Coloured.noWideShift (h : Coloured x) : NoWideShift x := by
  intro depth
  have narrow := h.narrow 1
  unfold texelBits at narrow
  cases hs : x.sample with
  | nearest word => trivial
  | linear word00 word01 word10 word11 u v =>
    have wide := sz24_bits
    rw [← depth] at wide
    simp only [hs] at narrow
    rw [if_pos (by omega)] at narrow
    omega

theorem Coloured.size (h : Coloured x) (old : Pixel) (j : Component)
    (present : (fetch x old).s j ≠ 0) : (fetch x old).s j ∈ colourSizes := by
  rw [fetch_size] at present ⊢
  exact mem_colourSizes.mpr ⟨texelBits_sizes h.noWideShift present, h.narrow j⟩

theorem applyUnit_shaped (shaped : Shaped pixels.1) (coloured : Coloured x) :
    Shaped (applyUnit pixels x).1 :=
  applyUnit_size shaped fun j present =>
    mem_colourSizes.mpr ⟨texelBits_sizes coloured.noWideShift present, coloured.narrow j⟩

private theorem narrow_widens : ∀ a ∈ colourSizes, ∀ b ∈ colourSizes, a < b →
    Widens a b ∨ (a = 2 ∧ (b = 10 ∨ b = 14)) := by decide

private theorem two_expands : ∀ v < 4, gglExpand v 2 10 < 2 ^ 16 ∧ gglExpand v 2 14 < 2 ^ 16 := by
  decide

theorem gglExpand_narrow {v a b : Nat} (ha : a ∈ colourSizes) (hb : b ∈ colourSizes)
    (hv : v < 2 ^ a) (larger : a < b) : gglExpand v a b < 2 ^ 16 := by
  obtain widens | ⟨rfl, rfl | rfl⟩ := narrow_widens a ha b hb larger
  · exact (gglExpand_lt hv widens larger).trans_le
      (Nat.pow_le_pow_right (by decide) (mem_colourSizes.mp hb).2)
  · exact (two_expands v hv).1
  · exact (two_expands v hv).2

def Colour (component : Nat × Nat) : Prop :=
  component.2 ∈ colourSizes ∧ component.1 < 2 ^ component.2

theorem Colour.fits {component : Nat × Nat} (h : Colour component) : Fits component :=
  ⟨(mem_colourSizes.mp h.1).1, h.2⟩

theorem Colour.lt {component : Nat × Nat} (h : Colour component) : component.1 < 2 ^ 16 :=
  h.2.trans_le (Nat.pow_le_pow_right (by decide) (mem_colourSizes.mp h.1).2)

theorem rescale_narrow {f t : Nat × Nat} (hf : Colour f) (ht : Colour t) :
    (rescale f.1 f.2 t.1 t.2).1.1 < 2 ^ 16 ∧ (rescale f.1 f.2 t.1 t.2).2.1 < 2 ^ 16 := by
  unfold rescale
  split_ifs with _ smaller larger
  · exact ⟨hf.lt, gglExpand_narrow ht.1 hf.1 ht.2 smaller⟩
  · exact ⟨gglExpand_narrow hf.1 ht.1 hf.2 larger, ht.lt⟩
  · exact ⟨hf.lt, ht.lt⟩
  · exact ⟨hf.lt, ht.lt⟩

theorem u32_borrow {d factor : Nat} (positive : 0 < d * factor) (small : d * factor < 2 ^ 32) :
    u32 ((2 ^ 32 - d) * factor) = 2 ^ 32 - d * factor := by
  have factors : 1 ≤ factor := Nat.pos_of_mul_pos_left positive
  have turns : 2 ^ 32 * factor = 2 ^ 32 * (factor - 1) + 2 ^ 32 := by
    rw [← Nat.mul_succ, Nat.succ_eq_add_one, Nat.sub_add_cancel factors]
  have whole : (2 ^ 32 - d) * factor = 2 ^ 32 - d * factor + 2 ^ 32 * (factor - 1) := by
    rw [Nat.sub_mul]
    omega
  rw [u32, whole, Nat.add_mul_mod_self_left]
  exact Nat.mod_eq_of_lt (by omega)

/-- A subtraction that borrows puts the result beyond every colour: the quotient of what is left of
`2 ^ 32` is too large. -/
theorem decal_borrows {cf ct factor sat : Nat} (below : ct < cf) (hf : cf < 2 ^ s) (hs : s ≤ 16)
    (positive : 0 < factor) (high : factor ≤ 2 ^ sat) (one : 1 ≤ sat) (hsat : sat ≤ 16) :
    2 ^ s ≤ u32 (cf + u32 (sub32 ct cf * factor) >>> sat) := by
  have size : (2 : Nat) ^ s ≤ 2 ^ 16 := Nat.pow_le_pow_right (by decide) hs
  have alpha : (2 : Nat) ^ sat ≤ 2 ^ 16 := Nat.pow_le_pow_right (by decide) hsat
  have two : 2 ^ 1 ≤ 2 ^ sat := Nat.pow_le_pow_right (by decide) one
  obtain ⟨d, rfl⟩ := Nat.exists_eq_add_of_lt below
  have difference : sub32 ct (ct + d + 1) = 2 ^ 32 - (d + 1) := by
    rw [sub32, u32_eq]
    all_goals omega
  have product : (d + 1) * factor < 2 ^ 32 :=
    calc (d + 1) * factor ≤ (d + 1) * 2 ^ 16 := Nat.mul_le_mul_left _ (high.trans alpha)
      _ < 2 ^ 32 := by omega
  rw [difference, u32_borrow (Nat.mul_pos (by omega) positive) product,
    Nat.shiftRight_eq_div_pow]
  have room : 2 ^ 16 * 2 ^ sat ≤ 2 ^ 32 := Nat.mul_le_mul_left (2 ^ 16) alpha
  have share : (d + 1) * factor ≤ (d + 1) * 2 ^ sat := Nat.mul_le_mul_left _ high
  have low : 2 ^ 16 ≤ (2 ^ 32 - (d + 1) * factor) / 2 ^ sat + (d + 1) := by
    apply Nat.le_add_of_sub_le
    rw [Nat.le_div_iff_mul_le (by omega), Nat.sub_mul]
    omega
  have half : (2 ^ 32 - (d + 1) * factor) / 2 ^ sat ≤ 2 ^ 32 / 2 :=
    (Nat.div_le_div_left (c := 2) two (by decide)).trans
      (Nat.div_le_div_right (Nat.sub_le _ _))
  rw [u32_eq (by omega)]
  omega

theorem envComponent_add (color : Fin 256) (f t a : Nat × Nat) (present : t.2 ≠ 0) :
    (envComponent GGL.add color f t a).1 =
      (u32 ((rescale f.1 f.2 t.1 t.2).1.1 + (rescale f.1 f.2 t.1 t.2).2.1),
        (rescale f.1 f.2 t.1 t.2).1.2) := by
  simp [envComponent, present, GGL.add, GGL.replace, GGL.modulate, GGL.decal, GGL.blendEnv]

theorem envComponent_decal (color : Fin 256) (f t a : Nat × Nat) (alpha : a.2 ≠ 0) :
    (envComponent GGL.decal color f t a).1 =
      (u32 ((rescale f.1 f.2 t.1 t.2).1.1 +
          u32 (sub32 (rescale f.1 f.2 t.1 t.2).2.1 (rescale f.1 f.2 t.1 t.2).1.1 *
            scaled a.1 a.2) >>> a.2),
        (rescale f.1 f.2 t.1 t.2).1.2) := by
  simp [envComponent, alpha, GGL.replace, GGL.modulate, GGL.decal]

theorem safeComponent_of_lt {env : GLenum} {color : Fin 256} {f t a : Nat × Nat} (hf : Colour f)
    (ht : t.2 ≠ 0 → Colour t) (ha : a.2 ≠ 0 → Colour a ∧ (t.2 ≠ 0 → t.2 ∈ alphaSizes))
    (full : env = GGL.decal → a.2 ≠ 0 → t.2 ≠ 0)
    (kept : (envComponent env color f t a).1.1 < 2 ^ (envComponent env color f t a).1.2) :
    SafeComponent env f t a := by
  constructor
  · rintro rfl present
    have colours := rescale_narrow hf (ht present)
    rw [envComponent_add _ _ _ _ present] at kept
    dsimp only at kept
    rw [u32_eq (by omega)] at kept
    exact kept
  · rintro rfl alpha
    have present := full rfl alpha
    obtain ⟨colour, widens⟩ := ha alpha
    obtain ⟨fits, -⟩ := rescale_fits hf.fits (fun h => (ht h).fits) widens
    obtain ⟨one, -⟩ := sizes_bounds _ colour.fits.1
    by_contra unsafeTurn
    obtain ⟨factor, below⟩ := not_or.mp unsafeTurn
    rw [envComponent_decal _ _ _ _ alpha] at kept
    have size : (rescale f.1 f.2 t.1 t.2).1.2 ≤ 16 := by
      obtain own | ⟨-, texel⟩ := (rescale_sizes f t).1
      · exact own.trans_le (mem_colourSizes.mp hf.1).2
      · exact texel.trans_le (mem_colourSizes.mp (ht present).1).2
    have borrowed := decal_borrows (Nat.lt_of_not_le fun above => below ⟨present, above⟩) fits.2 size
      (Nat.pos_of_ne_zero factor) (scaled_le colour.fits.1 colour.2) one
      (mem_colourSizes.mp colour.1).2
    exact absurd kept (Nat.not_lt.mpr borrowed)

theorem fetch_colour (coloured : Coloured x) (old : Pixel) (j : Component)
    (present : (fetch x old).s j ≠ 0) : Colour (Pixel.get (fetch x old) j) :=
  ⟨coloured.size old j present, (fetch_fits coloured.noWideShift old j present).2⟩

theorem alphaAt_colour (shaped : Shaped pixels.1) (range : InRange pixels.1) (coloured : Coloured x)
    (j : Component) (present : (alphaAt x pixels.1 (fetch x pixels.2) j).2 ≠ 0) :
    Colour (alphaAt x pixels.1 (fetch x pixels.2) j) ∧
      ((fetch x pixels.2).s j ≠ 0 → (fetch x pixels.2).s j ∈ alphaSizes) ∧
      (fetch x pixels.2).s 0 ≠ 0 := by
  obtain ⟨fits, widens⟩ := alphaAt_fits (shaped.sized range) coloured.noWideShift j present
  have size : (alphaAt x pixels.1 (fetch x pixels.2) j).2 ∈ colourSizes ∧
      (fetch x pixels.2).s 0 ≠ 0 := by
    unfold alphaAt at present ⊢
    split_ifs at present ⊢
    · exact ⟨coloured.size _ _ present, present⟩
    · obtain own | ⟨nonzero, fragment⟩ := (envComponent_sizes x.env x.envColor
        (Pixel.get pixels.1 0) (Pixel.get (fetch x pixels.2) 0) (Pixel.get (fetch x pixels.2) 0)).2
      · rw [own] at present ⊢
        exact ⟨coloured.size _ _ present, present⟩
      · rw [fragment]
        exact ⟨shaped 0, nonzero⟩
  exact ⟨⟨size.1, fits.2⟩, widens, size.2⟩

theorem applyUnit_inRange_iff (shaped : Shaped pixels.1) (range : InRange pixels.1)
    (coloured : Coloured x) : InRange (applyUnit pixels x).1 ↔ SafeUnit pixels x := by
  refine ⟨fun kept => ⟨coloured.noWideShift, fun j => ?_⟩,
    fun safe => (applyUnit_sized pixels x (shaped.sized range) safe).inRange⟩
  have component : (Pixel.get (applyUnit pixels x).1 j).1 <
      2 ^ (Pixel.get (applyUnit pixels x).1 j).2 := kept j
  rw [applyUnit_get] at component
  refine safeComponent_of_lt ⟨shaped j, range j⟩ (fetch_colour coloured pixels.2 j)
    (fun alpha => ?_) (fun decal alpha => ?_) component
  · exact (alphaAt_colour shaped range coloured j alpha).imp_right And.left
  · have first := (alphaAt_colour shaped range coloured j alpha).2.2
    rw [fetch_size] at first
    change (fetch x pixels.2).s j ≠ 0
    rw [fetch_size]
    exact coloured.full decal first j

theorem run_shaped {units : List TexUnit} (shaped : Shaped pixels.1)
    (coloured : ∀ x ∈ units, Coloured x) : Shaped (run applyUnit pixels units).1 := by
  induction units generalizing pixels with
  | nil => exact shaped
  | cons x units ih =>
    exact ih (applyUnit_shaped shaped (coloured x List.mem_cons_self))
      fun y hy => coloured y (List.mem_cons_of_mem _ hy)

theorem units_inRange_iff {pixels : Pixel × Pixel} {units : List TexUnit}
    (shaped : Shaped pixels.1) (range : InRange pixels.1) (coloured : ∀ x ∈ units, Coloured x) :
    (∀ pre, pre <+: units → InRange (run applyUnit pixels pre).1) ↔
      Guarded applyUnit SafeUnit pixels units := by
  -- the sizes stay those of colours in any case
  have step (s : Pixel × Pixel) (x : TexUnit) (hx : x ∈ units)
      (inv : Shaped s.1 ∧ InRange s.1) :
      (Shaped (applyUnit s x).1 ∧ InRange (applyUnit s x).1) ↔ SafeUnit s x := by
    rw [applyUnit_inRange_iff inv.1 inv.2 (coloured x hx)]
    exact and_iff_right (applyUnit_shaped inv.1 (coloured x hx))
  rw [← guarded_iff_of_forall step ⟨shaped, range⟩]
  refine forall_congr' fun pre => imp_congr_right fun hpre => (and_iff_right ?_).symm
  exact run_shaped shaped fun x hx => coloured x (hpre.subset hx)

theorem covered_wraps {cf : BitVec 16} {c : Nat} (fits : Fits (c, s)) (negative : cf.toInt < 0)
    (positive : 0 < c) : 2 ^ s ≤ ofInt32 ((c * cf.toInt) >>> (15 : Nat)) := by
  have word : -2 ^ 15 ≤ cf.toInt := BitVec.le_toInt cf
  have size : 2 ^ s ≤ 2 ^ 24 := two_pow_le fits.1
  have bound : c < 2 ^ s := fits.2
  have high : (c : Int) * cf.toInt < 0 := mul_neg_of_pos_of_neg (by exact_mod_cast positive) negative
  have low : (c : Int) * -2 ^ 15 ≤ c * cf.toInt := by gcongr
  rw [ofInt32, Int.shiftRight_eq_div_pow]
  push_cast
  omega

theorem applyCoverage_inRange_iff {coverage : Option (BitVec 16)} {fragment : Pixel}
    (sized : Sized fragment) :
    InRange (applyCoverage coverage fragment) ↔ SafeCoverage coverage fragment := by
  refine ⟨?_, fun safe => (applyCoverage_sized sized safe).inRange⟩
  rintro kept cf rfl
  by_contra unsafeAlpha
  obtain ⟨negative, positive⟩ := not_or.mp unsafeAlpha
  have wraps := covered_wraps (sized 0) (Int.not_le.mp negative) (Nat.pos_of_ne_zero positive)
  have alpha : ofInt32 ((fragment.c 0 * cf.toInt) >>> (15 : Nat)) < 2 ^ fragment.s 0 := kept 0
  exact absurd alpha (Nat.not_lt.mpr wraps)

def FogFactor (fog : Option Fog) : Prop := ∀ g ∈ fog, 0 ≤ g.f ∧ g.f ≤ 0x10000

theorem applyFog_inRange_iff {fog : Option Fog} {fragment : Pixel} (sized : Sized fragment)
    (factor : FogFactor fog) : InRange (applyFog fog fragment) ↔ SafeFog fog fragment := by
  refine ⟨?_, fun safe => (applyFog_sized sized safe).inRange⟩
  rintro kept g rfl
  obtain ⟨low, high⟩ := factor g rfl
  refine ⟨⟨low, high⟩, fun i colour => ?_⟩
  have component : (applyFog (some g) fragment).c i < 2 ^ (applyFog (some g) fragment).s i := kept i
  simp only [applyFog, if_neg colour] at component
  exact (fogComponent_lt_iff (sized i) low high i).mp component

/-- The components are in range after every texture unit, after the coverage and after the fog. -/
structure StagesInRange (x : Inputs) : Prop where
  units : ∀ pre, pre <+: x.units →
    InRange (run applyUnit (startFragment x.color, x.texel) pre).1
  coverage : InRange (applyCoverage x.coverage (textured x))
  fog : InRange (applyFog x.fog (applyCoverage x.coverage (textured x)))

structure ColourInputs (x : Inputs) : Prop where
  units : ∀ unit ∈ x.units, Coloured unit
  fog : FogFactor x.fog

theorem stagesInRange_iff {x : Inputs} (range : ∀ j, 0 ≤ x.color j ∧ x.color j < 2 ^ 24)
    (colours : ColourInputs x) : StagesInRange x ↔ SafeStages x := by
  have start : Shaped (startFragment x.color) := fun _ => (by decide : 8 ∈ colourSizes)
  have units := @units_inRange_iff (startFragment x.color, x.texel) x.units start
    (startFragment_sized range).inRange colours.units
  constructor
  · intro h
    have safe := units.mp h.units
    have sized := textured_sized range safe
    have coverage := (applyCoverage_inRange_iff sized).mp h.coverage
    exact ⟨safe, coverage,
      (applyFog_inRange_iff (applyCoverage_sized sized coverage) colours.fog).mp h.fog⟩
  · intro h
    have sized := textured_sized range h.units
    have covered := applyCoverage_sized sized h.coverage
    exact ⟨units.mpr h.units, covered.inRange, (applyFog_sized covered h.fog).inRange⟩

/-- What the writer leaves in the place of a component depends on this component alone. -/
def PacksApart (p : Pixel) : Prop :=
  ∀ (t : Target) (q : Pixel), Packable q → ∀ i, Present t.format i → p.s i = q.s i →
    p.c i = q.c i → ∀ k, Inside t.format i k → (writePixel t p).testBit k = (writePixel t q).testBit k

/-- A pixel that blending clamps, or whose stages are safe, is in range and is packed without
reaching into a neighbour's bits. For colour textures the stages that are not safe are those that
leave a component out of range; without blending the last of them makes the pixel for the writer. -/
theorem component_range (x : Inputs) (range : ∀ j, 0 ≤ x.color j ∧ x.color j < 2 ^ 24) :
    (x.blending ≠ none ∨ SafeStages x → InRange (shade x) ∧ PacksApart (shade x)) ∧
      (ColourInputs x → (StagesInRange x ↔ SafeStages x)) := by
  refine ⟨fun safe => ?_, stagesInRange_iff range⟩
  have inRange := shade_inRange x range safe
  have packable : Packable (shade x) := fun i => ⟨shade_size x i, inRange i⟩
  refine ⟨inRange, ?_⟩
  intro t q hq i present size same k inside
  exact writePixel_apart packable hq present size same inside

def foggedInputs : Inputs where
  color _ := 0xFF0000
  units := [⟨GGL.modulate, Format.rgba8888, .nearest 0xFF808080, 0⟩]
  texel := ⟨fun _ => 0, fun _ => 0⟩
  coverage := none
  fog := some ⟨0x8000, fun _ => 255⟩
  blending := none

private theorem foggedInputs_safe : SafeStages foggedInputs where
  units := ⟨⟨by decide, fun _ => ⟨nofun, nofun⟩⟩, trivial⟩
  coverage := nofun
  fog := by
    rintro g ⟨⟩
    refine ⟨by decide, ?_⟩
    decide +kernel

theorem component_range_fogged : InRange (shade foggedInputs) ∧ PacksApart (shade foggedInputs) ∧
    StagesInRange foggedInputs := by
  have range : ∀ j, 0 ≤ foggedInputs.color j ∧ foggedInputs.color j < 2 ^ 24 := by decide
  have colours : ColourInputs foggedInputs := by
    refine ⟨by decide +kernel, ?_⟩
    rintro g ⟨⟩
    decide
  obtain ⟨sufficient, exact⟩ := component_range foggedInputs range
  exact ⟨(sufficient (.inr foggedInputs_safe)).1, (sufficient (.inr foggedInputs_safe)).2,
    (exact colours).mpr foggedInputs_safe⟩

def greenInputs : Inputs where
  color j := if j = 2 then 0xFF0000 else 0
  units := [⟨GGL.add, Format.rgba8888, .nearest 0x0000FF00, 0⟩]
  texel := ⟨fun _ => 0, fun _ => 0⟩
  coverage := none
  fog := none
  blending := none

/-- The sum needs nine bits, and the ninth lands in blue. -/
theorem green_reaches_blue : (∀ j, 0 ≤ greenInputs.color j ∧ greenInputs.color j < 2 ^ 24) ∧
    ¬InRange (shade greenInputs) ∧ ¬PacksApart (shade greenInputs) := by
  refine ⟨by decide, ?_, ?_⟩
  · intro h
    have green := h 2
    revert green
    decide +kernel
  · intro h
    have black : Packable ⟨fun _ => 0, fun _ => 8⟩ :=
      fun _ => ⟨(by decide : 8 ∈ shadedSizes), (by decide : 0 < 2 ^ 8)⟩
    have blue := h ⟨Format.rgba8888, 0xF, none, none, 0⟩ ⟨fun _ => 0, fun _ => 8⟩ black 3
      (by decide) (by decide +kernel) (by decide +kernel) 16 (by decide)
    revert blue
    decide +kernel

end RabbitRender.Pixelflinger.Overflows
