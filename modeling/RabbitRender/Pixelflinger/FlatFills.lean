/- RabbitRender/Pixelflinger/FlatFills
   layer: proof
   source: libpixelflinger/buffer.cpp, libpixelflinger/scanline.cpp
   digest: A row filled with the packed colour, against the generic scanline and `write_pixel`. -/

import RabbitRender.Pixelflinger.Codec
import RabbitRender.Pixelflinger.FillKeys
import RabbitRender.Pixelflinger.StepAgreement

set_option autoImplicit false

namespace RabbitRender.Pixelflinger.FlatFills

open RabbitRender.GL (GLenum)
open Lib Lib.ByteMemory Pixelflinger.State Pixelflinger.Pixels Pixelflinger.Fragment
open Pixelflinger.Widths Pixelflinger.Packing Pixelflinger.Codec Pixelflinger.ComponentRange
open Pixelflinger.BlendEquation Pixelflinger.BlendSimplification Pixelflinger.PickCoherence
open Pixelflinger.Stepping Pixelflinger.StepAgreement Pixelflinger.Scanlines Pixelflinger.FillKeys
open Pixelflinger.ClearBounds (address)

section Rows

variable (s : Surface) (y : Nat)

/-- Words stored from column to column, each computed from the memory before it. -/
def writeRow (word : Memory → Nat → Nat) : (x count : Nat) → Memory → Memory
  | _, 0, m => m
  | x, count + 1, m =>
    writeRow word (x + 1) count (store m (address s x y) (formats s.format).size (word m x))

theorem address_succ (x : Nat) :
    address s (x + 1 : Nat) y = address s x y + (formats s.format).size := by
  unfold address
  push_cast
  ring

theorem writeRow_outside (word : Memory → Nat → Nat) {x count : Nat} {m : Memory} {b : Int}
    (outside : b < address s x y ∨ address s x y + (formats s.format).size * count ≤ b) :
    writeRow s y word x count m b = m b := by
  induction count generalizing x m with
  | zero => rfl
  | succ count ih =>
    push_cast at outside
    rw [mul_add, mul_one] at outside
    have tail : (0 : Int) ≤ (formats s.format).size * count := by positivity
    rw [writeRow, ih, store_outside (by omega)]
    rw [address_succ]
    omega

theorem writeRow_word (word : Memory → Nat → Nat) {x count k : Nat} (inside : k < count)
    (m : Memory) : ∃ m', load (writeRow s y word x count m) (address s (x + k : Nat) y)
      (formats s.format).size = word m' (x + k) % 2 ^ ((formats s.format).size * 8) := by
  induction count generalizing x k m with
  | zero => exact absurd inside (Nat.not_lt_zero k)
  | succ count ih =>
    rw [writeRow]
    cases k with
    | zero =>
      refine ⟨m, ?_⟩
      rw [Nat.add_zero x]
      have kept : ∀ i < (formats s.format).size,
          writeRow s y word (x + 1) count
              (store m (address s x y) (formats s.format).size (word m x)) (address s x y + i) =
            store m (address s x y) (formats s.format).size (word m x) (address s x y + i) := by
        intro i below
        apply writeRow_outside
        rw [address_succ]
        omega
      rw [load_congr kept, load_store]
    | succ k =>
      obtain ⟨m', last⟩ := ih (x := x + 1) (Nat.lt_of_succ_lt_succ inside)
        (store m (address s x y) (formats s.format).size (word m x))
      have column : x + 1 + k = x + (k + 1) := by omega
      rw [column] at last
      exact ⟨m', last⟩

theorem fill_eq_writeRow (m : Memory) (x v count : Nat) :
    fill m (address s x y) (formats s.format).size v count =
      writeRow s y (fun _ _ => v) x count m := by
  induction count generalizing x m with
  | zero => rfl
  | succ count ih => rw [fill, writeRow, ← ih, address_succ]

end Rows

def top (f : Format) (v : Nat) (i : Component) : Nat := v >>> (24 - formatBits f i)

/-- The components whose place is that of `i`. -/
def levels (f : Format) (v : Component → Nat) (i : Component) : Nat :=
  let own (j : Component) : Nat := if (formats f).c j = (formats f).c i then v j else 0
  own 1 ||| own 2 ||| own 3 ||| own 0

private theorem places : ∀ f, Colour f → ∀ i, ((formats f).c i).l ≤ ((formats f).c i).h ∧
    ((formats f).c i).h ≤ 32 ∧ formatBits f i ≤ 8 ∧
    (((formats f).c i).l = 0 → ((formats f).c i).h ≤ 8) := by decide

private theorem places_shared : ∀ f, Colour f → ∀ i, Present f i →
    ((formats f).c i).h ≤ (formats f).size * 8 ∧ ∀ j, (formats f).c j ≠ (formats f).c i →
      ((formats f).c j).h ≤ ((formats f).c i).l ∨ ((formats f).c i).h ≤ ((formats f).c j).l ∨
        ((formats f).c j).h ≤ ((formats f).c j).l := by decide +kernel

variable {v : Nat}

theorem top_lt {f : Format} (colour : Colour f) (hv : v < 2 ^ 24) (i : Component) :
    top f v i < 2 ^ formatBits f i := by
  obtain ⟨-, -, bits, -⟩ := places f colour i
  apply shiftRight_lt
  rw [← Nat.pow_add, Nat.add_sub_cancel' (by omega)]
  exact hv

theorem downshift_packed {f : Format} (colour : Colour f) (hv : v < 2 ^ 24) (p : Nat)
    (i : Component) :
    downshiftComponent p v 24 16 ((formats f).c i).h ((formats f).c i).l 0 1 none =
      p ||| top f v i <<< ((formats f).c i).l := by
  obtain ⟨ordered, word, bits, whole⟩ := places f colour i
  have range := top_lt colour hv i
  unfold top formatBits at *
  generalize (formats f).c i = place at *
  unfold downshiftComponent
  simp only [ne_eq, not_true_eq_false, if_false, one_ne_zero, not_false_eq_true, true_or, if_true]
  split_ifs with zero low
  · rw [zero, Nat.sub_zero, Nat.shiftLeft_zero]
  · have := whole zero
    omega
  · congr 1
    apply u32_eq
    rw [Nat.shiftLeft_eq]
    calc v >>> (24 - (place.h - place.l)) * 2 ^ place.l < 2 ^ (place.h - place.l) * 2 ^ place.l :=
          Nat.mul_lt_mul_of_pos_right range (Nat.two_pow_pos _)
      _ = 2 ^ place.h := by rw [← Nat.pow_add, Nat.sub_add_cancel ordered]
      _ ≤ 2 ^ 32 := Nat.pow_le_pow_right (by decide) word

theorem testBit_gglPackColor {f : Format} (colour : Colour f) {v : Component → Nat}
    (hv : ∀ i, v i < 2 ^ 24) {n : Nat} (inside : n < (formats f).size * 8) :
    (gglPackColor f (v 1) (v 2) (v 3) (v 0)).testBit n =
      (top f (v 1) 1 <<< ((formats f).c 1).l ||| top f (v 2) 2 <<< ((formats f).c 2).l |||
        top f (v 3) 3 <<< ((formats f).c 3).l ||| top f (v 0) 0 <<< ((formats f).c 0).l).testBit
        n := by
  unfold gglPackColor
  dsimp only
  rw [downshift_packed colour (hv 1), downshift_packed colour (hv 2),
    downshift_packed colour (hv 3), downshift_packed colour (hv 0), Nat.zero_or]
  generalize top f (v 1) 1 <<< ((formats f).c 1).l ||| top f (v 2) 2 <<< ((formats f).c 2).l |||
    top f (v 3) 3 <<< ((formats f).c 3).l ||| top f (v 0) 0 <<< ((formats f).c 0).l = p
  have repeated (p k : Nat) (low : n < k) : (u32 (p <<< k)).testBit n = false := by
    have below : ¬n ≥ k := Nat.not_le.mpr low
    rw [u32, Nat.testBit_mod_two_pow, Nat.testBit_shiftLeft, decide_eq_false below,
      Bool.false_and, Bool.and_false]
  split_ifs with one two
  · rw [one] at inside
    simp only [Nat.testBit_or, repeated _ _ (by omega : n < 8), repeated _ _ (by omega : n < 16),
      Bool.or_false]
  · rw [two] at inside
    simp only [Nat.testBit_or, repeated _ _ (by omega : n < 16), Bool.or_false]
  · rfl

theorem testBit_placed {f : Format} (colour : Colour f) (hv : v < 2 ^ 24) {i : Component}
    (present : Present f i) (j : Component) {k : Nat} (bit : k < formatBits f i) :
    (top f v j <<< ((formats f).c j).l).testBit (((formats f).c i).l + k) =
      (top f (if (formats f).c j = (formats f).c i then v else 0) i).testBit k := by
  rw [Nat.testBit_shiftLeft]
  by_cases shared : (formats f).c j = (formats f).c i
  · have bits : formatBits f j = formatBits f i := by
      unfold formatBits
      rw [shared]
    rw [if_pos shared, shared, decide_eq_true (Nat.le_add_right _ _), Bool.true_and,
      Nat.add_sub_cancel_left, top, top, bits]
  · have range := top_lt colour hv j
    have apart := (places_shared f colour i present).2 j shared
    have nothing : top f 0 i = 0 := Nat.zero_shiftRight _
    rw [if_neg shared, nothing, Nat.zero_testBit, Bool.and_eq_false_iff]
    by_contra seen
    rw [not_or, Bool.not_eq_false, Bool.not_eq_false, decide_eq_true_iff] at seen
    have index := lt_of_testBit range seen.2
    unfold formatBits at bit index
    omega

theorem top_or (f : Format) (v w : Nat) (i : Component) :
    top f (v ||| w) i = top f v i ||| top f w i := Nat.shiftRight_or_distrib

theorem packed_component {f : Format} (colour : Colour f) {v : Component → Nat}
    (hv : ∀ i, v i < 2 ^ 24) {i : Component} (present : Present f i) :
    component f (gglPackColor f (v 1) (v 2) (v 3) (v 0) % 2 ^ ((formats f).size * 8)) i =
      top f (levels f v i) i := by
  obtain ⟨word, -⟩ := places_shared f colour i present
  have range : levels f v i < 2 ^ 24 := by
    have own (j : Component) :
        (if (formats f).c j = (formats f).c i then v j else 0) < 2 ^ 24 := by
      split
      · exact hv j
      · exact Nat.two_pow_pos 24
    exact Nat.or_lt_two_pow (Nat.or_lt_two_pow (Nat.or_lt_two_pow (own 1) (own 2)) (own 3)) (own 0)
  apply Nat.eq_of_testBit_eq
  intro k
  rw [testBit_component colour (Nat.mod_lt _ (Nat.two_pow_pos _))]
  by_cases bit : k < formatBits f i
  · have inside : ((formats f).c i).l + k < (formats f).size * 8 := by
      unfold formatBits at bit
      omega
    rw [decide_eq_true bit, Bool.true_and, Nat.testBit_mod_two_pow, decide_eq_true inside,
      Bool.true_and, testBit_gglPackColor colour hv inside]
    simp only [Nat.testBit_or, testBit_placed colour (hv _) present _ bit, levels, top_or]
  · have high := Nat.pow_le_pow_right Nat.two_pos (Nat.le_of_not_lt bit)
    rw [decide_eq_false bit, Bool.false_and,
      Nat.testBit_lt_two_pow ((top_lt colour range i).trans_le high)]

theorem envComponent_none (env : GLenum) (envColor : Fin 256) (f : Nat × Nat) {t a : Nat × Nat}
    (texel : t.2 = 0) (alpha : a.2 = 0) : envComponent env envColor f t a = (f, t) := by
  obtain ⟨ct, st⟩ := t
  obtain ⟨ta, sat⟩ := a
  simp only at texel alpha
  subst texel alpha
  simp [envComponent]

private theorem none_bits : ∀ j, formatBits Format.none j = 0 := by decide

theorem applyUnit_none (pixels : Pixel × Pixel) {x : TexUnit} (format : x.format = Format.none) :
    (applyUnit pixels x).1 = pixels.1 := by
  have empty (j : Component) : (Pixel.get (fetch x pixels.2) j).2 = 0 := by
    have bits : formatBits x.format j = 0 := by
      rw [format]
      exact none_bits j
    have size : (fetch x pixels.2).s j = texelBits x j := fetch_size x pixels.2 j
    rw [Pixel.get, size, texelBits]
    cases x.sample with
    | nearest word => exact bits
    | linear word00 word01 word10 word11 u v => exact if_neg (not_not.mpr bits)
  have kept (j : Component) : Pixel.get (applyUnit pixels x).1 j = Pixel.get pixels.1 j := by
    have alpha : (alphaAt x pixels.1 (fetch x pixels.2) j).2 = 0 := by
      unfold alphaAt
      split
      · exact empty 0
      · rw [envComponent_none _ _ _ (empty 0) (empty 0)]
        exact empty 0
    rw [applyUnit_get, envComponent_none _ _ _ (empty j) alpha]
  have c : (applyUnit pixels x).1.c = pixels.1.c := funext fun j => congrArg Prod.fst (kept j)
  have s : (applyUnit pixels x).1.s = pixels.1.s := funext fun j => congrArg Prod.snd (kept j)
  calc (applyUnit pixels x).1 = ⟨(applyUnit pixels x).1.c, (applyUnit pixels x).1.s⟩ := rfl
    _ = pixels.1 := by rw [c, s]

theorem units_none {units : List TexUnit} (formats : ∀ x ∈ units, x.format = Format.none)
    (pixels : Pixel × Pixel) : (units.foldl applyUnit pixels).1 = pixels.1 := by
  induction units generalizing pixels with
  | nil => rfl
  | cons x units ih =>
    rw [List.foldl_cons, ih (fun x later => formats x (List.mem_cons_of_mem _ later)),
      applyUnit_none pixels (formats x List.mem_cons_self)]

section Plain

variable {r : Rasterizer} (plain : Plain r.context)

include plain

theorem shade_plain (reads : Reads) (word : Nat) :
    shade (fragmentInputs r reads word) =
      applyBlending
        (if r.context.enables .blending then
          some ⟨r.context.blend, r.context.color.format, word, reads.sf, reads.df⟩
        else none)
        (startFragment (color r.iterators)) := by
  have units : ∀ x ∈ texUnits r.context reads, x.format = Format.none := by
    intro x member
    unfold texUnits at member
    split at member
    · rw [List.mem_map] at member
      obtain ⟨i, chosen, rfl⟩ := member
      exact plain.units i (List.mem_filter.mp chosen).2
    · exact absurd member List.not_mem_nil
  simp only [shade, fragmentInputs, plain.smooth, plain.aa, plain.fog, Bool.false_eq_true, if_false,
    applyCoverage, applyFog, units_none units]

def copyOp (c : Context) : Option GLenum := if c.enables .logicOp then some GGL.copy else none

theorem drawFragment_plain (reads : Reads) (m : Memory) (x y : Nat) :
    drawFragment r reads m x y = writePixelAt m r.context.color x y 0xF (copyOp r.context)
      (shade (fragmentInputs r reads (load m (address r.context.color x y)
        (formats r.context.color.format).size))) := by
  have passes : alphaTest r.context (covered (fragmentInputs r reads 0)) = true := by
    unfold alphaTest
    cases enabled : r.context.enables .alphaTest with
    | false => rfl
    | true =>
      rw [plain.alphaTest enabled]
      rfl
  have untouched : depthTest r.context reads.z m x y = some m := by
    unfold depthTest
    split
    · rename_i tested
      obtain ⟨func, mask⟩ := plain.depthTest tested.2
      rw [func, mask]
      rfl
    · rfl
  have op : (if r.context.enables .logicOp then some r.context.opcode else none) =
      copyOp r.context := by
    unfold copyOp
    split
    · rename_i enabled
      rw [plain.logicOp enabled]
    · rfl
  unfold drawFragment
  rw [if_pos passes, untouched]
  unfold writeFragment writePixelAt target
  rw [plain.maskColor, op, plain.dither]
  rfl

theorem scanline_plain (reads : Nat → Reads) (y x count : Nat) (m : Memory) :
    scanline r reads y x count m = writeRow r.context.color y (fun m x =>
      writePixel (target m r.context.color x y 0xF (copyOp r.context))
        (shade (fragmentInputs r (reads x) (load m (address r.context.color x y)
          (formats r.context.color.format).size)))) x count m := by
  induction count generalizing x m with
  | zero => rfl
  | succ count ih =>
    rw [scanline, writeRow, ih, drawFragment_plain plain]
    rfl

end Plain

theorem blendComponent_covered (c fs d : Nat) :
    blendComponent c fs d 0 = blendComponent c fs 0 0 := by
  have zero :
      Fixed.gglMulx (toInt32 d) (toInt32 0) 16 = Fixed.gglMulx (toInt32 0) (toInt32 0) 16 := by
    have none : toInt32 0 = 0 := rfl
    unfold Fixed.gglMulx
    rw [none, mul_zero, mul_zero]
  unfold blendComponent
  rw [zero]

private theorem one_of_alpha {f : Format} {factor : GLenum} (folded : StandsForOne f factor)
    (alpha : ((formats f).c 0).h ≠ 0) : factor = GGL.one :=
  folded.resolve_right fun missing => alpha missing.1

private theorem alpha_bits : ∀ f, Colour f → formatBits f 0 ≠ 0 → ((formats f).c 0).h ≠ 0 := by
  decide

section Blended

variable {b : Blending} {fragment f fb : Pixel}
  (rescaled : rescalePixels fragment (readDestination b) = (f, fb))

include rescaled

private theorem fragment_kept (colour : Colour b.format) (eight : ∀ i, fragment.s i = 8)
    (i : Component) : f.c i = fragment.c i ∧ f.s i = 8 := by
  have size : (readDestination b).s i ≤ 8 := by
    have bits : (readDestination b).s i = formatBits b.format i := readWord_size _ _ _ _
    rw [bits]
    exact (places b.format colour i).2.2.1
  have first : f = (rescalePixels fragment (readDestination b)).1 := by rw [rescaled]
  rw [first]
  simp only [rescalePixels, rescale, eight i]
  split_ifs
  · exact ⟨rfl, rfl⟩
  · omega
  · exact ⟨rfl, rfl⟩
  · exact ⟨rfl, rfl⟩

private theorem source_value (folded : StandsForOne b.format b.blend.src) (i : Component) :
    blendFactor b.sf b.blend.src f fb i =
      if b.blend.src = GGL.oneMinusDstAlpha then 0 else 0x10000 := by
  rcases folded with one | ⟨none, alpha | complement⟩
  · rw [one]
    rfl
  · have missing := (rescaled_alpha none fragment).1
    rw [rescaled] at missing
    have read : blendFactor b.sf GGL.dstAlpha f fb i = blendfactor (fb.c 0) (fb.s 0) 0x10000 := rfl
    rw [alpha, read, missing]
    rfl
  · have missing := (rescaled_alpha none fragment).1
    rw [rescaled] at missing
    rw [complement, if_pos rfl]
    exact complement_zero b.sf f missing i

end Blended

theorem blended_component {b : Blending} {fragment : Pixel} (colour : Colour b.format)
    (eight : ∀ i, fragment.s i = 8) (range : ∀ i, fragment.c i < 2 ^ 8)
    (folded : StandsForOne b.format b.blend.src) (dst : b.blend.dst = GGL.zero)
    (separate : b.blend.alphaSeparate = true →
      StandsForOne b.format b.blend.srcAlpha ∧ b.blend.dstAlpha = GGL.zero)
    {i : Component} (present : formatBits b.format i ≠ 0) :
    (blending b fragment).c i =
      if b.blend.src = GGL.oneMinusDstAlpha then 0 else fragment.c i := by
  obtain ⟨f, fb, rescaled⟩ : ∃ f fb, rescalePixels fragment (readDestination b) = (f, fb) :=
    ⟨_, _, rfl⟩
  obtain ⟨own, size⟩ := fragment_kept rescaled colour eight i
  have fits : f.c i < 2 ^ f.s i := by
    rw [own, size]
    exact range i
  have small : f.c i < 2 ^ 24 := by
    rw [own]
    exact (range i).trans (by decide)
  have source := source_value rescaled folded
  by_cases alpha : i = 0
  · subst alpha
    have held := alpha_bits b.format colour present
    have one := one_of_alpha folded held
    have other : ¬b.blend.src = GGL.oneMinusDstAlpha := by
      rw [one]
      decide
    rw [blending_eq b fragment rescaled, if_neg other, ← own]
    dsimp only
    split_ifs with apart
    · obtain ⟨foldedAlpha, dstAlpha⟩ := separate apart
      rw [blendAlpha_zero, one_of_alpha foldedAlpha held, dstAlpha]
      exact (congrArg (clampComponent · (f.s 0)) ((blendComponent_covered _ _ _).trans
        (blendComponent_source small 0).2)).trans (clampComponent_fits fits)
    · rw [blendAlpha_zero, one, dst]
      exact (congrArg (clampComponent · (f.s 0)) ((blendComponent_covered _ _ _).trans
        (blendComponent_source small 0).2)).trans (clampComponent_fits fits)
  · have nothing : blendFactor b.df GGL.zero f fb i = 0 := rfl
    rw [blending_color b fragment rescaled alpha, dst, nothing, source i, blendComponent_covered]
    split_ifs
    · rw [(blendComponent_source small 0).1]
      exact clampComponent_fits (Nat.two_pow_pos _)
    · rw [(blendComponent_source small 0).2, clampComponent_fits fits, own]

/-- The blend factor that takes the missing alpha from one, which the key records as one. -/
def Erased (c : Context) : Prop :=
  c.enables .blending = true ∧ c.blend.src = GGL.oneMinusDstAlpha

instance (c : Context) : Decidable (Erased c) := inferInstanceAs (Decidable (_ ∧ _))

def flatColor (s : Shade) (i : Component) : Int := (shadeColor s i).v0

def level (s : Shade) (i : Component) : Nat := ofInt32 (flatColor s i)

def Ranged (s : Shade) : Prop := ∀ i, 0 ≤ flatColor s i ∧ flatColor s i < 2 ^ 24

instance (s : Shade) : Decidable (Ranged s) := inferInstanceAs (Decidable (∀ _, _))

section Written

variable {r : Rasterizer} (plain : Plain r.context) (colour : Colour r.context.color.format)
  (flat : color r.iterators = flatColor r.shade) (ranged : Ranged r.shade)

include ranged

theorem level_lt (i : Component) : level r.shade i < 2 ^ 24 := by
  obtain ⟨low, high⟩ := ranged i
  unfold level
  rw [ofInt32_eq low (by omega)]
  omega

theorem startFragment_level (i : Component) :
    (startFragment (flatColor r.shade)).c i = level r.shade i >>> 16 := by
  obtain ⟨low, high⟩ := ranged i
  change ofInt32 (flatColor r.shade i >>> (16 : Nat)) = ofInt32 (flatColor r.shade i) >>> 16
  rw [Int.shiftRight_eq_div_pow, Nat.shiftRight_eq_div_pow, ofInt32_eq low (by omega),
    ofInt32_eq (by omega) (by omega)]
  omega

include plain colour flat

theorem shade_pixel (reads : Reads) (word : Nat) :
    (∀ i, (shade (fragmentInputs r reads word)).s i = 8) ∧
    (∀ i, (shade (fragmentInputs r reads word)).c i < 2 ^ 8) ∧
    ∀ i, formatBits r.context.color.format i ≠ 0 →
      (shade (fragmentInputs r reads word)).c i =
        if Erased r.context then 0 else level r.shade i >>> 16 := by
  have eight (i : Component) : (startFragment (flatColor r.shade)).s i = 8 := rfl
  have range (i : Component) : (startFragment (flatColor r.shade)).c i < 2 ^ 8 :=
    (startFragment_sized ranged i).2
  rw [shade_plain plain, flat]
  cases blends : r.context.enables .blending with
  | false =>
    have kept : ¬Erased r.context := fun erased => Bool.false_ne_true (blends.symm.trans erased.1)
    refine ⟨eight, range, fun i _ => ?_⟩
    rw [if_neg kept]
    exact startFragment_level ranged i
  | true =>
    obtain ⟨folded, dst, separate⟩ := plain.blending blends
    simp only [if_true, applyBlending]
    have sizes (i : Component) := (fragment_kept (b := ⟨r.context.blend, r.context.color.format,
      word, reads.sf, reads.df⟩) rfl colour eight i).2
    refine ⟨sizes, fun i => ?_, fun i present => ?_⟩
    · have bound := blending_inRange ⟨r.context.blend, r.context.color.format, word, reads.sf,
        reads.df⟩ (startFragment (flatColor r.shade)) i
      exact lt_of_lt_of_eq bound (congrArg (2 ^ ·) (sizes i))
    · rw [blended_component colour eight range folded dst separate present,
        startFragment_level ranged]
      simp only [Erased, blends, true_and]

theorem written_component (reads : Reads) (m : Memory) (x y word : Nat) {i : Component}
    (present : Present r.context.color.format i) :
    component r.context.color.format
      (writePixel (target m r.context.color x y 0xF (copyOp r.context))
        (shade (fragmentInputs r reads word))) i =
      if Erased r.context then 0 else top r.context.color.format (level r.shade i) i := by
  obtain ⟨eight, range, value⟩ := shade_pixel plain colour flat ranged reads word
  have declared : Declared (target m r.context.color x y 0xF (copyOp r.context))
      (shade (fragmentInputs r reads word)) := by
    refine ⟨fun i => ?_, fun i => ?_, fun i _ => ?_⟩
    · rw [eight i]
      decide
    · rw [eight i]
      exact range i
    · rw [eight i]
      decide
  have through : (0xF : Nat).testBit i = true := by
    fin_cases i <;> rfl
  obtain ⟨-, -, bits, -⟩ := places r.context.color.format colour i
  have fits := converted_lt (declared.range i) (formatBits r.context.color.format i)
  have copied (old : Nat) : combined (copyOp r.context)
      (converted ((shade (fragmentInputs r reads word)).c i)
        ((shade (fragmentInputs r reads word)).s i) (formatBits r.context.color.format i)) old
      (formatBits r.context.color.format i) =
      converted ((shade (fragmentInputs r reads word)).c i)
        ((shade (fragmentInputs r reads word)).s i) (formatBits r.context.color.format i) := by
    unfold copyOp
    split
    · exact Nat.mod_eq_of_lt fits
    · rfl
  rw [component_stored colour declared present through, copied, eight i, converted, if_pos bits,
    value i (present_bits _ _ present)]
  split_ifs
  · exact Nat.zero_shiftRight _
  · rw [top, ← Nat.shiftRight_add]
    congr 1
    omega

end Written

/-- The packed byte of a luminance format has green and blue in the place of red. -/
def Grey (f : Format) (s : Shade) : Prop :=
  GGL.luminance ≤ (formats f).components →
    (level s 1 ||| level s 2 ||| level s 3) >>> 16 = level s 1 >>> 16

def Dark (f : Format) (s : Shade) : Prop := ∀ i, Present f i → top f (level s i) i = 0

def FillsWhen (c : Context) (s : Shade) : Prop :=
  Grey c.color.format s ∧ (Erased c → Dark c.color.format s)

instance (f : Format) (s : Shade) : Decidable (Grey f s) := inferInstanceAs (Decidable (_ → _))

instance (f : Format) (s : Shade) : Decidable (Dark f s) := inferInstanceAs (Decidable (∀ _, _))

instance (c : Context) (s : Shade) : Decidable (FillsWhen c s) :=
  inferInstanceAs (Decidable (_ ∧ _))

private theorem levels_own : ∀ f, Colour f → ¬GGL.luminance ≤ (formats f).components →
    ∀ i, Present f i → ∀ j, (formats f).c j = (formats f).c i → j = i := by decide +kernel

private theorem luminance_places : ∀ f, Colour f → GGL.luminance ≤ (formats f).components →
    ((formats f).c 2 = (formats f).c 1 ∧ (formats f).c 3 = (formats f).c 1 ∧
      (formats f).c 0 ≠ (formats f).c 1) ∧ formatBits f 1 = 8 ∧ Present f 1 ∧
      ∀ i, Present f i → i = 0 ∨ i = 1 := by decide +kernel

theorem levels_eq {f : Format} (colour : Colour f)
    (other : ¬GGL.luminance ≤ (formats f).components) (v : Component → Nat) {i : Component}
    (present : Present f i) : levels f v i = v i := by
  have own (j : Component) : (if (formats f).c j = (formats f).c i then v j else 0) =
      if j = i then v j else 0 := by
    by_cases same : j = i
    · rw [if_pos same, if_pos (congrArg _ same)]
    · rw [if_neg same, if_neg fun shared => same (levels_own f colour other i present j shared)]
  unfold levels
  simp only [own]
  fin_cases i <;> simp

theorem levels_luminance {f : Format} (colour : Colour f)
    (luminance : GGL.luminance ≤ (formats f).components) (v : Component → Nat) :
    levels f v 0 = v 0 ∧ levels f v 1 = v 1 ||| v 2 ||| v 3 := by
  obtain ⟨⟨green, blue, alpha⟩, -⟩ := luminance_places f colour luminance
  simp [levels, green, blue, alpha, alpha.symm]

theorem levels_iff {c : Context} (colour : Colour c.color.format) (s : Shade) :
    (∀ i, Present c.color.format i →
      (if Erased c then 0 else top c.color.format (level s i) i) =
        top c.color.format (levels c.color.format (level s) i) i) ↔ FillsWhen c s := by
  by_cases luminance : GGL.luminance ≤ (formats c.color.format).components
  · obtain ⟨-, bits, red, only⟩ := luminance_places c.color.format colour luminance
    obtain ⟨alpha, shared⟩ := levels_luminance colour luminance (level s)
    have byte (v : Nat) : top c.color.format v 1 = v >>> 16 := by
      rw [top, bits]
    constructor
    · intro agree
      have first := agree 1 red
      rw [shared, byte, byte] at first
      by_cases erased : Erased c
      · rw [if_pos erased, Nat.shiftRight_or_distrib, Nat.shiftRight_or_distrib] at first
        have none := Nat.or_eq_zero_iff.mp first.symm
        have none := (Nat.or_eq_zero_iff.mp none.1).1
        refine ⟨fun _ => ?_, fun _ i present => ?_⟩
        · rw [Nat.shiftRight_or_distrib, Nat.shiftRight_or_distrib, ← first, none]
        · rcases only i present with rfl | rfl
          · have own := agree 0 present
            rw [if_pos erased, alpha] at own
            exact own.symm
          · rw [byte, none]
      · rw [if_neg erased] at first
        exact ⟨fun _ => first.symm, fun absent => absurd absent erased⟩
    · rintro ⟨grey, dark⟩ i present
      have own : top c.color.format (levels c.color.format (level s) i) i =
          top c.color.format (level s i) i := by
        rcases only i present with rfl | rfl
        · rw [alpha]
        · rw [shared, byte, byte]
          exact grey luminance
      rw [own]
      split_ifs with erased
      · exact (dark erased i present).symm
      · rfl
  · constructor
    · intro agree
      refine ⟨fun holds => absurd holds luminance, fun erased i present => ?_⟩
      have own := agree i present
      rw [if_pos erased, levels_eq colour luminance _ present] at own
      exact own.symm
    · rintro ⟨-, dark⟩ i present
      rw [levels_eq colour luminance _ present]
      split_ifs with erased
      · exact (dark erased i present).symm
      · rfl

/-- Both memories hold the same pixels in the row, and what was there before outside it. -/
structure SameRow (s : Surface) (x y count : Nat) (m generic filled : Memory) : Prop where
  pixels : ∀ k < count, ∀ q,
    readPixelAt generic s (x + k) y q = readPixelAt filled s (x + k) y q
  beside : ∀ b, (b < address s x y ∨ address s x y + (formats s.format).size * count ≤ b) →
    generic b = m b ∧ filled b = m b

private theorem present_place : ∀ f, Colour f → ∀ i, formatBits f i ≠ 0 →
    ∃ j, Present f j ∧ (formats f).c i = (formats f).c j := by decide +kernel

theorem readPixelAt_congr {s : Surface} (colour : Colour s.format) {m m' : Memory} {x y : Nat} :
    (∀ q, readPixelAt m s x y q = readPixelAt m' s x y q) ↔
      ∀ i, Present s.format i →
        component s.format (load m (address s x y) (formats s.format).size) i =
          component s.format (load m' (address s x y) (formats s.format).size) i := by
  constructor
  · intro same i present
    have read := congrArg (fun p => p.c i) (same ⟨fun _ => 0, fun _ => 0⟩)
    simp only [readPixelAt_component present] at read
    exact read
  · intro same q
    have read (m : Memory) (i : Component) : (readPixelAt m s x y q).c i =
        if formatBits s.format i ≠ 0 then
          component s.format (load m (address s x y) (formats s.format).size) i
        else q.c i := rfl
    have parts : (readPixelAt m s x y q).c = (readPixelAt m' s x y q).c := by
      funext i
      rw [read, read]
      split_ifs with bits
      · obtain ⟨j, present, shared⟩ := present_place s.format colour i bits
        have part := same j present
        unfold component at part ⊢
        rw [shared]
        exact part
      · rfl
    calc readPixelAt m s x y q = ⟨(readPixelAt m s x y q).c, (readPixelAt m s x y q).s⟩ := rfl
      _ = ⟨(readPixelAt m' s x y q).c, (readPixelAt m s x y q).s⟩ := by rw [parts]
      _ = readPixelAt m' s x y q := rfl

theorem sameRow_iff {r : Rasterizer} (plain : Plain r.context)
    (colour : Colour r.context.color.format) (flat : color r.iterators = flatColor r.shade)
    (ranged : Ranged r.shade) (reads : Nat → Reads) (x y count : Nat) (m : Memory) :
    SameRow r.context.color x y count m (scanline r reads y x count m)
        (fill m (address r.context.color x y) (formats r.context.color.format).size
          (packShade r.shade r.context.color.format) count) ↔
      count = 0 ∨ FillsWhen r.context r.shade := by
  have generic (k : Nat) (inside : k < count) (i : Component)
      (present : Present r.context.color.format i) :
      component r.context.color.format
        (load (scanline r reads y x count m) (address r.context.color (x + k : Nat) y)
          (formats r.context.color.format).size) i =
        if Erased r.context then 0 else top r.context.color.format (level r.shade i) i := by
    rw [scanline_plain plain]
    obtain ⟨m', word⟩ := writeRow_word r.context.color y _ inside m
    rw [word]
    exact (congrArg (component _ · i) (Nat.mod_eq_of_lt (writePixel_lt _ _))).trans
      (written_component plain colour flat ranged _ m' (x + k) y _ present)
  have filled (k : Nat) (inside : k < count) (i : Component)
      (present : Present r.context.color.format i) :
      component r.context.color.format
        (load (fill m (address r.context.color x y) (formats r.context.color.format).size
          (packShade r.shade r.context.color.format) count)
          (address r.context.color (x + k : Nat) y) (formats r.context.color.format).size) i =
        top r.context.color.format (levels r.context.color.format (level r.shade) i) i := by
    rw [fill_eq_writeRow]
    obtain ⟨m', word⟩ := writeRow_word r.context.color y
      (fun _ _ => packShade r.shade r.context.color.format) inside m
    rw [word]
    exact packed_component colour (level_lt ranged) present
  rw [← levels_iff colour]
  constructor
  · intro same
    rw [or_iff_not_imp_left]
    intro some i present
    have inside : 0 < count := Nat.pos_of_ne_zero some
    have part := (readPixelAt_congr colour).mp (same.pixels 0 inside) i present
    rwa [generic 0 inside i present, filled 0 inside i present] at part
  · intro agree
    constructor
    · intro k inside
      apply (readPixelAt_congr colour).mpr
      intro i present
      rw [generic k inside i present, filled k inside i present]
      exact agree.resolve_left (Nat.ne_of_gt (Nat.zero_lt_of_lt inside)) i present
    · intro b outside
      rw [scanline_plain plain, fill_eq_writeRow]
      exact ⟨writeRow_outside _ _ _ outside, writeRow_outside _ _ _ outside⟩

private theorem pickStepY_flat {c : Context} (flat : c.enables .smooth = false) :
    pickStepY c ≠ .smooth := by
  simp only [pickStepY, flat, Bool.false_eq_true, if_false]
  split_ifs <;> decide

theorem rows_packed (r : Rasterizer) (n : Nat) : (rows r n).packed = r.packed := by
  refine rows_keep (f := Rasterizer.packed) (fun r' _ => ?_) n
  unfold stepY
  cases r'.context.stepY <;> rfl

theorem rows_color {r : Rasterizer} (flat : r.context.enables .smooth = false) (ys : Int)
    (n : Nat) : color (rows (initY r ys) n).iterators = flatColor r.shade := by
  have start : color (initY r ys).iterators = flatColor r.shade := by
    funext i
    fin_cases i <;> simp [initY, initIterators, color, flatColor, shadeColor, flat]
  rw [← start]
  refine rows_keep (f := fun r' => color r'.iterators) (fun r' same => ?_) n
  have smooth : r'.context.enables .smooth = false := by
    rw [same.context]
    exact flat
  have picked : r'.context.stepY ≠ .smooth := by
    rw [same.context]
    exact pickStepY_flat flat
  unfold stepY
  cases stepper : r'.context.stepY with
  | generic =>
    simp only [stepYGeneric, smooth, Bool.false_eq_true, if_false]
    split <;> rfl
  | nop => rfl
  | smooth => exact absurd stepper picked
  | tmu => rfl
  | w => rfl

/-- Where a scanline that fills is selected, every row it fills holds the pixels the generic
scanline and `write_pixel` leave exactly when a luminance format gets a grey colour, and nothing of
the colour is stored under the factor that takes the missing alpha from one. -/
theorem fills_iff (r : Rasterizer) (checked : Checked r.context)
    (known : ∀ factor ∈ usedFactors r.context.blend, factor ∈ blendFactors)
    (picked : selected r.context = selected (fromScratch r.context)) (run : FillScanline)
    (memset : memsetOf r.context.scanline = some run) (colour : Colour r.context.color.format)
    (ranged : Ranged r.shade) (ys : Int) (n : Nat) (reads : Nat → Reads) (x y count : Nat)
    (m : Memory) :
    SameRow r.context.color x y count m (scanline (rows (initY r ys) n) reads y x count m)
        (run (rows (Stepping.start r ys) n) m x y count) ↔
      count = 0 ∨ FillsWhen r.context r.shade := by
  obtain ⟨matched, packed, rfl, -⟩ := filled_of_memset picked memset
  have plain := plain_of_matches checked known matched
  have generic := rows_same (initY r ys) n
  have quick := rows_same (Stepping.start r ys) n
  have context : (rows (initY r ys) n).context = { r.context with stepY := pickStepY r.context } :=
    generic.context
  have shade : (rows (initY r ys) n).shade = r.shade := generic.shade
  have started : Stepping.start r ys = initYPacked r ys := by
    unfold Stepping.start
    rw [packed]
  have color : (rows (Stepping.start r ys) n).context.color = r.context.color := by
    rw [quick.context, started]
    rfl
  have word : (rows (Stepping.start r ys) n).packed = packShade r.shade r.context.color.format := by
    rw [rows_packed, started]
    rfl
  have kept : Plain (rows (initY r ys) n).context := by
    rw [context]
    exact ⟨plain.smooth, plain.dither, plain.aa, plain.fog, plain.maskColor, plain.logicOp,
      plain.alphaTest, plain.depthTest, plain.units, plain.blending⟩
  have row := sameRow_iff kept (by rw [context]; exact colour)
    ((rows_color plain.smooth ys n).trans (by rw [shade])) (by rw [shade]; exact ranged) reads x y
    count m
  unfold scanlineMemset
  rw [color, word]
  rw [context, shade] at row
  exact row

private def plainSurface (format : Format) : GGLSurface where
  width := 4
  height := 2
  stride := 4
  format := format

private def painter (format : Format) (r g b : Int) : Rasterizer where
  context := (GuardedRun.run step PickCoherence.start
    [.colorBuffer (plainSurface format) true, .pick]).context
  shade :=
    { a := ⟨0xFF0000, 0, 0⟩, r := ⟨r, 0, 0⟩, g := ⟨g, 0, 0⟩, b := ⟨b, 0, 0⟩
      z := ⟨0, 0, 0⟩, w := ⟨0, 0, 0⟩, f := ⟨0, 0, 0⟩ }
  texShade _ _ := ⟨0, 0, 0, 0⟩
  iterators := ⟨0, 0, 0, 0, 0, 0, 0, 0, 0, 0⟩
  texIterators _ _ := ⟨0, 0, 0, 0⟩
  packed := 0
  packed8888 := 0
  rect := .generic

private def nothingRead : Reads where
  color _ := 0
  samples _ := .nearest 0
  texel := ⟨fun _ => 0, fun _ => 0⟩
  coverage := 0
  z := 0
  fog := ⟨0, fun _ => ⟨0, byte_pos⟩⟩
  dither := 0
  sf _ := 0
  df _ := 0

theorem fills_iff_rgb565 :
    SameRow (painter Format.rgb565 0xFF0000 0x800000 0).context.color 1 1 2 (fun _ => 0)
      (scanline (rows (initY (painter Format.rgb565 0xFF0000 0x800000 0) 0) 1)
        (fun _ => nothingRead) 1 1 2 fun _ => 0)
      (scanlineMemset16 (rows (Stepping.start (painter Format.rgb565 0xFF0000 0x800000 0) 0) 1)
        (fun _ => 0) 1 1 2) :=
  (fills_iff (painter Format.rgb565 0xFF0000 0x800000 0) (checked_run _) (by decide +kernel)
    (by decide +kernel) scanlineMemset16
    (congrArg memsetOf (by decide +kernel : (painter Format.rgb565 0xFF0000 0x800000
      0).context.scanline = .memset16))
    (by decide +kernel) (by decide +kernel) 0 1 (fun _ => nothingRead) 1 1 2 fun _ => 0).mpr
    (.inr (by decide +kernel))

/-- Green fills a luminance buffer with white, where the generic scanline leaves black. -/
theorem green_fills_white :
    (painter Format.l8 0 0xFF0000 0).context.scanline = .memset8 ∧
    ¬SameRow (painter Format.l8 0 0xFF0000 0).context.color 0 0 1 (fun _ => 0)
      (scanline (initY (painter Format.l8 0 0xFF0000 0) 0) (fun _ => nothingRead) 0 0 1
        fun _ => 0)
      (scanlineMemset8 (Stepping.start (painter Format.l8 0 0xFF0000 0) 0) (fun _ => 0) 0 0 1) := by
  refine ⟨by decide +kernel, fun same => ?_⟩
  have red := congrArg (fun p => p.c 1) (same.pixels 0 Nat.one_pos ⟨fun _ => 0, fun _ => 0⟩)
  revert red
  decide +kernel

end RabbitRender.Pixelflinger.FlatFills
