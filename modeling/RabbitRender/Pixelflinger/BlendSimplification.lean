/- RabbitRender/Pixelflinger/BlendSimplification
   layer: proofs
   source: libpixelflinger/picker.cpp, libpixelflinger/scanline.cpp
   digest: The factors `ggl_pick` records for a destination without alpha, against those that were
     set. -/

import RabbitRender.Pixelflinger.BlendEquation

set_option autoImplicit false

namespace RabbitRender.Pixelflinger.BlendSimplification

open RabbitRender.GL (GLenum)
open Pixelflinger.State Pixelflinger.Picker Pixelflinger.Pixels Pixelflinger.Fragment
open Pixelflinger.Widths Pixelflinger.BlendEquation

/-- The factors after the substitution in `ggl_pick`. -/
def simplify (f : Format) (blend : Blend) : Blend :=
  if ((formats f).c 0).h = 0 then
    { blend with
      src := withoutAlpha blend.src
      dst := withoutAlpha blend.dst
      srcAlpha := withoutAlpha blend.srcAlpha
      dstAlpha := withoutAlpha blend.dstAlpha }
  else blend

theorem withoutAlpha_value {factor : GLenum} (other : factor ≠ GGL.oneMinusDstAlpha)
    (r : Component → Nat) (src : Pixel) {dst : Pixel} (none : dst.s 0 = 0) :
    blendFactor r (withoutAlpha factor) src dst = blendFactor r factor src dst := by
  by_cases alpha : factor = GGL.dstAlpha
  · subst alpha
    have whole : blendfactor (dst.c 0) (dst.s 0) 0x10000 = 0x10000 := by
      rw [none]
      rfl
    have read : blendFactor r GGL.dstAlpha src dst =
        fun _ => blendfactor (dst.c 0) (dst.s 0) 0x10000 := rfl
    rw [read, whole]
    rfl
  · have kept : withoutAlpha factor = factor := by
      unfold withoutAlpha
      rw [if_neg (by tauto)]
    rw [kept]

private theorem noAlpha_bits : ∀ f, ((formats f).c 0).h = 0 → formatBits f 0 = 0 := by decide

theorem readDestination_alpha {b : Blending} (none : ((formats b.format).c 0).h = 0) :
    (readDestination b).s 0 = 0 ∧ (readDestination b).c 0 = 0 := by
  have bits : formatBits b.format 0 = 0 := noAlpha_bits _ none
  refine ⟨(readWord_size _ _ _ _).trans bits, ?_⟩
  unfold readDestination pickReader
  split_ifs with rgba rgb
  · rw [rgba] at none
    exact absurd none (by decide)
  · rfl
  · exact if_neg (not_not.mpr bits)

theorem rescaled_alpha {b : Blending} (none : ((formats b.format).c 0).h = 0)
    (fragment : Pixel) :
    (rescalePixels fragment (readDestination b)).2.s 0 = 0 ∧
      (rescalePixels fragment (readDestination b)).2.c 0 = 0 := by
  obtain ⟨size, value⟩ := readDestination_alpha none
  simp [rescalePixels, rescale, size, value]

theorem blendComponent_missing (c fs fd fd' : Nat) :
    blendComponent c fs 0 fd = blendComponent c fs 0 fd' := by
  have zero (factor : Int) : Fixed.gglMulx (toInt32 0) factor 16 = 0 := by
    have none : toInt32 0 = 0 := rfl
    rw [none]
    unfold Fixed.gglMulx
    rw [zero_mul]
    rfl
  unfold blendComponent
  rw [zero, zero]

def simplified (b : Blending) : Blending := { b with blend := simplify b.format b.blend }

/-- Every fragment and destination gives the same components of the destination. -/
def SameColours (f : Format) (blend : Blend) : Prop :=
  ∀ b : Blending, b.format = f → b.blend = blend → ∀ fragment i, formatBits f i ≠ 0 →
    (blending (simplified b) fragment).c i = (blending b fragment).c i

/-- The alpha of the fragment is the same as well, although nothing stores it. -/
def SamePixels (f : Format) (blend : Blend) : Prop :=
  ∀ b : Blending, b.format = f → b.blend = blend → ∀ fragment i,
    (blending (simplified b) fragment).c i = (blending b fragment).c i

section

variable {b : Blending} (none : ((formats b.format).c 0).h = 0)
  (source : b.blend.src ≠ GGL.oneMinusDstAlpha) (destination : b.blend.dst ≠ GGL.oneMinusDstAlpha)

include none

private theorem simplified_blend : (simplified b).blend =
    { b.blend with
      src := withoutAlpha b.blend.src
      dst := withoutAlpha b.blend.dst
      srcAlpha := withoutAlpha b.blend.srcAlpha
      dstAlpha := withoutAlpha b.blend.dstAlpha } := if_pos none

include source destination

private theorem simplified_blending (fragment : Pixel) :
    ∃ (colours fb : Pixel) (s d : Component → Nat), fb.s 0 = 0 ∧ fb.c 0 = 0 ∧
      blending b fragment =
        (if b.blend.alphaSeparate then
          blendAlpha colours fb (blendFactor s b.blend.srcAlpha colours fb)
            (blendFactor d b.blend.dstAlpha colours fb)
        else blendAlpha colours fb s d) ∧
      blending (simplified b) fragment =
        (if b.blend.alphaSeparate then
          blendAlpha colours fb (blendFactor s (withoutAlpha b.blend.srcAlpha) colours fb)
            (blendFactor d (withoutAlpha b.blend.dstAlpha) colours fb)
        else blendAlpha colours fb s d) := by
  obtain ⟨f, fb, rescaled⟩ : ∃ f fb, rescalePixels fragment (readDestination b) = (f, fb) :=
    ⟨_, _, rfl⟩
  have alpha := rescaled_alpha none fragment
  rw [rescaled] at alpha
  have rescaled' : rescalePixels fragment (readDestination (simplified b)) = (f, fb) := rescaled
  have blend := simplified_blend none
  have before := blending_eq b fragment rescaled
  have after := blending_eq (simplified b) fragment rescaled'
  rw [blend] at after
  have sf : blendFactor (simplified b).sf (withoutAlpha b.blend.src) f fb =
      blendFactor b.sf b.blend.src f fb := withoutAlpha_value source b.sf f alpha.1
  have df : blendFactor (simplified b).df (withoutAlpha b.blend.dst) f fb =
      blendFactor b.df b.blend.dst f fb := withoutAlpha_value destination b.df f alpha.1
  simp only [sf, df] at after
  exact ⟨_, fb, _, _, alpha.1, alpha.2, before, after⟩

private theorem simplified_colours (fragment : Pixel) {i : Component} (color : i ≠ 0) :
    (blending (simplified b) fragment).c i = (blending b fragment).c i := by
  obtain ⟨colours, fb, s, d, -, -, before, after⟩ :=
    simplified_blending none source destination fragment
  rw [before, after]
  split_ifs
  · rw [blendAlpha_of_ne _ _ _ _ color, blendAlpha_of_ne _ _ _ _ color]
  · rfl

private theorem simplified_alpha (fragment : Pixel)
    (sourceAlpha : b.blend.alphaSeparate = true → b.blend.srcAlpha ≠ GGL.oneMinusDstAlpha) :
    (blending (simplified b) fragment).c 0 = (blending b fragment).c 0 := by
  obtain ⟨colours, fb, s, d, alpha, value, before, after⟩ :=
    simplified_blending none source destination fragment
  rw [before, after]
  split_ifs with separate
  · rw [blendAlpha_zero, blendAlpha_zero, withoutAlpha_value (sourceAlpha separate) _ _ alpha,
      value]
    rw [blendComponent_missing]
  · rfl

end

theorem blending_color (b : Blending) (fragment : Pixel) {f fb : Pixel}
    (rescaled : rescalePixels fragment (readDestination b) = (f, fb)) {i : Component}
    (color : i ≠ 0) :
    (blending b fragment).c i =
      clampComponent (blendComponent (f.c i) (blendFactor b.sf b.blend.src f fb i) (fb.c i)
        (blendFactor b.df b.blend.dst f fb i)) (f.s i) := by
  rw [blending_eq b fragment rescaled]
  simp only
  split_ifs
  all_goals
    rw [blendAlpha_of_ne _ _ _ _ color, blendColours_of_ne _ _ _ _ color]
    rfl

theorem complement_zero (r : Component → Nat) (src : Pixel) {dst : Pixel}
    (none : dst.s 0 = 0) (i : Component) :
    blendFactor r GGL.oneMinusDstAlpha src dst i = 0 := by
  have whole : blendfactor (dst.c 0) (dst.s 0) 0x10000 = 0x10000 := by
    rw [none]
    rfl
  have read : blendFactor r GGL.oneMinusDstAlpha src dst =
      fun _ => sub32 0x10000 (blendfactor (dst.c 0) (dst.s 0) 0x10000) := rfl
  rw [read, whole]
  rfl

private theorem complement_one (r : Component → Nat) (src dst : Pixel) (i : Component) :
    blendFactor r (withoutAlpha GGL.oneMinusDstAlpha) src dst i = 0x10000 := rfl

theorem blendComponent_source {c : Nat} (hc : c < 2 ^ 24) (fd : Nat) :
    blendComponent c 0 0 fd = 0 ∧ blendComponent c 0x10000 0 fd = c := by
  rw [blendComponent_missing c 0 fd 0, blendComponent_missing c 0x10000 fd 0,
    blendComponent_eq hc (by decide) (by decide) (by decide),
    blendComponent_eq hc (by decide) (by decide) (by decide)]
  omega

private theorem blendComponent_destination {d : Nat} (hd : d < 2 ^ 24) (fs : Nat) :
    blendComponent 0 fs d 0 = 0 ∧ blendComponent 0 fs d 0x10000 = d := by
  have same (fd : Nat) : blendComponent 0 fs d fd = blendComponent 0 0 d fd := by
    have none : toInt32 0 = 0 := rfl
    unfold blendComponent Fixed.gglMulAddx
    rw [none, zero_mul, zero_mul]
  rw [same, same, blendComponent_eq (by decide) hd (by decide) (by decide),
    blendComponent_eq (by decide) hd (by decide) (by decide)]
  omega

theorem clampComponent_fits {c s : Nat} (fits : c < 2 ^ s) : clampComponent c s = c := by
  rw [clampComponent_eq]
  omega

def white : Pixel where
  c _ := 0xFF
  s _ := 8

def black : Pixel where
  c _ := 0
  s _ := 8

private def probe (f : Format) (blend : Blend) (word : Nat) : Blending where
  blend := blend
  format := f
  word := word
  sf _ := 0
  df _ := 0

private theorem probes : ∀ f, ((formats f).c 0).h = 0 → formatBits f 1 ≠ 0 →
    let above := rescalePixels white (readDestination (probe f {} 0))
    let below := rescalePixels black (readDestination (probe f {} 0xFFFFFFFF))
    (above.2.c 1 = 0 ∧ 0 < above.1.c 1 ∧ above.1.c 1 < 2 ^ above.1.s 1 ∧ above.1.s 1 ≤ 24) ∧
      (below.1.c 1 = 0 ∧ 0 < below.2.c 1 ∧ below.2.c 1 < 2 ^ below.1.s 1 ∧ below.1.s 1 ≤ 24) := by
  decide +kernel

section

variable {f : Format} {blend : Blend} (none : ((formats f).c 0).h = 0) (red : formatBits f 1 ≠ 0)

include none

private theorem probe_red (blend : Blend) (word : Nat) (fragment : Pixel) {f' fb : Pixel}
    (rescaled : rescalePixels fragment (readDestination (probe f {} word)) = (f', fb)) :
    fb.s 0 = 0 ∧
    (blending (probe f blend word) fragment).c 1 =
      clampComponent (blendComponent (f'.c 1) (blendFactor (fun _ => 0) blend.src f' fb 1)
        (fb.c 1) (blendFactor (fun _ => 0) blend.dst f' fb 1)) (f'.s 1) ∧
    (blending (simplified (probe f blend word)) fragment).c 1 =
      clampComponent (blendComponent (f'.c 1)
        (blendFactor (fun _ => 0) (withoutAlpha blend.src) f' fb 1) (fb.c 1)
        (blendFactor (fun _ => 0) (withoutAlpha blend.dst) f' fb 1)) (f'.s 1) := by
  have alpha := (rescaled_alpha (b := probe f {} word) none fragment).1
  rw [rescaled] at alpha
  refine ⟨alpha, blending_color (probe f blend word) fragment rescaled (by decide), ?_⟩
  rw [blending_color (simplified (probe f blend word)) fragment rescaled (by decide),
    simplified_blend (b := probe f blend word) none]
  rfl

include red

private theorem source_differs (source : blend.src = GGL.oneMinusDstAlpha) :
    (blending (simplified (probe f blend 0)) white).c 1 ≠
      (blending (probe f blend 0) white).c 1 := by
  obtain ⟨⟨missing, some, fits, narrow⟩, -⟩ := probes f none red
  obtain ⟨f', fb, rescaled⟩ :
      ∃ f' fb, rescalePixels white (readDestination (probe f {} 0)) = (f', fb) := ⟨_, _, rfl⟩
  rw [rescaled] at missing some fits narrow
  obtain ⟨alpha, before, after⟩ := probe_red none blend 0 white rescaled
  have component : f'.c 1 < 2 ^ 24 := fits.trans_le (Nat.pow_le_pow_right (by decide) narrow)
  rw [before, after, source, complement_one, complement_zero _ _ alpha, missing,
    (blendComponent_source component _).1, (blendComponent_source component _).2,
    clampComponent_fits fits, clampComponent_fits (Nat.two_pow_pos _)]
  exact Nat.ne_of_gt some

private theorem destination_differs (destination : blend.dst = GGL.oneMinusDstAlpha) :
    (blending (simplified (probe f blend 0xFFFFFFFF)) black).c 1 ≠
      (blending (probe f blend 0xFFFFFFFF) black).c 1 := by
  obtain ⟨-, missing, some, fits, narrow⟩ := probes f none red
  obtain ⟨f', fb, rescaled⟩ :
      ∃ f' fb, rescalePixels black (readDestination (probe f {} 0xFFFFFFFF)) = (f', fb) :=
    ⟨_, _, rfl⟩
  rw [rescaled] at missing some fits narrow
  obtain ⟨alpha, before, after⟩ := probe_red none blend 0xFFFFFFFF black rescaled
  have component : fb.c 1 < 2 ^ 24 := fits.trans_le (Nat.pow_le_pow_right (by decide) narrow)
  rw [before, after, destination, complement_one, complement_zero _ _ alpha, missing,
    (blendComponent_destination component _).1, (blendComponent_destination component _).2,
    clampComponent_fits fits, clampComponent_fits (Nat.two_pow_pos _)]
  exact Nat.ne_of_gt some

omit red

private theorem alpha_differs (separate : blend.alphaSeparate = true)
    (source : blend.srcAlpha = GGL.oneMinusDstAlpha) :
    (blending (simplified (probe f blend 0)) white).c 0 ≠
      (blending (probe f blend 0) white).c 0 := by
  obtain ⟨f', fb, rescaled⟩ :
      ∃ f' fb, rescalePixels white (readDestination (probe f blend 0)) = (f', fb) := ⟨_, _, rfl⟩
  have alpha := rescaled_alpha (b := probe f blend 0) none white
  rw [rescaled] at alpha
  have own : f'.c 0 = 0xFF ∧ f'.s 0 = 8 := by
    have size := (readDestination_alpha (b := probe f blend 0) none).1
    have fragment : (rescalePixels white (readDestination (probe f blend 0))).1 = f' := by
      rw [rescaled]
    rw [← fragment]
    simp [rescalePixels, rescale, size, white]
  have whole := simplified_blend (b := probe f blend 0) none
  have before : (probe f blend 0).blend.srcAlpha = GGL.oneMinusDstAlpha := source
  have joint : (probe f blend 0).blend.alphaSeparate = true := separate
  rw [blending_eq (probe f blend 0) white rescaled,
    blending_eq (simplified (probe f blend 0)) white rescaled, whole]
  simp only [if_pos joint, before]
  have component : (0xFF : Nat) < 2 ^ 24 := by decide
  have colours (s d : Component → Nat) : (blendColours f' fb s d).c 0 = 0xFF := own.1
  rw [blendAlpha_zero, blendAlpha_zero, complement_one, complement_zero _ _ alpha.1, alpha.2,
    colours, colours, (blendComponent_source component _).1, (blendComponent_source component _).2]
  have size (s d : Component → Nat) : (blendColours f' fb s d).s 0 = 8 := own.2
  rw [size, size]
  decide

end

/-- For a destination without alpha the key stands for the same colours exactly when neither factor
is the complement of the missing alpha, and for the same alpha of the fragment exactly when its own
source factor is not either. -/
theorem simplify_iff (f : Format) (none : ((formats f).c 0).h = 0) (red : formatBits f 1 ≠ 0)
    (blend : Blend) :
    (SameColours f blend ↔
      blend.src ≠ GGL.oneMinusDstAlpha ∧ blend.dst ≠ GGL.oneMinusDstAlpha) ∧
    (SamePixels f blend ↔
      (blend.src ≠ GGL.oneMinusDstAlpha ∧ blend.dst ≠ GGL.oneMinusDstAlpha) ∧
        (blend.alphaSeparate = true → blend.srcAlpha ≠ GGL.oneMinusDstAlpha)) := by
  have needed (same : SameColours f blend) :
      blend.src ≠ GGL.oneMinusDstAlpha ∧ blend.dst ≠ GGL.oneMinusDstAlpha :=
    ⟨fun source => source_differs none red source (same (probe f blend 0) rfl rfl white 1 red),
      fun destination => destination_differs none red destination
        (same (probe f blend 0xFFFFFFFF) rfl rfl black 1 red)⟩
  constructor
  · refine ⟨needed, ?_⟩
    rintro ⟨source, destination⟩ b rfl rfl fragment i present
    have color : i ≠ 0 := by
      rintro rfl
      exact present (noAlpha_bits _ none)
    exact simplified_colours none source destination fragment color
  · constructor
    · intro same
      refine ⟨needed fun b hf hb fragment i _ => same b hf hb fragment i, ?_⟩
      intro separate source
      exact alpha_differs none separate source (same (probe f blend 0) rfl rfl white 0)
    · rintro ⟨⟨source, destination⟩, sourceAlpha⟩ b rfl rfl fragment i
      by_cases alpha : i = 0
      · subst alpha
        exact simplified_alpha none source destination fragment sourceAlpha
      · exact simplified_colours none source destination fragment alpha

private def overAlpha (src : GLenum) : Blend := ⟨src, GGL.zero, src, GGL.zero, false⟩

theorem simplify_iff_rgb565 : SameColours Format.rgb565 (overAlpha GGL.dstAlpha) :=
  (simplify_iff Format.rgb565 (by decide) (by decide) (overAlpha GGL.dstAlpha)).1.2 (by decide)

/-- White stays white with the factor of the key, and is black with the factor that was set. -/
theorem complement_differs : ¬SameColours Format.rgb565 (overAlpha GGL.oneMinusDstAlpha) := by
  intro same
  have red := same (probe Format.rgb565 (overAlpha GGL.oneMinusDstAlpha) 0) rfl rfl white 1
    (by decide)
  revert red
  decide +kernel

end RabbitRender.Pixelflinger.BlendSimplification
