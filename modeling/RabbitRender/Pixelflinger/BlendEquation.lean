/- RabbitRender/Pixelflinger/BlendEquation
   layer: model and proofs
   source: include/pixelflinger.h, libpixelflinger/scanline.cpp
   digest: Blending with factors that may not be assigned, and the factors for which it is the
     equation of the standard. -/

import Mathlib.Algebra.Order.Field.Rat
import Mathlib.Data.Option.NAry
import Mathlib.Data.Rat.Cast.Order
import Mathlib.Tactic.FieldSimp
import RabbitRender.Pixelflinger.ComponentRange

set_option autoImplicit false

namespace RabbitRender.Pixelflinger.BlendEquation

open RabbitRender.GL (GLenum)
open Pixelflinger.State Pixelflinger.Pixels Pixelflinger.Fragment Pixelflinger.Widths
open Pixelflinger.ComponentRange

/-- The factors for which `blend_factor` assigns `r`. -/
def assignedFactors : List GLenum :=
  [GGL.zero, GGL.one, GGL.dstColor, GGL.srcColor, GGL.oneMinusDstColor, GGL.oneMinusSrcColor,
    GGL.srcAlpha, GGL.oneMinusSrcAlpha, GGL.dstAlpha, GGL.oneMinusDstAlpha]

def blendFactors : List GLenum := GGL.srcAlphaSaturate :: assignedFactors

/-- What `blend_factor` assigns to `r`, if anything. -/
def assignment (factor : GLenum) (src dst : Pixel) : Option (Component → Nat) :=
  if factor ∈ assignedFactors then some (blendFactor (fun _ => 0) factor src dst) else none

def blendColours (fragment fb : Pixel) (sf df : Component → Nat) : Pixel where
  c i := if i = 0 then fragment.c 0 else blendComponent (fragment.c i) (sf i) (fb.c i) (df i)
  s := fragment.s

def blendAlpha (colours fb : Pixel) (sf df : Component → Nat) : Pixel where
  c i := clampComponent (Function.update colours.c 0
    (blendComponent (colours.c 0) (sf 0) (fb.c 0) (df 0)) i) (colours.s i)
  s := colours.s

/-- The sum of pixels of the same sizes, with no result where a factor is read that its call of
`blend_factor` has not assigned. -/
def blendTraced (blend : Blend) (fragment fb : Pixel) : Option Pixel :=
  let sf := assignment blend.src fragment fb
  let df := assignment blend.dst fragment fb
  (Option.map₂ (blendColours fragment fb) sf df).bind fun colours =>
    if blend.alphaSeparate then
      Option.map₂ (blendAlpha colours fb) (assignment blend.srcAlpha colours fb)
        (assignment blend.dstAlpha colours fb)
    else Option.map₂ (blendAlpha colours fb) sf df

/-- `blending`, which has no result where it reads a factor that is not assigned. -/
def blendingTraced (b : Blending) (fragment : Pixel) : Option Pixel :=
  let (fragment, fb) := rescalePixels fragment (readDestination b)
  blendTraced b.blend fragment fb

variable {factor : GLenum} {f fb fragment : Pixel} {b : Blending} {c s d size : Nat} {x : Nat × Nat}
    {i : Component} {blend : Blend}

theorem blendFactor_assigned (assigned : factor ∈ assignedFactors) (r r' : Component → Nat)
    (src dst : Pixel) : blendFactor r factor src dst = blendFactor r' factor src dst := by
  simp only [assignedFactors, List.mem_cons, List.not_mem_nil, or_false] at assigned
  rcases assigned with rfl | rfl | rfl | rfl | rfl | rfl | rfl | rfl | rfl | rfl <;> rfl

theorem assignment_some {src dst : Pixel} {f : Component → Nat}
    (assigns : assignment factor src dst = some f) :
    factor ∈ assignedFactors ∧ ∀ r, blendFactor r factor src dst = f := by
  unfold assignment at assigns
  split at assigns
  · rename_i assigned
    refine ⟨assigned, fun r => ?_⟩
    rw [← Option.some.inj assigns]
    exact blendFactor_assigned assigned _ _ _ _
  · contradiction

theorem assignment_of_mem (assigned : factor ∈ assignedFactors) (src dst : Pixel) :
    assignment factor src dst = some (blendFactor (fun _ => 0) factor src dst) := if_pos assigned

theorem blending_eq (b : Blending) (fragment : Pixel)
    (rescaled : rescalePixels fragment (readDestination b) = (f, fb)) :
    blending b fragment =
      (let sf := blendFactor b.sf b.blend.src f fb
      let df := blendFactor b.df b.blend.dst f fb
      let colours := blendColours f fb sf df
      if b.blend.alphaSeparate then
        blendAlpha colours fb (blendFactor sf b.blend.srcAlpha colours fb)
          (blendFactor df b.blend.dstAlpha colours fb)
      else blendAlpha colours fb sf df) := by
  simp only [blending, rescaled]
  cases b.blend.alphaSeparate <;> rfl

theorem blendingTraced_sound {p : Pixel} (traced : blendingTraced b fragment = some p) :
    blending b fragment = p := by
  obtain ⟨f, fb, rescaled⟩ : ∃ f fb, rescalePixels fragment (readDestination b) = (f, fb) :=
    ⟨_, _, rfl⟩
  rw [blending_eq b fragment rescaled]
  simp only [blendingTraced, rescaled] at traced
  obtain ⟨colours, mixed, result⟩ := Option.bind_eq_some_iff.mp traced
  obtain ⟨s, d, source, destination, rfl⟩ := Option.map₂_eq_some_iff.mp mixed
  simp only [(assignment_some source).2, (assignment_some destination).2]
  by_cases separate : b.blend.alphaSeparate = true
  · rw [if_pos separate] at result ⊢
    obtain ⟨s', d', source', destination', same⟩ := Option.map₂_eq_some_iff.mp result
    rw [(assignment_some source').2, (assignment_some destination').2, same]
  · rw [if_neg separate, source, destination] at result
    rw [if_neg separate]
    exact Option.some.inj result

/-- The factors of the standard, of components that are numbers from 0 to 1. A destination without
alpha is opaque. -/
def glFactor (factor : GLenum) (src dst : Pixel) (i : Component) : ℚ :=
  let unit (p : Pixel) (j : Component) : ℚ := p.c j / (2 ^ p.s j - 1)
  let alpha (p : Pixel) : ℚ := if p.s 0 = 0 then 1 else unit p 0
  if factor = GGL.zero then 0
  else if factor = GGL.one then 1
  else if factor = GGL.dstColor then unit dst i
  else if factor = GGL.srcColor then unit src i
  else if factor = GGL.oneMinusDstColor then 1 - unit dst i
  else if factor = GGL.oneMinusSrcColor then 1 - unit src i
  else if factor = GGL.srcAlpha then alpha src
  else if factor = GGL.oneMinusSrcAlpha then 1 - alpha src
  else if factor = GGL.dstAlpha then alpha dst
  else if factor = GGL.oneMinusDstAlpha then 1 - alpha dst
  else if i = 0 then 1
  else min (alpha src) (1 - alpha dst)

def Near (f : Nat) (q : ℚ) : Prop := f ≤ 2 ^ 16 ∧ |(f : ℚ) - 2 ^ 16 * q| < 1

theorem near_zero : Near 0 0 := ⟨by decide, by norm_num⟩

theorem near_one : Near 0x10000 1 := ⟨by decide, by norm_num⟩

theorem near_complement {f : Nat} {q : ℚ} (near : Near f q) : Near (sub32 0x10000 f) (1 - q) := by
  obtain ⟨bound, close⟩ := near
  have difference : sub32 0x10000 f = 0x10000 - f := sub32_eq bound (by decide)
  rw [difference]
  refine ⟨Nat.sub_le _ _, ?_⟩
  have distance : ((0x10000 - f : Nat) : ℚ) - 2 ^ 16 * (1 - q) = -((f : ℚ) - 2 ^ 16 * q) := by
    rw [Nat.cast_sub (n := 0x10000) bound]
    push_cast
    ring
  rw [distance, abs_neg]
  exact close

private theorem gglExpand_wide (low : 8 < s) (high : s < 16) (hc : c < 2 ^ s) :
    gglExpand c s 16 = c * 2 ^ (16 - s) + c / 2 ^ (2 * s - 16) := by
  have fits : c * 2 ^ (16 - s) < 2 ^ 32 := by
    calc c * 2 ^ (16 - s) < 2 ^ s * 2 ^ (16 - s) :=
          Nat.mul_lt_mul_of_pos_right hc (Nat.two_pow_pos _)
      _ = 2 ^ 16 := by rw [← Nat.pow_add, Nat.add_sub_cancel' high.le]
      _ < 2 ^ 32 := by decide
  have odd : 16 % s ≠ 0 := by
    rw [Nat.mod_eq_sub_mod high.le, Nat.mod_eq_of_lt (by omega)]
    omega
  have shift : (c <<< (16 - s)) >>> s = c / 2 ^ (2 * s - 16) := by
    have apart : s = 16 - s + (2 * s - 16) := by omega
    rw [Nat.shiftLeft_eq, Nat.shiftRight_eq_div_pow]
    nth_rewrite 2 [apart]
    rw [Nat.pow_add, ← Nat.div_div_eq_div_mul, Nat.mul_div_cancel _ (Nat.two_pow_pos _)]
  have small : c / 2 ^ (2 * s - 16) < 2 ^ (16 - s) := by
    rw [Nat.div_lt_iff_lt_mul (Nat.two_pow_pos _), ← Nat.pow_add]
    have total : 16 - s + (2 * s - 16) = s := by omega
    rw [total]
    exact hc
  unfold gglExpand
  rw [if_pos high, if_neg (by omega), if_pos odd, Nat.shiftLeft_eq, u32_eq fits]
  simp only [smearRight]
  rw [if_pos (by omega), ← Nat.shiftLeft_eq, shift, ← Nat.shiftLeft_add_eq_or_of_lt small,
    Nat.shiftLeft_eq]

/-- The scaled component is less than a unit of 16.16 away from `c / (2 ^ s - 1)`. -/
def Close (c s x : Nat) : Prop :=
  x ≤ 2 ^ 16 ∧ x * (2 ^ s - 1) < c * 2 ^ 16 + (2 ^ s - 1) ∧
    c * 2 ^ 16 < x * (2 ^ s - 1) + (2 ^ s - 1)

instance (c s x : Nat) : Decidable (Close c s x) := inferInstanceAs (Decidable (_ ∧ _))

private theorem close_narrow : ∀ s ∈ [1, 2, 3, 4, 5, 6, 8], ∀ c < 2 ^ s,
    Close c s (blendfactor c s 0) := by decide +kernel

private theorem scaled16 {x : Nat} (hx : x < 2 ^ 16) :
    (x < 2 ^ 15 ∧ u32 (x + x >>> 15) = x) ∨ (2 ^ 15 ≤ x ∧ u32 (x + x >>> 15) = x + 1) := by
  rw [Nat.shiftRight_eq_div_pow]
  by_cases half : x < 2 ^ 15
  · left
    rw [Nat.div_eq_of_lt half]
    exact ⟨half, u32_eq (by omega)⟩
  · right
    have one : x / 2 ^ 15 = 1 := by omega
    rw [one]
    exact ⟨by omega, u32_eq (by omega)⟩

private theorem close_wide (hs : s ∈ [9, 10, 11, 12, 13, 14]) (hc : c < 2 ^ s) :
    Close c s (blendfactor c s 0) := by
  simp only [List.mem_cons, List.not_mem_nil, or_false] at hs
  obtain ⟨x, expanded⟩ : ∃ x, x = c * 2 ^ (16 - s) + c / 2 ^ (2 * s - 16) := ⟨_, rfl⟩
  have value : blendfactor c s 0 = u32 (x + x >>> 15) := by
    rw [expanded, ← gglExpand_wide (by omega) (by omega) hc]
    unfold blendfactor
    rw [if_neg (by omega)]
    simp only
    rw [if_neg (by omega)]
  have fits : x < 2 ^ 16 := by
    rcases hs with rfl | rfl | rfl | rfl | rfl | rfl <;> omega
  rw [value]
  unfold Close
  rcases scaled16 fits with ⟨half, same⟩ | ⟨half, same⟩
  all_goals
    rw [same]
    rcases hs with rfl | rfl | rfl | rfl | rfl | rfl <;> omega

private theorem close_full (hc : c < 2 ^ 16) : Close c 16 (blendfactor c 16 0) := by
  have value : blendfactor c 16 0 = u32 (c + c >>> 15) := rfl
  rw [value]
  unfold Close
  rcases scaled16 hc with ⟨half, same⟩ | ⟨half, same⟩
  · rw [same]
    omega
  · rw [same]
    omega

private theorem close_depth (hc : c < 2 ^ 24) : Close c 24 (blendfactor c 24 0) := by
  have value : blendfactor c 24 0 = u32 (c >>> 8 + (c >>> 8) >>> 15) := rfl
  have top : c >>> 8 = c / 2 ^ 8 := Nat.shiftRight_eq_div_pow c 8
  rw [value]
  unfold Close
  rcases scaled16 (x := c >>> 8) (by omega) with ⟨half, same⟩ | ⟨half, same⟩
  · rw [same]
    omega
  · rw [same]
    omega

theorem blendfactor_close (hs : s ∈ sizes) (hc : c < 2 ^ s) (default : Nat) :
    Close c s (blendfactor c s default) := by
  have some : s ≠ 0 := by
    have := sizes_bounds s hs
    omega
  have same : blendfactor c s default = blendfactor c s 0 := by
    unfold blendfactor
    rw [if_neg some, if_neg some]
  rw [same]
  have kinds : s ∈ [1, 2, 3, 4, 5, 6, 8] ∨ s ∈ [9, 10, 11, 12, 13, 14] ∨ s = 16 ∨ s = 24 := by
    simp only [sizes, List.mem_cons, List.not_mem_nil, or_false] at hs ⊢
    omega
  rcases kinds with narrow | wide | rfl | rfl
  · exact close_narrow s narrow c hc
  · exact close_wide wide hc
  · exact close_full hc
  · exact close_depth hc

theorem blendfactor_near (hs : s ∈ sizes) (hc : c < 2 ^ s) (default : Nat) :
    Near (blendfactor c s default) (c / (2 ^ s - 1)) := by
  obtain ⟨bound, above, below⟩ := blendfactor_close hs hc default
  have range := sizes_bounds s hs
  have power : 2 ^ 1 ≤ 2 ^ s := Nat.pow_le_pow_right (by decide) range.1
  have units : ((2 ^ s - 1 : Nat) : ℚ) = 2 ^ s - 1 := by
    rw [Nat.cast_sub (by omega)]
    push_cast
    rfl
  have pos : (0 : ℚ) < 2 ^ s - 1 := by
    rw [← units]
    exact_mod_cast (by omega : 0 < 2 ^ s - 1)
  have above' : (blendfactor c s default : ℚ) * (2 ^ s - 1) < c * 2 ^ 16 + (2 ^ s - 1) := by
    rw [← units]
    exact_mod_cast above
  have below' : (c : ℚ) * 2 ^ 16 < blendfactor c s default * (2 ^ s - 1) + (2 ^ s - 1) := by
    rw [← units]
    exact_mod_cast below
  refine ⟨bound, ?_⟩
  have distance : (blendfactor c s default : ℚ) - 2 ^ 16 * (c / (2 ^ s - 1)) =
      (blendfactor c s default * (2 ^ s - 1) - c * 2 ^ 16) / (2 ^ s - 1) := by
    field_simp
  rw [distance, abs_lt, lt_div_iff₀ pos, div_lt_iff₀ pos]
  constructor
  · linarith
  · linarith

structure Common (f fb : Pixel) : Prop where
  src : ∀ i, f.s i ∈ sizes ∧ f.c i < 2 ^ f.s i
  dst : ∀ i, fb.s i ≠ 0 → fb.s i ∈ sizes ∧ fb.c i < 2 ^ fb.s i

private theorem alpha_near {p : Pixel} (fits : p.s 0 ≠ 0 → p.s 0 ∈ sizes ∧ p.c 0 < 2 ^ p.s 0) :
    Near (blendfactor (p.c 0) (p.s 0) 0x10000)
      (if p.s 0 = 0 then 1 else p.c 0 / (2 ^ p.s 0 - 1)) := by
  by_cases none : p.s 0 = 0
  · rw [if_pos none, none]
    exact near_one
  · rw [if_neg none]
    exact blendfactor_near (fits none).1 (fits none).2 0x10000

theorem factor_near (common : Common f fb) (assigned : factor ∈ assignedFactors)
    (r : Component → Nat) (present : fb.s i ≠ 0) :
    Near (blendFactor r factor f fb i) (glFactor factor f fb i) := by
  have source := blendfactor_near (common.src i).1 (common.src i).2 0
  have destination := blendfactor_near (common.dst i present).1 (common.dst i present).2 0
  have sourceAlpha := alpha_near fun _ => common.src 0
  have destinationAlpha := alpha_near (common.dst 0)
  simp only [assignedFactors, List.mem_cons, List.not_mem_nil, or_false] at assigned
  rcases assigned with rfl | rfl | rfl | rfl | rfl | rfl | rfl | rfl | rfl | rfl
  · exact near_zero
  · exact near_one
  · exact destination
  · exact source
  · exact near_complement destination
  · exact near_complement source
  · exact sourceAlpha
  · exact near_complement sourceAlpha
  · exact destinationAlpha
  · exact near_complement destinationAlpha

private theorem toInt32_eq {x : Nat} (h : x < 2 ^ 31) : toInt32 x = x := Fixed.wrap32_natCast h

private theorem truncated (c f : Nat) :
    ((c : Int) * f) >>> (16 : Nat) = (c * f / 2 ^ 16 : Nat) := by
  rw [Int.shiftRight_eq_div_pow]
  push_cast
  rfl

private theorem rounded (d f : Nat) :
    ((d : Int) * f + 2 ^ (16 - 1)) >>> (16 : Nat) = ((d * f + 2 ^ 15) / 2 ^ 16 : Nat) := by
  rw [Int.shiftRight_eq_div_pow]
  push_cast
  rfl

theorem blendComponent_eq {fs fd : Nat} (hc : c < 2 ^ 24) (hd : d < 2 ^ 24) (hs : fs ≤ 2 ^ 16)
    (hfd : fd ≤ 2 ^ 16) :
    blendComponent c fs d fd = c * fs / 2 ^ 16 + (d * fd + 2 ^ 15) / 2 ^ 16 := by
  have first : c * fs ≤ 2 ^ 24 * 2 ^ 16 := Nat.mul_le_mul hc.le hs
  have second : d * fd ≤ 2 ^ 24 * 2 ^ 16 := Nat.mul_le_mul hd.le hfd
  unfold blendComponent
  rw [toInt32_eq (by omega), toInt32_eq (by omega), toInt32_eq (by omega), toInt32_eq (by omega),
    Fixed.gglMulAddx, Fixed.gglMulx, truncated, rounded, Fixed.wrap32_natCast (by omega),
    Fixed.wrap32_natCast (by omega), ofInt32_eq (by omega) (by omega)]
  omega

theorem clampComponent_eq (c s : Nat) : clampComponent c s = min (2 ^ s - 1) c := by
  have := Nat.two_pow_pos s
  unfold clampComponent
  rw [Nat.one_shiftLeft]
  split <;> omega

/-- `min(max, s * fs + d * fd)`, with factors that are less than a unit off. -/
def Weighted (size c d : Nat) (qs qd : ℚ) (out : Nat) : Prop :=
  ∃ fs fd : Nat, Near fs qs ∧ Near fd qd ∧
    out = min (2 ^ size - 1) (c * fs / 2 ^ 16 + (d * fd + 2 ^ 15) / 2 ^ 16)

theorem weighted_of_near {fs fd : Nat} {qs qd : ℚ} (hc : c < 2 ^ 24) (hd : d < 2 ^ 24)
    (source : Near fs qs) (destination : Near fd qd) :
    Weighted s c d qs qd (clampComponent (blendComponent c fs d fd) s) := by
  refine ⟨fs, fd, source, destination, ?_⟩
  rw [clampComponent_eq, blendComponent_eq hc hd source.1 destination.1]

private def formatSizes : List Nat := [1, 2, 3, 4, 5, 6, 8, 16, 24]

private theorem formatBits_formatSizes :
    ∀ f j, formatBits f j ≠ 0 → formatBits f j ∈ formatSizes := by decide

private theorem formatSizes_sizes : ∀ s ∈ formatSizes, s ∈ sizes := by decide

private theorem formatSizes_widen :
    ∀ d ∈ formatSizes, ∀ s ∈ sizes, s < d → Widens s d := by decide

private theorem formatSizes_overshoot : ∀ s ∈ formatSizes, ∀ d ∈ sizes, s < d →
    Widens s d ∨ (s = 2 ∧ (d = 10 ∨ d = 14)) := by decide

private theorem readDestination_size (b : Blending) (i : Component) :
    (readDestination b).s i = formatBits b.format i := readWord_size _ _ _ _

theorem smearRight_top {turns v sbits dbits low : Nat} (hv : v < 2 ^ (low + size))
    (hs : size ≤ sbits) : smearRight turns v sbits dbits >>> low = v >>> low := by
  induction turns generalizing v sbits dbits with
  | zero => rfl
  | succ turns ih =>
    have below : v >>> sbits < 2 ^ low := by
      apply shiftRight_lt
      rw [← Nat.pow_add]
      exact hv.trans_le (Nat.pow_le_pow_right (by decide) (by omega))
    have top : (v ||| v >>> sbits) >>> low = v >>> low := by
      rw [Nat.shiftRight_or_distrib, Nat.shiftRight_eq_zero _ _ below, Nat.or_zero]
    have fits : v ||| v >>> sbits < 2 ^ (low + size) :=
      Nat.or_lt_two_pow hv ((Nat.shiftRight_le _ _).trans_lt hv)
    simp only [smearRight]
    split
    · exact top
    · rw [ih fits (by omega), top]

private theorem repeated_top : ∀ s ∈ sizes, ∀ d ∈ sizes, s < d → (s = 1 ∨ d % s = 0) →
    Widens s d → s ≤ 8 → ∀ c < 2 ^ s, gglExpand c s d >>> (d - s) = c := by
  decide +kernel

private theorem repeated_wide : ∀ s ∈ sizes, ∀ d ∈ sizes, s < d → (s = 1 ∨ d % s = 0) → 8 < s →
    s = 12 ∧ d = 24 := by
  decide

private theorem doubled_top (hc : c < 2 ^ 12) : gglExpand c 12 24 >>> (24 - 12) = c := by
  have fits : c ||| c <<< 12 < 2 ^ 24 := by
    refine Nat.or_lt_two_pow (hc.trans (by decide)) ?_
    rw [Nat.shiftLeft_eq]
    omega
  have value : gglExpand c 12 24 = u32 (c ||| c <<< 12) := rfl
  rw [value, u32_eq (fits.trans (by decide)), Nat.shiftRight_or_distrib,
    Nat.shiftRight_eq_zero _ _ hc, Nat.zero_or, Nat.shiftLeft_shiftRight]

theorem gglExpand_top (hs : s ∈ sizes) (hd : d ∈ sizes) (hc : c < 2 ^ s) (widens : Widens s d)
    (larger : s < d) : gglExpand c s d >>> (d - s) = c := by
  by_cases whole : s = 1 ∨ d % s = 0
  · by_cases narrow : s ≤ 8
    · exact repeated_top s hs d hd larger whole widens narrow c hc
    · obtain ⟨rfl, rfl⟩ := repeated_wide s hs d hd larger whole (by omega)
      exact doubled_top hc
  · obtain ⟨several, odd⟩ := not_or.mp whole
    have small := (sizes_bounds d hd).2
    have fits : c <<< (d - s) < 2 ^ (d - s + s) := by
      rw [Nat.shiftLeft_eq, Nat.pow_add, Nat.mul_comm]
      exact Nat.mul_lt_mul_of_pos_left hc (Nat.two_pow_pos _)
    have word : c <<< (d - s) < 2 ^ 32 :=
      fits.trans_le (Nat.pow_le_pow_right (by decide) (by omega))
    unfold gglExpand
    rw [if_pos larger, if_neg several, if_pos odd, u32_eq word, smearRight_top fits le_rfl,
      Nat.shiftLeft_shiftRight]

/-- A component brought to a size that is not smaller, with its own bits at the top. -/
structure Kept (x y : Nat × Nat) : Prop where
  larger : x.2 ≤ y.2
  range : y.1 < 2 ^ y.2
  top : y.1 >>> (y.2 - x.2) = x.1

theorem Kept.refl (range : x.1 < 2 ^ x.2) : Kept x x where
  larger := le_rfl
  range := range
  top := by rw [Nat.sub_self, Nat.shiftRight_zero]

theorem kept_expand (fits : Fits x) (known : size ∈ sizes) (widens : Widens x.2 size)
    (larger : x.2 < size) :
    Kept x (gglExpand x.1 x.2 size, size) where
  larger := larger.le
  range := gglExpand_lt fits.2 widens larger
  top := gglExpand_top fits.1 known fits.2 widens larger

theorem rescale_kept {y : Nat × Nat} (hx : Fits x) (hy : Fits y) (own : x.2 < y.2 → Widens x.2 y.2) :
    Kept x (rescale x.1 x.2 y.1 y.2).1 ∧
      (rescale x.1 x.2 y.1 y.2).1.2 = (rescale x.1 x.2 y.1 y.2).2.2 ∧
      (rescale x.1 x.2 y.1 y.2).1.2 ∈ sizes ∧
      (Kept y (rescale x.1 x.2 y.1 y.2).2 ↔
        (y.2 < x.2 → Kept y (gglExpand y.1 y.2 x.2, x.2))) := by
  have sized : x.2 ≠ 0 ∧ y.2 ≠ 0 := by
    have first := (sizes_bounds _ hx.1).1
    have second := (sizes_bounds _ hy.1).1
    omega
  unfold rescale
  rw [if_pos sized]
  split_ifs with smaller larger
  · exact ⟨Kept.refl hx.2, rfl, hx.1, fun kept _ => kept, fun kept => kept smaller⟩
  · exact ⟨kept_expand hx hy.1 (own larger) larger, rfl, hy.1,
      fun _ narrow => absurd narrow smaller, fun _ => Kept.refl hy.2⟩
  · exact ⟨Kept.refl hx.2, Nat.le_antisymm (Nat.le_of_not_lt smaller) (Nat.le_of_not_lt larger),
      hx.1, fun _ narrow => absurd narrow smaller, fun _ => Kept.refl hy.2⟩

/-- No component of two bits is brought to ten or fourteen bits, unless it is 0. -/
def Spared (b : Blending) (fragment : Pixel) : Prop :=
  ∀ i, formatBits b.format i = 2 → fragment.s i = 10 ∨ fragment.s i = 14 →
    (readDestination b).c i = 0

private theorem two_overshoots : ∀ c < 4,
    (gglExpand c 2 10 < 2 ^ 10 ↔ c = 0) ∧ (gglExpand c 2 14 < 2 ^ 14 ↔ c = 0) := by
  decide +kernel

private theorem two_kept (hc : c < 4) (overshoots : size = 10 ∨ size = 14) :
    Kept (c, 2) (gglExpand c 2 size, size) ↔ c = 0 := by
  obtain ⟨ten, fourteen⟩ := two_overshoots c hc
  rcases overshoots with rfl | rfl
  · refine ⟨fun kept => ten.mp kept.range, ?_⟩
    rintro rfl
    exact ⟨by decide, by decide, by decide⟩
  · refine ⟨fun kept => fourteen.mp kept.range, ?_⟩
    rintro rfl
    exact ⟨by decide, by decide, by decide⟩

private theorem readDestination_fits (b : Blending) (present : formatBits b.format i ≠ 0) :
    Fits (Pixel.get (readDestination b) i) := by
  have bits := readDestination_size b i
  refine ⟨?_, ?_⟩
  · change (readDestination b).s i ∈ sizes
    rw [bits]
    exact formatSizes_sizes _ (formatBits_formatSizes _ _ present)
  · change (readDestination b).c i < 2 ^ (readDestination b).s i
    rw [bits]
    exact readWord_lt _ _ _ _ present

private theorem rescaled_kept (sized : Sized fragment) (present : formatBits b.format i ≠ 0) :
    let f := (rescalePixels fragment (readDestination b)).1
    let fb := (rescalePixels fragment (readDestination b)).2
    Kept (Pixel.get fragment i) (Pixel.get f i) ∧ f.s i = fb.s i ∧ f.s i ∈ sizes ∧
      (Kept (Pixel.get (readDestination b) i) (Pixel.get fb i) ↔
        (formatBits b.format i = 2 → fragment.s i = 10 ∨ fragment.s i = 14 →
          (readDestination b).c i = 0)) := by
  have bits := readDestination_size b i
  have fits := readDestination_fits b present
  have own : fragment.s i < (readDestination b).s i →
      Widens (fragment.s i) ((readDestination b).s i) := by
    rw [bits]
    exact formatSizes_widen _ (formatBits_formatSizes _ _ present) _ (sized i).1
  obtain ⟨kept, same, known, destination⟩ := rescale_kept (sized i) fits own
  refine ⟨kept, same, known, destination.trans ?_⟩
  change ((readDestination b).s i < fragment.s i → Kept ((readDestination b).c i,
    (readDestination b).s i) (gglExpand ((readDestination b).c i) ((readDestination b).s i)
      (fragment.s i), fragment.s i)) ↔ _
  have small : (readDestination b).c i < 2 ^ (readDestination b).s i := fits.2
  by_cases two : formatBits b.format i = 2 ∧ (fragment.s i = 10 ∨ fragment.s i = 14)
  · have size : (readDestination b).s i = 2 := bits.trans two.1
    rw [size] at small ⊢
    have overshoots := two_kept small two.2
    have larger : 2 < fragment.s i := by omega
    exact ⟨fun expanded _ _ => overshoots.mp (expanded larger),
      fun zero _ => overshoots.mpr (zero two.1 two.2)⟩
  · refine ⟨fun _ bits' wide => absurd ⟨bits', wide⟩ two, fun _ larger => ?_⟩
    have widens : Widens ((readDestination b).s i) (fragment.s i) := by
      rw [bits] at larger ⊢
      exact (formatSizes_overshoot _ (formatBits_formatSizes _ _ present) _ (sized i).1
        larger).resolve_right two
    exact kept_expand fits (sized i).1 widens larger

theorem rescalePixels_common (sized : Sized fragment) (spared : Spared b fragment) :
    Common (rescalePixels fragment (readDestination b)).1
      (rescalePixels fragment (readDestination b)).2 where
  src := by
    intro i
    by_cases present : formatBits b.format i = 0
    · have absent : (readDestination b).s i = 0 := (readDestination_size b i).trans present
      have same : rescale (fragment.c i) (fragment.s i) ((readDestination b).c i)
          ((readDestination b).s i) = ((fragment.c i, fragment.s i),
            ((readDestination b).c i, (readDestination b).s i)) := by
        simp [rescale, absent]
      simp only [rescalePixels, same]
      exact sized i
    · obtain ⟨kept, -, known, -⟩ := rescaled_kept sized present
      exact ⟨known, kept.range⟩
  dst := by
    intro i some
    have present : formatBits b.format i ≠ 0 := by
      intro none
      have absent : (readDestination b).s i = 0 := (readDestination_size b i).trans none
      apply some
      simp [rescalePixels, rescale, absent]
    obtain ⟨-, same, known, kept⟩ := rescaled_kept sized present
    exact ⟨same ▸ known, (kept.mpr (spared i)).range⟩

private theorem rescaled_present (sized : Sized fragment) (present : formatBits b.format i ≠ 0) :
    (rescalePixels fragment (readDestination b)).2.s i ≠ 0 := by
  obtain ⟨-, same, known, -⟩ := rescaled_kept sized present
  rw [← same]
  exact Nat.ne_of_gt (sizes_bounds _ known).1

def factorsOf (blend : Blend) (i : Component) : GLenum × GLenum :=
  if blend.alphaSeparate = true ∧ i = 0 then (blend.srcAlpha, blend.dstAlpha)
  else (blend.src, blend.dst)

/-- The factors `blending` asks for. -/
def usedFactors (blend : Blend) : List GLenum :=
  if blend.alphaSeparate then [blend.src, blend.dst, blend.srcAlpha, blend.dstAlpha]
  else [blend.src, blend.dst]

theorem forall_usedFactors {P : GLenum → Prop} :
    (∀ factor ∈ usedFactors blend, P factor) ↔
      P blend.src ∧ P blend.dst ∧
        (blend.alphaSeparate = true → P blend.srcAlpha ∧ P blend.dstAlpha) := by
  unfold usedFactors
  by_cases separate : blend.alphaSeparate = true
  · simp [separate]
  · simp [separate]

/-- No factor is read before it is assigned, and the components of the destination are those of the
blending equation, of fragment and destination brought to the larger of their sizes. -/
def Blends (b : Blending) (fragment : Pixel) : Prop :=
  let fb := readDestination b
  let f' := (rescalePixels fragment fb).1
  let fb' := (rescalePixels fragment fb).2
  blendingTraced b fragment = some (blending b fragment) ∧ ∀ i, formatBits b.format i ≠ 0 →
    Kept (Pixel.get fragment i) (Pixel.get f' i) ∧ Kept (Pixel.get fb i) (Pixel.get fb' i) ∧
    f'.s i = fb'.s i ∧
    Weighted (f'.s i) (f'.c i) (fb'.c i) (glFactor (factorsOf b.blend i).1 f' fb' i)
      (glFactor (factorsOf b.blend i).2 f' fb' i) ((blending b fragment).c i)

private theorem blendFactor_alpha (assigned : factor ∈ assignedFactors) (r : Component → Nat)
    {src src' : Pixel} (dst : Pixel) (c : src.c 0 = src'.c 0) (s : src.s 0 = src'.s 0) :
    blendFactor r factor src dst 0 = blendFactor r factor src' dst 0 := by
  simp only [assignedFactors, List.mem_cons, List.not_mem_nil, or_false] at assigned
  have own (default : Nat) : blendfactor (src.c 0) (src.s 0) default =
      blendfactor (src'.c 0) (src'.s 0) default := by rw [c, s]
  rcases assigned with rfl | rfl | rfl | rfl | rfl | rfl | rfl | rfl | rfl | rfl
  · rfl
  · rfl
  · rfl
  · exact own 0
  · rfl
  · exact congrArg (sub32 0x10000) (own 0)
  · exact own 0x10000
  · exact congrArg (sub32 0x10000) (own 0x10000)
  · rfl
  · rfl

private theorem blendFactor_blendColours (assigned : factor ∈ assignedFactors) (r : Component → Nat)
    (f fb : Pixel) (s d : Component → Nat) :
    blendFactor r factor (blendColours f fb s d) fb 0 = blendFactor r factor f fb 0 :=
  blendFactor_alpha assigned r fb rfl rfl

theorem blendColours_of_ne (f fb : Pixel) (s d : Component → Nat) (color : i ≠ 0) :
    (blendColours f fb s d).c i = blendComponent (f.c i) (s i) (fb.c i) (d i) := if_neg color

theorem blendAlpha_of_ne (colours fb : Pixel) (s d : Component → Nat) (color : i ≠ 0) :
    (blendAlpha colours fb s d).c i = clampComponent (colours.c i) (colours.s i) := by
  simp only [blendAlpha, Function.update_of_ne color]

theorem blendAlpha_zero (colours fb : Pixel) (s d : Component → Nat) :
    (blendAlpha colours fb s d).c 0 =
      clampComponent (blendComponent (colours.c 0) (s 0) (fb.c 0) (d 0)) (colours.s 0) := by
  simp only [blendAlpha, Function.update_self]

private theorem factorsOf_of_not (blend : Blend) (joint : ¬(blend.alphaSeparate = true ∧ i = 0)) :
    factorsOf blend i = (blend.src, blend.dst) := if_neg joint

private theorem weighted_component (common : Common f fb) {src dst : GLenum}
    (source : src ∈ assignedFactors) (destination : dst ∈ assignedFactors) (present : fb.s i ≠ 0)
    (r r' : Component → Nat) :
    Weighted (f.s i) (f.c i) (fb.c i) (glFactor src f fb i) (glFactor dst f fb i)
      (clampComponent (blendComponent (f.c i) (blendFactor r src f fb i) (fb.c i)
        (blendFactor r' dst f fb i)) (f.s i)) := by
  have own := common.src i
  have other := common.dst i present
  have source_lt : f.c i < 2 ^ 24 := own.2.trans_le (two_pow_le own.1)
  have destination_lt : fb.c i < 2 ^ 24 := other.2.trans_le (two_pow_le other.1)
  exact weighted_of_near source_lt destination_lt (factor_near common source r present)
    (factor_near common destination r' present)

private theorem blended_joint (common : Common f fb) (source : blend.src ∈ assignedFactors)
    (destination : blend.dst ∈ assignedFactors) (present : fb.s i ≠ 0)
    (joint : ¬(blend.alphaSeparate = true ∧ i = 0)) {s d : Component → Nat}
    (alpha : i = 0 → s = blendFactor (fun _ => 0) blend.src f fb ∧
      d = blendFactor (fun _ => 0) blend.dst f fb) :
    Weighted (f.s i) (f.c i) (fb.c i) (glFactor (factorsOf blend i).1 f fb i)
      (glFactor (factorsOf blend i).2 f fb i)
      ((blendAlpha (blendColours f fb (blendFactor (fun _ => 0) blend.src f fb)
        (blendFactor (fun _ => 0) blend.dst f fb)) fb s d).c i) := by
  have weighted := weighted_component common source destination present (fun _ => 0) (fun _ => 0)
  rw [factorsOf_of_not blend joint]
  by_cases zero : i = 0
  · obtain ⟨hs, hd⟩ := alpha zero
    subst zero
    rw [blendAlpha_zero, hs, hd]
    exact weighted
  · rw [blendAlpha_of_ne _ _ _ _ zero, blendColours_of_ne _ _ _ _ zero]
    exact weighted

private theorem blendTraced_weighted (common : Common f fb)
    (assigned : ∀ factor ∈ usedFactors blend, factor ∈ assignedFactors) :
    ∃ p, blendTraced blend f fb = some p ∧ ∀ i, fb.s i ≠ 0 →
      Weighted (f.s i) (f.c i) (fb.c i) (glFactor (factorsOf blend i).1 f fb i)
        (glFactor (factorsOf blend i).2 f fb i) (p.c i) := by
  obtain ⟨source, destination, alphas⟩ := forall_usedFactors.mp assigned
  unfold blendTraced
  rw [assignment_of_mem source, assignment_of_mem destination]
  by_cases separate : blend.alphaSeparate = true
  · obtain ⟨sourceAlpha, destinationAlpha⟩ := alphas separate
    simp only [Option.map₂_some_some, Option.bind_some, if_pos separate]
    rw [assignment_of_mem sourceAlpha, assignment_of_mem destinationAlpha]
    refine ⟨_, rfl, fun i present => ?_⟩
    by_cases zero : i = 0
    · subst zero
      have factors : factorsOf blend 0 = (blend.srcAlpha, blend.dstAlpha) :=
        if_pos ⟨separate, rfl⟩
      have weighted := weighted_component common sourceAlpha destinationAlpha present
        (fun _ => 0) (fun _ => 0)
      rw [blendAlpha_zero, factors, blendFactor_blendColours sourceAlpha,
        blendFactor_blendColours destinationAlpha]
      exact weighted
    · exact blended_joint common source destination present (fun both => zero both.2)
        fun alpha => absurd alpha zero
  · simp only [Option.map₂_some_some, Option.bind_some, if_neg separate]
    refine ⟨_, rfl, fun i present => ?_⟩
    exact blended_joint common source destination present (fun both => separate both.1)
      fun _ => ⟨rfl, rfl⟩

private theorem blends_assigned (blends : Blends b fragment) :
    ∀ factor ∈ usedFactors b.blend, factor ∈ assignedFactors := by
  obtain ⟨traced, -⟩ := blends
  obtain ⟨colours, mixed, result⟩ := Option.bind_eq_some_iff.mp traced
  obtain ⟨s, d, source, destination, -⟩ := Option.map₂_eq_some_iff.mp mixed
  refine forall_usedFactors.mpr ⟨(assignment_some source).1, (assignment_some destination).1, ?_⟩
  intro separate
  rw [if_pos separate] at result
  obtain ⟨s', d', source', destination', -⟩ := Option.map₂_eq_some_iff.mp result
  exact ⟨(assignment_some source').1, (assignment_some destination').1⟩

private theorem assigned_of_ne (known : factor ∈ blendFactors)
    (other : factor ≠ GGL.srcAlphaSaturate) : factor ∈ assignedFactors :=
  (List.mem_cons.mp known).resolve_left other

private theorem saturate_unassigned : GGL.srcAlphaSaturate ∉ assignedFactors := by decide

/-- Blending is that of the standard exactly while no factor is `GGL_SRC_ALPHA_SATURATE`, which is
read without being assigned, and no component of two bits is expanded to five or seven times its
size. -/
theorem blends_iff (b : Blending) (known : ∀ factor ∈ usedFactors b.blend, factor ∈ blendFactors)
    (fragment : Pixel) (sized : Sized fragment) :
    Blends b fragment ↔ GGL.srcAlphaSaturate ∉ usedFactors b.blend ∧ Spared b fragment := by
  constructor
  · intro blends
    refine ⟨fun used => saturate_unassigned (blends_assigned blends _ used), fun i two => ?_⟩
    have present : formatBits b.format i ≠ 0 := by omega
    obtain ⟨-, components⟩ := blends
    obtain ⟨-, -, -, kept⟩ := rescaled_kept sized present
    exact kept.mp (components i present).2.1 two
  · rintro ⟨without, spared⟩
    obtain ⟨p, traced, weighted⟩ := blendTraced_weighted (rescalePixels_common sized spared)
      fun factor used => assigned_of_ne (known factor used) fun same => without (same ▸ used)
    rw [Blends, blendingTraced_sound traced]
    refine ⟨traced, fun i present => ?_⟩
    obtain ⟨own, same, -, kept⟩ := rescaled_kept sized present
    exact ⟨own, kept.mpr (spared i), same, weighted i (rescaled_present sized present)⟩

private def blended (src dst : GLenum) : Blending where
  blend := ⟨src, dst, src, dst, false⟩
  format := Format.rgb565
  word := 0xF81F
  sf _ := 0
  df _ := 0

private def halfGrey : Pixel where
  c _ := 0x80
  s _ := 8

theorem blends_iff_translucent : Blends (blended GGL.srcAlpha GGL.oneMinusSrcAlpha) halfGrey :=
  (blends_iff (blended GGL.srcAlpha GGL.oneMinusSrcAlpha) (by decide) halfGrey
    (by unfold Sized Fits; decide)).mpr ⟨by decide, by unfold Spared; decide +kernel⟩

theorem saturate_not_blended :
    (∀ factor ∈ usedFactors (blended GGL.srcAlphaSaturate GGL.one).blend,
      factor ∈ blendFactors) ∧ Sized halfGrey ∧
      ¬Blends (blended GGL.srcAlphaSaturate GGL.one) halfGrey := by
  refine ⟨by decide, by unfold Sized Fits; decide, ?_⟩
  rintro ⟨traced, -⟩
  have none : blendingTraced (blended GGL.srcAlphaSaturate GGL.one) halfGrey = none := rfl
  rw [none] at traced
  contradiction

end RabbitRender.Pixelflinger.BlendEquation
