/- RabbitRender/Pixelflinger/ComponentRange
   layer: proof
   source: libpixelflinger/scanline.cpp
   digest: The components passed to the pixel writer stay below the size declared with them, unless
     an unclamped addition, a borrow or a full component in the fog lets them out. -/

import RabbitRender.Lib.GuardedRun
import RabbitRender.Pixelflinger.Widths
import RabbitRender.Raster.Division

set_option autoImplicit false

namespace RabbitRender.Pixelflinger.ComponentRange

open RabbitRender.GL (GLenum)
open Lib.GuardedRun Pixelflinger.Pixels Pixelflinger.Fragment Pixelflinger.Widths

def InRange (p : Pixel) : Prop := ∀ j, p.c j < 2 ^ p.s j

/-- The sizes components have: those of the formats, and eight bits more where four texels are
mixed. -/
def sizes : List Nat := [1, 2, 3, 4, 5, 6, 8, 9, 10, 11, 12, 13, 14, 16, 24]

def alphaSizes : List Nat := [1, 4, 5, 8, 9, 12, 13, 16]

def Fits (component : Nat × Nat) : Prop := component.2 ∈ sizes ∧ component.1 < 2 ^ component.2

def Sized (p : Pixel) : Prop := ∀ j, Fits (Pixel.get p j)

theorem Sized.inRange {p : Pixel} (h : Sized p) : InRange p := fun j => (h j).2

theorem sizes_bounds : ∀ s ∈ sizes, 1 ≤ s ∧ s ≤ 24 := by decide

variable {s c cf ct : Nat} {f t : Nat × Nat} {x : TexUnit} {j : Component}

theorem two_pow_le (hs : s ∈ sizes) : 2 ^ s ≤ 2 ^ 24 :=
  Nat.pow_le_pow_right (by decide) (sizes_bounds s hs).2

theorem sizes_widen : ∀ a ∈ sizes, ∀ b ∈ sizes, a < b → a ∈ alphaSizes ∨ b ∈ alphaSizes →
    Widens a b := by decide

theorem scaled_le (hs : s ∈ sizes) (hc : c < 2 ^ s) : scaled c s ≤ 2 ^ s := by
  obtain ⟨one, -⟩ := sizes_bounds s hs
  have bit : c >>> (s - 1) < 2 := by
    apply shiftRight_lt
    rw [← Nat.pow_succ', Nat.succ_eq_add_one, Nat.sub_add_cancel one]
    exact hc
  refine (u32_le _).trans ?_
  omega

theorem le_scaled (hs : s ∈ sizes) (hc : c < 2 ^ s) : c ≤ scaled c s := by
  have small := two_pow_le hs
  have shifted : c >>> (s - 1) ≤ c := Nat.shiftRight_le _ _
  rw [scaled, u32_eq (by omega)]
  exact Nat.le_add_right _ _

theorem envConstant_lt (color : Fin 256) : envConstant color s < 2 ^ s := by
  have hc := color.isLt
  unfold envConstant
  split_ifs with large small
  · have full := Nat.two_pow_pos s
    apply shiftRight_lt
    refine (u32_le _).trans_lt ?_
    rw [Nat.one_shiftLeft]
    calc color.val * (2 ^ s - 1) ≤ 255 * (2 ^ s - 1) := Nat.mul_le_mul_right _ (by omega)
      _ < 2 ^ s * 2 ^ 8 := by omega
  · have split : 2 ^ s * 2 ^ (8 - s) = 2 ^ 8 := by
      rw [← Nat.pow_add, Nat.add_sub_cancel' small.le]
    apply shiftRight_lt
    rw [split]
    exact (Nat.sub_le _ _).trans_lt hc
  · have eight : s = 8 := by omega
    rw [eight]
    exact hc

theorem rescale_size (hf : f.2 ∈ sizes) (ht : t.2 ≠ 0 → t.2 ∈ sizes) :
    (rescale f.1 f.2 t.1 t.2).1.2 ∈ sizes := by
  unfold rescale
  split_ifs with present
  · exact hf
  · exact ht present.2
  · exact hf
  · exact hf

theorem rescale_fits (hf : Fits f) (ht : t.2 ≠ 0 → Fits t) (widens : t.2 ≠ 0 → t.2 ∈ alphaSizes) :
    Fits (rescale f.1 f.2 t.1 t.2).1 ∧
      (t.2 ≠ 0 → Fits (rescale f.1 f.2 t.1 t.2).2 ∧
        (rescale f.1 f.2 t.1 t.2).2.2 = (rescale f.1 f.2 t.1 t.2).1.2) := by
  unfold rescale
  split_ifs with present smaller larger
  · have fits := ht present.2
    have bound := gglExpand_lt fits.2
      (sizes_widen _ fits.1 _ hf.1 smaller (.inl (widens present.2))) smaller
    exact ⟨hf, fun _ => ⟨⟨hf.1, bound⟩, rfl⟩⟩
  · have fits := ht present.2
    have bound := gglExpand_lt hf.2
      (sizes_widen _ hf.1 _ fits.1 larger (.inr (widens present.2))) larger
    exact ⟨⟨fits.1, bound⟩, fun _ => ⟨fits, rfl⟩⟩
  · exact ⟨hf, fun _ => ⟨ht present.2, Nat.le_antisymm (Nat.le_of_not_lt larger)
      (Nat.le_of_not_lt smaller)⟩⟩
  · refine ⟨hf, fun nonzero => absurd ⟨?_, nonzero⟩ present⟩
    have := (sizes_bounds _ hf.1).1
    omega

theorem rescale_sizes (f t : Nat × Nat) :
    ((rescale f.1 f.2 t.1 t.2).1.2 = f.2 ∨
      (t.2 ≠ 0 ∧ (rescale f.1 f.2 t.1 t.2).1.2 = t.2)) ∧
    ((rescale f.1 f.2 t.1 t.2).2.2 = t.2 ∨
      (t.2 ≠ 0 ∧ (rescale f.1 f.2 t.1 t.2).2.2 = f.2)) := by
  unfold rescale
  split_ifs with present
  · exact ⟨.inl rfl, .inr ⟨present.2, rfl⟩⟩
  · exact ⟨.inr ⟨present.2, rfl⟩, .inl rfl⟩
  · exact ⟨.inl rfl, .inl rfl⟩
  · exact ⟨.inl rfl, .inl rfl⟩

theorem envComponent_sizes (env : GLenum) (color : Fin 256) (f t a : Nat × Nat) :
    ((envComponent env color f t a).1.2 = f.2 ∨
      (t.2 ≠ 0 ∧ (envComponent env color f t a).1.2 = t.2)) ∧
    ((envComponent env color f t a).2.2 = t.2 ∨
      (t.2 ≠ 0 ∧ (envComponent env color f t a).2.2 = f.2)) := by
  have rescaled := rescale_sizes f t
  unfold envComponent
  dsimp only
  split_ifs with _ present
  · exact ⟨.inr ⟨present, rfl⟩, .inl rfl⟩
  all_goals first
    | exact rescaled
    | exact ⟨.inl rfl, .inl rfl⟩

def SafeComponent (env : GLenum) (fragment texel alpha : Nat × Nat) : Prop :=
  let common := rescale fragment.1 fragment.2 texel.1 texel.2
  (env = GGL.add → texel.2 ≠ 0 → common.1.1 + common.2.1 < 2 ^ common.1.2) ∧
    (env = GGL.decal → alpha.2 ≠ 0 →
      scaled alpha.1 alpha.2 = 0 ∨ (texel.2 ≠ 0 ∧ common.1.1 ≤ common.2.1))

instance (env : GLenum) (fragment texel alpha : Nat × Nat) :
    Decidable (SafeComponent env fragment texel alpha) := inferInstanceAs (Decidable (_ ∧ _))

private theorem modulate_lt {sf st : Nat} (hf : cf < 2 ^ sf) (hs : st ∈ sizes) (ht : ct < 2 ^ st) :
    u32 (cf * scaled ct st) >>> st < 2 ^ sf := by
  apply shiftRight_lt
  calc u32 (cf * scaled ct st) ≤ cf * scaled ct st := u32_le _
    _ ≤ cf * 2 ^ st := Nat.mul_le_mul_left _ (scaled_le hs ht)
    _ < 2 ^ sf * 2 ^ st := Nat.mul_lt_mul_of_pos_right hf (Nat.two_pow_pos _)

private theorem blend_lt {sf st : Nat} (color : Fin 256) (hf : cf < 2 ^ sf) (hs : st ∈ sizes)
    (ht : ct < 2 ^ st) :
    u32 (sub32 (1 <<< st) (scaled ct st) * cf + ct * envConstant color sf) >>> st < 2 ^ sf := by
  have small := two_pow_le hs
  have factor := le_scaled hs ht
  have constant := envConstant_lt (s := sf) color
  apply shiftRight_lt
  rw [Nat.one_shiftLeft, sub32_eq (scaled_le hs ht) (small.trans_lt (by decide))]
  have total : (2 ^ st - scaled ct st) * cf + ct * envConstant color sf ≤
      (2 ^ sf - 1) * 2 ^ st :=
    calc (2 ^ st - scaled ct st) * cf + ct * envConstant color sf
        ≤ (2 ^ st - ct) * (2 ^ sf - 1) + ct * (2 ^ sf - 1) :=
          Nat.add_le_add (Nat.mul_le_mul (by omega) (by omega))
            (Nat.mul_le_mul_left _ (by omega))
      _ = (2 ^ sf - 1) * 2 ^ st := by
          rw [← Nat.add_mul, Nat.sub_add_cancel ht.le, Nat.mul_comm]
  have full := Nat.two_pow_pos sf
  have room := Nat.two_pow_pos st
  calc _ ≤ (2 ^ sf - 1) * 2 ^ st := (u32_le _).trans total
    _ < 2 ^ sf * 2 ^ st := Nat.mul_lt_mul_of_pos_right (by omega) room

private theorem decal_lt {ta sat : Nat} (hs : s ∈ sizes) (hf : cf < 2 ^ s) (hsat : sat ∈ sizes)
    (hta : ta < 2 ^ sat) (safe : scaled ta sat = 0 ∨ (ct < 2 ^ s ∧ cf ≤ ct)) :
    u32 (cf + u32 (sub32 ct cf * scaled ta sat) >>> sat) < 2 ^ s := by
  refine (u32_le _).trans_lt ?_
  obtain zero | ⟨ht, above⟩ := safe
  · rw [zero, Nat.mul_zero, u32, Nat.zero_mod, Nat.zero_shiftRight]
    exact hf
  · have small := two_pow_le hs
    rw [sub32_eq above (by omega)]
    have share : u32 ((ct - cf) * scaled ta sat) >>> sat ≤ ct - cf := by
      rw [Nat.shiftRight_eq_div_pow]
      refine Nat.div_le_of_le_mul ((u32_le _).trans ?_)
      rw [Nat.mul_comm (2 ^ sat)]
      exact Nat.mul_le_mul_left _ (scaled_le hsat hta)
    omega

theorem envComponent_fits {env : GLenum} {color : Fin 256} {a : Nat × Nat} (hf : Fits f)
    (ht : t.2 ≠ 0 → Fits t) (ha : a.2 ≠ 0 → Fits a ∧ (t.2 ≠ 0 → t.2 ∈ alphaSizes))
    (safe : SafeComponent env f t a) : Fits (envComponent env color f t a).1 := by
  unfold envComponent
  dsimp only
  split_ifs with _ present modulate present decal alpha blend present add present
  · exact ht present
  · exact hf
  · exact ⟨hf.1, modulate_lt hf.2 (ht present).1 (ht present).2⟩
  · exact hf
  · obtain ⟨fits, common⟩ := rescale_fits hf ht (ha alpha).2
    refine ⟨fits.1, decal_lt fits.1 fits.2 (ha alpha).1.1 (ha alpha).1.2 ?_⟩
    refine (safe.2 decal alpha).imp_right fun ⟨present, above⟩ => ⟨?_, above⟩
    obtain ⟨texel, same⟩ := common present
    exact same ▸ texel.2
  · exact hf
  · exact ⟨hf.1, blend_lt color hf.2 (ht present).1 (ht present).2⟩
  · exact hf
  · exact ⟨rescale_size hf.1 fun nonzero => (ht nonzero).1,
      (u32_le _).trans_lt (safe.1 add present)⟩
  · exact hf
  · exact hf

/-- The alpha the environment reads for component `j`. The turn for alpha comes first, and can
rescale it. -/
def alphaAt (x : TexUnit) (fragment texel : Pixel) (j : Component) : Nat × Nat :=
  if j = 0 then Pixel.get texel 0
  else (envComponent x.env x.envColor (Pixel.get fragment 0) (Pixel.get texel 0)
    (Pixel.get texel 0)).2

theorem applyUnit_get (pixels : Pixel × Pixel) (x : TexUnit) (j : Component) :
    Pixel.get (applyUnit pixels x).1 j =
      (envComponent x.env x.envColor (Pixel.get pixels.1 j) (Pixel.get (fetch x pixels.2) j)
        (alphaAt x pixels.1 (fetch x pixels.2) j)).1 := by
  fin_cases j <;>
    simp [applyUnit, envStep, alphaAt, Pixel.get, Pixel.set, Function.update]

theorem applyUnit_size {pixels : Pixel × Pixel} {P : Nat → Prop} (own : ∀ j, P (pixels.1.s j))
    (texel : ∀ j, texelBits x j ≠ 0 → P (texelBits x j)) (j : Component) :
    P ((applyUnit pixels x).1.s j) := by
  have component := applyUnit_get pixels x j
  have size : (applyUnit pixels x).1.s j = (envComponent x.env x.envColor (Pixel.get pixels.1 j)
      (Pixel.get (fetch x pixels.2) j) (alphaAt x pixels.1 (fetch x pixels.2) j)).1.2 :=
    congrArg Prod.snd component
  rw [size]
  obtain same | ⟨present, read⟩ := (envComponent_sizes x.env x.envColor (Pixel.get pixels.1 j)
    (Pixel.get (fetch x pixels.2) j) (alphaAt x pixels.1 (fetch x pixels.2) j)).1
  · rw [same]
    exact own j
  · have bits : (Pixel.get (fetch x pixels.2) j).2 = texelBits x j := fetch_size x pixels.2 j
    rw [bits] at present read
    rw [read]
    exact texel j present

def NoWideShift (x : TexUnit) : Prop :=
  x.format = Format.sz24 → match x.sample with
    | .nearest _ => True
    | .linear _ _ _ _ _ _ => False

instance (x : TexUnit) : Decidable (NoWideShift x) := by
  unfold NoWideShift
  cases x.sample <;> infer_instance

private theorem formatBits_sizes : ∀ f j, formatBits f j ≠ 0 →
    formatBits f j ∈ sizes ∧ (f ≠ Format.sz24 → formatBits f j + 8 ∈ sizes) := by decide

private theorem formatBits_alphaSizes : ∀ f j, formatBits f 0 ≠ 0 → formatBits f j ≠ 0 →
    formatBits f j ∈ alphaSizes ∧ formatBits f j + 8 ∈ alphaSizes := by decide

theorem texelBits_eq (present : texelBits x j ≠ 0) :
    formatBits x.format j ≠ 0 ∧ (texelBits x j = formatBits x.format j ∨
      (texelBits x j = formatBits x.format j + 8 ∧ (NoWideShift x → x.format ≠ Format.sz24))) := by
  unfold NoWideShift
  unfold texelBits at present ⊢
  cases hs : x.sample with
  | nearest word =>
    simp only [hs] at present ⊢
    exact ⟨present, .inl trivial⟩
  | linear word00 word01 word10 word11 u v =>
    simp only [hs] at present ⊢
    have bits : formatBits x.format j ≠ 0 := fun none => present (if_neg (not_not.mpr none))
    exact ⟨bits, .inr ⟨if_pos bits, fun narrow => narrow⟩⟩

theorem texelBits_sizes (narrow : NoWideShift x) (present : texelBits x j ≠ 0) :
    texelBits x j ∈ sizes := by
  obtain ⟨bits, same | ⟨mixed, other⟩⟩ := texelBits_eq present
  · rw [same]
    exact (formatBits_sizes _ _ bits).1
  · rw [mixed]
    exact (formatBits_sizes _ _ bits).2 (other narrow)

theorem texelBits_alphaSizes (alpha : texelBits x 0 ≠ 0) (present : texelBits x j ≠ 0) :
    texelBits x j ∈ alphaSizes := by
  obtain ⟨bits, same | ⟨mixed, -⟩⟩ := texelBits_eq present
  · rw [same]
    exact (formatBits_alphaSizes _ _ (texelBits_eq alpha).1 bits).1
  · rw [mixed]
    exact (formatBits_alphaSizes _ _ (texelBits_eq alpha).1 bits).2

theorem fetch_fits (narrow : NoWideShift x) (old : Pixel) (j : Component)
    (present : (fetch x old).s j ≠ 0) : Fits (Pixel.get (fetch x old) j) := by
  rw [fetch_size] at present
  have bound := fetch_lt x old j present
  refine ⟨?_, ?_⟩
  · change (fetch x old).s j ∈ sizes
    rw [fetch_size]
    exact texelBits_sizes narrow present
  · change (fetch x old).c j < 2 ^ (fetch x old).s j
    rw [fetch_size]
    exact bound

theorem envComponent_texel {env : GLenum} {color : Fin 256} (hf : Fits f)
    (ht : t.2 ≠ 0 → Fits t ∧ t.2 ∈ alphaSizes) :
    ((envComponent env color f t t).2.2 ≠ 0 → t.2 ≠ 0 ∧ Fits (envComponent env color f t t).2) := by
  have rescaled (present : (rescale f.1 f.2 t.1 t.2).2.2 ≠ 0) :
      t.2 ≠ 0 ∧ Fits (rescale f.1 f.2 t.1 t.2).2 := by
    have nonzero : t.2 ≠ 0 := by
      intro zero
      simp [rescale, zero] at present
    exact ⟨nonzero, ((rescale_fits hf (fun h => (ht h).1) fun h => (ht h).2).2 nonzero).1⟩
  have kept (present : t.2 ≠ 0) : t.2 ≠ 0 ∧ Fits t := ⟨present, (ht present).1⟩
  unfold envComponent
  dsimp only
  split_ifs
  all_goals first
    | exact kept
    | exact rescaled

def SafeUnit (pixels : Pixel × Pixel) (x : TexUnit) : Prop :=
  NoWideShift x ∧ ∀ j, SafeComponent x.env (Pixel.get pixels.1 j)
    (Pixel.get (fetch x pixels.2) j) (alphaAt x pixels.1 (fetch x pixels.2) j)

instance (pixels : Pixel × Pixel) (x : TexUnit) : Decidable (SafeUnit pixels x) :=
  inferInstanceAs (Decidable (_ ∧ _))

theorem alphaAt_fits {pixels : Pixel × Pixel} (sized : Sized pixels.1) (narrow : NoWideShift x)
    (j : Component) (present : (alphaAt x pixels.1 (fetch x pixels.2) j).2 ≠ 0) :
    Fits (alphaAt x pixels.1 (fetch x pixels.2) j) ∧
      ((fetch x pixels.2).s j ≠ 0 → (fetch x pixels.2).s j ∈ alphaSizes) := by
  have sizesOf (alpha : (fetch x pixels.2).s 0 ≠ 0) (i : Component)
      (h : (fetch x pixels.2).s i ≠ 0) : (fetch x pixels.2).s i ∈ alphaSizes := by
    rw [fetch_size] at alpha h ⊢
    exact texelBits_alphaSizes alpha h
  unfold alphaAt at present ⊢
  split_ifs at present ⊢ with first
  · exact ⟨fetch_fits narrow _ _ present, sizesOf present j⟩
  · obtain ⟨alpha, fits⟩ := envComponent_texel (sized 0)
      (fun h => ⟨fetch_fits narrow _ _ h, sizesOf h 0 h⟩) present
    exact ⟨fits, sizesOf alpha j⟩

theorem applyUnit_sized (pixels : Pixel × Pixel) (x : TexUnit) (sized : Sized pixels.1)
    (safe : SafeUnit pixels x) : Sized (applyUnit pixels x).1 := by
  intro j
  rw [applyUnit_get]
  exact envComponent_fits (sized j) (fetch_fits safe.1 _ _) (alphaAt_fits sized safe.1 j)
    (safe.2 j)

def SafeCoverage (coverage : Option (BitVec 16)) (fragment : Pixel) : Prop :=
  ∀ cf ∈ coverage, 0 ≤ cf.toInt ∨ fragment.c 0 = 0

instance (coverage : Option (BitVec 16)) (fragment : Pixel) :
    Decidable (SafeCoverage coverage fragment) := inferInstanceAs (Decidable (∀ cf ∈ coverage, _))

private theorem covered_le {cf : BitVec 16} (safe : 0 ≤ cf.toInt ∨ c = 0) :
    ofInt32 ((c * cf.toInt) >>> (15 : Nat)) ≤ c := by
  have word : cf.toInt < 2 ^ 15 := BitVec.toInt_lt
  obtain positive | zero := safe
  · have low : 0 ≤ (c : Int) * cf.toInt := by positivity
    have high : (c : Int) * cf.toInt ≤ c * 2 ^ 15 := by gcongr
    rw [ofInt32, Int.shiftRight_eq_div_pow]
    push_cast
    omega
  · subst zero
    simp [ofInt32]

theorem applyCoverage_sized {coverage : Option (BitVec 16)} {fragment : Pixel}
    (sized : Sized fragment) (safe : SafeCoverage coverage fragment) :
    Sized (applyCoverage coverage fragment) := by
  cases coverage with
  | none => exact sized
  | some cf =>
    intro j
    by_cases first : j = 0
    · subst first
      refine ⟨(sized 0).1, ?_⟩
      have below := covered_le (safe cf rfl)
      exact below.trans_lt (sized 0).2
    · refine ⟨(sized j).1, ?_⟩
      change Function.update fragment.c 0 _ j < 2 ^ fragment.s j
      rw [Function.update_of_ne first]
      exact (sized j).2

/-- The fog factor lies between 0 and 1, and no component comes out as 1.0, which needs 17 bits. -/
def SafeFog (fog : Option Fog) (fragment : Pixel) : Prop :=
  ∀ g ∈ fog, (0 ≤ g.f ∧ g.f ≤ 0x10000) ∧ ∀ i, i ≠ 0 →
    ¬(fogScale (fragment.c i) (fragment.s i) = 0x10000 ∧
      (0x10000 - fogColor g i) * (0x10000 - g.f) ≤ 0x8000) ∧
    ¬(fogColor g i = 0x10000 ∧ g.f = 0)

instance (fog : Option Fog) (fragment : Pixel) : Decidable (SafeFog fog fragment) :=
  inferInstanceAs (Decidable (∀ g ∈ fog, _))

theorem fogColor_bounds (g : Fog) (i : Component) :
    0 ≤ fogColor g i ∧ (fogColor g i ≤ 0xFEFF ∨ fogColor g i = 0x10000) := by
  have word := (g.color i).isLt
  unfold fogColor
  obtain below | full : (g.color i).val ≤ 254 ∨ (g.color i).val = 255 := by omega
  · omega
  · rw [full]
    decide

theorem fogScale_le (fits : Fits (c, s)) : fogScale c s ≤ 0x10000 := by
  obtain ⟨hs, hc⟩ := fits
  obtain ⟨one, top⟩ := sizes_bounds _ hs
  have full : 2 ≤ 2 ^ s := Nat.pow_le_pow_right (n := 2) (by decide) one
  unfold fogScale
  rw [Nat.one_shiftLeft]
  apply Nat.div_le_of_le_mul
  refine (u32_le _).trans ?_
  rw [Nat.mul_comm (2 ^ s - 1)]
  rw [Nat.mul_comm c]
  exact Nat.mul_le_mul_left _ (by simp only at hc; omega)

theorem ofInt32_eq {x : Int} (low : 0 ≤ x) (high : x < 2 ^ 32) : ofInt32 x = x.toNat := by
  rw [ofInt32, Int.emod_eq_of_lt low high]

theorem fogComponent_eq {g : Fog} (fits : Fits (c, s)) (low : 0 ≤ g.f) (high : g.f ≤ 0x10000)
    (i : Component) :
    (fogComponent g c s i : Int) = fogScale c s * g.f / 2 ^ 16 +
      (fogColor g i * (0x10000 - g.f) + 0x8000) / 2 ^ 16 := by
  have scale := fogScale_le fits
  have color := fogColor_bounds g i
  have own : 0 ≤ (fogScale c s : Int) * g.f ∧ (fogScale c s : Int) * g.f ≤ 0x10000 * 0x10000 := by
    refine ⟨by positivity, ?_⟩
    gcongr
    exact_mod_cast scale
  have fog : 0 ≤ fogColor g i * (0x10000 - g.f) ∧
      fogColor g i * (0x10000 - g.f) ≤ 0x10000 * 0x10000 := by
    refine ⟨mul_nonneg color.1 (by omega), ?_⟩
    apply mul_le_mul <;> omega
  have signed : toInt32 (fogScale c s) = fogScale c s :=
    Fixed.wrap32_of_bounds (by omega) (by omega)
  rw [fogComponent, signed, Fixed.gglMulAddx, Fixed.gglMulx, Int.shiftRight_eq_div_pow,
    Int.shiftRight_eq_div_pow, Fixed.wrap32_of_bounds, Fixed.wrap32_of_bounds, ofInt32_eq,
    Int.toNat_of_nonneg]
  all_goals push_cast
  all_goals omega

theorem fogComponent_lt_iff {g : Fog} (fits : Fits (c, s)) (low : 0 ≤ g.f) (high : g.f ≤ 0x10000)
    (i : Component) :
    fogComponent g c s i < 2 ^ 16 ↔
      ¬(fogScale c s = 0x10000 ∧ (0x10000 - fogColor g i) * (0x10000 - g.f) ≤ 0x8000) ∧
      ¬(fogColor g i = 0x10000 ∧ g.f = 0) := by
  have sum := fogComponent_eq fits low high i
  have scale := fogScale_le fits
  obtain ⟨positive, color⟩ := fogColor_bounds g i
  rw [← Int.ofNat_lt, sum]
  clear sum
  generalize fogColor g i = fc at positive color ⊢
  generalize g.f = f at low high ⊢
  have gap : (0x10000 - fc) * (0x10000 - f) = 0x10000 * (0x10000 - f) - fc * (0x10000 - f) := by
    ring
  have fog : 0 ≤ fc * (0x10000 - f) := mul_nonneg positive (by omega)
  have own : 0 ≤ (fogScale c s : Int) * f := by positivity
  rw [gap]
  push_cast
  obtain below | full : fogScale c s ≤ 0xFFFF ∨ fogScale c s = 0x10000 := by omega
  · have share : (fogScale c s : Int) * f ≤ 0xFFFF * f := by
      gcongr
      exact_mod_cast below
    obtain dim | white := color
    · -- both products stay below 1.0 by more than the rounding adds
      have rest : fc * (0x10000 - f) ≤ 0xFEFF * (0x10000 - f) :=
        mul_le_mul_of_nonneg_right dim (by omega)
      omega
    · rw [white]
      omega
  · -- the fragment's own product is exact, and only the fog's is rounded
    simp only [full, true_and, Nat.cast_ofNat]
    have exact : 0x10000 * f / 0x10000 = f := Int.mul_ediv_cancel_left f (by decide)
    rw [exact]
    obtain dim | white := color
    · omega
    · simp only [white, true_and]
      omega

theorem applyFog_sized {fog : Option Fog} {fragment : Pixel} (sized : Sized fragment)
    (safe : SafeFog fog fragment) : Sized (applyFog fog fragment) := by
  cases fog with
  | none => exact sized
  | some g =>
    obtain ⟨⟨low, high⟩, full⟩ := safe g rfl
    intro i
    by_cases first : i = 0
    · subst first
      exact sized 0
    · have fits : Fits (fragment.c i, fragment.s i) := sized i
      have bound := (fogComponent_lt_iff fits low high i).mpr (full i first)
      simp only [Fits, Pixel.get, applyFog, if_neg first]
      exact ⟨by decide, bound⟩

theorem blending_inRange (b : Blending) (fragment : Pixel) : InRange (blending b fragment) := by
  intro j
  have clamped (c s : Nat) : clampComponent c s < 2 ^ s := by
    have full := Nat.two_pow_pos s
    unfold clampComponent
    rw [Nat.one_shiftLeft]
    split <;> omega
  exact clamped _ _

def textured (x : Inputs) : Pixel := (run applyUnit (startFragment x.color, x.texel) x.units).1

structure SafeStages (x : Inputs) : Prop where
  units : Guarded applyUnit SafeUnit (startFragment x.color, x.texel) x.units
  coverage : SafeCoverage x.coverage (textured x)
  fog : SafeFog x.fog (applyCoverage x.coverage (textured x))

instance (x : Inputs) : Decidable (SafeStages x) :=
  decidable_of_iff
    (Guarded applyUnit SafeUnit (startFragment x.color, x.texel) x.units ∧
      SafeCoverage x.coverage (textured x) ∧
      SafeFog x.fog (applyCoverage x.coverage (textured x)))
    ⟨fun h => ⟨h.1, h.2.1, h.2.2⟩, fun h => ⟨h.units, h.coverage, h.fog⟩⟩

theorem startFragment_sized {color : Component → Int}
    (range : ∀ j, 0 ≤ color j ∧ color j < 2 ^ 24) : Sized (startFragment color) := by
  intro j
  obtain ⟨low, high⟩ := range j
  refine ⟨(by decide : 8 ∈ sizes), ?_⟩
  change ofInt32 (color j >>> (16 : Nat)) < 2 ^ 8
  rw [ofInt32, Int.shiftRight_eq_div_pow]
  omega

theorem textured_sized {x : Inputs} (range : ∀ j, 0 ≤ x.color j ∧ x.color j < 2 ^ 24)
    (safe : Guarded applyUnit SafeUnit (startFragment x.color, x.texel) x.units) :
    Sized (textured x) := by
  have step (pixels : Pixel × Pixel) (unit : TexUnit) (sized : Sized pixels.1)
      (ok : SafeUnit pixels unit) : Sized (applyUnit pixels unit).1 :=
    applyUnit_sized pixels unit sized ok
  exact run_invariant step (startFragment_sized range) safe

/-- The components passed to the writer are below their sizes, when blending clamps them or no
stage before it lets one out. -/
theorem shade_inRange (x : Inputs) (range : ∀ j, 0 ≤ x.color j ∧ x.color j < 2 ^ 24)
    (safe : x.blending ≠ none ∨ SafeStages x) : InRange (shade x) := by
  cases h : x.blending with
  | some b =>
    simp only [shade, h, applyBlending]
    exact blending_inRange b _
  | none =>
    have stages := safe.resolve_left (not_not.mpr h)
    have sized := applyFog_sized
      (applyCoverage_sized (textured_sized range stages.units) stages.coverage) stages.fog
    simp only [shade, h, applyBlending]
    exact sized.inRange

end RabbitRender.Pixelflinger.ComponentRange
