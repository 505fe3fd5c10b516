/- RabbitRender/Pixelflinger/Environments
   layer: proof
   source: libpixelflinger/scanline.cpp
   digest: The texture environments of a unit against the table of the standard. -/

import RabbitRender.Pixelflinger.EnvironmentTable

set_option autoImplicit false

namespace RabbitRender.Pixelflinger.Environments

open RabbitRender.GL (GLenum)
open Pixelflinger.Pixels Pixelflinger.Fragment Pixelflinger.Widths Pixelflinger.ComponentRange
open Pixelflinger.Overflows Pixelflinger.EnvironmentTable

/-- Unit `i` of the context with an environment, an environment colour and a texture. -/
def unitOf (i : Fin 2) (envColor : Component → Fin 256) (env : GLenum) (f : Format)
    (sample : Sample) : TexUnit where
  env := env
  format := f
  sample := sample
  envColor := envColor (i.castLE (by decide))

def Agrees (out spec : Nat × Nat) : Prop := out.1 * (2 ^ spec.2 - 1) = spec.1 * (2 ^ out.2 - 1)

instance (out spec : Nat × Nat) : Decidable (Agrees out spec) := inferInstanceAs (Decidable (_ = _))

/-- The operands of component `j` in the unit, and the alpha it reads. -/
def unitOperands (x : TexUnit) (fragment old : Pixel) (j : Component) :
    (Nat × Nat) × (Nat × Nat) × (Nat × Nat) :=
  let texel := fetch x old
  let (f, t) := operands x.env (Pixel.get fragment j) (Pixel.get texel j)
  (f, t, alphaAt x fragment texel j)

/-- An entry of the table in fixed point, with component `j` of the environment colour. -/
def ofUnit (e : Entry) (x : TexUnit) (color : Fin 256) (fragment old : Pixel)
    (j : Component) : Nat × Nat :=
  let (f, t, a) := unitOperands x fragment old j
  e.eval fixedPoint f t a (envConstant color f.2, f.2)

/-- Component `j` of the fragment comes out of the unit as the table says, of the fragment, the
texel and the environment colour's component `j`. -/
def Follows (i : Fin 2) (envColor : Component → Fin 256) (env : GLenum) (f : Format) (c : TexClass)
    (j : Component) (fragment old : Pixel) (sample : Sample) : Prop :=
  let x := unitOf i envColor env f sample
  ∀ e ∈ table c env j,
    Agrees (Pixel.get (applyUnit (fragment, old) x).1 j) (ofUnit e x (envColor j) fragment old j)

instance (i : Fin 2) (envColor : Component → Fin 256) (env : GLenum) (f : Format) (c : TexClass)
    (j : Component) (fragment old : Pixel) (sample : Sample) :
    Decidable (Follows i envColor env f c j fragment old sample) := by
  unfold Follows
  infer_instance

/-- The configurations in which the component follows the table for every fragment and texel. -/
def Right (i : Fin 2) (envColor : Component → Fin 256) (env : GLenum) (c : TexClass)
    (j : Component) : Prop :=
  if env = GGL.decal then c ≠ .rgba ∧ (c = .rgb → j = 0)
  else ¬c.Has j ∨ env = GGL.replace ∨ env = GGL.modulate ∨
    (env = GGL.blendEnv ∧ j ≠ 0 ∧ envColor (i.castLE (by decide)) = envColor j)

instance (i : Fin 2) (envColor : Component → Fin 256) (env : GLenum) (c : TexClass)
    (j : Component) : Decidable (Right i envColor env c j) := by
  unfold Right
  infer_instance

theorem Agrees.of_eq {out spec : Nat × Nat} (same : out = spec) : Agrees out spec := by
  subst same
  rfl

theorem agrees_iff {out spec size : Nat} (one : 1 ≤ size) :
    Agrees (out, size) (spec, size) ↔ out = spec := by
  have full : 0 < 2 ^ size - 1 := by
    have two : 2 ^ 1 ≤ 2 ^ size := Nat.pow_le_pow_right (by decide) one
    omega
  exact Nat.mul_left_inj full.ne'

private theorem class_has : ∀ f c, classOf f = some c → ∀ j, formatBits f j ≠ 0 ↔ c.Has j := by
  decide

private theorem class_bits : ∀ f c, classOf f = some c → ∀ j, formatBits f j ≤ 8 ∧
    (j ≠ 0 → formatBits f j ≠ 0 → 2 ≤ formatBits f j) := by
  decide

section

variable {f t a : Nat × Nat} (color : Fin 256)

theorem envComponent_solid (none : a.2 = 0) : (envComponent GGL.decal color f t a).1 = f := by
  simp [envComponent, none, GGL.replace, GGL.modulate, GGL.decal]

theorem envComponent_missing {env : GLenum} (other : env ≠ GGL.decal) (none : t.2 = 0) :
    (envComponent env color f t a).1 = f := by
  unfold envComponent
  dsimp only
  simp only [none, if_neg other, ne_eq, not_true_eq_false, if_false]
  split_ifs <;> rfl

theorem envComponent_replace (present : t.2 ≠ 0) :
    (envComponent GGL.replace color f t a).1 = t := by
  simp [envComponent, present]

theorem envComponent_modulate (hf : Colour f) (ht : Colour t) (present : t.2 ≠ 0) :
    (envComponent GGL.modulate color f t a).1 = fixedPoint.mul f t := by
  have product : f.1 * scaled t.1 t.2 < 2 ^ 32 := by
    have whole := scaled_le ht.fits.1 ht.2
    have size : 2 ^ t.2 ≤ 2 ^ 16 := Nat.pow_le_pow_right (by decide) (mem_colourSizes.mp ht.1).2
    calc f.1 * scaled t.1 t.2 ≤ f.1 * 2 ^ 16 := Nat.mul_le_mul_left _ (whole.trans size)
      _ < 2 ^ 16 * 2 ^ 16 := Nat.mul_lt_mul_of_pos_right hf.lt (by decide)
  have word : (envComponent GGL.modulate color f t a).1 =
      (u32 (f.1 * scaled t.1 t.2) >>> t.2, f.2) := by
    simp [envComponent, present, GGL.modulate, GGL.replace]
  rw [word, u32_eq product, Nat.shiftRight_eq_div_pow]
  rfl

theorem envComponent_blend (hf : Colour f) (ht : Colour t) (present : t.2 ≠ 0) :
    (envComponent GGL.blendEnv color f t a).1 =
      fixedPoint.mix f t (envConstant color f.2, f.2) := by
  have whole := scaled_le ht.fits.1 ht.2
  have factor := le_scaled ht.fits.1 ht.2
  have constant := envConstant_lt (s := f.2) color
  have size : 2 ^ t.2 ≤ 2 ^ 16 := Nat.pow_le_pow_right (by decide) (mem_colourSizes.mp ht.1).2
  have own : 2 ^ f.2 ≤ 2 ^ 16 := Nat.pow_le_pow_right (by decide) (mem_colourSizes.mp hf.1).2
  have total : (2 ^ t.2 - scaled t.1 t.2) * f.1 + t.1 * envConstant color f.2 < 2 ^ 32 :=
    calc (2 ^ t.2 - scaled t.1 t.2) * f.1 + t.1 * envConstant color f.2
        ≤ (2 ^ t.2 - t.1) * (2 ^ 16 - 1) + t.1 * (2 ^ 16 - 1) :=
          Nat.add_le_add (Nat.mul_le_mul (by omega) (Nat.le_sub_one_of_lt hf.lt))
            (Nat.mul_le_mul_left _ (Nat.le_sub_one_of_lt (constant.trans_le own)))
      _ = 2 ^ t.2 * (2 ^ 16 - 1) := by rw [← Nat.add_mul, Nat.sub_add_cancel ht.2.le]
      _ < 2 ^ 32 := by omega
  have word : (envComponent GGL.blendEnv color f t a).1 =
      (u32 (sub32 (1 <<< t.2) (scaled t.1 t.2) * f.1 + t.1 * envConstant color f.2) >>> t.2,
        f.2) := by
    simp [envComponent, present, GGL.modulate, GGL.replace, GGL.decal, GGL.blendEnv]
  rw [word, Nat.one_shiftLeft, sub32_eq whole (by omega), u32_eq total, Nat.shiftRight_eq_div_pow]
  rfl

theorem envComponent_sum (hf : Colour f) (ht : Colour t) (present : t.2 ≠ 0) :
    (envComponent GGL.add color f t a).1 =
      ((operands GGL.add f t).1.1 + (operands GGL.add f t).2.1, (operands GGL.add f t).1.2) := by
  have narrow := rescale_narrow hf ht
  rw [envComponent_add color f t a present, u32_eq (by omega)]
  rfl

variable {cf ct sat : Nat}

private theorem laid_above {factor : Nat} (above : cf ≤ ct) (narrow : ct < 2 ^ 16)
    (full : factor ≤ 2 ^ sat) (size : sat ≤ 16) :
    u32 (cf + u32 (sub32 ct cf * factor) >>> sat) =
      (cf + ((ct : Int) - cf) * factor / 2 ^ sat).toNat := by
  obtain ⟨d, rfl⟩ := Nat.exists_eq_add_of_le above
  have alpha : 2 ^ sat ≤ 2 ^ 16 := Nat.pow_le_pow_right (by decide) size
  have product : d * factor ≤ d * 2 ^ sat := Nat.mul_le_mul_left d full
  have room : d * 2 ^ sat ≤ d * 2 ^ 16 := Nat.mul_le_mul_left d alpha
  have share : d * factor / 2 ^ sat ≤ d :=
    Nat.div_le_of_le_mul (product.trans_eq (Nat.mul_comm _ _))
  have inner : u32 (d * factor) = d * factor := u32_eq (by omega)
  rw [sub32_eq above (by omega), Nat.add_sub_cancel_left, inner, Nat.shiftRight_eq_div_pow,
    u32_eq (by omega)]
  have cast : (cf : Int) + (((cf + d : Nat) : Int) - cf) * factor / 2 ^ sat =
      (cf + d * factor / 2 ^ sat : Nat) := by
    push_cast
    rw [add_sub_cancel_left]
  rw [cast, Int.toNat_natCast]

private theorem laid_clear (narrow : cf < 2 ^ 32) :
    u32 (cf + u32 (sub32 ct cf * 0) >>> sat) =
      (cf + ((ct : Int) - cf) * (0 : Nat) / 2 ^ sat).toNat := by
  have none : u32 (sub32 ct cf * 0) = 0 := by
    rw [Nat.mul_zero]
    rfl
  rw [none, Nat.zero_shiftRight, Nat.add_zero, u32_eq narrow, Nat.cast_zero, mul_zero,
    Int.zero_ediv, add_zero, Int.toNat_natCast]

private theorem laid_below {factor : Nat} (below : ct < cf) :
    (cf + ((ct : Int) - cf) * factor / 2 ^ sat).toNat ≤ cf := by
  have negative : ((ct : Int) - cf) * factor ≤ 0 :=
    mul_nonpos_of_nonpos_of_nonneg (by omega) (Int.natCast_nonneg factor)
  have quotient : ((ct : Int) - cf) * factor / 2 ^ sat ≤ 0 :=
    (Int.ediv_le_ediv (by positivity) negative).trans_eq (Int.zero_ediv _)
  omega

theorem agrees_laid (hf : Colour f) (ht : Colour t) (alpha : t.2 ∈ alphaSizes) (ha : Colour a)
    (present : a.2 ≠ 0) :
    Agrees (envComponent GGL.decal color f t a).1
        (fixedPoint.lay (operands GGL.decal f t).1 (operands GGL.decal f t).2 a) ↔
      (operands GGL.decal f t).1.1 ≤ (operands GGL.decal f t).2.1 ∨ a.1 = 0 := by
  have common : operands GGL.decal f t = rescale f.1 f.2 t.1 t.2 := rfl
  obtain ⟨own, -⟩ := rescale_fits hf.fits (fun _ => ht.fits) (fun _ => alpha)
  have size : (rescale f.1 f.2 t.1 t.2).1.2 ≤ 16 := by
    obtain same | ⟨-, texel⟩ := (rescale_sizes f t).1
    · exact same.trans_le (mem_colourSizes.mp hf.1).2
    · exact texel.trans_le (mem_colourSizes.mp ht.1).2
  obtain ⟨one, -⟩ := sizes_bounds _ own.1
  obtain ⟨-, narrow⟩ := mem_colourSizes.mp ha.1
  have full := scaled_le ha.fits.1 ha.2
  have words := rescale_narrow hf ht
  rw [common, envComponent_decal color f t a present]
  generalize rescale f.1 f.2 t.1 t.2 = pair at own size one words ⊢
  obtain ⟨⟨cf, s⟩, ct, st⟩ := pair
  refine (agrees_iff one).trans ?_
  constructor
  · intro same
    by_contra neither
    obtain ⟨below, opaqueAlpha⟩ := not_or.mp neither
    have positive : 0 < scaled a.1 a.2 :=
      (Nat.pos_of_ne_zero opaqueAlpha).trans_le (le_scaled ha.fits.1 ha.2)
    have borrowed := decal_borrows (Nat.lt_of_not_le below) own.2 size positive full
      (Nat.one_le_iff_ne_zero.mpr present) narrow
    rw [same] at borrowed
    exact absurd own.2 (Nat.not_lt.mpr (borrowed.trans (laid_below (Nat.lt_of_not_le below))))
  · rintro (above | clear)
    · exact laid_above above words.2 full narrow
    · have zero : scaled a.1 a.2 = 0 := by simp [scaled, clear, u32]
      rw [zero]
      exact laid_clear (words.1.trans (by decide))

theorem agrees_sum (hf : Colour f) (ht : Colour t) (present : t.2 ≠ 0) :
    Agrees (envComponent GGL.add color f t a).1
        (fixedPoint.add (operands GGL.add f t).1 (operands GGL.add f t).2) ↔
      (operands GGL.add f t).1.1 + (operands GGL.add f t).2.1 <
        2 ^ (operands GGL.add f t).1.2 := by
  have one : 1 ≤ (operands GGL.add f t).1.2 := by
    have size := rescale_size (f := f) (t := t) hf.fits.1 fun _ => ht.fits.1
    exact (sizes_bounds _ size).1
  have full := Nat.two_pow_pos (operands GGL.add f t).1.2
  rw [envComponent_sum color hf ht present]
  refine (agrees_iff one).trans ?_
  omega

end

section

variable (u : TexUnit) {c : TexClass} (classified : classOf u.format = some c) (old : Pixel)
  {j : Component}

include classified

theorem unit_has : texelBits u j ≠ 0 ↔ c.Has j := by
  rw [← class_has u.format c classified j]
  unfold texelBits
  cases u.sample with
  | nearest word => rfl
  | linear word00 word01 word10 word11 u v =>
    dsimp only
    split_ifs with present
    · exact ⟨fun _ => present, fun _ => Nat.succ_ne_zero _⟩
    · exact ⟨fun nonzero => absurd rfl nonzero, fun here => absurd here present⟩

theorem texel_has : (Pixel.get (fetch u old) j).2 ≠ 0 ↔ c.Has j := by
  change (fetch u old).s j ≠ 0 ↔ c.Has j
  rw [fetch_size]
  exact unit_has u classified

theorem unit_coloured (full : u.env = GGL.decal → c.Has 0 → ∀ k, c.Has k) : Coloured u where
  narrow k := by
    have bits := (class_bits u.format c classified k).1
    unfold texelBits
    cases u.sample with
    | nearest word => exact bits.trans (by decide)
    | linear word00 word01 word10 word11 u v =>
      dsimp only
      split_ifs <;> omega
  full decal alpha k :=
    (unit_has u classified).mpr (full decal ((unit_has u classified).mp alpha) k)

theorem texel_colour (has : c.Has j) : Colour (Pixel.get (fetch u old) j) := by
  have replaced : Coloured { u with env := GGL.replace } :=
    unit_coloured { u with env := GGL.replace } classified nofun
  exact fetch_colour replaced old j ((texel_has u classified old).mpr has)

theorem alpha_has {fragment : Pixel} (own : Colour (Pixel.get fragment 0)) :
    (alphaAt u fragment (fetch u old) j).2 ≠ 0 ↔ c.Has 0 := by
  rw [← texel_has u classified old (j := 0)]
  have nonzero : (Pixel.get fragment 0).2 ≠ 0 := Nat.ne_of_gt (sizes_bounds _ own.fits.1).1
  unfold alphaAt
  split_ifs
  · rfl
  · obtain same | ⟨present, read⟩ := (envComponent_sizes u.env u.envColor (Pixel.get fragment 0)
      (Pixel.get (fetch u old) 0) (Pixel.get (fetch u old) 0)).2
    · exact iff_of_eq (congrArg (· ≠ 0) same)
    · exact iff_of_true (ne_of_eq_of_ne read nonzero) present

end

theorem rgba_alpha (u : TexUnit) (classified : classOf u.format = some .rgba) (old : Pixel)
    {fragment : Pixel} (shaped : Shaped fragment) (range : InRange fragment) (j : Component) :
    (alphaAt u fragment (fetch u old) j).2 ≠ 0 ∧ Colour (alphaAt u fragment (fetch u old) j) ∧
      ((fetch u old).s j ≠ 0 → (fetch u old).s j ∈ alphaSizes) := by
  have coloured := unit_coloured u classified fun _ _ _ => trivial
  have pixels : Shaped (fragment, old).1 := shaped
  have present := (alpha_has u classified old (j := j) ⟨shaped 0, range 0⟩).mpr trivial
  obtain ⟨colour, widens, -⟩ := alphaAt_colour pixels range coloured j present
  exact ⟨present, colour, widens⟩

section

variable {i : Fin 2} {envColor : Component → Fin 256} {env : GLenum} {f : Format} {c : TexClass}
  (classified : classOf f = some c) {fragment old : Pixel} {sample : Sample} {j : Component}

theorem follows_iff : Follows i envColor env f c j fragment old sample ↔
    ∀ e ∈ table c env j,
      Agrees (envComponent env (envColor (i.castLE (by decide))) (Pixel.get fragment j)
          (Pixel.get (fetch (unitOf i envColor env f sample) old) j)
          (alphaAt (unitOf i envColor env f sample) fragment
            (fetch (unitOf i envColor env f sample) old) j)).1
        (ofUnit e (unitOf i envColor env f sample) (envColor j) fragment old j) := by
  unfold Follows
  dsimp only
  rw [applyUnit_get]
  rfl

theorem follows_of_entry {e : Entry} (entry : table c env j = some e) :
    Follows i envColor env f c j fragment old sample ↔
      Agrees (envComponent env (envColor (i.castLE (by decide))) (Pixel.get fragment j)
          (Pixel.get (fetch (unitOf i envColor env f sample) old) j)
          (alphaAt (unitOf i envColor env f sample) fragment
            (fetch (unitOf i envColor env f sample) old) j)).1
        (ofUnit e (unitOf i envColor env f sample) (envColor j) fragment old j) := by
  rw [follows_iff, entry]
  exact ⟨fun all => all e rfl, fun one e' same => Option.some.inj same ▸ one⟩

include classified

theorem right_follows (right : Right i envColor env c j)
    (own : Colour (Pixel.get fragment j)) : Follows i envColor env f c j fragment old sample := by
  rw [follows_iff]
  intro e entry
  unfold Right at right
  unfold table at entry
  by_cases decal : env = GGL.decal
  · subst decal
    rw [if_pos rfl] at right entry
    obtain ⟨translucent, alphaOnly⟩ := right
    cases c with
    | alpha | luminance | luminanceAlpha => exact absurd entry nofun
    | rgba => exact absurd rfl translucent
    | rgb =>
      obtain rfl := alphaOnly rfl
      obtain rfl : Entry.own = e := Option.some.inj entry
      have none : (Pixel.get (fetch (unitOf i envColor GGL.decal f sample) old) 0).2 = 0 := by
        by_contra present
        exact (texel_has _ classified old).mp present rfl
      have kept : ofUnit .own (unitOf i envColor GGL.decal f sample) (envColor 0) fragment
          old 0 = Pixel.get fragment 0 := operands_missing GGL.decal none
      rw [kept]
      exact .of_eq (envComponent_solid _ none)
  · rw [if_neg decal] at right entry
    by_cases has : c.Has j
    · have present := (texel_has (unitOf i envColor env f sample) classified old).mpr has
      have texel := texel_colour (unitOf i envColor env f sample) classified old has
      rw [if_neg (not_not.mpr has)] at entry
      obtain absent | rfl | rfl | ⟨rfl, color, constant⟩ := right
      · exact absurd has absent
      · obtain rfl : Entry.texel = e := Option.some.inj entry
        exact .of_eq (envComponent_replace _ present)
      · obtain rfl : Entry.product = e := Option.some.inj entry
        exact .of_eq (envComponent_modulate _ own texel present)
      · have mixed : (some Entry.mixed : Option Entry) = some e := by
          rw [← entry, if_neg (by decide), if_neg (by simp [GGL.blendEnv, GGL.modulate, color]),
            if_pos rfl]
        obtain rfl : Entry.mixed = e := Option.some.inj mixed
        rw [constant]
        exact .of_eq (envComponent_blend _ own texel present)
    · have none : (Pixel.get (fetch (unitOf i envColor env f sample) old) j).2 = 0 := by
        by_contra present
        exact has ((texel_has _ classified old).mp present)
      rw [if_pos has] at entry
      obtain rfl : Entry.own = e := Option.some.inj entry
      have kept : ofUnit .own (unitOf i envColor env f sample) (envColor j) fragment
          old j = Pixel.get fragment j := operands_missing env none
      rw [kept]
      exact .of_eq (envComponent_missing _ decal none)

theorem sum_iff (own : Colour (Pixel.get fragment j)) (color : j ≠ 0) (has : c.Has j) :
    Follows i envColor GGL.add f c j fragment old sample ↔
      let (f, t, _) := unitOperands (unitOf i envColor GGL.add f sample) fragment old j
      f.1 + t.1 < 2 ^ f.2 := by
  have entry : table c GGL.add j = some .sum := by
    unfold table
    rw [if_neg (by decide), if_neg (not_not.mpr has), if_neg (by decide),
      if_neg (by simp [color, GGL.add, GGL.modulate]), if_neg (by decide)]
  rw [follows_of_entry entry]
  exact agrees_sum _ own (texel_colour _ classified old has)
    ((texel_has _ classified old).mpr has)

end

section

variable {i : Fin 2} {envColor : Component → Fin 256} {f : Format} {fragment old : Pixel}
  {sample : Sample} {j : Component}

theorem texel_iff (classified : classOf f = some .rgb) (own : Colour (Pixel.get fragment 0))
    (color : j ≠ 0) :
    Follows i envColor GGL.decal f .rgb j fragment old sample ↔
      Agrees (Pixel.get fragment j)
        (unitOperands (unitOf i envColor GGL.decal f sample) fragment old j).2.1 := by
  have entry : table .rgb GGL.decal j = some .texel := congrArg some (if_neg color)
  have none : (alphaAt (unitOf i envColor GGL.decal f sample) fragment
      (fetch (unitOf i envColor GGL.decal f sample) old) j).2 = 0 := by
    by_contra present
    exact (alpha_has _ classified old own).mp present rfl
  rw [follows_of_entry entry, envComponent_solid _ none]
  rfl

theorem laid_iff (classified : classOf f = some .rgba) (shaped : Shaped fragment)
    (range : InRange fragment) (color : j ≠ 0) :
    Follows i envColor GGL.decal f .rgba j fragment old sample ↔
      let (f, t, a) := unitOperands (unitOf i envColor GGL.decal f sample) fragment old j
      f.1 ≤ t.1 ∨ a.1 = 0 := by
  have entry : table .rgba GGL.decal j = some .laid := congrArg some (if_neg color)
  obtain ⟨present, alpha, widens⟩ :=
    rgba_alpha (unitOf i envColor GGL.decal f sample) classified old shaped range j
  have texel :=
    (texel_has (unitOf i envColor GGL.decal f sample) classified old (j := j)).mpr trivial
  rw [follows_of_entry entry]
  have colour :=
    texel_colour (unitOf i envColor GGL.decal f sample) (c := .rgba) (j := j) classified old trivial
  exact agrees_laid _ ⟨shaped j, range j⟩ colour (widens texel) alpha present

end

theorem follows_color {i : Fin 2} {envColor : Component → Fin 256} {env : GLenum} {f : Format}
    {c : TexClass} {j : Component} {fragment old : Pixel} {sample : Sample}
    (other : env ≠ GGL.blendEnv) :
    Follows i envColor env f c j fragment old sample ↔
      Follows 0 (fun _ => 0) env f c j fragment old sample := by
  have component (color : Fin 256) (own texel alpha : Nat × Nat) :
      envComponent env color own texel alpha = envComponent env 0 own texel alpha := by
    simp only [envComponent, if_neg other]
  have alpha (color : Fin 256) (own texel : Pixel) :
      alphaAt ⟨env, f, sample, color⟩ own texel j = alphaAt ⟨env, f, sample, 0⟩ own texel j := by
    simp only [alphaAt, component color]
  have read : unitOperands (unitOf i envColor env f sample) fragment old j =
      unitOperands (unitOf 0 (fun _ => 0) env f sample) fragment old j := by
    unfold unitOperands
    dsimp only
    exact congrArg _ (congrArg _ (alpha _ _ _))
  have entries : ∀ e ∈ table c env j, e ≠ .mixed := by
    unfold table
    rw [if_neg other]
    split_ifs <;> cases c <;> simp
  rw [follows_iff, follows_iff]
  refine forall₂_congr fun e entry => iff_of_eq (congrArg₂ Agrees ?_ ?_)
  · exact congrArg Prod.fst ((component _ _ _ _).trans
      (congrArg (envComponent env 0 _ _) (alpha _ _ _)))
  · unfold ofUnit
    rw [read]
    obtain ⟨own, texel, alpha⟩ := unitOperands (unitOf 0 (fun _ => 0) env f sample) fragment old j
    cases e with
    | mixed => exact absurd rfl (entries _ entry)
    | own | texel | product | laid | sum => rfl

def plain (v : Nat) : Pixel where
  c _ := v
  s _ := 8

theorem plain_shaped (v : Nat) : Shaped (plain v) := fun _ => (by decide : 8 ∈ colourSizes)

theorem plain_inRange {v : Nat} (byte : v < 256) : InRange (plain v) := fun _ => byte

/-- White does not stay below 1.0 when a full component is added, and keeps the alpha a clear texel
should take away. -/
private theorem white_fails :
    (∀ f c, classOf f = some c → ∀ j, c.Has j →
      ¬Follows 0 (fun _ => 0) GGL.add f c j (plain 255) (plain 0)
        (.nearest (if j = 0 then 0 else 0xFFFFFFFF))) ∧
    (∀ f, classOf f = some .rgba → ∀ j,
      ¬Follows 0 (fun _ => 0) GGL.decal f .rgba j (plain (if j = 0 then 0 else 255)) (plain 0)
        (.nearest (if j = 0 then 0xFFFFFFFF else 1 <<< ((formats f).c 0).l))) ∧
    ∀ f, classOf f = some .rgb → ∀ j ≠ 0,
      ¬Follows 0 (fun _ => 0) GGL.decal f .rgb j (plain 0) (plain 0) (.nearest 0xFFFFFFFF) := by
  refine ⟨?_, ?_, ?_⟩ <;> decide +kernel

private theorem least_texels : ∀ f c, classOf f = some c → ∀ j, c.Has j →
    Pixel.get (readWord (Picker.pickReader f) f 0 (plain 0)) j = (0, formatBits f j) ∧
      Pixel.get (readWord (Picker.pickReader f) f (1 <<< ((formats f).c j).l) (plain 0)) j =
        (1, formatBits f j) := by
  decide +kernel

private theorem mix_clear (own : Nat × Nat) (bits : Nat) (cc : Nat × Nat) :
    fixedPoint.mix own (0, bits) cc = own := by
  have factor : scaled 0 bits = 0 := by simp [scaled, u32]
  have quotient : ((2 ^ bits - scaled 0 bits) * own.1 + 0 * cc.1) / 2 ^ bits = own.1 := by
    rw [factor, Nat.sub_zero, Nat.zero_mul, Nat.add_zero,
      Nat.mul_div_cancel_left _ (Nat.two_pow_pos bits)]
  exact Prod.ext quotient rfl

private theorem mul_clear (own : Nat × Nat) (bits : Nat) :
    fixedPoint.mul own (0, bits) = (0, own.2) := by
  have factor : scaled 0 bits = 0 := by simp [scaled, u32]
  have quotient : own.1 * scaled 0 bits / 2 ^ bits = 0 := by rw [factor, Nat.mul_zero, Nat.zero_div]
  exact Prod.ext quotient rfl

private theorem mix_unit {v bits : Nat} (several : 2 ≤ bits) (a b : Nat) (ha : a ≤ v) (hb : b ≤ v)
    (larger : v = a ∨ v = b) (same : (fixedPoint.mix (v, 8) (1, bits) (a, 8)).1 =
      (fixedPoint.mix (v, 8) (1, bits) (b, 8)).1) : a = b := by
  have factor : scaled 1 bits = 1 := by
    have shifted : 1 >>> (bits - 1) = 0 := Nat.shiftRight_eq_zero 1 _ (by
      have two : 2 ^ 1 ≤ 2 ^ (bits - 1) := Nat.pow_le_pow_right (by decide) (by omega)
      omega)
    rw [scaled, shifted]
    rfl
  have quotient (x : Nat) : (fixedPoint.mix (v, 8) (1, bits) (x, 8)).1 =
      ((2 ^ bits - 1) * v + x) / 2 ^ bits := by
    unfold fixedPoint
    dsimp only
    rw [factor, Nat.one_mul]
  have whole (x : Nat) (hx : x ≤ v) : ((2 ^ bits - 1) * v + x) / 2 ^ bits = v ↔ x = v := by
    have positive := Nat.two_pow_pos bits
    have split : (2 ^ bits - 1) * v + v = 2 ^ bits * v := by
      rw [← Nat.succ_mul, Nat.succ_eq_add_one, Nat.sub_add_cancel positive]
    constructor
    · intro full
      have low := Nat.div_mul_le_self ((2 ^ bits - 1) * v + x) (2 ^ bits)
      rw [full, Nat.mul_comm v] at low
      omega
    · rintro rfl
      rw [split, Nat.mul_div_cancel_left _ positive]
  rw [quotient, quotient] at same
  obtain rfl | rfl := larger
  · exact ((whole b hb).mp (same.symm.trans ((whole v le_rfl).mpr rfl))).symm
  · exact (whole a ha).mp (same.trans ((whole v le_rfl).mpr rfl))

section

variable {i : Fin 2} {envColor : Component → Fin 256} {f : Format} {c : TexClass}
  (classified : classOf f = some c)

include classified

private theorem product_fails (has : c.Has 0) :
    ¬Follows i envColor GGL.blendEnv f c 0 (plain 255) (plain 0) (.nearest 0) := by
  have entry : table c GGL.blendEnv 0 = some .product := by
    unfold table
    rw [if_neg (by decide), if_neg (not_not.mpr has), if_neg (by decide), if_pos (.inr rfl)]
  have own : Colour (Pixel.get (plain 255) 0) := ⟨plain_shaped 255 0, by decide⟩
  have texel : Pixel.get (fetch (unitOf i envColor GGL.blendEnv f (.nearest 0)) (plain 0)) 0 =
      (0, formatBits f 0) := (least_texels f c classified 0 has).1
  have colour := texel_colour (unitOf i envColor GGL.blendEnv f (.nearest 0)) classified (plain 0)
    has
  have present := (texel_has (unitOf i envColor GGL.blendEnv f (.nearest 0)) classified
    (plain 0)).mpr has
  have product : ofUnit .product (unitOf i envColor GGL.blendEnv f (.nearest 0))
      (envColor 0) (plain 255) (plain 0) 0 = fixedPoint.mul (255, 8)
        (Pixel.get (fetch (unitOf i envColor GGL.blendEnv f (.nearest 0)) (plain 0)) 0) := rfl
  rw [follows_of_entry entry, envComponent_blend _ own colour present, product, texel, mix_clear,
    mul_clear]
  decide

private theorem mixed_fails {j : Component} (has : c.Has j) (color : j ≠ 0)
    (other : envColor (i.castLE (by decide)) ≠ envColor j) :
    ¬Follows i envColor GGL.blendEnv f c j
      (plain (max (envColor (i.castLE (by decide))).val (envColor j).val)) (plain 0)
      (.nearest (1 <<< ((formats f).c j).l)) := by
  have entry : table c GGL.blendEnv j = some .mixed := by
    unfold table
    rw [if_neg (by decide), if_neg (not_not.mpr has), if_neg (by decide),
      if_neg (by simp [GGL.blendEnv, GGL.modulate, color]), if_pos rfl]
  have several : 2 ≤ formatBits f j :=
    (class_bits f c classified j).2 color ((class_has f c classified j).mpr has)
  generalize hv : max (envColor (i.castLE (by decide))).val (envColor j).val = v
  have byte : v < 256 := by
    rw [← hv]
    exact max_lt (envColor _).isLt (envColor j).isLt
  have own : Colour (Pixel.get (plain v) j) := ⟨plain_shaped v j, plain_inRange byte j⟩
  have texel : Pixel.get (fetch (unitOf i envColor GGL.blendEnv f
      (.nearest (1 <<< ((formats f).c j).l))) (plain 0)) j = (1, formatBits f j) :=
    (least_texels f c classified j has).2
  have colour := texel_colour (unitOf i envColor GGL.blendEnv f
    (.nearest (1 <<< ((formats f).c j).l))) classified (plain 0) has
  have present := (texel_has (unitOf i envColor GGL.blendEnv f
    (.nearest (1 <<< ((formats f).c j).l))) classified (plain 0)).mpr has
  have mixed : ofUnit .mixed (unitOf i envColor GGL.blendEnv f
      (.nearest (1 <<< ((formats f).c j).l))) (envColor j) (plain v) (plain 0) j =
      fixedPoint.mix (v, 8) (Pixel.get (fetch (unitOf i envColor GGL.blendEnv f
        (.nearest (1 <<< ((formats f).c j).l))) (plain 0)) j) ((envColor j).val, 8) := rfl
  rw [follows_of_entry entry, envComponent_blend _ own colour present, mixed, texel]
  intro same
  refine other (Fin.ext (mix_unit several _ _ ?_ ?_ ?_ ((agrees_iff (by decide : 1 ≤ 8)).mp same)))
  · exact hv ▸ le_max_left _ _
  · exact hv ▸ le_max_right _ _
  · rw [← hv]
    exact max_choice _ _

end

def Rounded (i : Fin 2) (envColor : Component → Fin 256) (env : GLenum) (f : Format) (c : TexClass)
    (j : Component) (fragment old : Pixel) (sample : Sample) : Prop :=
  let (f, t, a) := unitOperands (unitOf i envColor env f sample) fragment old j
  let cc := (envConstant (envColor j) f.2, f.2)
  ∀ e ∈ table c env j,
    Near (e.eval fixedPoint f t a cc) (e.bits t a)
      (e.eval numbers (value f) (value t) (value a) (value cc))

theorem right_of_follows {i : Fin 2} {envColor : Component → Fin 256} {env : GLenum}
    (mode : env ∈ modes) {f : Format} {c : TexClass} (classified : classOf f = some c)
    {j : Component}
    (all : ∀ fragment old sample, Shaped fragment → InRange fragment →
      Follows i envColor env f c j fragment old sample) : Right i envColor env c j := by
  have tried (v : Nat) (byte : v < 256) (sample : Sample) :
      Follows i envColor env f c j (plain v) (plain 0) sample :=
    all _ _ _ (plain_shaped v) (plain_inRange byte)
  unfold Right
  simp only [modes, List.mem_cons, List.not_mem_nil, or_false] at mode
  obtain rfl | rfl | rfl | rfl | rfl := mode
  · exact .inr (.inl rfl)
  · exact .inr (.inr (.inl rfl))
  · refine ⟨?_, ?_⟩
    · rintro rfl
      refine white_fails.2.1 f classified j ((follows_color (by decide)).mp (tried _ ?_ _))
      split_ifs <;> decide
    · rintro rfl
      by_contra color
      exact white_fails.2.2 f classified j color
        ((follows_color (by decide)).mp (tried _ (by decide) _))
  · by_cases has : c.Has j
    · by_cases alpha : j = 0
      · subst alpha
        exact absurd (tried _ (by decide) _) (product_fails classified has)
      · refine .inr (.inr (.inr ⟨rfl, alpha, ?_⟩))
        by_contra other
        refine mixed_fails classified has alpha other (tried _ ?_ _)
        exact max_lt (envColor _).isLt (envColor j).isLt
    · exact .inl has
  · by_cases has : c.Has j
    · exact absurd ((follows_color (by decide)).mp (tried _ (by decide) _))
        (white_fails.1 f c classified j has)
    · exact .inl has

private theorem rescale_same {f t : Nat × Nat} (own : f.2 ≠ 0) (present : t.2 ≠ 0) :
    (rescale f.1 f.2 t.1 t.2).2.2 = (rescale f.1 f.2 t.1 t.2).1.2 := by
  unfold rescale
  rw [if_pos ⟨own, present⟩]
  split_ifs with smaller larger
  · rfl
  · rfl
  · exact Nat.le_antisymm (Nat.le_of_not_lt larger) (Nat.le_of_not_lt smaller)

private theorem operands_size (env : GLenum) {f t : Nat × Nat} (hf : f.2 ∈ sizes)
    (ht : t.2 ≠ 0 → t.2 ∈ sizes) :
    (operands env f t).1.2 ∈ sizes ∧ (t.2 ≠ 0 → (operands env f t).2.2 ∈ sizes) := by
  have nonzero : f.2 ≠ 0 := Nat.ne_of_gt (sizes_bounds _ hf).1
  unfold operands
  split_ifs
  · refine ⟨rescale_size hf ht, fun present => ?_⟩
    rw [rescale_same nonzero present]
    exact rescale_size hf ht
  · exact ⟨hf, ht⟩

private theorem table_entry {c : TexClass} {env : GLenum} (mode : env ∈ modes) {j : Component}
    {e : Entry} (entry : table c env j = some e) :
    match e with
    | .own => True
    | .texel => c.Has j
    | .product => c.Has j ∧ env ≠ GGL.decal ∧ (env = GGL.add → j = 0)
    | .mixed => c.Has j ∧ env = GGL.blendEnv
    | .laid => env = GGL.decal ∧ c = .rgba
    | .sum => c.Has j ∧ env = GGL.add := by
  unfold table at entry
  by_cases decal : env = GGL.decal
  · rw [if_pos decal] at entry
    cases c with
    | alpha | luminance | luminanceAlpha => exact absurd entry nofun
    | rgb =>
      split_ifs at entry with alpha
      · obtain rfl := Option.some.inj entry
        trivial
      · obtain rfl := Option.some.inj entry
        exact alpha
    | rgba =>
      split_ifs at entry
      · obtain rfl := Option.some.inj entry
        trivial
      · obtain rfl := Option.some.inj entry
        exact ⟨decal, rfl⟩
  · rw [if_neg decal] at entry
    split_ifs at entry with has replace factor blend
    · obtain rfl := Option.some.inj entry
      exact has
    · obtain rfl := Option.some.inj entry
      refine ⟨has, decal, ?_⟩
      rintro rfl
      exact factor.resolve_left (by decide)
    · obtain rfl := Option.some.inj entry
      exact ⟨has, blend⟩
    · obtain rfl := Option.some.inj entry
      simp only [modes, List.mem_cons, List.not_mem_nil, or_false] at mode
      exact ⟨has, by tauto⟩
    · obtain rfl := Option.some.inj entry
      trivial

section

variable {i : Fin 2} {envColor : Component → Fin 256} {env : GLenum} {f : Format} {c : TexClass}
  (classified : classOf f = some c) {fragment old : Pixel} {sample : Sample} {j : Component}
  (shaped : Shaped fragment) (range : InRange fragment)

include classified shaped range

theorem rounded (mode : env ∈ modes) :
    Rounded i envColor env f c j fragment old sample := by
  intro e entry
  apply eval_near
  have own : Colour (Pixel.get fragment j) := ⟨shaped j, range j⟩
  have nonzero : (Pixel.get fragment j).2 ≠ 0 := Nat.ne_of_gt (sizes_bounds _ own.fits.1).1
  have texel (has : c.Has j) :=
    texel_colour (unitOf i envColor env f sample) classified old has
  have iff := texel_has (unitOf i envColor env f sample) classified old (j := j)
  have present (has : c.Has j) := iff.mpr has
  have size := operands_size env own.fits.1 fun nonzero => (texel (iff.mp nonzero)).fits.1
  have place := table_entry mode entry
  cases e with
  | own => exact (sizes_bounds _ size.1).1
  | texel => exact (sizes_bounds _ (size.2 (present place))).1
  | product =>
    obtain ⟨has, decal, alpha⟩ := place
    by_cases add : env = GGL.add
    · obtain rfl := alpha add
      subst add
      have widens : (Pixel.get (fetch (unitOf i envColor GGL.add f sample) old) 0).2 ∈
          alphaSizes := by
        have coloured := unit_coloured (unitOf i envColor GGL.add f sample) classified nofun
        have pixels : Shaped (fragment, old).1 := shaped
        have same := present has
        obtain ⟨-, sizes, -⟩ := alphaAt_colour pixels range coloured 0 same
        exact sizes same
      obtain ⟨first, second⟩ := rescale_fits own.fits (fun _ => (texel has).fits) fun _ => widens
      exact ⟨first, (second (present has)).1⟩
    · have plainOperands := operands_apart decal add (Pixel.get fragment j)
        (Pixel.get (fetch (unitOf i envColor env f sample) old) j)
      change Fits (operands env _ _).1 ∧ Fits (operands env _ _).2
      rw [plainOperands]
      exact ⟨own.fits, (texel has).fits⟩
  | mixed =>
    obtain ⟨has, rfl⟩ := place
    exact ⟨own.fits, (texel has).fits, ⟨own.fits.1, envConstant_lt _⟩, rfl⟩
  | laid =>
    obtain ⟨rfl, rfl⟩ := place
    obtain ⟨-, colour, widens⟩ := rgba_alpha (unitOf i envColor GGL.decal f sample) classified old
      shaped range j
    obtain ⟨first, second⟩ := rescale_fits own.fits (fun _ => (texel trivial).fits) widens
    obtain ⟨third, same⟩ := second (present trivial)
    exact ⟨first, third, colour.fits, same⟩
  | sum =>
    obtain ⟨has, rfl⟩ := place
    exact ⟨(sizes_bounds _ size.1).1, rescale_same nonzero (present has)⟩

end

/-- A component follows the table for every fragment and texel exactly in the right configurations;
sums also where they do not overflow, and DECAL where the texel is laid over a darker fragment or
changes nothing. The table in fixed point is the standard's up to rounding. -/
theorem environment_iff (i : Fin 2) (envColor : Component → Fin 256) (env : GLenum)
    (mode : env ∈ modes) (f : Format) (c : TexClass) (classified : classOf f = some c)
    (j : Component) :
    ((∀ fragment old sample, Shaped fragment → InRange fragment →
        Follows i envColor env f c j fragment old sample) ↔ Right i envColor env c j) ∧
      ∀ fragment old sample, Shaped fragment → InRange fragment →
        Rounded i envColor env f c j fragment old sample ∧
          (j ≠ 0 →
            let (own, texel, alpha) := unitOperands (unitOf i envColor env f sample) fragment old j
            (env = GGL.add → c.Has j → (Follows i envColor env f c j fragment old sample ↔
              own.1 + texel.1 < 2 ^ own.2)) ∧
            (env = GGL.decal → c = .rgb → (Follows i envColor env f c j fragment old sample ↔
              Agrees (Pixel.get fragment j) texel)) ∧
            (env = GGL.decal → c = .rgba → (Follows i envColor env f c j fragment old sample ↔
              own.1 ≤ texel.1 ∨ alpha.1 = 0))) := by
  refine ⟨⟨right_of_follows mode classified, ?_⟩, ?_⟩
  · intro right fragment old sample shaped range
    exact right_follows classified right ⟨shaped j, range j⟩
  · intro fragment old sample shaped range
    refine ⟨rounded classified shaped range mode, fun color => ⟨?_, ?_, ?_⟩⟩
    · rintro rfl has
      exact sum_iff classified ⟨shaped j, range j⟩ color has
    · rintro rfl rfl
      exact texel_iff classified ⟨shaped 0, range 0⟩ color
    · rintro rfl rfl
      exact laid_iff classified shaped range color

/-- The second unit blends a green texel with a grey environment colour. -/
theorem environment_iff_grey :
    Follows 1 (fun _ => 0x80) GGL.blendEnv Format.rgb565 .rgb 2 (plain 0x40) (plain 0)
      (.nearest 0x07E0) :=
  (environment_iff 1 (fun _ => 0x80) GGL.blendEnv (by decide) Format.rgb565 .rgb (by decide) 2).1.2
    (by decide) _ _ _ (plain_shaped 0x40) (plain_inRange (by decide))

/-- The first unit blends towards the alpha of the environment colour, here none of its red. -/
theorem red_not_blended : GGL.blendEnv ∈ modes ∧ classOf Format.rgb565 = some .rgb ∧
    Shaped (plain 0) ∧ InRange (plain 0) ∧
    ¬Follows 0 ![0, 255, 0, 0] GGL.blendEnv Format.rgb565 .rgb 1 (plain 0) (plain 0)
      (.nearest 0xFFFF) :=
  ⟨by decide, by decide, plain_shaped 0, plain_inRange (by decide), by decide +kernel⟩

end RabbitRender.Pixelflinger.Environments
