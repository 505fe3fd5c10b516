/- RabbitRender/Pixelflinger/SourceOver
   layer: model and proofs
   source: libpixelflinger/scanline.cpp
   digest: The blenders that lay 32-bit texels over 565 pixels, and the sums that stay in their
     fields. -/

import RabbitRender.Pixelflinger.Widths

set_option autoImplicit false

namespace RabbitRender.Pixelflinger.SourceOver

open Pixelflinger.Pixels

structure Rgb where
  r : Nat
  g : Nat
  b : Nat
  deriving DecidableEq, Repr

def fields (d : BitVec 16) : Rgb where
  r := d.toNat >>> 11 &&& 0x1F
  g := d.toNat >>> 5 &&& 0x3F
  b := d.toNat &&& 0x1F

/-- `uint16_t((sR<<11)|(sG<<5)|sB)`. -/
def pack (x : Rgb) : BitVec 16 := BitVec.ofNat 16 (x.r <<< 11 ||| x.g <<< 5 ||| x.b)

def convertAbgr8888ToRgb565 (pix : BitVec 32) : BitVec 16 :=
  BitVec.ofNat 16 (u32 (pix.toNat <<< 8) &&& 0xF800 ||| pix.toNat >>> 5 &&& 0x07E0 |||
    pix.toNat >>> 19 &&& 0x001F)

def narrowed (s : BitVec 32) : Rgb where
  r := s.toNat >>> 3 &&& 0x1F
  g := s.toNat >>> (8 + 2) &&& 0x3F
  b := s.toNat >>> (16 + 3) &&& 0x1F

def Fits (x : Rgb) : Prop := x.r ≤ 0x1F ∧ x.g ≤ 0x3F ∧ x.b ≤ 0x1F

instance (x : Rgb) : Decidable (Fits x) := inferInstanceAs (Decidable (_ ∧ _))

def Saturated (x : Rgb) (out : BitVec 16) : Prop :=
  fields out = ⟨min 0x1F x.r, min 0x3F x.g, min 0x1F x.b⟩

instance (x : Rgb) (out : BitVec 16) : Decidable (Saturated x out) :=
  inferInstanceAs (Decidable (_ = _))

theorem fields_pack (x : Rgb) : fields (pack x) =
    ⟨(x.r ||| x.g >>> 6 ||| x.b >>> 11) % 2 ^ 5, (x.g ||| x.b >>> 5) % 2 ^ 6, x.b % 2 ^ 5⟩ := by
  have five : 0x1F = 2 ^ 5 - 1 := rfl
  have six : 0x3F = 2 ^ 6 - 1 := rfl
  have low (w n size : Nat) (room : n + size ≤ 16) :
      (w % 2 ^ 16) >>> n % 2 ^ size = w >>> n % 2 ^ size := by
    apply Nat.eq_of_testBit_eq
    intro i
    simp only [Nat.testBit_mod_two_pow, Nat.testBit_shiftRight]
    by_cases bit : i < size
    · rw [decide_eq_true (by omega : n + i < 16), Bool.true_and]
    · rw [decide_eq_false bit, Bool.false_and, Bool.false_and]
  have clear (v n : Nat) : v <<< n % 2 ^ n = 0 := by
    rw [Nat.shiftLeft_eq, Nat.mul_mod_left]
  unfold fields pack
  rw [five, six]
  simp only [BitVec.toNat_ofNat, Nat.and_two_pow_sub_one_eq_mod, Rgb.mk.injEq]
  refine ⟨?_, ?_, ?_⟩
  · have green : x.g <<< 5 >>> 11 = x.g >>> 6 := by
      rw [Nat.shiftRight_add _ 5 6, Nat.shiftLeft_shiftRight]
    rw [low _ _ _ (by decide), Nat.shiftRight_or_distrib, Nat.shiftRight_or_distrib,
      Nat.shiftLeft_shiftRight, green]
  · have red : x.r <<< 11 >>> 5 = x.r <<< 6 := by
      rw [Nat.shiftLeft_add _ 6 5, Nat.shiftLeft_shiftRight]
    rw [low _ _ _ (by decide), Nat.shiftRight_or_distrib, Nat.shiftRight_or_distrib,
      Nat.shiftLeft_shiftRight, red, Nat.or_assoc, Nat.or_mod_two_pow, clear, Nat.zero_or]
  · have whole := low (x.r <<< 11 ||| x.g <<< 5 ||| x.b) 0 5 (by decide)
    have red : x.r <<< 11 = x.r <<< 6 <<< 5 := Nat.shiftLeft_add _ 6 5
    rw [Nat.shiftRight_zero, Nat.shiftRight_zero] at whole
    rw [whole, Nat.or_mod_two_pow, Nat.or_mod_two_pow, red, clear, clear, Nat.zero_or, Nat.zero_or]

variable {x : Rgb} {v top bits : Nat}

theorem pack_toNat (fits : Fits x) : (pack x).toNat = x.r * 2 ^ 11 + x.g * 2 ^ 5 + x.b := by
  obtain ⟨red, green, blue⟩ := fits
  have upper : x.r <<< 11 ||| x.g <<< 5 = (x.r <<< 6 + x.g) <<< 5 := by
    rw [Nat.shiftLeft_add_eq_or_of_lt (by omega : x.g < 2 ^ 6), Nat.shiftLeft_or_distrib,
      ← Nat.shiftLeft_add]
  have whole : (x.r <<< 6 + x.g) <<< 5 ||| x.b = (x.r <<< 6 + x.g) <<< 5 + x.b :=
    (Nat.shiftLeft_add_eq_or_of_lt (by omega : x.b < 2 ^ 5) _).symm
  rw [pack, upper, whole, BitVec.toNat_ofNat, Nat.shiftLeft_eq, Nat.shiftLeft_eq]
  omega

theorem fields_fits (d : BitVec 16) : Fits (fields d) :=
  ⟨Nat.and_le_right, Nat.and_le_right, Nat.and_le_right⟩

theorem pack_fields (d : BitVec 16) : pack (fields d) = d := by
  have range := d.isLt
  have five : 0x1F = 2 ^ 5 - 1 := rfl
  have six : 0x3F = 2 ^ 6 - 1 := rfl
  apply BitVec.eq_of_toNat_eq
  rw [pack_toNat (fields_fits d), fields, five, six]
  simp only [Nat.and_two_pow_sub_one_eq_mod, Nat.shiftRight_eq_div_pow]
  omega

private theorem masked_shift (p m a b : Nat) :
    p >>> a &&& m <<< b = (p >>> (a + b) &&& m) <<< b := by
  apply Nat.eq_of_testBit_eq
  intro i
  simp only [Nat.testBit_and, Nat.testBit_shiftRight, Nat.testBit_shiftLeft]
  by_cases place : b ≤ i
  · have index : a + b + (i - b) = a + i := by omega
    rw [decide_eq_true place, index, Bool.true_and, Bool.true_and]
  · rw [decide_eq_false place, Bool.false_and, Bool.false_and, Bool.and_false]

theorem convert_eq (s : BitVec 32) : convertAbgr8888ToRgb565 s = pack (narrowed s) := by
  have red : u32 (s.toNat <<< 8) &&& 0xF800 = (s.toNat >>> 3 &&& 0x1F) <<< 11 := by
    have place : 0xF800 = (2 ^ 5 - 1) <<< 11 := rfl
    have five : 0x1F = 2 ^ 5 - 1 := rfl
    rw [place, five, u32]
    apply Nat.eq_of_testBit_eq
    intro i
    simp only [Nat.testBit_and, Nat.testBit_mod_two_pow, Nat.testBit_shiftLeft,
      Nat.testBit_shiftRight, Nat.testBit_two_pow_sub_one]
    by_cases inside : 11 ≤ i ∧ i - 11 < 5
    · have index : 3 + (i - 11) = i - 8 := by omega
      rw [decide_eq_true (by omega : i < 32), decide_eq_true (by omega : 8 ≤ i), index]
      simp [inside.1, inside.2]
    · simp only [not_and] at inside
      by_cases above : 11 ≤ i
      · simp [inside above]
      · simp [above]
  have green : s.toNat >>> 5 &&& 0x07E0 = (s.toNat >>> (8 + 2) &&& 0x3F) <<< 5 :=
    masked_shift s.toNat 0x3F 5 5
  unfold convertAbgr8888ToRgb565
  rw [red, green]
  rfl

def Sums (x : Rgb) : Prop := x.r < 2 * 0x1F + 1 ∧ x.g < 2 * 0x3F + 1 ∧ x.b < 2 * 0x1F + 1

theorem saturated_iff (sums : Sums x) : Saturated x (pack x) ↔ Fits x := by
  obtain ⟨red, green, blue⟩ := sums
  unfold Saturated Fits
  rw [fields_pack]
  simp only [Rgb.mk.injEq, Nat.shiftRight_eq_div_pow]
  constructor
  · rintro ⟨r, g, b⟩
    have fitsB : x.b ≤ 0x1F := by omega
    have noneB : x.b / 2 ^ 5 = 0 ∧ x.b / 2 ^ 11 = 0 := by omega
    rw [noneB.1, Nat.or_zero] at g
    have fitsG : x.g ≤ 0x3F := by omega
    have noneG : x.g / 2 ^ 6 = 0 := by omega
    rw [noneB.2, noneG, Nat.or_zero, Nat.or_zero] at r
    exact ⟨by omega, fitsG, fitsB⟩
  · rintro ⟨r, g, b⟩
    have noneB : x.b / 2 ^ 5 = 0 ∧ x.b / 2 ^ 11 = 0 := by omega
    have noneG : x.g / 2 ^ 6 = 0 := by omega
    rw [noneB.1, noneB.2, noneG, Nat.or_zero, Nat.or_zero, Nat.or_zero]
    omega

/-- The share of the destination for an alpha of eight bits, in units of 256. -/
def rest (a : Nat) : Nat := 0x100 - (a + a >>> 7)

/-- The texel's components and the destination's shares, as `blender_32to16` adds them. -/
def sum32to16 (s : BitVec 32) (d : BitVec 16) : Rgb :=
  let f := rest (s.toNat >>> 24)
  let source := narrowed s
  let dst := fields d
  { r := source.r + (f * dst.r) >>> 8
    g := source.g + (f * dst.g) >>> 8
    b := source.b + (f * dst.b) >>> 8 }

/-- `blender_32to16::write`. -/
def write32to16 (s : BitVec 32) (d : BitVec 16) : BitVec 16 :=
  if s = 0 then d
  else if s.toNat >>> 24 = 0xFF then convertAbgr8888ToRgb565 s
  else pack (sum32to16 s d)

/-- One pixel of `scanline_col32cb16blend`, where `s` is the packed colour. -/
def writeCol32 (s : BitVec 32) (d : BitVec 16) : BitVec 16 := pack (sum32to16 s d)

/-- The colour the modulating blenders multiply by, in units of 256: `m_a`, `m_r`, `m_g` and
`m_b`. -/
def modulation (color : Component → Fin (2 ^ 24)) (i : Component) : Nat :=
  let c := (color i).val >>> (24 - 8)
  c + c >>> 7

def sumModulated (m : Component → Nat) (f : Nat) (s : BitVec 32) (d : BitVec 16) : Rgb :=
  let sB := s.toNat >>> 16 &&& 0xFF
  let sG := s.toNat >>> 8 &&& 0xFF
  let sR := s.toNat &&& 0xFF
  let dst := fields d
  { r := (sR * m 1) >>> (8 - 5) + f * dst.r
    g := (sG * m 2) >>> (8 - 6) + f * dst.g
    b := (sB * m 3) >>> (8 - 5) + f * dst.b }

def Rgb.whole (x : Rgb) : Rgb where
  r := x.r >>> 8
  g := x.g >>> 8
  b := x.b >>> 8

def sumModulate (m : Component → Nat) (s : BitVec 32) (d : BitVec 16) : Rgb :=
  sumModulated m (rest ((s.toNat >>> 24 * m 0) >>> 8)) s d

/-- `blender_32to16_modulate::write`. -/
def writeModulate (m : Component → Nat) (s : BitVec 32) (d : BitVec 16) : BitVec 16 :=
  if s = 0 then d else pack (sumModulate m s d).whole

def sumXModulate (m : Component → Nat) (s : BitVec 32) (d : BitVec 16) : Rgb :=
  sumModulated m (0x100 - m 0) s d

/-- `blender_x32to16_modulate::write`. -/
def writeXModulate (m : Component → Nat) (s : BitVec 32) (d : BitVec 16) : BitVec 16 :=
  pack (sumXModulate m s d).whole

def Rgb.clamp (x : Rgb) : Rgb where
  r := if 0x1F < x.r then 0x1F else x.r
  g := if 0x3F < x.g then 0x3F else x.g
  b := if 0x1F < x.b then 0x1F else x.b

/-- The eight bits of a component of an opaque texel, with the threshold of the dither matrix, in
the place of the field's bits. -/
def ditheredByte (c threshold shift : Nat) : Nat :=
  let c := c + threshold >>> shift
  if 0xFF < c then 0xFF else c

/-- `ditherer::abgr8888ToRgb565`. -/
def ditheredAbgr8888ToRgb565 (s : BitVec 32) (threshold : Fin 64) : BitVec 16 :=
  let r := ditheredByte (s.toNat &&& 0xFF) threshold 3
  let g := ditheredByte (s.toNat >>> 8 &&& 0xFF) threshold 4
  let b := ditheredByte (s.toNat >>> 16 &&& 0xFF) threshold 3
  BitVec.ofNat 16 ((r &&& 0xF8) <<< 8 ||| (g &&& 0xFC) <<< 3 ||| b >>> 3)

def sumOpaque (s : BitVec 32) (threshold : Fin 64) : Rgb where
  r := ((s.toNat &&& 0xFF) + threshold.val >>> 3) >>> 3
  g := ((s.toNat >>> 8 &&& 0xFF) + threshold.val >>> 4) >>> 2
  b := ((s.toNat >>> 16 &&& 0xFF) + threshold.val >>> 3) >>> 3

def Rgb.dither (x : Rgb) (threshold : Fin 64) : Rgb where
  r := (x.r + threshold.val <<< (8 - 6)) >>> 8
  g := (x.g + threshold.val <<< (8 - 6)) >>> 8
  b := (x.b + threshold.val <<< (8 - 6)) >>> 8

/-- The sums of `blender_32to16` with eight bits below the fields. -/
def sumDithered (s : BitVec 32) (d : BitVec 16) : Rgb :=
  let f := rest (s.toNat >>> 24)
  let source := narrowed s
  let dst := fields d
  { r := source.r <<< 8 + f * dst.r
    g := source.g <<< 8 + f * dst.g
    b := source.b <<< 8 + f * dst.b }

/-- `blender_32to16::write` with a ditherer. -/
def writeDithered (s : BitVec 32) (d : BitVec 16) (threshold : Fin 64) : BitVec 16 :=
  if s = 0 then d
  else if s.toNat >>> 24 = 0xFF then ditheredAbgr8888ToRgb565 s threshold
  else pack ((sumDithered s d).dither threshold).clamp

def writeModulateDithered (m : Component → Nat) (s : BitVec 32) (d : BitVec 16)
    (threshold : Fin 64) : BitVec 16 :=
  if s = 0 then d else pack ((sumModulate m s d).dither threshold).clamp

def writeXModulateDithered (m : Component → Nat) (s : BitVec 32) (d : BitVec 16)
    (threshold : Fin 64) : BitVec 16 :=
  pack ((sumXModulate m s d).dither threshold).clamp

def sumOf (s : BitVec 32) (d : BitVec 16) (threshold : Fin 64) : Rgb :=
  if s.toNat >>> 24 = 0xFF then sumOpaque s threshold else (sumDithered s d).dither threshold

theorem rest_le (a : Nat) : rest a ≤ 0x100 := Nat.sub_le _ _

private theorem share_le {f : Nat} (part : f ≤ 0x100) (range : v ≤ top) : f * v ≤ 0x100 * top := Nat.mul_le_mul part range

theorem narrowed_fits (s : BitVec 32) : Fits (narrowed s) :=
  ⟨Nat.and_le_right, Nat.and_le_right, Nat.and_le_right⟩

theorem sum32to16_sums (s : BitVec 32) (d : BitVec 16) : Sums (sum32to16 s d) := by
  obtain ⟨red, green, blue⟩ := narrowed_fits s
  obtain ⟨red', green', blue'⟩ := fields_fits d
  have part := rest_le (s.toNat >>> 24)
  have r := share_le part red'
  have g := share_le part green'
  have b := share_le part blue'
  unfold Sums sum32to16
  simp only [Nat.shiftRight_eq_div_pow] at r g b ⊢
  omega

private theorem whole_share (v : Nat) : (0x100 * v) >>> 8 = v := by
  rw [Nat.shiftRight_eq_div_pow]
  exact Nat.mul_div_cancel_left v (by decide)

theorem write32to16_eq (s : BitVec 32) (d : BitVec 16) :
    write32to16 s d = pack (sum32to16 s d) := by
  unfold write32to16
  split_ifs with clear opaqueTexel
  · subst clear
    have sums : sum32to16 0 d = fields d := by
      have none : narrowed 0 = ⟨0, 0, 0⟩ := rfl
      have all : rest ((0 : BitVec 32).toNat >>> 24) = 0x100 := rfl
      simp only [sum32to16, none, all, whole_share, Nat.zero_add]
    rw [sums, pack_fields]
  · have sums : sum32to16 s d = narrowed s := by
      have none : rest 0xFF = 0 := rfl
      simp only [sum32to16, opaqueTexel, none, Nat.zero_mul, Nat.zero_shiftRight, Nat.add_zero]
    rw [sums, convert_eq]
  · rfl

theorem sumModulated_sums {m : Component → Nat} (unit : ∀ i, m i ≤ 0x100) {f : Nat}
    (part : f ≤ 0x100) (s : BitVec 32) (d : BitVec 16) : Sums (sumModulated m f s d).whole := by
  have byte (x : Nat) : x &&& 0xFF ≤ 0xFF := Nat.and_le_right
  obtain ⟨red, green, blue⟩ := fields_fits d
  have r := share_le part red
  have g := share_le part green
  have b := share_le part blue
  have r' := Nat.mul_le_mul (byte s.toNat) (unit 1)
  have g' := Nat.mul_le_mul (byte (s.toNat >>> 8)) (unit 2)
  have b' := Nat.mul_le_mul (byte (s.toNat >>> 16)) (unit 3)
  unfold Sums Rgb.whole sumModulated
  simp only [Nat.shiftRight_eq_div_pow] at r g b r' g' b' ⊢
  omega

private theorem sumModulate_clear (m : Component → Nat) (d : BitVec 16) :
    sumModulate m 0 d = ⟨0x100 * (fields d).r, 0x100 * (fields d).g, 0x100 * (fields d).b⟩ := by
  have zero : (0 : BitVec 32).toNat = 0 := rfl
  have all : rest 0 = 0x100 := rfl
  simp only [sumModulate, sumModulated, zero, Nat.zero_shiftRight, Nat.zero_and, Nat.zero_mul,
    Nat.zero_add, all]

theorem writeModulate_eq (m : Component → Nat) (s : BitVec 32) (d : BitVec 16) :
    writeModulate m s d = pack (sumModulate m s d).whole := by
  unfold writeModulate
  split_ifs with clear
  · subst clear
    have sums : (sumModulate m 0 d).whole = fields d := by
      simp only [sumModulate_clear, Rgb.whole, whole_share]
    rw [sums, pack_fields]
  · rfl

theorem modulation_le (color : Component → Fin (2 ^ 24)) (i : Component) :
    modulation color i ≤ 0x100 := by
  have range := (color i).isLt
  unfold modulation
  simp only [Nat.shiftRight_eq_div_pow]
  omega

theorem fields_of_fits (fits : Fits x) : fields (pack x) = x := by
  have sums : Sums x := by
    obtain ⟨red, green, blue⟩ := fits
    exact ⟨by omega, by omega, by omega⟩
  have saturated := (saturated_iff sums).mpr fits
  obtain ⟨red, green, blue⟩ := fits
  unfold Saturated at saturated
  rw [saturated, Nat.min_eq_right red, Nat.min_eq_right green, Nat.min_eq_right blue]

theorem saturated_of_fields {y : Rgb} (fits : Fits y)
    (clamped : y = ⟨min 0x1F x.r, min 0x3F x.g, min 0x1F x.b⟩) : Saturated x (pack y) :=
  (fields_of_fits fits).trans clamped

theorem saturated_clamp (x : Rgb) : Saturated x (pack x.clamp) := by
  apply saturated_of_fields
  · unfold Fits Rgb.clamp
    dsimp only
    refine ⟨?_, ?_, ?_⟩ <;> split_ifs <;> omega
  · unfold Rgb.clamp
    rw [Rgb.mk.injEq]
    refine ⟨?_, ?_, ?_⟩ <;> split_ifs <;> omega

theorem saturated_solid (s : BitVec 32) (threshold : Fin 64) :
    Saturated (sumOpaque s threshold) (ditheredAbgr8888ToRgb565 s threshold) := by
  have clamped (c shift : Nat) :
      ditheredByte c threshold shift = min 0xFF (c + threshold.val >>> shift) := by
    unfold ditheredByte
    dsimp only
    split_ifs <;> omega
  have red : ∀ r < 0x100, (r &&& 0xF8) <<< 8 = r >>> 3 <<< 11 := by decide +kernel
  have green : ∀ g < 0x100, (g &&& 0xFC) <<< 3 = g >>> 2 <<< 5 := by decide +kernel
  have byte (c : Nat) : min 0xFF c < 0x100 := by omega
  unfold ditheredAbgr8888ToRgb565
  simp only [clamped]
  rw [red _ (byte _), green _ (byte _)]
  refine saturated_of_fields (y := ⟨_, _, _⟩) ?_ ?_
  · unfold Fits
    simp only [Nat.shiftRight_eq_div_pow]
    omega
  · unfold sumOpaque
    rw [Rgb.mk.injEq]
    simp only [Nat.shiftRight_eq_div_pow]
    omega

private theorem dithered_whole (x : Rgb) (threshold : Fin 64) :
    Rgb.dither ⟨0x100 * x.r, 0x100 * x.g, 0x100 * x.b⟩ threshold = x := by
  have small := threshold.isLt
  obtain ⟨r, g, b⟩ := x
  simp only [Rgb.dither, Rgb.mk.injEq, Nat.shiftRight_eq_div_pow, Nat.shiftLeft_eq]
  omega

theorem saturated_self (d : BitVec 16) : Saturated (fields d) d := by
  obtain ⟨red, green, blue⟩ := fields_fits d
  unfold Saturated
  rw [Nat.min_eq_right red, Nat.min_eq_right green, Nat.min_eq_right blue]

theorem saturated_dithered (s : BitVec 32) (d : BitVec 16) (threshold : Fin 64) :
    Saturated (sumOf s d threshold) (writeDithered s d threshold) := by
  unfold writeDithered sumOf
  by_cases clear : s = 0
  · subst clear
    have sums : sumDithered 0 d =
        ⟨0x100 * (fields d).r, 0x100 * (fields d).g, 0x100 * (fields d).b⟩ := by
      have none : narrowed 0 = ⟨0, 0, 0⟩ := rfl
      have all : rest ((0 : BitVec 32).toNat >>> 24) = 0x100 := rfl
      simp only [sumDithered, none, all, Nat.zero_shiftLeft, Nat.zero_add]
    rw [if_pos rfl, if_neg (by decide), sums, dithered_whole]
    exact saturated_self d
  · rw [if_neg clear]
    split_ifs
    · exact saturated_solid s threshold
    · exact saturated_clamp _

theorem saturated_modulate (m : Component → Nat) (s : BitVec 32) (d : BitVec 16)
    (threshold : Fin 64) :
    Saturated ((sumModulate m s d).dither threshold) (writeModulateDithered m s d threshold) := by
  unfold writeModulateDithered
  split_ifs with clear
  · subst clear
    rw [sumModulate_clear, dithered_whole]
    exact saturated_self d
  · exact saturated_clamp _

def Premultiplied (s : BitVec 32) : Prop :=
  s.toNat &&& 0xFF ≤ s.toNat >>> 24 ∧ s.toNat >>> 8 &&& 0xFF ≤ s.toNat >>> 24 ∧
    s.toNat >>> 16 &&& 0xFF ≤ s.toNat >>> 24

def bytes (s : BitVec 32) : Rgb where
  r := s.toNat &&& 0xFF
  g := s.toNat >>> 8 &&& 0xFF
  b := s.toNat >>> 16 &&& 0xFF

theorem narrowed_eq (s : BitVec 32) :
    narrowed s = ⟨(bytes s).r / 2 ^ 3, (bytes s).g / 2 ^ 2, (bytes s).b / 2 ^ 3⟩ := by
  have byte : 0xFF = 2 ^ 8 - 1 := rfl
  have five : 0x1F = 2 ^ 5 - 1 := rfl
  have six : 0x3F = 2 ^ 6 - 1 := rfl
  simp only [narrowed, bytes, byte, five, six, Nat.and_two_pow_sub_one_eq_mod,
    Nat.shiftRight_eq_div_pow, Rgb.mk.injEq]
  omega

private theorem shared_room {a c : Nat} (alpha : a ≤ 0xFF) (below : c ≤ a) (field : v ≤ top)
    (size : top + 1 = 2 ^ (8 - bits)) (hbits : bits = 2 ∨ bits = 3) :
    c / 2 ^ bits + (rest a * v) / 2 ^ 8 ≤ top := by
  have share := Nat.mul_le_mul_left (rest a) field
  unfold rest at share ⊢
  rw [Nat.shiftRight_eq_div_pow] at share ⊢
  generalize hp : (0x100 - (a + a / 2 ^ 7)) * v = p at share ⊢
  obtain rfl | rfl := hbits
  · obtain rfl : top = 63 := by omega
    omega
  · obtain rfl : top = 31 := by omega
    omega

private theorem shared_product {p q : Nat} (alpha : q ≤ 0xFF * 0x100) (below : p ≤ q)
    (field : v ≤ top) (size : top + 1 = 2 ^ (8 - bits)) (hbits : bits = 2 ∨ bits = 3) :
    (p >>> bits + rest (q >>> 8) * v) >>> 8 ≤ top := by
  have share := Nat.mul_le_mul_left (rest (q >>> 8)) field
  unfold rest at share ⊢
  simp only [Nat.shiftRight_eq_div_pow] at share ⊢
  generalize hp : (0x100 - (q / 2 ^ 8 + q / 2 ^ 8 / 2 ^ 7)) * v = x at share ⊢
  obtain rfl | rfl := hbits
  · obtain rfl : top = 63 := by omega
    omega
  · obtain rfl : top = 31 := by omega
    omega

private theorem shared_solid {p m : Nat} (alpha : m ≤ 0x100) (below : p ≤ 0xFF * m)
    (field : v ≤ top) (size : top + 1 = 2 ^ (8 - bits)) (hbits : bits = 2 ∨ bits = 3) :
    (p >>> bits + (0x100 - m) * v) >>> 8 ≤ top := by
  have share := Nat.mul_le_mul_left (0x100 - m) field
  simp only [Nat.shiftRight_eq_div_pow] at share ⊢
  generalize hp : (0x100 - m) * v = x at share ⊢
  obtain rfl | rfl := hbits
  · obtain rfl : top = 63 := by omega
    omega
  · obtain rfl : top = 31 := by omega
    omega

private theorem alpha_le (s : BitVec 32) : s.toNat >>> 24 ≤ 0xFF := by
  have range := s.isLt
  rw [Nat.shiftRight_eq_div_pow]
  omega

theorem sum32to16_fits {s : BitVec 32} (premultiplied : Premultiplied s) (d : BitVec 16) :
    Fits (sum32to16 s d) := by
  obtain ⟨red, green, blue⟩ := premultiplied
  obtain ⟨red', green', blue'⟩ := fields_fits d
  unfold Fits sum32to16
  simp only [narrowed_eq, Nat.shiftRight_eq_div_pow _ 8]
  exact ⟨shared_room (alpha_le s) red red' rfl (.inr rfl),
    shared_room (alpha_le s) green green' rfl (.inl rfl),
    shared_room (alpha_le s) blue blue' rfl (.inr rfl)⟩

section

variable {color : Component → Fin (2 ^ 24)} (below : ∀ i, color i ≤ color 0)

include below

theorem modulation_below (i : Component) : modulation color i ≤ modulation color 0 := by
  have order : (color i).val ≤ (color 0).val := below i
  unfold modulation
  simp only [Nat.shiftRight_eq_div_pow]
  omega

theorem sumModulate_fits {s : BitVec 32} (premultiplied : Premultiplied s) (d : BitVec 16) :
    Fits (sumModulate (modulation color) s d).whole := by
  have product := Nat.mul_le_mul (alpha_le s) (modulation_le color 0)
  have order := modulation_below below
  obtain ⟨red, green, blue⟩ := premultiplied
  obtain ⟨red', green', blue'⟩ := fields_fits d
  exact ⟨shared_product product (Nat.mul_le_mul red (order 1)) red' rfl (.inr rfl),
    shared_product product (Nat.mul_le_mul green (order 2)) green' rfl (.inl rfl),
    shared_product product (Nat.mul_le_mul blue (order 3)) blue' rfl (.inr rfl)⟩

theorem sumXModulate_fits (s : BitVec 32) (d : BitVec 16) :
    Fits (sumXModulate (modulation color) s d).whole := by
  have order := modulation_below below
  have product (x i : Nat) (hi : i ≤ modulation color 0) :
      (x &&& 0xFF) * i ≤ 0xFF * modulation color 0 := Nat.mul_le_mul Nat.and_le_right hi
  obtain ⟨red', green', blue'⟩ := fields_fits d
  have alpha := modulation_le color 0
  exact ⟨shared_solid alpha (product _ _ (order 1)) red' rfl (.inr rfl),
    shared_solid alpha (product _ _ (order 2)) green' rfl (.inl rfl),
    shared_solid alpha (product _ _ (order 3)) blue' rfl (.inr rfl)⟩

end

/-- Without dithering the fields are the clamped sums exactly when no sum is too large for its
field, as for premultiplied texels and colours; with dithering they always are. -/
theorem blends_saturated_iff (s : BitVec 32) (d : BitVec 16) (color : Component → Fin (2 ^ 24)) :
    let m := modulation color
    ((Saturated (sum32to16 s d) (write32to16 s d) ↔ Fits (sum32to16 s d)) ∧
      (Saturated (sum32to16 s d) (writeCol32 s d) ↔ Fits (sum32to16 s d)) ∧
      (Saturated (sumModulate m s d).whole (writeModulate m s d) ↔
        Fits (sumModulate m s d).whole) ∧
      (Saturated (sumXModulate m s d).whole (writeXModulate m s d) ↔
        Fits (sumXModulate m s d).whole)) ∧
    (∀ threshold : Fin 64,
      Saturated (sumOf s d threshold) (writeDithered s d threshold) ∧
      Saturated ((sumModulate m s d).dither threshold) (writeModulateDithered m s d threshold) ∧
      Saturated ((sumXModulate m s d).dither threshold)
        (writeXModulateDithered m s d threshold)) ∧
    (Premultiplied s → Fits (sum32to16 s d)) ∧
    ((∀ i, color i ≤ color 0) → (Premultiplied s → Fits (sumModulate m s d).whole) ∧
      Fits (sumXModulate m s d).whole) := by
  have unit := modulation_le color
  have sums := sum32to16_sums s d
  refine ⟨⟨?_, ?_, ?_, ?_⟩, fun threshold => ⟨?_, ?_, ?_⟩, fun premultiplied => ?_,
    fun below => ⟨fun premultiplied => ?_, ?_⟩⟩
  · rw [write32to16_eq]
    exact saturated_iff sums
  · exact saturated_iff sums
  · rw [writeModulate_eq]
    exact saturated_iff (sumModulated_sums unit (rest_le _) s d)
  · exact saturated_iff (sumModulated_sums unit (Nat.sub_le _ _) s d)
  · exact saturated_dithered s d threshold
  · exact saturated_modulate _ s d threshold
  · exact saturated_clamp _
  · exact sum32to16_fits premultiplied d
  · exact sumModulate_fits below premultiplied d
  · exact sumXModulate_fits below s d

/-- Half of full blue, not premultiplied, over full blue: green changes. -/
theorem blue_spills : ¬Saturated (sum32to16 0x80FF0000#32 0x001F#16)
    (write32to16 0x80FF0000#32 0x001F#16) := by
  decide +kernel

end RabbitRender.Pixelflinger.SourceOver
