/- RabbitRender/Pixelflinger/Widths
   layer: proof
   source: libpixelflinger/buffer.cpp, libpixelflinger/scanline.cpp
   digest: Bounds of components: expansion, extraction, texels and rescaling. -/

import RabbitRender.Pixelflinger.Fragment
import Mathlib.Tactic.FinCases
import Mathlib.Tactic.Linarith

set_option autoImplicit false

namespace RabbitRender.Pixelflinger.Widths

open Pixelflinger.Picker Pixelflinger.Pixels Pixelflinger.Fragment

theorem u32_le (x : Nat) : u32 x ≤ x := Nat.mod_le _ _

variable {x n v sbits dbits : Nat}

theorem u32_eq (h : x < 2 ^ 32) : u32 x = x := Nat.mod_eq_of_lt h

theorem u32_pred (h : 1 ≤ x) : u32 (x + (2 ^ 32 - 1)) = u32 (x - 1) := by
  have wrapped : x + (2 ^ 32 - 1) = x - 1 + 2 ^ 32 := by omega
  rw [u32, wrapped, Nat.add_mod_right, u32]

theorem sub32_eq {a b : Nat} (h : b ≤ a) (ha : a < 2 ^ 32) : sub32 a b = a - b := by
  have wrapped : a + (2 ^ 32 - b) = a - b + 2 ^ 32 := by omega
  rw [sub32, u32, wrapped, Nat.add_mod_right]
  exact Nat.mod_eq_of_lt (by omega)

theorem shiftRight_lt {m : Nat} (h : x < m * 2 ^ n) : x >>> n < m := by
  rw [Nat.shiftRight_eq_div_pow, Nat.div_lt_iff_lt_mul (Nat.two_pow_pos n)]
  exact h

private theorem or_lt {y : Nat} (hx : x < 2 ^ n) (hy : y < 2 ^ n) : x ||| y < 2 ^ n :=
  Nat.or_lt_two_pow hx hy

theorem smearRight_lt {turns : Nat} (hv : v < 2 ^ n) : smearRight turns v sbits dbits < 2 ^ n := by
  induction turns generalizing v sbits dbits with
  | zero => exact hv
  | succ turns ih =>
    have smeared : v ||| v >>> sbits < 2 ^ n :=
      or_lt hv ((Nat.shiftRight_le _ _).trans_lt hv)
    simp only [smearRight]
    split
    · exact smeared
    · exact ih smeared

/-- The number of bits the second loop of `expand` fills. -/
def smearWidth : Nat → (width sbits dbits : Nat) → Nat
  | 0, width, _, _ => width
  | turns + 1, width, sbits, dbits =>
    if dbits ≤ sbits then width + sbits
    else smearWidth turns (width + sbits)
      (if 2 * sbits < dbits - sbits then 2 * sbits else sbits) (dbits - sbits)

theorem smearLeft_lt {turns width : Nat} (hv : v < 2 ^ width) :
    smearLeft turns v sbits dbits < 2 ^ smearWidth turns width sbits dbits := by
  induction turns generalizing v width sbits dbits with
  | zero => exact hv
  | succ turns ih =>
    have low : v < 2 ^ (width + sbits) :=
      hv.trans_le (Nat.pow_le_pow_right (by decide) (Nat.le_add_right _ _))
    have high : v <<< sbits < 2 ^ (width + sbits) := by
      rw [Nat.shiftLeft_eq, Nat.pow_add]
      exact Nat.mul_lt_mul_of_pos_right hv (Nat.two_pow_pos _)
    have smeared : u32 (v ||| v <<< sbits) < 2 ^ (width + sbits) :=
      (u32_le _).trans_lt (or_lt low high)
    simp only [smearLeft, smearWidth]
    split
    · exact smeared
    · exact ih smeared

/-- The sizes for which `expand` does not fill more bits than it is asked for. -/
def Widens (sbits dbits : Nat) : Prop :=
  sbits = 1 ∨ dbits % sbits ≠ 0 ∨ smearWidth dbits sbits sbits (dbits - sbits) ≤ dbits

instance (sbits dbits : Nat) : Decidable (Widens sbits dbits) :=
  inferInstanceAs (Decidable (_ ∨ _ ∨ _))

theorem gglExpand_lt (hv : v < 2 ^ sbits) (widens : Widens sbits dbits) (larger : sbits < dbits) :
    gglExpand v sbits dbits < 2 ^ dbits := by
  unfold gglExpand
  rw [if_pos larger]
  split
  · rename_i one
    subst one
    have full : 1 ≤ 2 ^ dbits := Nat.two_pow_pos dbits
    obtain zero | one : v = 0 ∨ v = 1 := by omega
    · rw [zero, Nat.zero_shiftLeft]
      exact Nat.lt_of_lt_of_le (by decide) full
    · have shifted : u32 (1 <<< dbits + (2 ^ 32 - 1)) = u32 (2 ^ dbits - 1) := by
        rw [Nat.one_shiftLeft]
        exact u32_pred full
      rw [one, shifted]
      exact (u32_le _).trans_lt (by omega)
  · rename_i several
    split
    · apply smearRight_lt
      refine (u32_le _).trans_lt ?_
      rw [Nat.shiftLeft_eq]
      calc v * 2 ^ (dbits - sbits)
          < 2 ^ sbits * 2 ^ (dbits - sbits) := Nat.mul_lt_mul_of_pos_right hv (Nat.two_pow_pos _)
        _ = 2 ^ dbits := by rw [← Nat.pow_add, Nat.add_sub_cancel' larger.le]
    · rename_i divides
      have width := (widens.resolve_left several).resolve_left divides
      exact (smearLeft_lt hv).trans_le (Nat.pow_le_pow_right (by decide) width)

theorem extract_lt {h l bits : Nat} (hv : v < 2 ^ bits) (hl : l ≤ h) :
    extract v h l bits < 2 ^ (h - l) := by
  unfold extract
  extract_lets w
  split
  · rw [Nat.one_shiftLeft]
    have := Nat.two_pow_pos (h - l)
    exact (Nat.and_le_right).trans_lt (by omega)
  · rename_i whole
    have whole : h = bits := not_not.mp whole
    have shifted : v >>> l < 2 ^ (h - l) := by
      apply shiftRight_lt
      rw [← Nat.pow_add, Nat.sub_add_cancel hl, whole]
      exact hv
    exact shifted

def formatBits (f : Format) (j : Component) : Nat := ((formats f).c j).h - ((formats f).c j).l

private theorem formats_ordered : ∀ f j, ((formats f).c j).l ≤ ((formats f).c j).h := by decide

theorem readWord_size (f : Format) (v : Nat) (old : Pixel) (j : Component) :
    (readWord (pickReader f) f v old).s j = formatBits f j := by
  unfold pickReader
  split_ifs with rgba rgb
  · subst rgba
    fin_cases j <;> rfl
  · subst rgb
    fin_cases j <;> rfl
  · rfl

theorem readWord_lt (f : Format) (v : Nat) (old : Pixel) (j : Component)
    (present : formatBits f j ≠ 0) :
    (readWord (pickReader f) f v old).c j < 2 ^ formatBits f j := by
  unfold pickReader
  split_ifs with rgba rgb
  · subst rgba
    have word : u32 v < 2 ^ 32 := Nat.mod_lt _ (by decide)
    have masked (x : Nat) : x &&& 0xFF < 2 ^ 8 := Nat.and_le_right.trans_lt (by decide)
    fin_cases j
    · exact shiftRight_lt word
    · exact masked _
    · exact masked _
    · exact masked _
  · subst rgb
    have word : v % 2 ^ 16 < 2 ^ 16 := Nat.mod_lt _ (by decide)
    fin_cases j
    · exact absurd rfl present
    · exact shiftRight_lt word
    · exact Nat.and_le_right.trans_lt (by decide)
    · exact Nat.and_le_right.trans_lt (by decide)
  · have read : (readWord .readPixel f v old).c j =
        extract (v % 2 ^ ((formats f).size * 8)) ((formats f).c j).h ((formats f).c j).l
          ((formats f).size * 8) := if_pos present
    rw [read]
    exact extract_lt (Nat.mod_lt _ (Nat.two_pow_pos _)) (formats_ordered f j)

theorem weighted_lt {a b c d : Nat} (u v : Fin 16) (ha : a < 2 ^ n) (hb : b < 2 ^ n)
    (hc : c < 2 ^ n) (hd : d < 2 ^ n) :
    u32 (a * (weights u v).1 + b * (weights u v).2.1 + c * (weights u v).2.2.1 +
      d * (weights u v).2.2.2) < 2 ^ (n + 8) := by
  have sum : (weights u v).1 + (weights u v).2.1 + (weights u v).2.2.1 + (weights u v).2.2.2 =
      0x100 := by
    revert u v
    decide
  generalize (weights u v).1 = m0 at sum ⊢
  generalize (weights u v).2.1 = m1 at sum ⊢
  generalize (weights u v).2.2.1 = m2 at sum ⊢
  generalize (weights u v).2.2.2 = m3 at sum ⊢
  refine (u32_le _).trans_lt ?_
  have top : a * m0 + b * m1 + c * m2 + d * m3 ≤ (2 ^ n - 1) * (m0 + m1 + m2 + m3) := by
    have ha := Nat.mul_le_mul_right m0 (Nat.le_sub_one_of_lt ha)
    have hb := Nat.mul_le_mul_right m1 (Nat.le_sub_one_of_lt hb)
    have hc := Nat.mul_le_mul_right m2 (Nat.le_sub_one_of_lt hc)
    have hd := Nat.mul_le_mul_right m3 (Nat.le_sub_one_of_lt hd)
    rw [Nat.mul_add, Nat.mul_add, Nat.mul_add]
    omega
  rw [sum] at top
  have := Nat.two_pow_pos n
  rw [Nat.pow_add]
  omega

def texelBits (x : TexUnit) (j : Component) : Nat :=
  match x.sample with
  | .nearest _ => formatBits x.format j
  | .linear _ _ _ _ _ _ => if formatBits x.format j ≠ 0 then formatBits x.format j + 8 else 0

theorem fetch_size (x : TexUnit) (old : Pixel) (j : Component) :
    (fetch x old).s j = texelBits x j := by
  unfold fetch texelBits
  cases x.sample with
  | nearest word => exact readWord_size _ _ _ _
  | linear word00 word01 word10 word11 u v => simp only [readWord_size]

theorem fetch_lt (x : TexUnit) (old : Pixel) (j : Component) (present : texelBits x j ≠ 0) :
    (fetch x old).c j < 2 ^ texelBits x j := by
  unfold fetch texelBits at *
  cases hs : x.sample with
  | nearest word =>
    simp only [hs] at present ⊢
    exact readWord_lt _ _ _ _ present
  | linear word00 word01 word10 word11 u v =>
    simp only [hs] at present ⊢
    have bits : formatBits x.format j ≠ 0 := by
      intro none
      simp [none] at present
    simp only [readWord_size, if_pos bits]
    exact weighted_lt u v (readWord_lt _ _ _ _ bits) (readWord_lt _ _ _ _ bits)
      (readWord_lt _ _ _ _ bits) (readWord_lt _ _ _ _ bits)

end RabbitRender.Pixelflinger.Widths
