/- RabbitRender/Textures/PaletteSizes
   layer: results
   source: swrender/texture.cpp
   digest: When the sizes of paletted images are what the decoder reads. -/

import Mathlib.Algebra.BigOperators.Ring.Finset
import Mathlib.Algebra.Order.BigOperators.Group.Finset
import RabbitRender.Lib.Halving
import RabbitRender.Textures.Coverage
import RabbitRender.Textures.PaletteReads

set_option autoImplicit false

namespace RabbitRender.Textures.PaletteSizes

open Fixed (wrap32 wrap32_bounds wrap32_natCast_le wrap32_of_bounds)
open RabbitRender.GL (GLenum)
open Lib.ByteMemory Lib.Halving
open Textures.Levels (sizeT)
open Textures.Palettes Textures.PaletteReads
open Textures.Units (paletteFormat)
open Textures.Uploads (lodExtent)

/-- The size of a level is computed without leaving 32 bits, and its rows are whole bytes. -/
def Exact (bits w h : Nat) : Prop :=
  w * bits < 2 ^ 31 ∧ h * (w * bits / 8) < 2 ^ 31 ∧ 8 ∣ w * bits

instance (bits w h : Nat) : Decidable (Exact bits w h) :=
  inferInstanceAs (Decidable (_ ∧ _ ∧ _))

section Level

variable {bits w h : Nat}

private theorem rowBytes_ge (legal : bits = 4 ∨ bits = 8) : w * bits / 8 ≤ rowBytes bits w := by
  rcases legal with rfl | rfl
  · rw [rowBytes, if_neg (by decide)]
    omega
  · rw [rowBytes, if_pos rfl]
    omega

private theorem rowBytes_eq_iff (legal : bits = 4 ∨ bits = 8) :
    w * bits / 8 = rowBytes bits w ↔ 8 ∣ w * bits := by
  rcases legal with rfl | rfl
  · rw [rowBytes, if_neg (by decide)]
    omega
  · rw [rowBytes, if_pos rfl]
    omega

private theorem row_lt (legal : bits = 4 ∨ bits = 8) (hw : w < 2 ^ 31) (large : 2 ^ 31 ≤ w * bits) :
    let row := Int.tdiv (wrap32 (w * bits : Nat)) 8
    row < rowBytes bits w ∧ -2 ^ 28 ≤ row := by
  intro row
  have below : w * bits < 2 ^ 34 := by
    rcases legal with rfl | rfl <;> omega
  have bytes := rowBytes_ge (w := w) legal
  have bounds := wrap32_bounds (w * bits : Nat)
  have residue : wrap32 (w * bits : Nat) ≤ (w * bits : Nat) - 2 ^ 32 := by
    unfold wrap32 at bounds ⊢
    rw [Int.bmod_def] at bounds ⊢
    split_ifs at bounds ⊢ <;> omega
  have quotient : row = wrap32 (w * bits : Nat) / 8 +
      if 0 ≤ wrap32 (w * bits : Nat) ∨ 8 ∣ wrap32 (w * bits : Nat) then 0 else 1 :=
    Int.tdiv_eq_ediv
  split_ifs at quotient <;> omega

private theorem countedBytes_lt (legal : bits = 4 ∨ bits = 8) (hw : w < 2 ^ 31) (hh : 0 < h)
    (large : 2 ^ 31 ≤ w * bits) : countedBytes bits w h < (h * rowBytes bits w : Nat) := by
  obtain ⟨less, low⟩ := row_lt legal hw large
  have bytes := rowBytes_ge (w := w) legal
  have bounds := wrap32_bounds (h * Int.tdiv (wrap32 (w * bits : Nat)) 8)
  unfold countedBytes
  push_cast at *
  generalize Int.tdiv (wrap32 (w * bits)) 8 = row at *
  generalize rowBytes bits w = read at *
  have strict : (h : Int) * row < h * read := Int.mul_lt_mul_of_pos_left less (by omega)
  by_cases many : 8 ≤ h
  · have enough : 8 * 2 ^ 28 ≤ h * read := Nat.mul_le_mul many (by omega)
    have same : ((h * read : Nat) : Int) = h * read := by push_cast; rfl
    omega
  · have least : h * -2 ^ 28 ≤ h * row := Int.mul_le_mul_of_nonneg_left low (by omega)
    have same : ((h * read : Nat) : Int) = h * read := by push_cast; rfl
    by_cases inside : h * row < 2 ^ 31
    · rw [wrap32_of_bounds (by omega) inside]
      omega
    · omega

private theorem countedBytes_of_row (small : w * bits < 2 ^ 31) :
    countedBytes bits w h = wrap32 (h * (w * bits / 8) : Nat) := by
  have row : Int.tdiv (wrap32 (w * bits : Nat)) 8 = (w * bits / 8 : Nat) := by
    rw [wrap32_of_bounds (by omega) (by omega), Int.tdiv_eq_ediv_of_nonneg (Int.natCast_nonneg _)]
    rfl
  rw [countedBytes]
  push_cast at row ⊢
  rw [row]

/-- The computed size never exceeds what is read, and is the same exactly if nothing overflows and
rows end with a byte. -/
private theorem countedBytes_le (legal : bits = 4 ∨ bits = 8) (hw : w < 2 ^ 31) (hh : 0 < h) :
    countedBytes bits w h ≤ (h * rowBytes bits w : Nat) ∧
      (countedBytes bits w h = (h * rowBytes bits w : Nat) ↔ Exact bits w h) := by
  by_cases small : w * bits < 2 ^ 31
  · obtain ⟨le, same⟩ := wrap32_natCast_le (h * (w * bits / 8))
    have rows : h * (w * bits / 8) ≤ h * rowBytes bits w := Nat.mul_le_mul_left h (rowBytes_ge legal)
    have whole : h * (w * bits / 8) = h * rowBytes bits w ↔ 8 ∣ w * bits := by
      rw [Nat.mul_right_inj hh.ne', rowBytes_eq_iff legal]
    rw [countedBytes_of_row small, Exact, ← whole]
    refine ⟨by omega, ?_⟩
    constructor
    · intro equal
      exact ⟨small, same.mp (by omega), by omega⟩
    · rintro ⟨-, inside, bytes⟩
      rw [same.mpr inside, bytes]
  · have less := countedBytes_lt legal hw hh (by omega)
    exact ⟨less.le, iff_of_false less.ne fun exact => small exact.1⟩

private theorem countedBytes_none (legal : bits = 4 ∨ bits = 8) (hw : 0 < w) (hh : 0 < h) :
    countedBytes bits w h = 0 ∧ h * rowBytes bits w = 1 ↔ bits = 4 ∧ w = 1 ∧ h = 1 := by
  constructor
  · rintro ⟨none, one⟩
    obtain rfl := Nat.eq_one_of_mul_eq_one_right one
    have row : rowBytes bits w = 1 := by rwa [Nat.one_mul] at one
    rcases legal with rfl | rfl
    · rw [rowBytes, if_neg (by decide)] at row
      have thin : w = 1 ∨ w = 2 := by omega
      rcases thin with rfl | rfl
      · exact ⟨rfl, rfl, rfl⟩
      · exact absurd none (by decide)
    · rw [rowBytes, if_pos rfl] at row
      subst row
      exact absurd none (by decide)
  · rintro ⟨rfl, rfl, rfl⟩
    decide

private theorem size_le (legal : bits = 4 ∨ bits = 8) (hw : 0 < w) (wide : w < 2 ^ 31) (hh : 0 < h) :
    let size := if countedBytes bits w h ≠ 0 then countedBytes bits w h else 1
    size ≤ (h * rowBytes bits w : Nat) ∧
      (size = (h * rowBytes bits w : Nat) ↔ Exact bits w h ∨ bits = 4 ∧ w = 1 ∧ h = 1) := by
  intro size
  obtain ⟨le, same⟩ := countedBytes_le legal wide hh
  have positive : 0 < h * rowBytes bits w := by
    apply Nat.mul_pos hh
    unfold rowBytes
    split_ifs <;> omega
  rw [← same, ← countedBytes_none legal hw hh]
  by_cases none : countedBytes bits w h = 0
  · have one : size = 1 := if_neg (not_not.mpr none)
    rw [one]
    omega
  · have it : size = countedBytes bits w h := if_pos none
    rw [it]
    omega

end Level

theorem sumLevels_eq_sum (f : Nat → Int) (n : Nat) : sumLevels f n = ∑ l ∈ Finset.range n, f l := by
  induction n with
  | zero => rfl
  | succ n ih => rw [sumLevels, ih, Finset.sum_range_succ]

theorem sumLevels_eq_iff {f g : Nat → Int} {n : Nat} (le : ∀ l < n, f l ≤ g l) :
    sumLevels f n = sumLevels g n ↔ ∀ l < n, f l = g l := by
  rw [sumLevels_eq_sum, sumLevels_eq_sum,
    Finset.sum_eq_sum_iff_of_le fun l hl => le l (Finset.mem_range.mp hl)]
  simp only [Finset.mem_range]

theorem sumLevels_le {f g : Nat → Int} {n : Nat} (le : ∀ l < n, f l ≤ g l) :
    sumLevels f n ≤ sumLevels g n := by
  rw [sumLevels_eq_sum, sumLevels_eq_sum]
  exact Finset.sum_le_sum fun l hl => le l (Finset.mem_range.mp hl)

theorem sum_shrink_le (extent n : Nat) :
    sumLevels (fun l => shrink extent l) n ≤ 2 * extent + n := by
  suffices halves : ∃ left : Nat, left = extent / 2 ^ n ∧
      sumLevels (fun l => shrink extent l) n + 2 * left ≤ 2 * extent + n by
    obtain ⟨left, -, sum⟩ := halves
    omega
  induction n with
  | zero => exact ⟨extent, by simp, by simp [sumLevels]⟩
  | succ n ih =>
    obtain ⟨left, hleft, sum⟩ := ih
    have last : shrink extent n ≤ left + 1 := by
      rw [shrink, ← hleft]
      omega
    refine ⟨left / 2, ?_, ?_⟩
    · rw [hleft, Nat.pow_succ, Nat.div_div_eq_div_mul]
    · rw [sumLevels]
      omega

section Levels

variable {format : GLenum} {width height : Nat}

private theorem shrink_lt {extent : Nat} (small : extent < 2 ^ 31) (l : Nat) :
    shrink extent l < 2 ^ 31 := by
  have quotient := Nat.div_le_self extent (2 ^ l)
  unfold shrink
  omega

theorem levelBytes_iff (wide : width < 2 ^ 31) (l : Nat) :
    levelBytes format width height l = levelReads format width height l ↔
      Exact (indexBits format) (shrink width l) (shrink height l) := by
  rw [levelBytes_eq, levelReads_eq]
  exact (countedBytes_le (indexBits_cases format) (shrink_lt wide l) (shrink_pos height l)).2

theorem levelSize_le (wide : width < 2 ^ 31) (l : Nat) :
    levelSize format width height l ≤ levelReads format width height l ∧
      (levelSize format width height l = levelReads format width height l ↔
        Exact (indexBits format) (shrink width l) (shrink height l) ∨
          indexBits format = 4 ∧ shrink width l = 1 ∧ shrink height l = 1) := by
  rw [levelSize, levelBytes_eq, levelReads_eq]
  exact size_le (indexBits_cases format) (shrink_pos width l) (shrink_lt wide l) (shrink_pos height l)

private theorem sizeT_eq_iff {x y : Int} (le : x ≤ y) (positive : 0 ≤ y) (word : y < 2 ^ 64)
    (near : y - x < 2 ^ 64) : (sizeT x : Int) = y ↔ x = y := by
  unfold sizeT
  omega

theorem sum_levelReads_lt (wide : width < 2 ^ 31) (high : height < 2 ^ 31) {n : Nat}
    (count : n ≤ 2 ^ 31) :
    sumLevels (fun l => levelReads format width height l) n < 2 ^ 64 - 2 ^ 62 - 2 ^ 31 := by
  have one (l : Nat) : (levelReads format width height l : Int) ≤ (2 ^ 31 - 1) * shrink width l := by
    have row : rowBytes (indexBits format) (shrink width l) ≤ shrink width l := by
      have positive := shrink_pos width l
      unfold rowBytes
      split_ifs <;> omega
    have rows := shrink_lt high l
    rw [levelReads_eq]
    push_cast
    apply Int.mul_le_mul
    · omega
    · omega
    · exact Int.natCast_nonneg _
    · decide
  have total : sumLevels (fun l => (2 ^ 31 - 1) * shrink width l) n =
      (2 ^ 31 - 1) * sumLevels (fun l => shrink width l) n := by
    rw [sumLevels_eq_sum, sumLevels_eq_sum, Finset.mul_sum]
  have widths := sum_shrink_le width n
  have bound := (sumLevels_le fun l (_ : l < n) => one l).trans total.le
  omega

private theorem sum_levelSize_ge (n : Nat) :
    -(2 ^ 31 * n) ≤ sumLevels (levelSize format width height) n := by
  induction n with
  | zero => exact Int.le_refl _
  | succ n ih =>
    have bounds := wrap32_bounds
      (lodExtent height n * Int.tdiv (wrap32 (lodExtent width n * indexBits format)) 8)
    rw [sumLevels, levelSize]
    unfold levelBytes
    split_ifs <;> push_cast <;> omega

private theorem paletteSize_le (format : GLenum) : paletteSize format ≤ 1024 := by
  have entry : entrySize format ≤ 4 := by
    unfold entrySize
    split_ifs <;> decide
  unfold paletteSize
  rcases indexBits_cases format with bits | bits
  all_goals
    rw [bits, Nat.shiftLeft_eq]
    omega

theorem dataSizePalette4_iff (wide : width < 2 ^ 31) (high : height < 2 ^ 31) {n : Nat}
    (count : n ≤ 2 ^ 31) :
    (dataSizePalette4 n width height format : Int) = paletteSize format +
        sumLevels (fun l => levelReads format width height l) n ↔
      ∀ l < n, levelSize format width height l = levelReads format width height l := by
  have le (l : Nat) : levelSize format width height l ≤ levelReads format width height l :=
    (levelSize_le wide l).1
  have less := sumLevels_le fun l (_ : l < n) => le l
  have most : sumLevels (fun l => levelReads format width height l) n <
      2 ^ 64 - 2 ^ 62 - 2 ^ 31 :=
    sum_levelReads_lt wide high count
  have least : -(2 ^ 31 * n) ≤ sumLevels (levelSize format width height) n := sum_levelSize_ge n
  have palette := paletteSize_le format
  have start : (0 : Int) ≤ sumLevels (fun l => levelReads format width height l) n := by
    rw [sumLevels_eq_sum]
    exact Finset.sum_nonneg fun l _ => Int.natCast_nonneg _
  rw [← sumLevels_eq_iff fun l _ => le l, dataSizePalette4,
    sizeT_eq_iff (by omega) (by omega) (by omega) (by omega)]
  omega

/-- The decoder goes on with a level where it stopped the one before, and the size that is asked for
is what it reads in all, exactly if the rows of every level end with a byte and no size overflows; a
last level of one texel may take half a byte. -/
theorem palette_sizes_agree_iff (paletted : paletteFormat format ≠ none) (wide : width < 2 ^ 31)
    (high : height < 2 ^ 31) {n : Nat} (count : n ≤ 2 ^ 31) (data surface : Memory) (stride : Int) :
    ((∀ l, l + 1 < n → pixelOffset format width height (l + 1) =
        pixelOffset format width height l +
          indexBytes data l width height surface stride format) ∧
      (dataSizePalette4 n width height format : Int) = paletteSize format +
        sumLevels (fun l => indexBytes data l width height surface stride format) n) ↔
      ∀ l < n, Exact (indexBits format) (max 1 (width / 2 ^ l)) (max 1 (height / 2 ^ l)) ∨
        (l + 1 = n ∧ indexBits format = 4 ∧ max 1 (width / 2 ^ l) = 1 ∧
          max 1 (height / 2 ^ l) = 1) := by
  have offsets (l : Nat) : pixelOffset format width height (l + 1) =
      pixelOffset format width height l + levelReads format width height l ↔
        Exact (indexBits format) (shrink width l) (shrink height l) := by
    rw [← levelBytes_iff wide, pixelOffset, pixelOffset, sumLevels]
    omega
  simp only [indexBytes_eq paletted, offsets, dataSizePalette4_iff wide high count,
    (levelSize_le wide _).2]
  constructor
  · rintro ⟨inner, sizes⟩ l hl
    rcases sizes l hl with exact | single
    · exact .inl exact
    · by_cases last : l + 1 = n
      · exact .inr ⟨last, single⟩
      · exact .inl (inner l (by omega))
  · intro levels
    refine ⟨fun l hl => ?_, fun l hl => ?_⟩
    · rcases levels l (by omega) with exact | ⟨last, -⟩
      · exact exact
      · omega
    · rcases levels l hl with exact | ⟨-, single⟩
      · exact .inl exact
      · exact .inr single

end Levels

/-- Eight by four texels with indices of four bits, down to one texel. -/
theorem palette_sizes_agree_iff_eight :
    ((∀ l, l + 1 < 4 → pixelOffset 0x8B90 8 4 (l + 1) =
        pixelOffset 0x8B90 8 4 l + indexBytes (fun _ => 0) l 8 4 (fun _ => 0) 8 0x8B90) ∧
      (dataSizePalette4 4 8 4 0x8B90 : Int) = paletteSize 0x8B90 +
        sumLevels (fun l => indexBytes (fun _ => 0) l 8 4 (fun _ => 0) 8 0x8B90) 4) ↔
      ∀ l < 4, Exact (indexBits 0x8B90) (max 1 (8 / 2 ^ l)) (max 1 (4 / 2 ^ l)) ∨
        (l + 1 = 4 ∧ indexBits 0x8B90 = 4 ∧ max 1 (8 / 2 ^ l) = 1 ∧ max 1 (4 / 2 ^ l) = 1) :=
  palette_sizes_agree_iff (by decide) (by decide) (by decide) (by decide) _ _ _

/-- Three by two texels: each row takes two bytes, and the size that is asked for has room for one. -/
theorem odd_rows_disagree :
    (dataSizePalette4 1 3 2 0x8B90 : Int) ≠ paletteSize 0x8B90 +
      sumLevels (fun l => indexBytes (fun _ => 0) l 3 2 (fun _ => 0) 3 0x8B90) 1 := by
  decide

end RabbitRender.Textures.PaletteSizes
