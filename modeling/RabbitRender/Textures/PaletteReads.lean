/- RabbitRender/Textures/PaletteReads
   layer: proof
   source: swrender/texture.cpp
   digest: The bytes that the decoder of paletted images reads. -/

import RabbitRender.Lib.Halving
import RabbitRender.Textures.Palettes

set_option autoImplicit false

namespace RabbitRender.Textures.PaletteReads

open Fixed (wrap32)
open RabbitRender.GL (GLenum)
open Lib.ByteMemory Lib.Halving Textures.Palettes
open Textures.Units (paletteFormat)
open Textures.Uploads (lodExtent)

/-- From `d` to `d'`, the next `n` bytes of indices were read, and bytes of the palette. -/
structure Reads (palette n : Nat) (d d' : Decoder) : Prop where
  pixels : d'.pixels = d.pixels + n
  kept : ∀ i ∈ d.reads, i ∈ d'.reads
  covered : ∀ k < n, d.pixels + k ∈ d'.reads
  bounded : ∀ i ∈ d'.reads,
    i ∈ d.reads ∨ (d.pixels ≤ i ∧ i < d.pixels + n) ∨ (0 ≤ i ∧ i < palette)

variable {palette : Nat}

theorem Reads.refl (d : Decoder) : Reads palette 0 d d :=
  ⟨(Int.add_zero _).symm, fun _ h => h, fun _ hk => absurd hk (Nat.not_lt_zero _), fun _ h => .inl h⟩

theorem Reads.trans {n m : Nat} {d d' d'' : Decoder} (first : Reads palette n d d')
    (second : Reads palette m d' d'') : Reads palette (n + m) d d'' := by
  have place := first.pixels
  refine ⟨?_, fun i h => second.kept i (first.kept i h), fun k hk => ?_, fun i h => ?_⟩
  · rw [second.pixels, place]
    omega
  · by_cases early : k < n
    · exact second.kept _ (first.covered k early)
    · have later := second.covered (k - n) (by omega)
      have same : d'.pixels + (k - n : Nat) = d.pixels + k := by omega
      rwa [same] at later
  · rcases second.bounded i h with old | new | entry
    · rcases first.bounded i old with old | new | entry
      · exact .inl old
      · exact .inr (.inl ⟨new.1, by omega⟩)
      · exact .inr (.inr entry)
    · exact .inr (.inl ⟨by omega, by omega⟩)
    · exact .inr (.inr entry)

theorem reads_next (d : Decoder) : Reads palette 1 d d.next := by
  refine ⟨rfl, fun i h => List.mem_append_left _ h, fun k hk => ?_, fun i h => ?_⟩
  · obtain rfl := Nat.lt_one_iff.mp hk
    exact List.mem_append_right _ (by simp)
  · rcases List.mem_append.mp h with old | new
    · exact .inl old
    · obtain rfl := List.mem_singleton.mp new
      exact .inr (.inl ⟨Int.le_refl _, by omega⟩)

variable {size : Nat} {format : GLenum}

theorem reads_entry (data : Memory) {index : Nat} (inside : size * (index + 1) ≤ palette)
    (d : Decoder) : Reads palette 0 d (d.entry data size index) := by
  refine ⟨(Int.add_zero _).symm, fun i h => List.mem_append_left _ h,
    fun k hk => absurd hk (Nat.not_lt_zero k), fun i h => ?_⟩
  rcases List.mem_append.mp h with old | new
  · exact .inl old
  · obtain ⟨k, hk, rfl⟩ := List.mem_map.mp new
    have below := List.mem_range.mp hk
    rw [Nat.mul_succ] at inside
    exact .inr (.inr ⟨Int.natCast_nonneg _, by omega⟩)

theorem reads_row8 (data : Memory) (inside : size * 256 ≤ palette) (width : Nat) (d : Decoder) :
    Reads palette width d (d.row8 data size width) := by
  induction width generalizing d with
  | zero => exact .refl d
  | succ width ih =>
    have byte := (data d.pixels).toNat_lt
    have entry : size * ((data d.pixels).toNat + 1) ≤ palette :=
      (Nat.mul_le_mul_left size (by omega)).trans inside
    have first := (reads_next d).trans (reads_entry data entry d.next)
    have whole := first.trans (ih _)
    have count : 1 + 0 + width = width + 1 := by omega
    rwa [count] at whole

theorem reads_row4 (data : Memory) (inside : size * 16 ≤ palette) (width : Nat) (d : Decoder) :
    Reads palette ((width + 1) / 2) d (d.row4 data size width) := by
  have nibble {index : Nat} (h : index < 16) : size * (index + 1) ≤ palette :=
    (Nat.mul_le_mul_left size (by omega)).trans inside
  have high (v : UInt8) : v.toNat >>> 4 < 16 := by
    have byte := v.toNat_lt
    rw [Nat.shiftRight_eq_div_pow]
    omega
  have low (v : UInt8) : v.toNat &&& 0xF < 16 := Nat.and_lt_two_pow (n := 4) _ (by decide)
  induction width using Nat.twoStepInduction generalizing d with
  | zero => exact .refl d
  | one => exact (reads_next d).trans (reads_entry data (nibble (high _)) d.next)
  | more width ih _ =>
    have first := (reads_next d).trans (reads_entry data (nibble (high (data d.pixels))) d.next)
    have both := first.trans (reads_entry data (nibble (low (data d.pixels))) _)
    have count : (width + 2 + 1) / 2 = 1 + 0 + 0 + (width + 1) / 2 := by omega
    rw [count]
    exact both.trans (ih _)

def rowBytes (bits width : Nat) : Nat := if bits = 8 then width else (width + 1) / 2

theorem reads_rows (data : Memory) {bits : Nat} (eight : bits = 8 → size * 256 ≤ palette)
    (four : bits ≠ 8 → size * 16 ≤ palette) (stride : Int) (width count y : Nat) (d : Decoder) :
    Reads palette (count * rowBytes bits width) d (d.rows data bits size stride width count y) := by
  induction count generalizing y d with
  | zero =>
    rw [Nat.zero_mul]
    exact .refl d
  | succ count ih =>
    have placed : Reads palette 0 d { d with p := y * stride * size } :=
      ⟨(Int.add_zero _).symm, fun _ h => h, fun _ hk => absurd hk (Nat.not_lt_zero _),
        fun _ h => .inl h⟩
    have row : Reads palette (rowBytes bits width) { d with p := y * stride * size }
        (if bits = 8 then Decoder.row8 data size width { d with p := y * stride * size }
          else Decoder.row4 data size width { d with p := y * stride * size }) := by
      unfold rowBytes
      by_cases byte : bits = 8
      · rw [if_pos byte, if_pos byte]
        exact reads_row8 data (eight byte) width _
      · rw [if_neg byte, if_neg byte]
        exact reads_row4 data (four byte) width _
    have whole : (count + 1) * rowBytes bits width = 0 + rowBytes bits width + count * rowBytes bits width := by
      rw [Nat.succ_mul, Nat.zero_add, Nat.add_comm]
    rw [whole]
    exact (placed.trans row).trans (ih (y + 1) _)

theorem lodExtent_eq_shrink (extent level : Nat) : lodExtent extent level = shrink extent level := by
  unfold lodExtent shrink
  generalize extent / 2 ^ level = n
  split_ifs <;> omega

def levelReads (format : GLenum) (width height level : Nat) : Nat :=
  lodExtent height level * rowBytes (indexBits format) (lodExtent width level)

theorem levelReads_eq (format : GLenum) (width height l : Nat) :
    levelReads format width height l =
      shrink height l * rowBytes (indexBits format) (shrink width l) := by
  rw [levelReads, lodExtent_eq_shrink, lodExtent_eq_shrink]

/-- The bytes of `h` rows of `w` indices, as `int` counts them: every row is rounded down. -/
def countedBytes (bits w h : Nat) : Int := wrap32 (h * Int.tdiv (wrap32 (w * bits)) 8)

theorem levelBytes_eq (format : GLenum) (width height l : Nat) :
    levelBytes format width height l =
      countedBytes (indexBits format) (shrink width l) (shrink height l) := by
  rw [levelBytes, lodExtent_eq_shrink, lodExtent_eq_shrink, countedBytes]

theorem indexBits_cases (format : GLenum) : indexBits format = 4 ∨ indexBits format = 8 := by
  unfold indexBits
  split_ifs
  · exact .inl rfl
  · exact .inr rfl

theorem entrySize_ne_zero (paletted : paletteFormat format ≠ none) : entrySize format ≠ 0 := by
  unfold paletteFormat at paletted
  unfold entrySize
  split_ifs <;> grind

theorem reads_decodePalette4 (paletted : paletteFormat format ≠ none) (data : Memory)
    (level width height : Nat) (surface : Memory) (stride : Int) :
    Reads (paletteSize format) (levelReads format width height level)
      ⟨surface, 0, pixelOffset format width height level, []⟩
      (decodePalette4 data level width height surface stride format) := by
  rw [decodePalette4]
  simp only [if_neg (entrySize_ne_zero paletted)]
  apply reads_rows
  · intro eight
    rw [paletteSize, eight, Nat.mul_comm]
    exact Nat.le_refl _
  · intro four
    have bits := (indexBits_cases format).resolve_right four
    rw [paletteSize, bits, Nat.mul_comm]
    exact Nat.le_refl _

theorem indexBytes_eq (paletted : paletteFormat format ≠ none) (data : Memory)
    (level width height : Nat) (surface : Memory) (stride : Int) :
    indexBytes data level width height surface stride format =
      levelReads format width height level := by
  have read : (decodePalette4 data level width height surface stride format).pixels =
      pixelOffset format width height level + levelReads format width height level :=
    (reads_decodePalette4 paletted data level width height surface stride).pixels
  rw [indexBytes, read]
  omega

end RabbitRender.Textures.PaletteReads
