/- RabbitRender/Textures/TexelBounds
   layer: model and proofs
   source: libpixelflinger/scanline.cpp
   digest: The texels the generic scanline reads for a pixel of a unit with iterated coordinates,
     all of which lie in the texture. -/

import RabbitRender.Pixelflinger.Formats
import RabbitRender.Textures.TexelFetch

set_option autoImplicit false

namespace RabbitRender.Textures.TexelBounds

open Fixed
open RabbitRender.GL (GLenum)
open Pixelflinger Textures.TexelFetch

/-- The part of `texture_t` that tells where texels are read. -/
structure Sampling where
  width : Nat
  height : Nat
  sWrap : Wrap
  tWrap : Wrap
  minFilter : GLenum
  magFilter : GLenum

/-- The texels read at the iterated coordinates `s` and `t`, in the order of the reads. -/
def Sampling.texels (x : Sampling) (s t : Int) : List (Int × Int) :=
  let u := wrapping s x.width x.sWrap
  let v := wrapping t x.height x.tWrap
  if x.magFilter = GGL.nearest ∧ x.minFilter = GGL.nearest then
    [(u >>> (16 : Nat), v >>> (16 : Nat))]
  else
    let u := wrap32 (u - 0x8000)
    let v := wrap32 (v - 0x8000)
    let u0 := edge x.width (u >>> (16 : Nat)) x.sWrap
    let v0 := edge x.height (v >>> (16 : Nat)) x.tWrap
    let u1 := edge x.width (u >>> (16 : Nat) + 1) x.sWrap
    let v1 := edge x.height (v >>> (16 : Nat) + 1) x.tWrap
    [(u0, v0), (u0, v1), (u1, v0), (u1, v1)]

variable {size : Nat}

theorem wrapping_bounds (some : 1 ≤ size) (fits : size < 2 ^ 15) (coord : Int) (wrap : Wrap) :
    0 ≤ wrapping coord size wrap ∧ wrapping coord size wrap < size * 2 ^ 16 := by
  cases wrap with
  | tiled =>
    have low : 0 ≤ (coord % 2 ^ 32) >>> (16 : Nat) := by
      rw [Int.shiftRight_eq_div_pow]
      omega
    have high : (coord % 2 ^ 32) >>> (16 : Nat) ≤ 2 ^ 16 - 1 := by
      rw [Int.shiftRight_eq_div_pow]
      omega
    have product_low : 0 ≤ (coord % 2 ^ 32) >>> (16 : Nat) * size :=
      Int.mul_nonneg low (Int.natCast_nonneg size)
    have product_high : (coord % 2 ^ 32) >>> (16 : Nat) * size ≤ (2 ^ 16 - 1) * size :=
      Int.mul_le_mul_of_nonneg_right high (Int.natCast_nonneg size)
    have exact : wrapping coord size .tiled = (coord % 2 ^ 32) >>> (16 : Nat) * size :=
      wrap32_of_bounds (by omega) (by omega)
    rw [exact]
    exact ⟨product_low, by omega⟩
  | clamp =>
    have largest : wrap32 (size * 2 ^ 16 - 0x8000) = size * 2 ^ 16 - 0x8000 :=
      wrap32_of_bounds (by omega) (by omega)
    simp only [wrapping, largest]
    omega

theorem edge_bounds (some : 1 ≤ size) {u : Int} (low : -1 ≤ u) (high : u ≤ size) (wrap : Wrap) :
    0 ≤ edge size u wrap ∧ edge size u wrap < size := by
  cases wrap with
  | tiled | clamp =>
    simp only [edge]
    split <;> split <;> omega

theorem taps_bounds (some : 1 ≤ size) (fits : size < 2 ^ 15) (coord : Int) (wrap : Wrap) {u : Int}
    (start : u = wrap32 (wrapping coord size wrap - 0x8000)) :
    (0 ≤ edge size (u >>> (16 : Nat)) wrap ∧ edge size (u >>> (16 : Nat)) wrap < size) ∧
      0 ≤ edge size (u >>> (16 : Nat) + 1) wrap ∧
      edge size (u >>> (16 : Nat) + 1) wrap < size := by
  obtain ⟨low, high⟩ := wrapping_bounds some fits coord wrap
  rw [wrap32_of_bounds (by omega) (by omega)] at start
  have first : -1 ≤ u >>> (16 : Nat) ∧ u >>> (16 : Nat) < size := by
    rw [Int.shiftRight_eq_div_pow]
    omega
  exact ⟨edge_bounds some first.1 first.2.le wrap,
    edge_bounds some (first.1.trans (by omega)) (by omega) wrap⟩

/-- For every coordinate, wrap mode and filter, the texels that are read lie in the texture. -/
theorem texels_inside (x : Sampling) (width : 1 ≤ x.width ∧ x.width < 2 ^ 15)
    (height : 1 ≤ x.height ∧ x.height < 2 ^ 15) (s t : Int) :
    ∀ p ∈ x.texels s t, (0 ≤ p.1 ∧ p.1 < x.width) ∧ 0 ≤ p.2 ∧ p.2 < x.height := by
  unfold Sampling.texels
  split
  · have u := wrapping_bounds width.1 width.2 s x.sWrap
    have v := wrapping_bounds height.1 height.2 t x.tWrap
    intro p mem
    rw [List.mem_singleton.mp mem]
    simp only [Int.shiftRight_eq_div_pow]
    omega
  · obtain ⟨u0, u1⟩ := taps_bounds width.1 width.2 s x.sWrap rfl
    obtain ⟨v0, v1⟩ := taps_bounds height.1 height.2 t x.tWrap rfl
    intro p mem
    simp only [List.mem_cons, List.not_mem_nil, or_false] at mem
    rcases mem with rfl | rfl | rfl | rfl
    · exact ⟨u0, v0⟩
    · exact ⟨u0, v1⟩
    · exact ⟨u1, v0⟩
    · exact ⟨u1, v1⟩

/-- The last texel is read, and nothing beside it. -/
theorem texels_inside_last :
    let last := (Sampling.mk 3 5 .tiled .clamp GGL.linear GGL.linear).texels (-1) (2 ^ 31 - 1)
    last[0]? = some (2, 4) ∧ ((0 : Int) ≤ 2 ∧ 2 < ((3 : Nat) : Int)) ∧
      (0 : Int) ≤ 4 ∧ 4 < ((5 : Nat) : Int) :=
  ⟨by decide, texels_inside ⟨3, 5, .tiled, .clamp, GGL.linear, GGL.linear⟩ (by decide) (by decide)
    (-1) (2 ^ 31 - 1) (2, 4) (by decide)⟩

end RabbitRender.Textures.TexelBounds
