/- RabbitRender/Arrays/LevelOfDetail
   layer: model, theorem
   source: swrender/primitives.cpp, swrender/TextureObjectManager.cpp
   digest: The mipmap level of a triangle is that of its areas as long as the areas fit 32 bits. -/

import RabbitRender.Arrays.GradientShifts

set_option autoImplicit false

namespace RabbitRender.Arrays.LevelOfDetail

open Fixed Vertices
open Arrays.Gradients (clzOr clzAbs computeLod)
open Arrays.GradientShifts (InRange initTriangle)

/-- `EGLTextureObject::mip`, as the level of the surface; `mMipmaps` is null if there is none. -/
def mip (numExtraLod : Nat) (lod : Int) : Int :=
  if lod ≤ 0 ∨ numExtraLod = 0 then 0 else min (lod - 1) (numExtraLod - 1) + 1

def log2floor (x : Int) : Int := if x ≤ 0 then -1 else Nat.log2 x.toNat

section Areas

variable (u : Gradients.Unit) (t0 t1 t2 : Vec4) (v0 v1 v2 : Vertex)

def doubled : Int :=
  ((t1.x - t0.x) * (t2.y - t0.y) + 2 ^ 27) >>> (28 : Nat) -
    ((t2.x - t0.x) * (t1.y - t0.y) + 2 ^ 27) >>> (28 : Nat)

def texelArea : Int := (doubled t0 t1 t2).natAbs * u.surface.width * u.surface.height

def cross : Int :=
  (v1.window.x - v0.window.x) * (v2.window.y - v0.window.y) -
    (v0.window.y - v1.window.y) * (v0.window.x - v2.window.x)

def screenArea : Int := (cross v0 v1 v2).natAbs

def lod : Int :=
  (log2floor (texelArea u t0 t1 t2) - 4 - (log2floor (screenArea v0 v1 v2) - 8) + 1) / 2

/-- The level of detail is that of the areas, and the level bound for it is the nearest there is. -/
structure Selects : Prop where
  lod : computeLod u (initTriangle v0 v1 v2) t0 t1 t2 = lod u t0 t1 t2 v0 v1 v2
  level (numExtraLod : Nat) : mip numExtraLod (computeLod u (initTriangle v0 v1 v2) t0 t1 t2) =
    max 0 (min (LevelOfDetail.lod u t0 t1 t2 v0 v1 v2) numExtraLod)

def Fits (x : Int) : Prop := -2 ^ 31 ≤ x ∧ x < 2 ^ 31

structure DifferencesFit : Prop where
  s01 : Fits (t1.x - t0.x)
  t01 : Fits (t1.y - t0.y)
  s02 : Fits (t2.x - t0.x)
  t02 : Fits (t2.y - t0.y)

def TexelsFit : Prop := (doubled t0 t1 t2).natAbs ≤ 2 ^ 31 ∧ texelArea u t0 t1 t2 < 2 ^ 32

def PixelsFit : Prop := screenArea v0 v1 v2 ≤ 2 ^ 31

def Sized : Prop := 1 ≤ u.surface.width ∧ 1 ≤ u.surface.height

end Areas

theorem mip_eq (numExtraLod : Nat) (lod : Int) :
    mip numExtraLod lod = max 0 (min lod numExtraLod) := by
  unfold mip
  split <;> omega

theorem selects_iff (u : Gradients.Unit) (t0 t1 t2 : Vec4) (v0 v1 v2 : Vertex) :
    Selects u t0 t1 t2 v0 v1 v2 ↔
      computeLod u (initTriangle v0 v1 v2) t0 t1 t2 = lod u t0 t1 t2 v0 v1 v2 := by
  refine ⟨Selects.lod, fun same => ⟨same, fun numExtraLod => ?_⟩⟩
  rw [mip_eq, same]

theorem log2floor_lt_iff (x : Int) (k : Nat) : log2floor x < k ↔ x < 2 ^ k := by
  have power : (0 : Int) < 2 ^ k := Int.pow_pos (by decide)
  unfold log2floor
  split_ifs with none
  · exact iff_of_true (by omega) (by omega)
  · have some : x.toNat ≠ 0 := by omega
    have digits := Nat.log2_lt (k := k) some
    have cast : ((2 ^ k : Nat) : Int) = 2 ^ k := by norm_cast
    rw [Int.ofNat_lt, digits]
    omega

theorem le_log2floor_iff (x : Int) (k : Nat) : (k : Int) ≤ log2floor x ↔ 2 ^ k ≤ x := by
  rw [← not_lt, log2floor_lt_iff, not_lt]

theorem clz32_eq {x : Int} (low : 0 ≤ x) (high : x < 2 ^ 32) : 31 - (clz32 x : Int) = log2floor x := by
  unfold clz32 gglClz log2floor
  rw [if_neg (not_lt.mpr low)]
  split_ifs with zero none none
  · rfl
  · omega
  · omega
  · have digits := (Nat.log2_lt (k := 32) zero).mpr (by omega)
    omega

theorem clz32_wrap32 (x : Int) : 31 - (clz32 (wrap32 x) : Int) = log2floor (x % 2 ^ 32) := by
  have kept := wrap32_bounds x
  have word : wrap32 x = x % 2 ^ 32 ∨ wrap32 x = x % 2 ^ 32 - 2 ^ 32 := by
    unfold wrap32
    rw [Int.bmod_def]
    split
    · exact .inl rfl
    · exact .inr rfl
  have unsigned : 0 ≤ x % 2 ^ 32 ∧ x % 2 ^ 32 < 2 ^ 32 := by omega
  by_cases negative : wrap32 x < 0
  · have top : 2 ^ 31 ≤ x % 2 ^ 32 := by omega
    have lower := (le_log2floor_iff _ 31).mpr top
    have upper := (log2floor_lt_iff _ 32).mpr unsigned.2
    unfold clz32
    rw [if_pos negative]
    omega
  · have same : wrap32 x = x % 2 ^ 32 := by omega
    rw [same]
    exact clz32_eq unsigned.1 unsigned.2

theorem clzOr_singleton (x : Int) : clzOr [x] = clz32 x := by
  unfold clzOr clz32
  simp

def keptTexels (u : Gradients.Unit) (t0 t1 t2 : Vec4) : Int :=
  ((wrap32 (doubled t0 t1 t2)).natAbs * u.surface.width * u.surface.height) % 2 ^ 32

def keptPixels (v0 v1 v2 : Vertex) : Int := (wrap32 (cross v0 v1 v2)).natAbs

theorem initTriangle_area {v0 v1 v2 : Vertex} (h0 : InRange v0) (h1 : InRange v1)
    (h2 : InRange v2) : (initTriangle v0 v1 v2).area = wrap32 (cross v0 v1 v2) := by
  have fits {a b : Int} (ha : -2 ^ 30 < a ∧ a < 2 ^ 30) (hb : -2 ^ 30 < b ∧ b < 2 ^ 30) :
      wrap32 (a - b) = a - b := wrap32_of_bounds (by omega) (by omega)
  have x (v : Vertex) (h : InRange v) := And.intro h.left h.right
  have y (v : Vertex) (h : InRange v) := And.intro h.top h.bottom
  unfold GradientShifts.initTriangle cross
  dsimp only
  rw [fits (x v1 h1) (x v0 h0), fits (y v0 h0) (y v1 h1), fits (x v0 h0) (x v2 h2),
    fits (y v2 h2) (y v0 h0), Int.neg_mul, ← Int.sub_eq_add_neg]

theorem computeLod_eq {t0 t1 t2 : Vec4} {v0 v1 v2 : Vertex} (u : Gradients.Unit)
    (differences : DifferencesFit t0 t1 t2) (h0 : InRange v0) (h1 : InRange v1)
    (h2 : InRange v2) : computeLod u (initTriangle v0 v1 v2) t0 t1 t2 =
      (log2floor (keptTexels u t0 t1 t2) - log2floor (keptPixels v0 v1 v2) + 5) / 2 := by
  have kept := wrap32_bounds (cross v0 v1 v2)
  have texels := clz32_wrap32
    ((wrap32 (doubled t0 t1 t2)).natAbs * u.surface.width * u.surface.height)
  have pixels := clz32_eq (x := keptPixels v0 v1 v2) (Int.natCast_nonneg _)
    (by unfold keptPixels; omega)
  have area : clzAbs [(initTriangle v0 v1 v2).area] = clz32 (keptPixels v0 v1 v2) := by
    rw [initTriangle_area h0 h1 h2]
    exact clzOr_singleton _
  have fits {x : Int} (h : Fits x) : wrap32 x = x := wrap32_of_bounds h.1 h.2
  have products : wrap32 (gglMulx (wrap32 (t1.x - t0.x)) (wrap32 (t2.y - t0.y)) (16 + (16 - 4)) -
      gglMulx (wrap32 (t2.x - t0.x)) (wrap32 (t1.y - t0.y)) (16 + (16 - 4))) =
      wrap32 (doubled t0 t1 t2) := by
    rw [fits differences.s01, fits differences.t01, fits differences.s02, fits differences.t02]
    unfold gglMulx doubled
    rw [wrap32_sub_left, wrap32_sub_right]
  unfold computeLod
  dsimp only
  rw [area, products, clzOr_singleton, Int.shiftRight_eq_div_pow]
  unfold keptTexels
  rw [← texels, ← pixels]
  omega

theorem kept_of_texelsFit {u : Gradients.Unit} {t0 t1 t2 : Vec4} (sized : Sized u)
    (fit : TexelsFit u t0 t1 t2) : keptTexels u t0 t1 t2 = texelArea u t0 t1 t2 := by
  obtain ⟨doubledFit, texelFit⟩ := fit
  have same : (wrap32 (doubled t0 t1 t2)).natAbs = (doubled t0 t1 t2).natAbs := by
    unfold wrap32
    rw [Int.bmod_def]
    split <;> omega
  have positive : 0 ≤ texelArea u t0 t1 t2 :=
    Int.mul_nonneg (Int.mul_nonneg (Int.natCast_nonneg _) (Int.le_trans (by decide) sized.1))
      (Int.le_trans (by decide) sized.2)
  unfold keptTexels
  rw [same]
  exact Int.emod_eq_of_lt positive texelFit

theorem kept_of_not_texelsFit {u : Gradients.Unit} {t0 t1 t2 : Vec4} (sized : Sized u)
    (wide : ¬TexelsFit u t0 t1 t2) :
    log2floor (keptTexels u t0 t1 t2) < log2floor (texelArea u t0 t1 t2) := by
  have word : keptTexels u t0 t1 t2 < 2 ^ 32 := Int.emod_lt_of_pos _ (by decide)
  by_cases large : 2 ^ 32 ≤ texelArea u t0 t1 t2
  · have lower := (le_log2floor_iff _ 32).mpr large
    have upper := (log2floor_lt_iff _ 32).mpr word
    omega
  · -- only a texture of one texel keeps an area of more than 31 bits below 33
    have more : 2 ^ 31 < (doubled t0 t1 t2).natAbs := by
      by_contra few
      exact wide ⟨not_lt.mp few, not_le.mp large⟩
    have texels : 1 ≤ u.surface.width * u.surface.height := by
      have product := Int.mul_le_mul sized.1 sized.2 (by decide) (Int.le_trans (by decide) sized.1)
      rwa [Int.mul_one] at product
    have area : texelArea u t0 t1 t2 =
        (doubled t0 t1 t2).natAbs * (u.surface.width * u.surface.height) := Int.mul_assoc _ _ _
    have single : u.surface.width * u.surface.height = 1 := by
      by_contra several
      have two : 2 ≤ u.surface.width * u.surface.height := by omega
      have product := Int.mul_le_mul_of_nonneg_left two
        (Int.natCast_nonneg (doubled t0 t1 t2).natAbs)
      omega
    rw [single, Int.mul_one] at area
    have kept : keptTexels u t0 t1 t2 = (wrap32 (doubled t0 t1 t2)).natAbs % 2 ^ 32 := by
      unfold keptTexels
      rw [Int.mul_assoc, single, Int.mul_one]
    have turned : keptTexels u t0 t1 t2 < 2 ^ 31 := by
      rw [kept]
      unfold wrap32
      rw [Int.bmod_def]
      split <;> omega
    have lower := (le_log2floor_iff (texelArea u t0 t1 t2) 31).mpr (by omega)
    have upper := (log2floor_lt_iff _ 31).mpr turned
    omega

theorem kept_of_pixelsFit {v0 v1 v2 : Vertex} (fit : PixelsFit v0 v1 v2) :
    keptPixels v0 v1 v2 = screenArea v0 v1 v2 := by
  unfold PixelsFit screenArea at fit
  unfold keptPixels screenArea wrap32
  rw [Int.bmod_def]
  split <;> omega

theorem kept_of_not_pixelsFit {v0 v1 v2 : Vertex} (wide : ¬PixelsFit v0 v1 v2) :
    log2floor (keptPixels v0 v1 v2) < log2floor (screenArea v0 v1 v2) := by
  have more : 2 ^ 31 < screenArea v0 v1 v2 := not_le.mp wide
  have lower := (le_log2floor_iff _ 31).mpr more.le
  by_cases large : 2 ^ 32 ≤ screenArea v0 v1 v2
  · have lower := (le_log2floor_iff _ 32).mpr large
    have kept := wrap32_bounds (cross v0 v1 v2)
    have upper := (log2floor_lt_iff (keptPixels v0 v1 v2) 32).mpr (by unfold keptPixels; omega)
    omega
  · have turned : keptPixels v0 v1 v2 < 2 ^ 31 := by
      unfold screenArea at more large
      unfold keptPixels wrap32
      rw [Int.bmod_def]
      split <;> omega
    have upper := (log2floor_lt_iff _ 31).mpr turned
    omega

/-- A triangle of `1 / 256` of a square pixel, and one of twice that. -/
private def sliver (width : Int) : Vertex × Vertex × Vertex :=
  let corner (x y : Int) : Vertex := { Vertex.zero with window := ⟨x, y, 0, 0x10000⟩ }
  (corner 0 0, corner width 0, corner 0 1)

private def texel : Gradients.Unit :=
  { sClamp := false, tClamp := false, bound := ⟨1, 1⟩, minFilter := 0x2703, surface := ⟨1, 1⟩
    mip := fun _ => ⟨1, 1⟩ }

private def tile (s : Int) : Vec4 × Vec4 × Vec4 :=
  (⟨0, 0, 0, 0x10000⟩, ⟨s, 0, 0, 0x10000⟩, ⟨0, 2 ^ 14, 0, 0x10000⟩)

/-- With texture coordinates whose differences are words, every triangle of the screen gets its
level exactly if the area in texels fits; and with every such area a triangle gets its level
exactly if its own area fits. -/
theorem computeLod_selects_iff {u : Gradients.Unit} {t0 t1 t2 : Vec4} (v0 v1 v2 : Vertex)
    (sized : Sized u) (differences : DifferencesFit t0 t1 t2) (h0 : InRange v0) (h1 : InRange v1)
    (h2 : InRange v2) :
    ((∀ v0 v1 v2, InRange v0 → InRange v1 → InRange v2 → PixelsFit v0 v1 v2 →
      Selects u t0 t1 t2 v0 v1 v2) ↔ TexelsFit u t0 t1 t2) ∧
    ((∀ u t0 t1 t2, Sized u → DifferencesFit t0 t1 t2 → TexelsFit u t0 t1 t2 →
      Selects u t0 t1 t2 v0 v1 v2) ↔ PixelsFit v0 v1 v2) := by
  have enough {u : Gradients.Unit} {t0 t1 t2 : Vec4} {v0 v1 v2 : Vertex} (sized : Sized u)
      (differences : DifferencesFit t0 t1 t2) (texels : TexelsFit u t0 t1 t2) (h0 : InRange v0)
      (h1 : InRange v1) (h2 : InRange v2) (pixels : PixelsFit v0 v1 v2) :
      Selects u t0 t1 t2 v0 v1 v2 := by
    rw [selects_iff, computeLod_eq u differences h0 h1 h2, kept_of_texelsFit sized texels,
      kept_of_pixelsFit pixels, lod]
    omega
  constructor
  · refine ⟨fun all => ?_, fun texels v0 v1 v2 h0 h1 h2 pixels =>
      enough sized differences texels h0 h1 h2 pixels⟩
    by_contra wide
    have less := kept_of_not_texelsFit sized wide
    have level (width : Int) (narrow : width = 1 ∨ width = 2) :
        (log2floor (keptTexels u t0 t1 t2) - log2floor width + 5) / 2 =
          (log2floor (texelArea u t0 t1 t2) - log2floor width + 5) / 2 := by
      have h0 : InRange (sliver width).1 := by
        rcases narrow with rfl | rfl <;> decide
      have h1 : InRange (sliver width).2.1 := by
        rcases narrow with rfl | rfl <;> decide
      have h2 : InRange (sliver width).2.2 := by
        rcases narrow with rfl | rfl <;> decide
      have area : screenArea (sliver width).1 (sliver width).2.1 (sliver width).2.2 = width := by
        rcases narrow with rfl | rfl <;> rfl
      have pixels : PixelsFit (sliver width).1 (sliver width).2.1 (sliver width).2.2 := by
        rw [PixelsFit, area]
        omega
      have same := (all _ _ _ h0 h1 h2 pixels).lod
      rw [computeLod_eq u differences h0 h1 h2, kept_of_pixelsFit pixels, lod, area] at same
      omega
    have one := level 1 (.inl rfl)
    have two := level 2 (.inr rfl)
    have first : log2floor 1 = 0 := by decide
    have second : log2floor 2 = 1 := by decide
    omega
  · refine ⟨fun all => ?_, fun pixels u t0 t1 t2 sized differences texels =>
      enough sized differences texels h0 h1 h2 pixels⟩
    by_contra wide
    have less := kept_of_not_pixelsFit wide
    have level (s : Int) (narrow : s = 2 ^ 14 ∨ s = 2 ^ 15) :
        (log2floor (s / 2 ^ 14) - log2floor (keptPixels v0 v1 v2) + 5) / 2 =
          (log2floor (s / 2 ^ 14) - log2floor (screenArea v0 v1 v2) + 5) / 2 := by
      have sized : Sized texel := ⟨le_rfl, le_rfl⟩
      have differences : DifferencesFit (tile s).1 (tile s).2.1 (tile s).2.2 := by
        rcases narrow with rfl | rfl <;> constructor <;> unfold Fits <;> decide
      have area : texelArea texel (tile s).1 (tile s).2.1 (tile s).2.2 = s / 2 ^ 14 := by
        rcases narrow with rfl | rfl <;> rfl
      have texels : TexelsFit texel (tile s).1 (tile s).2.1 (tile s).2.2 := by
        rcases narrow with rfl | rfl <;> unfold TexelsFit <;> decide
      have same := (all texel _ _ _ sized differences texels).lod
      rw [computeLod_eq texel differences h0 h1 h2, kept_of_texelsFit sized texels, lod, area]
        at same
      omega
    have one := level (2 ^ 14) (.inl rfl)
    have two := level (2 ^ 15) (.inr rfl)
    have first : log2floor (2 ^ 14 / 2 ^ 14) = 0 := by decide
    have second : log2floor (2 ^ 15 / 2 ^ 14) = 1 := by decide
    omega

theorem computeLod_selects_texel :
    Selects texel (tile (2 ^ 14)).1 (tile (2 ^ 14)).2.1 (tile (2 ^ 14)).2.2 (sliver 1).1
      (sliver 1).2.1 (sliver 1).2.2 :=
  have sized : Sized texel := by
    unfold Sized
    decide
  have differences : DifferencesFit (tile (2 ^ 14)).1 (tile (2 ^ 14)).2.1 (tile (2 ^ 14)).2.2 := by
    constructor <;> unfold Fits <;> decide
  have exact := computeLod_selects_iff (sliver 1).1 (sliver 1).2.1 (sliver 1).2.2 sized differences
    (by decide) (by decide) (by decide)
  exact.2.mpr (by unfold PixelsFit; decide) texel (tile (2 ^ 14)).1 (tile (2 ^ 14)).2.1
    (tile (2 ^ 14)).2.2 sized differences (by unfold TexelsFit; decide)

/-- A texture of 1024 by 1024 texels, 64 times along each side of a triangle of 1024 pixels: no
digit of its area is left, and level 0 is bound in place of level 6. -/
theorem computeLod_tiled :
    let u := { texel with surface := ⟨1024, 1024⟩ }
    let at' (x y : Int) : Vertex := { Vertex.zero with window := ⟨x, y, 0, 0x10000⟩ }
    lod u ⟨0, 0, 0, 0x10000⟩ ⟨2 ^ 22, 0, 0, 0x10000⟩ ⟨0, 2 ^ 22, 0, 0x10000⟩ (at' 0 0)
      (at' (2 ^ 14) 0) (at' 0 (2 ^ 14)) = 6 ∧
    mip 10 (computeLod u (initTriangle (at' 0 0) (at' (2 ^ 14) 0) (at' 0 (2 ^ 14)))
      ⟨0, 0, 0, 0x10000⟩ ⟨2 ^ 22, 0, 0, 0x10000⟩ ⟨0, 2 ^ 22, 0, 0x10000⟩) = 0 ∧
    ¬Selects u ⟨0, 0, 0, 0x10000⟩ ⟨2 ^ 22, 0, 0, 0x10000⟩ ⟨0, 2 ^ 22, 0, 0x10000⟩ (at' 0 0)
      (at' (2 ^ 14) 0) (at' 0 (2 ^ 14)) := by
  refine ⟨by decide +kernel, by decide +kernel, fun selects => ?_⟩
  have level := selects.level 10
  revert level
  decide +kernel

end RabbitRender.Arrays.LevelOfDetail
