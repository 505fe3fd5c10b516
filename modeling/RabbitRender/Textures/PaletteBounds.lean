/- RabbitRender/Textures/PaletteBounds
   layer: results
   source: swrender/texture.cpp
   digest: When an accepted paletted image is read within the size that was given. -/

import RabbitRender.Textures.PaletteReads

set_option autoImplicit false

namespace RabbitRender.Textures.PaletteBounds

open RabbitRender.GL (GLenum)
open Lib.ByteMemory Lib.Halving
open Textures.Levels (sizeT)
open Textures.Palettes Textures.PaletteReads
open Textures.Units (paletteFormat)

theorem levelReads_pos (format : GLenum) (width height level : Nat) :
    0 < levelReads format width height level := by
  have columns := shrink_pos width level
  apply Nat.mul_pos
  · rw [lodExtent_eq_shrink]
    exact shrink_pos height level
  · rw [lodExtent_eq_shrink, rowBytes]
    split_ifs <;> omega

/-- The indices of a level lie within the first `size` bytes. -/
def LevelWithin (format : GLenum) (width height level : Nat) (size : Int) : Prop :=
  0 ≤ pixelOffset format width height level ∧
    pixelOffset format width height level + levelReads format width height level ≤ size

instance (format : GLenum) (width height level : Nat) (size : Int) :
    Decidable (LevelWithin format width height level size) :=
  inferInstanceAs (Decidable (_ ∧ _))

theorem reads_within_iff {format : GLenum} (paletted : paletteFormat format ≠ none) (data : Memory)
    (level width height : Nat) (surface : Memory) (stride : Int) {size : Int}
    (palette : (paletteSize format : Int) ≤ size) :
    (∀ i ∈ (decodePalette4 data level width height surface stride format).reads,
      0 ≤ i ∧ i < size) ↔ LevelWithin format width height level size := by
  have reads := reads_decodePalette4 paletted data level width height surface stride
  have positive := levelReads_pos format width height level
  constructor
  · intro inside
    have first := inside _ (reads.covered 0 positive)
    have last := inside _ (reads.covered (levelReads format width height level - 1) (by omega))
    simp only [LevelWithin] at first last ⊢
    omega
  · rintro ⟨low, high⟩ i read
    rcases reads.bounded i read with old | index | entry
    · exact absurd old List.not_mem_nil
    · simp only at index
      omega
    · omega

/-- All levels are read within the first `size` bytes exactly if their indices lie there: those of the
first level come after the palette. -/
theorem all_reads_within_iff {format : GLenum} (paletted : paletteFormat format ≠ none)
    {numLevels : Nat} (several : 0 < numLevels) (width height : Nat) (data surface : Memory)
    (stride size : Int) :
    (∀ l < numLevels, ∀ i ∈ (decodePalette4 data l width height surface stride format).reads,
      0 ≤ i ∧ i < size) ↔ ∀ l < numLevels, LevelWithin format width height l size := by
  constructor
  · intro inside
    have reads := reads_decodePalette4 paletted data 0 width height surface stride
    have first := inside 0 several _ (reads.covered 0 (levelReads_pos format width height 0))
    have start : pixelOffset format width height 0 = paletteSize format := Int.add_zero _
    have palette : (paletteSize format : Int) ≤ size := by
      simp only [start] at first
      omega
    exact fun l hl => (reads_within_iff paletted data l width height surface stride palette).mp (inside l hl)
  · intro levels l hl
    have first := levels 0 several
    have start : pixelOffset format width height 0 = paletteSize format := Int.add_zero _
    have palette : (paletteSize format : Int) ≤ size := by
      rw [LevelWithin, start] at first
      omega
    exact (reads_within_iff paletted data l width height surface stride palette).mpr (levels l hl)

section Sizes

variable (a : CompressedTexImage)

/-- The bytes that level `l` counts for, with `bits` for an index. -/
def counted (bits l : Nat) : Int :=
  countedBytes bits (shrink a.width.toNat l) (shrink a.height.toNat l)

/-- The size that is compared with `imageSize`: one byte for a texel, and no palette. -/
def comparedSize : Nat :=
  sizeT (sumLevels (fun l => if counted a 8 l ≠ 0 then counted a 8 l else 1) a.numLevels)

/-- There is room for level `l` behind the palette and what the levels before it count for. -/
def Room (l : Nat) : Prop :=
  let bits := indexBits a.internalformat
  let before := paletteSize a.internalformat + sumLevels (counted a bits) l
  0 ≤ before ∧
    before + shrink a.height.toNat l * rowBytes bits (shrink a.width.toNat l) ≤ a.imageSize

theorem room_iff (l : Nat) : Room a l ↔
    LevelWithin a.internalformat a.width.toNat a.height.toNat l a.imageSize := by
  have sizes : levelBytes a.internalformat a.width.toNat a.height.toNat =
      counted a (indexBits a.internalformat) := by
    funext j
    exact levelBytes_eq a.internalformat a.width.toNat a.height.toNat j
  unfold Room LevelWithin
  rw [pixelOffset, sizes, levelReads_eq]
  push_cast
  exact Iff.rfl

theorem decodedFormat_plain (internalformat : GLenum) :
    let format := ((paletteFormat internalformat).map Prod.fst).getD 0
    indexBits format = 8 ∧ entrySize format = 0 := by
  unfold paletteFormat
  split_ifs <;> decide

theorem fits_iff : a.checked.fits = true ↔ comparedSize a ≤ sizeT a.imageSize := by
  obtain ⟨bits, size⟩ := decodedFormat_plain a.internalformat
  generalize hformat : ((paletteFormat a.internalformat).map Prod.fst).getD 0 = format at bits size
  have palette : paletteSize format = 0 := by rw [paletteSize, size, Nat.mul_zero]
  have sizes : levelSize format a.width.toNat a.height.toNat =
      fun l => if counted a 8 l ≠ 0 then counted a 8 l else 1 := by
    funext l
    rw [levelSize, levelBytes_eq, bits]
    rfl
  unfold CompressedTexImage.checked
  rw [decide_eq_true_iff, hformat, dataSizePalette4, palette, sizes, comparedSize, Nat.cast_zero,
    Int.zero_add]

end Sizes

/-- The size that the format prescribes: the palette, and rows of indices that end with a byte. -/
def prescribedSize (a : CompressedTexImage) : Int :=
  paletteSize a.internalformat +
    sumLevels (fun l => levelReads a.internalformat a.width.toNat a.height.toNat l) a.numLevels

def WellFormed (a : CompressedTexImage) : Prop :=
  a.target = GL.texture2D ∧ 0 ≤ a.width ∧ 0 ≤ a.height ∧ a.border = 0 ∧
    paletteFormat a.internalformat ≠ none

instance (a : CompressedTexImage) : Decidable (WellFormed a) :=
  inferInstanceAs (Decidable (_ ∧ _ ∧ _ ∧ _ ∧ _))

def Accepted (a : CompressedTexImage) : Prop := a.checked.reject = GL.noError

instance (a : CompressedTexImage) : Decidable (Accepted a) := inferInstanceAs (Decidable (_ = _))

/-- An image that is accepted and not empty is read within `imageSize` bytes, and an image of exactly
the prescribed size is accepted. -/
structure Bounded (a : CompressedTexImage) : Prop where
  within : Accepted a → ¬a.checked.empty → ∀ data, a.data = some data → ∀ surface stride,
    ∀ l < a.numLevels, ∀ i ∈ a.reads data surface stride l, 0 ≤ i ∧ i < a.imageSize
  accepts : WellFormed a → a.imageSize = prescribedSize a → Accepted a

theorem accepted_iff {a : CompressedTexImage} : Accepted a ↔
    WellFormed a ∧ (a.checked.empty ∨ comparedSize a ≤ sizeT a.imageSize) := by
  have enum : GL.invalidEnum ≠ GL.noError := by decide
  have value : GL.invalidValue ≠ GL.noError := by decide
  unfold Accepted Units.CompressedTexImage.reject
  by_cases formed : WellFormed a
  · obtain ⟨target, hw, hh, border, paletted⟩ := id formed
    have aimed : ¬a.checked.target ≠ GL.texture2D := not_not.mpr target
    have shape : ¬(a.checked.width < 0 ∨ a.checked.height < 0 ∨ a.checked.border ≠ 0) := by
      show ¬(a.width < 0 ∨ a.height < 0 ∨ a.border ≠ 0)
      omega
    have known : paletteFormat a.checked.internalformat ≠ none := paletted
    rw [if_neg aimed, if_neg shape, if_neg known]
    by_cases empty : a.checked.empty
    · exact iff_of_true (if_pos empty) ⟨formed, .inl empty⟩
    · have upload : ¬(a.checked.hasData = false ∨ a.checked.width = 0 ∨ a.checked.height = 0) := empty
      rw [if_neg upload]
      by_cases fits : comparedSize a ≤ sizeT a.imageSize
      · exact iff_of_true (if_pos ((fits_iff a).mpr fits)) ⟨formed, .inr fits⟩
      · have refused : ¬a.checked.fits = true := fun h => fits ((fits_iff a).mp h)
        rw [if_neg refused]
        exact iff_of_false value fun accepted => fits (accepted.2.resolve_left empty)
  · refine iff_of_false (fun accepted => formed ?_) fun accepted => formed accepted.1
    split_ifs at accepted with target shape format
    · exact absurd accepted enum
    · exact absurd accepted value
    · exact absurd accepted enum
    all_goals
      simp only [not_or, not_lt, not_not] at shape target
      exact ⟨target, shape.1, shape.2.1, shape.2.2, format⟩

/-- The condition on an image that is uploaded: the size that is compared leaves out the palette and
takes one byte for an index, and `imageSize` is taken for unsigned. -/
def SizeSafe (a : CompressedTexImage) : Prop :=
  (sizeT a.imageSize < comparedSize a ∨ ∀ l < a.numLevels, Room a l) ∧
  (a.imageSize = prescribedSize a → comparedSize a ≤ sizeT a.imageSize)

/-- A call is bounded by `imageSize`, and takes images of the prescribed size, exactly if its image is
empty or rejected for another reason, or meets the condition on its size. -/
theorem bounded_iff (a : CompressedTexImage) :
    Bounded a ↔ (WellFormed a → ¬a.checked.empty → SizeSafe a) := by
  have levels : 0 < a.numLevels := by
    unfold CompressedTexImage.numLevels
    split_ifs <;> omega
  simp only [SizeSafe, room_iff]
  constructor
  · intro bounded formed uploaded
    constructor
    · by_contra large
      rw [not_or, not_lt] at large
      refine large.2 ?_
      obtain ⟨data, hdata⟩ : ∃ data, a.data = some data := by
        apply Option.isSome_iff_exists.mp
        by_contra none
        exact uploaded (.inl (Bool.not_eq_true _ ▸ none))
      have inside := bounded.within (accepted_iff.mpr ⟨formed, .inr large.1⟩) uploaded data hdata
        (fun _ => 0) 0
      exact (all_reads_within_iff formed.2.2.2.2 levels _ _ data _ _ _).mp inside
    · intro exact
      have accepted := accepted_iff.mp (bounded.accepts formed exact)
      exact accepted.2.resolve_left uploaded
  · intro safe
    constructor
    · intro accepted uploaded data _ surface stride
      obtain ⟨formed, fits⟩ := accepted_iff.mp accepted
      have places := (safe formed uploaded).1.resolve_left (by
        have enough := fits.resolve_left uploaded
        omega)
      exact (all_reads_within_iff formed.2.2.2.2 levels _ _ data _ _ _).mpr places
    · intro formed exact
      by_cases uploaded : a.checked.empty
      · exact accepted_iff.mpr ⟨formed, .inl uploaded⟩
      · exact accepted_iff.mpr ⟨formed, .inr ((safe formed uploaded).2 exact)⟩

def oneByte : CompressedTexImage := ⟨GL.texture2D, 0, 0x8B95, 1, 1, 0, 1, some fun _ => 0⟩

/-- The call is accepted, and the index is read from behind the palette. -/
theorem oneByte_unbounded : ¬Bounded oneByte := by
  intro bounded
  have inside := bounded.within (by decide) (by decide) _ rfl (fun _ => 0) 0 0 (by decide) 768
    (by decide)
  exact absurd inside.2 (by decide)

def packed : CompressedTexImage := ⟨GL.texture2D, 0, 0x8B90, 8, 16, 0, 112, some fun _ => 0⟩

/-- An image of exactly the prescribed size is rejected. -/
example :
    WellFormed packed ∧ packed.imageSize = prescribedSize packed ∧ ¬Accepted packed := by
  decide

end RabbitRender.Textures.PaletteBounds
