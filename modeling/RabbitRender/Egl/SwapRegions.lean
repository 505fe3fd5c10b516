/- RabbitRender/Egl/SwapRegions
   layer: theorem
   source: swrender/egl.cpp
   digest: What is left of the old swap rectangle outside the new one, and what a swap copies back. -/

import Mathlib.Data.List.Nodup
import Mathlib.Data.List.ProdSigma
import Mathlib.Data.Set.Lattice
import Mathlib.Order.CompletePartialOrder
import RabbitRender.Fixed

set_option autoImplicit false

namespace RabbitRender.Egl.SwapRegions

open Fixed (wrap32 wrap32_of_bounds)

structure Rect where
  left : Int
  top : Int
  right : Int
  bottom : Int
  deriving DecidableEq

abbrev Pixel := Int × Int

namespace Rect

def andSelf (s r : Rect) : Rect :=
  ⟨max s.left r.left, max s.top r.top, min s.right r.right, min s.bottom r.bottom⟩

def isEmpty (r : Rect) : Prop := r.left ≥ r.right ∨ r.top ≥ r.bottom

instance (r : Rect) : Decidable r.isEmpty := inferInstanceAs (Decidable (_ ∨ _))

def pixels (r : Rect) : Set Pixel :=
  {p | r.left ≤ p.1 ∧ p.1 < r.right ∧ r.top ≤ p.2 ∧ p.2 < r.bottom}

theorem mem_pixels {r : Rect} {x y : Int} :
    (x, y) ∈ r.pixels ↔ r.left ≤ x ∧ x < r.right ∧ r.top ≤ y ∧ y < r.bottom := Iff.rfl

theorem mem_mk {l t r b x y : Int} :
    (x, y) ∈ (Rect.mk l t r b).pixels ↔ l ≤ x ∧ x < r ∧ t ≤ y ∧ y < b := Iff.rfl

end Rect

def piece (c : Prop) [Decidable c] (r : Rect) : List Rect := if c then [r] else []

/-- `Region::subtract`: the top, left, right and bottom rectangle. -/
def subtract (lhs rhs : Rect) : List Rect :=
  let top := max lhs.top rhs.top
  let bot := min lhs.bottom rhs.bottom
  if lhs.isEmpty then []
  else
    piece (lhs.top < rhs.top) ⟨lhs.left, lhs.top, lhs.right, rhs.top⟩ ++
    piece (top < bot ∧ lhs.left < rhs.left) ⟨lhs.left, top, rhs.left, bot⟩ ++
    piece (top < bot ∧ lhs.right > rhs.right) ⟨rhs.right, top, lhs.right, bot⟩ ++
    piece (lhs.bottom > rhs.bottom) ⟨lhs.left, rhs.bottom, lhs.right, lhs.bottom⟩

/-- The pixels that `copyBlt` copies of one rectangle, row by row. -/
def copyRect (r : Rect) : List Pixel :=
  let w := wrap32 (r.right - r.left)
  let h := wrap32 (r.bottom - r.top)
  if w ≤ 0 ∨ h ≤ 0 then []
  else (List.range h.toNat ×ˢ List.range w.toNat).map fun q => (r.left + q.2, r.top + q.1)

def copyBlt (clip : List Rect) : List Pixel := clip.flatMap copyRect

/-- What `egl_window_surface_v2_t` knows of the swap rectangles. -/
structure Surface where
  dirtyRegion : Rect
  oldDirtyRegion : Rect
  previousBuffer : Bool

def setSwapRectangle (s : Surface) (l t w h : Int) : Surface :=
  { s with dirtyRegion := ⟨l, t, wrap32 (l + w), wrap32 (t + h)⟩ }

/-- `swapBuffers` with a buffer of this size, and the pixels it copies from the previous one. -/
def swapBuffers (s : Surface) (width height : Int) : Surface × List Pixel :=
  if s.dirtyRegion.isEmpty then ({ s with previousBuffer := true }, [])
  else
    let dirty := s.dirtyRegion.andSelf ⟨0, 0, width, height⟩
    (⟨dirty, dirty, true⟩, if s.previousBuffer then copyBlt (subtract s.oldDirtyRegion dirty) else [])

section Pieces

variable {c : Prop} [Decidable c] {r s : Rect}

@[simp] theorem mem_piece : s ∈ piece c r ↔ c ∧ s = r := by
  unfold piece
  split_ifs with h
  · simp [h]
  · simp [h]

@[simp] theorem pairwise_piece (R : Rect → Rect → Prop) : (piece c r).Pairwise R := by
  unfold piece
  split_ifs
  · exact List.pairwise_singleton R r
  · exact List.Pairwise.nil

theorem length_piece : (piece c r).length ≤ 1 := by
  unfold piece
  split_ifs
  · exact le_rfl
  · exact Nat.zero_le 1

end Pieces

variable {lhs rhs : Rect}

/-- At most four rectangles that do not overlap, together the pixels of `lhs` that are not in `rhs`;
those of a rectangle inside a buffer are copied once each. -/
structure Subtracts (lhs rhs : Rect) : Prop where
  few : (subtract lhs rhs).length ≤ 4
  apart : (subtract lhs rhs).Pairwise fun r s => Disjoint r.pixels s.pixels
  union : ⋃ r ∈ subtract lhs rhs, r.pixels = lhs.pixels \ rhs.pixels
  copies : 0 ≤ lhs.left → 0 ≤ lhs.top → lhs.right < 2 ^ 31 → lhs.bottom < 2 ^ 31 →
    (copyBlt (subtract lhs rhs)).Nodup ∧
    ∀ p, p ∈ copyBlt (subtract lhs rhs) ↔ p ∈ lhs.pixels \ rhs.pixels

/-- The rows of the rectangles meet, those of the second one are in order, and where they share
rows their columns meet and are in order as well. -/
def Meets (lhs rhs : Rect) : Prop :=
  rhs.top ≤ lhs.bottom ∧ lhs.top ≤ rhs.bottom ∧ rhs.top ≤ rhs.bottom ∧
  (max lhs.top rhs.top < min lhs.bottom rhs.bottom →
    rhs.left ≤ lhs.right ∧ lhs.left ≤ rhs.right ∧ rhs.left ≤ rhs.right)

instance : Decidable (Meets lhs rhs) := inferInstanceAs (Decidable (_ ∧ _ ∧ _ ∧ (_ → _)))

theorem subtract_length : (subtract lhs rhs).length ≤ 4 := by
  unfold subtract
  split_ifs
  · exact Nat.zero_le 4
  · simp only [List.length_append]
    refine (Nat.add_le_add (Nat.add_le_add (Nat.add_le_add ?_ ?_) ?_) ?_ : _ ≤ 1 + 1 + 1 + 1)
    all_goals exact length_piece

theorem mem_subtract {r : Rect} : r ∈ subtract lhs rhs ↔ ¬lhs.isEmpty ∧
    (lhs.top < rhs.top ∧ r = ⟨lhs.left, lhs.top, lhs.right, rhs.top⟩ ∨
      (max lhs.top rhs.top < min lhs.bottom rhs.bottom ∧ lhs.left < rhs.left) ∧
        r = ⟨lhs.left, max lhs.top rhs.top, rhs.left, min lhs.bottom rhs.bottom⟩ ∨
      (max lhs.top rhs.top < min lhs.bottom rhs.bottom ∧ lhs.right > rhs.right) ∧
        r = ⟨rhs.right, max lhs.top rhs.top, lhs.right, min lhs.bottom rhs.bottom⟩ ∨
      lhs.bottom > rhs.bottom ∧ r = ⟨lhs.left, rhs.bottom, lhs.right, lhs.bottom⟩) := by
  unfold subtract
  dsimp only
  split_ifs with none
  · simp [none]
  · simp only [List.mem_append, mem_piece, none, not_false_eq_true, true_and, or_assoc]

theorem subtract_apart (meets : Meets lhs rhs) :
    (subtract lhs rhs).Pairwise fun r s => Disjoint r.pixels s.pixels := by
  obtain ⟨-, -, rows, columns⟩ := meets
  unfold subtract
  dsimp only
  split_ifs
  · exact List.Pairwise.nil
  · simp only [List.pairwise_append, pairwise_piece, List.mem_append, mem_piece, true_and]
    refine ⟨⟨?_, ?_⟩, ?_⟩
    on_goal 1 => rintro r ⟨-, rfl⟩ s ⟨-, rfl⟩
    on_goal 2 => rintro r (⟨-, rfl⟩ | ⟨shared, rfl⟩) s ⟨shared', rfl⟩
    on_goal 4 => rintro r ((⟨-, rfl⟩ | ⟨shared, rfl⟩) | ⟨shared, rfl⟩) s ⟨-, rfl⟩
    all_goals
      refine Set.disjoint_left.mpr fun ⟨x, y⟩ first second => ?_
      rw [Rect.mem_pixels] at first second
      dsimp only at first second
      omega

theorem subtract_union (meets : lhs.isEmpty ∨ Meets lhs rhs) :
    ⋃ r ∈ subtract lhs rhs, r.pixels = lhs.pixels \ rhs.pixels := by
  ext ⟨x, y⟩
  simp only [Set.mem_iUnion, exists_prop, Set.mem_sdiff]
  constructor
  · rintro ⟨r, member, inside⟩
    obtain ⟨some, pieces⟩ := mem_subtract.mp member
    obtain ⟨below, above, rows, columns⟩ := meets.resolve_left some
    unfold Rect.isEmpty at some
    rw [Rect.mem_pixels, Rect.mem_pixels]
    rw [Rect.mem_pixels] at inside
    rcases pieces with ⟨-, rfl⟩ | ⟨shared, rfl⟩ | ⟨shared, rfl⟩ | ⟨-, rfl⟩
    all_goals
      dsimp only at inside
      omega
  · rintro ⟨inside, outside⟩
    rw [Rect.mem_pixels] at inside outside
    have some : ¬lhs.isEmpty := by
      unfold Rect.isEmpty
      omega
    by_cases top : y < rhs.top
    · exact ⟨_, mem_subtract.mpr ⟨some, Or.inl ⟨by omega, rfl⟩⟩,
        Rect.mem_mk.mpr ⟨by omega, by omega, by omega, top⟩⟩
    · by_cases bottom : rhs.bottom ≤ y
      · exact ⟨_, mem_subtract.mpr ⟨some, Or.inr (Or.inr (Or.inr ⟨by omega, rfl⟩))⟩,
          Rect.mem_mk.mpr ⟨by omega, by omega, bottom, by omega⟩⟩
      · by_cases left : x < rhs.left
        · exact ⟨_, mem_subtract.mpr ⟨some, Or.inr (Or.inl ⟨by omega, rfl⟩)⟩,
            Rect.mem_mk.mpr ⟨by omega, left, by omega, by omega⟩⟩
        · exact ⟨_, mem_subtract.mpr ⟨some, Or.inr (Or.inr (Or.inl ⟨by omega, rfl⟩))⟩,
            Rect.mem_mk.mpr ⟨by omega, by omega, by omega, by omega⟩⟩

theorem meets_of_subtract (some : ¬lhs.isEmpty)
    (apart : (subtract lhs rhs).Pairwise fun r s => Disjoint r.pixels s.pixels)
    (union : ⋃ r ∈ subtract lhs rhs, r.pixels = lhs.pixels \ rhs.pixels) : Meets lhs rhs := by
  have inside {x y : Int} {r : Rect} (member : r ∈ subtract lhs rhs) (pixel : (x, y) ∈ r.pixels) :
      (x, y) ∈ lhs.pixels :=
    (union.subset (Set.mem_biUnion member pixel)).1
  rw [subtract, if_neg some] at apart
  simp only [List.pairwise_append, pairwise_piece, List.mem_append, mem_piece, true_and] at apart
  obtain ⟨⟨-, sides⟩, bottoms⟩ := apart
  have pieces := @mem_subtract lhs rhs
  rw [Rect.isEmpty] at some
  have below : rhs.top ≤ lhs.bottom := by
    by_contra far
    have pixel := inside (x := lhs.left) (y := lhs.bottom)
      (pieces.mpr ⟨some, Or.inl ⟨by omega, rfl⟩⟩)
      (Rect.mem_mk.mpr ⟨by omega, by omega, by omega, by omega⟩)
    exact absurd pixel.2.2.2 (lt_irrefl _)
  have above : lhs.top ≤ rhs.bottom := by
    by_contra far
    have pixel := inside (x := lhs.left) (y := rhs.bottom)
      (pieces.mpr ⟨some, Or.inr (Or.inr (Or.inr ⟨by omega, rfl⟩))⟩)
      (Rect.mem_mk.mpr ⟨by omega, by omega, by omega, by omega⟩)
    exact far pixel.2.2.1
  have rows : rhs.top ≤ rhs.bottom := by
    by_contra crossed
    have disjoint := bottoms _ (Or.inl (Or.inl ⟨by omega, rfl⟩)) _ ⟨by omega, rfl⟩
    exact Set.disjoint_left.mp disjoint
      ((Rect.mem_mk (x := lhs.left) (y := rhs.bottom)).mpr ⟨by omega, by omega, by omega, by omega⟩)
      (Rect.mem_mk.mpr ⟨by omega, by omega, by omega, by omega⟩)
  refine ⟨below, above, rows, fun shared => ?_⟩
  have before : rhs.left ≤ lhs.right := by
    by_contra far
    have pixel := inside (x := lhs.right) (y := max lhs.top rhs.top)
      (pieces.mpr ⟨some, Or.inr (Or.inl ⟨⟨shared, by omega⟩, rfl⟩)⟩)
      (Rect.mem_mk.mpr ⟨by omega, by omega, le_rfl, shared⟩)
    exact absurd pixel.2.1 (lt_irrefl _)
  have after : lhs.left ≤ rhs.right := by
    by_contra far
    have pixel := inside (x := rhs.right) (y := max lhs.top rhs.top)
      (pieces.mpr ⟨some, Or.inr (Or.inr (Or.inl ⟨⟨shared, by omega⟩, rfl⟩))⟩)
      (Rect.mem_mk.mpr ⟨le_rfl, by omega, le_rfl, shared⟩)
    exact far pixel.1
  refine ⟨before, after, ?_⟩
  by_contra crossed
  have disjoint := sides _ (Or.inr ⟨⟨shared, by omega⟩, rfl⟩) _ ⟨⟨shared, by omega⟩, rfl⟩
  exact Set.disjoint_left.mp disjoint
    ((Rect.mem_mk (x := rhs.right) (y := max lhs.top rhs.top)).mpr ⟨after, by omega, le_rfl, shared⟩)
    (Rect.mem_mk.mpr ⟨le_rfl, by omega, le_rfl, shared⟩)

theorem copyRect_spec {r : Rect} (wide : r.left ≤ r.right ∧ r.right - r.left < 2 ^ 31)
    (high : r.top ≤ r.bottom ∧ r.bottom - r.top < 2 ^ 31) :
    (copyRect r).Nodup ∧ ∀ p, p ∈ copyRect r ↔ p ∈ r.pixels := by
  have columns : wrap32 (r.right - r.left) = r.right - r.left :=
    wrap32_of_bounds (by omega) (by omega)
  have rows : wrap32 (r.bottom - r.top) = r.bottom - r.top := wrap32_of_bounds (by omega) (by omega)
  unfold copyRect
  rw [columns, rows]
  dsimp only
  split_ifs with none
  · refine ⟨List.nodup_nil, fun ⟨x, y⟩ => ?_⟩
    rw [Rect.mem_pixels]
    refine iff_of_false List.not_mem_nil ?_
    omega
  · constructor
    · refine (List.nodup_range.product List.nodup_range).map fun a b same => ?_
      simp only [Prod.mk.injEq] at same
      exact Prod.ext (by omega) (by omega)
    · rintro ⟨x, y⟩
      rw [Rect.mem_pixels]
      simp only [List.mem_map, List.mem_product, List.mem_range, Prod.exists, Prod.mk.injEq]
      constructor
      · rintro ⟨j, i, ⟨row, column⟩, rfl, rfl⟩
        omega
      · rintro ⟨left, right, top, bottom⟩
        exact ⟨(y - r.top).toNat, (x - r.left).toNat, ⟨by omega, by omega⟩, by omega, by omega⟩

theorem copies_subtract (meets : lhs.isEmpty ∨ Meets lhs rhs) (left : 0 ≤ lhs.left)
    (top : 0 ≤ lhs.top) (right : lhs.right < 2 ^ 31) (bottom : lhs.bottom < 2 ^ 31) :
    (copyBlt (subtract lhs rhs)).Nodup ∧
      ∀ p, p ∈ copyBlt (subtract lhs rhs) ↔ p ∈ lhs.pixels \ rhs.pixels := by
  have copied : ∀ r ∈ subtract lhs rhs, (copyRect r).Nodup ∧ ∀ p, p ∈ copyRect r ↔ p ∈ r.pixels := by
    intro r member
    obtain ⟨some, pieces⟩ := mem_subtract.mp member
    obtain ⟨below, above, rows, columns⟩ := meets.resolve_left some
    unfold Rect.isEmpty at some
    rcases pieces with ⟨first, rfl⟩ | ⟨⟨shared, first⟩, rfl⟩ | ⟨⟨shared, last⟩, rfl⟩ | ⟨last, rfl⟩
    · exact copyRect_spec ⟨by dsimp only; omega, by dsimp only; omega⟩
        ⟨by dsimp only; omega, by dsimp only; omega⟩
    · have inner := columns shared
      exact copyRect_spec ⟨by dsimp only; omega, by dsimp only; omega⟩
        ⟨by dsimp only; omega, by dsimp only; omega⟩
    · have inner := columns shared
      exact copyRect_spec ⟨by dsimp only; omega, by dsimp only; omega⟩
        ⟨by dsimp only; omega, by dsimp only; omega⟩
    · exact copyRect_spec ⟨by dsimp only; omega, by dsimp only; omega⟩
        ⟨by dsimp only; omega, by dsimp only; omega⟩
  constructor
  · refine List.nodup_flatMap.mpr ⟨fun r member => (copied r member).1, ?_⟩
    have apart : (subtract lhs rhs).Pairwise fun r s => Disjoint r.pixels s.pixels := by
      by_cases none : lhs.isEmpty
      · rw [subtract, if_pos none]
        exact List.Pairwise.nil
      · exact subtract_apart (meets.resolve_left none)
    refine apart.imp_of_mem fun {r s} first second h => List.disjoint_left.mpr fun p here there => ?_
    exact Set.disjoint_left.mp h (((copied r first).2 p).mp here) (((copied s second).2 p).mp there)
  · intro p
    rw [← subtract_union meets, copyBlt, List.mem_flatMap]
    simp only [Set.mem_iUnion, exists_prop]
    exact exists_congr fun r => and_congr_right fun member => (copied r member).2 p

/-- What is copied back is right exactly for an empty old rectangle, or rectangles that meet. -/
theorem region_subtracts_iff (lhs rhs : Rect) :
    Subtracts lhs rhs ↔ lhs.isEmpty ∨ Meets lhs rhs := by
  constructor
  · intro subtracts
    by_cases none : lhs.isEmpty
    · exact Or.inl none
    · exact Or.inr (meets_of_subtract none subtracts.apart subtracts.union)
  · intro meets
    have apart : (subtract lhs rhs).Pairwise fun r s => Disjoint r.pixels s.pixels := by
      rcases meets with none | meets
      · rw [subtract, if_pos none]
        exact List.Pairwise.nil
      · exact subtract_apart meets
    exact ⟨subtract_length, apart, subtract_union meets, copies_subtract meets⟩

/-- A swap rectangle below the old one: a row between the two is copied. -/
theorem region_overruns : ¬Subtracts ⟨0, 0, 4, 4⟩ ⟨0, 8, 4, 12⟩ ∧
    let old := (swapBuffers (setSwapRectangle ⟨⟨0, 0, 0, 0⟩, ⟨0, 0, 0, 0⟩, false⟩ 0 0 4 4) 16 16).1
    (0, 5) ∈ (swapBuffers (setSwapRectangle old 0 8 4 4) 16 16).2 :=
  ⟨fun h => absurd ((region_subtracts_iff _ _).mp h) (by decide), by decide⟩

end RabbitRender.Egl.SwapRegions
