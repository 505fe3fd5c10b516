/- RabbitRender/Textures/PyramidReads
   layer: results
   source: swrender/mipmap.cpp
   digest: When mipmap generation reads texels of the level before only. -/

import RabbitRender.Textures.MipmapLoops
import RabbitRender.Textures.PyramidLevels

set_option autoImplicit false

namespace RabbitRender.Textures.PyramidReads

open Lib.Halving Textures.Levels Textures.Mipmaps Textures.MipmapLoops
open Textures.Coverage (halve_pos halve_le)
open Textures.PyramidLevels Textures.Reallocations
open Textures.Uploads (Outcome Image levelRequest pixelSize)

/-- Element `i` belongs to a texel of a level of `w * h` texels. -/
def Inside (skip stride w h i : Nat) : Prop :=
  ∃ y < h, ∃ x < w, ∃ c < skip, i = element skip stride x y c

/-- The elements that are read for a level belong to texels of the level before. -/
def ReadsInside (m : Made) : Prop :=
  ∀ f, filter m.base.format = some f → ∀ s ∈ m.steps, ∀ i ∈ s.reads,
    Inside f.skip m.base.stride.toNat m.base.width m.base.height i

theorem filter_skip_pos {format : Nat} {f : Filter} (found : filter format = some f) :
    0 < f.skip := by
  unfold filter at found
  split_ifs at found <;> obtain rfl := Option.some_inj.mp found <;> exact Nat.succ_pos _

variable {skip stride w h level : Nat} {out : Outcome}

theorem reads_inside (wide : 2 ≤ w) (high : 2 ≤ h) {s : Step}
    (member : s ∈ levelSteps skip stride (halve w) (halve h)) {i : Nat} (read : i ∈ s.reads) :
    Inside skip stride w h i := by
  obtain ⟨y, hy, x, hx, c, hc, rfl⟩ := mem_levelSteps.mp member
  have columns : halve w = w / 2 := if_neg (by omega)
  have rows : halve h = h / 2 := if_neg (by omega)
  simp only [Step.reads, stepAt, List.mem_cons, List.not_mem_nil, or_false] at read
  rcases read with rfl | rfl | rfl | rfl
  all_goals exact ⟨_, by omega, _, by omega, c, hc, rfl⟩

theorem last_read (stride : Nat) (bytes : 0 < skip) (hw : 0 < w) (hh : 0 < h) :
    ∃ s ∈ levelSteps skip stride w h, element skip stride (2 * w - 1) (2 * h - 1) 0 ∈ s.reads := by
  refine ⟨stepAt skip stride w (w - 1) (h - 1) 0,
    mem_levelSteps.mpr ⟨_, by omega, _, by omega, 0, bytes, rfl⟩, ?_⟩
  have column : 2 * (w - 1) + 1 = 2 * w - 1 := by omega
  have row : 2 * (h - 1) + 1 = 2 * h - 1 := by omega
  simp [Step.reads, stepAt, column, row]

theorem not_inside {x y : Nat} (rows : 0 < stride) (outside : h ≤ y ∧ w ≤ x + 1 ∨ w ≤ x ∧ h ≤ y + 1) :
    ¬Inside skip stride w h (element skip stride x y 0) := by
  rintro ⟨y', hy', x', hx', c, hc, same⟩
  have texel : y * stride + x = y' * stride + x' := by
    have quotient := congrArg (· / skip) same
    have positive : 0 < skip := by omega
    simpa only [element, Nat.mul_comm _ skip, Nat.mul_add_div positive, Nat.div_eq_of_lt hc,
      Nat.add_zero, Nat.mul_div_cancel_left _ positive] using quotient
  rcases outside with ⟨below, column⟩ | ⟨right, row⟩
  · have apart : (y' + 1) * stride ≤ y * stride := Nat.mul_le_mul_right stride (by omega)
    rw [Nat.succ_mul] at apart
    omega
  · have order : y' * stride ≤ y * stride := Nat.mul_le_mul_right stride (by omega)
    omega

theorem reads_inside_iff_extents (bytes : 0 < skip) (rows : 0 < stride) (hw : 0 < w) (hh : 0 < h)
    (several : w &&& h ≠ 1) :
    (∀ s ∈ levelSteps skip stride (halve w) (halve h), ∀ i ∈ s.reads, Inside skip stride w h i) ↔
      2 ≤ w ∧ 2 ≤ h := by
  constructor
  · intro inside
    by_contra thin
    obtain ⟨s, member, read⟩ := last_read stride bytes (halve_pos w) (halve_pos h)
    apply not_inside rows _ (inside s member _ read)
    by_cases row : h = 1
    · subst row
      rw [Nat.and_one_is_mod] at several
      have half : halve w = w / 2 := if_neg (by omega)
      have one : halve 1 = 1 := rfl
      omega
    · have column : w = 1 := by omega
      subst column
      rw [Nat.and_comm, Nat.and_one_is_mod] at several
      have half : halve h = h / 2 := if_neg (by omega)
      have one : halve 1 = 1 := rfl
      omega
  · rintro ⟨wide, high⟩ s member i read
    exact reads_inside wide high member read

/-- The levels from `level` on are made from a level of `w * h` texels as far as the one that is
made from it after `l` halvings. -/
def Produced (out : Outcome) (level w h l : Nat) : Prop :=
  (∀ k < l + 1, out.data (level + k) = true) ∧ ∀ k < l + 1, shrink w k &&& shrink h k ≠ 1

theorem produced_zero (hw : 0 < w) (hh : 0 < h) :
    Produced out level w h 0 ↔ out.data level = true ∧ w &&& h ≠ 1 := by
  simp [Produced, shrink_zero hw, shrink_zero hh]

theorem produced_succ (hw : 0 < w) (hh : 0 < h) (l : Nat) :
    Produced out level w h (l + 1) ↔
      out.data level = true ∧ w &&& h ≠ 1 ∧ Produced out (level + 1) (halve w) (halve h) l := by
  have blocks : (∀ k < l + 1 + 1, out.data (level + k) = true) ↔
      out.data level = true ∧ ∀ k < l + 1, out.data (level + 1 + k) = true := by
    rw [Nat.forall_lt_succ_left]
    simp only [Nat.add_assoc, Nat.add_comm 1, Nat.add_zero]
  have inner : (∀ k < l + 1 + 1, shrink w k &&& shrink h k ≠ 1) ↔
      w &&& h ≠ 1 ∧ ∀ k < l + 1, shrink (halve w) k &&& shrink (halve h) k ≠ 1 := by
    simp only [Nat.forall_lt_succ_left (n := l + 1), shrink_zero hw, shrink_zero hh, shrink_halve]
  rw [Produced, blocks, inner, Produced]
  constructor
  · rintro ⟨⟨block, others⟩, first, rest⟩
    exact ⟨block, first, others, rest⟩
  · rintro ⟨block, first, others, rest⟩
    exact ⟨⟨block, others⟩, first, rest⟩

/-- Every level that another one is made from has two texels in each direction. -/
def Broad (out : Outcome) (level w h : Nat) : Prop :=
  ∀ l, Produced out level w h l → 2 ≤ shrink w l ∧ 2 ≤ shrink h l

theorem broad_iff (hw : 0 < w) (hh : 0 < h) (block : out.data level = true) (several : w &&& h ≠ 1) :
    Broad out level w h ↔
      (2 ≤ w ∧ 2 ≤ h) ∧ Broad out (level + 1) (halve w) (halve h) := by
  constructor
  · intro broad
    constructor
    · have first := broad 0 ((produced_zero hw hh).mpr ⟨block, several⟩)
      rwa [shrink_zero hw, shrink_zero hh] at first
    · intro l produced
      rw [shrink_halve, shrink_halve]
      exact broad (l + 1) ((produced_succ hw hh l).mpr ⟨block, several, produced⟩)
  · rintro ⟨first, rest⟩ l produced
    cases l with
    | zero => rwa [shrink_zero hw, shrink_zero hh]
    | succ l =>
      rw [← shrink_halve, ← shrink_halve]
      exact rest l ((produced_succ hw hh l).mp produced).2.2

theorem broad_of_not (hw : 0 < w) (hh : 0 < h) (ends : ¬(out.data level = true ∧ w &&& h ≠ 1)) :
    Broad out level w h := by
  intro l produced
  refine absurd ?_ ends
  cases l with
  | zero => exact (produced_zero hw hh).mp produced
  | succ l =>
    have first := (produced_succ hw hh l).mp produced
    exact ⟨first.1, first.2.1⟩

theorem readsInside_madeLevel_iff {f : Filter} {base : GGLSurface} (cur : GGLSurface) (level : Nat)
    (found : filter base.format = some f) (rows : 0 < base.stride.toNat) (hw : 0 < base.width)
    (hh : 0 < base.height) (several : base.width &&& base.height ≠ 1) :
    ReadsInside (madeLevel f base cur level (halve base.width) (halve base.height)) ↔
      2 ≤ base.width ∧ 2 ≤ base.height := by
  rw [← reads_inside_iff_extents (filter_skip_pos found) rows hw hh several]
  constructor
  · intro inside
    exact inside f found
  · intro inside f' found'
    obtain rfl := Option.some_inj.mp (found.symm.trans found')
    exact inside

theorem levels_read_inside_iff {size : Nat} {rounds : Nat} {image : Image} {base : GGLSurface}
    {p : Pyramid} (ready : Ready image.storage) (table : TableReady image.storage out.table)
    (supported : filter base.format ≠ none) (hlevel : 0 < level) (hw : 0 < base.width)
    (hh : 0 < base.height) (wide : base.width < 2 ^ 31) (high : base.height < 2 ^ 31)
    (rows : 0 < base.stride.toNat) (several : base.width &&& base.height ≠ 1)
    (built : buildLevels size out rounds image base level (halve base.width) (halve base.height) =
      some p) : (∀ m ∈ p.made, ReadsInside m) ↔ Broad out level base.width base.height := by
  induction rounds generalizing image base level p with
  | zero => cases built
  | succ rounds ih =>
    have success := reallocate_status_iff hlevel
      (levelRequest size base (halve base.width) (halve base.height)) (out.memory level) ready.lods
    by_cases allocated : (reallocate image.storage level
        (levelRequest size base (halve base.width) (halve base.height)) (out.memory level)).2 =
          .noError
    · have block : out.data level = true := (success.mp allocated).2
      obtain ⟨f, found⟩ := Option.ne_none_iff_exists'.mp supported
      obtain ⟨next, storage, round⟩ := buildLevels_allocated rounds found allocated
      obtain ⟨nextReady, nextTable, data, mip⟩ := allocated_level ready hlevel
        ((halve_le hw).trans_lt wide) ((halve_le hh).trans_lt high) allocated
      rw [← storage] at nextReady nextTable mip
      have first := readsInside_madeLevel_iff (next.storage.mip level) level found
        rows hw hh several
      rw [broad_iff hw hh block several, ← first]
      rw [round] at built
      by_cases last : halve base.width &&& halve base.height = 1
      · rw [if_pos last] at built
        obtain rfl := Option.some_inj.mp built
        have rest : Broad out (level + 1) (halve base.width) (halve base.height) :=
          broad_of_not (halve_pos _) (halve_pos _) fun goes => goes.2 last
        simp only [List.forall_mem_singleton, rest, and_true]
      · rw [if_neg last] at built
        obtain ⟨q, later, rfl⟩ := Option.map_eq_some_iff.mp built
        have rest := ih nextReady (.inl nextTable)
          (show filter (next.storage.mip level).format ≠ none by rwa [mip]) (Nat.succ_pos level) (by rw [mip]; exact halve_pos _)
          (by rw [mip]; exact halve_pos _) (by rw [mip]; exact (halve_le hw).trans_lt wide)
          (by rw [mip]; exact (halve_le hh).trans_lt high)
          (by rw [mip]; exact halve_pos _) (by rwa [mip]) (by rw [mip] at later ⊢; exact later)
        rw [mip] at rest
        simp only [List.forall_mem_cons, rest]
    · obtain ⟨last, round⟩ := buildLevels_failed rounds allocated
      rw [round] at built
      obtain rfl := Option.some_inj.mp built
      refine iff_of_true (fun m hm => absurd hm List.not_mem_nil) ?_
      exact broad_of_not hw hh fun goes => allocated (success.mpr ⟨table, goes.1⟩)

/-- Mipmap generation reads texels of the level before only, exactly if every level that another one
is made from has two texels in each direction: where one extent is one already, the texels beside or
below it are read all the same. -/
theorem pyramid_reads_inside_iff {image : Image} {out : Outcome} {rounds : Nat} {p : Pyramid}
    (tabled : Tabled image.storage) (supported : filter image.storage.surface.format ≠ none)
    (hw : 0 < image.storage.surface.width) (hh : 0 < image.storage.surface.height)
    (wide : image.storage.surface.width < 2 ^ 31) (high : image.storage.surface.height < 2 ^ 31)
    (rows : 0 < image.storage.surface.stride) (built : buildAPyramid rounds image out = some p) :
    (∀ m ∈ p.made, ReadsInside m) ↔
      (TableReady image.storage out.table →
        Broad out 1 image.storage.surface.width image.storage.surface.height) := by
  have lods := numLods_eq (lt_max_of_lt_left hw) wide high
  rw [buildAPyramid] at built
  generalize hs : image.storage.surface = s at *
  by_cases one : s.width &&& s.height = 1
  · rw [if_pos one] at built
    obtain rfl := Option.some_inj.mp built
    exact iff_of_true (fun m hm => absurd hm List.not_mem_nil) fun _ =>
      broad_of_not hw hh fun goes => goes.2 one
  · rw [if_neg one] at built
    have further : depth s.width s.height ≠ 0 := fun bottom => one (and_eq_one_of_depth hw hh bottom)
    have ready : Ready image.storage := by
      refine ⟨tabled, ?_⟩
      rw [hs, lods]
      exact_mod_cast Nat.pos_of_ne_zero further
    by_cases table : TableReady image.storage out.table
    · rw [levels_read_inside_iff ready table supported Nat.one_pos hw hh wide high (by omega) one
        built]
      exact ⟨fun broad _ => broad, fun broad => broad table⟩
    · refine iff_of_true (fun m hm => ?_) fun ready => absurd ready table
      cases rounds with
      | zero => cases built
      | succ rounds =>
        have success := reallocate_status_iff Nat.one_pos
          (levelRequest (pixelSize s.format) s (halve s.width) (halve s.height)) (out.memory 1)
          ready.lods
        obtain ⟨last, round⟩ := buildLevels_failed rounds
          fun allocated => table (success.mp allocated).1
        have failed := built.symm.trans round
        obtain rfl := Option.some_inj.mp failed
        exact absurd hm List.not_mem_nil

/-- A square base. -/
theorem pyramid_reads_inside_iff_square :
    (∀ m ∈ ((buildAPyramid 2 (luminance 4 4) granted).get rfl).made, ReadsInside m) ↔
      (TableReady (luminance 4 4).storage granted.table → Broad granted 1 4 4) :=
  have tabled : Tabled (luminance 4 4).storage := by simp [Tabled, luminance]
  pyramid_reads_inside_iff tabled (by decide) (by decide) (by decide) (by decide)
    (by decide) (by decide) (Option.some_get _).symm

/-- From two texels in a row, the one below the second is read. -/
theorem row_of_two_reads_outside :
    ¬∀ p, buildAPyramid 32 (luminance 2 1) granted = some p → ∀ m ∈ p.made, ReadsInside m := by
  intro inside
  have reads := inside _ rfl _ List.mem_cons_self _ rfl _ List.mem_cons_self 3 (by decide)
  obtain ⟨y, hy, x, hx, c, hc, same⟩ := reads
  have row : y < 1 := hy
  have column : x < 2 := hx
  have byte : c < 1 := hc
  have place : 3 = (y * 2 + x) * 1 + c := same
  omega

end RabbitRender.Textures.PyramidReads
