/- RabbitRender/Textures/PyramidLevels
   layer: results
   source: swrender/mipmap.cpp
   digest: The levels that mipmap generation makes, and when they reach down to one texel. -/

import RabbitRender.Textures.Mipmaps
import RabbitRender.Textures.Reallocations

set_option autoImplicit false

namespace RabbitRender.Textures.PyramidLevels

open Lib.Halving Textures.Levels Textures.Mipmaps
open Textures.Coverage (halve_pos paint_storage apart_of_reallocate mip_of_reallocate)
open Textures.Reallocations
open Textures.Uploads (Outcome Image Bytes levelRequest pixelSize)

def madeLevel (f : Filter) (base cur : GGLSurface) (level w h : Nat) : Made :=
  ⟨level, base, cur, levelSteps f.skip base.stride.toNat w h⟩

variable {size level w h rounds : Nat} {out : Outcome} {image : Image} {base : GGLSurface}
    {p : Pyramid}

theorem buildLevels_failed (rounds : Nat)
    (failed : (reallocate image.storage level (levelRequest size base w h) (out.memory level)).2 ≠
      .noError) : ∃ last, buildLevels size out (rounds + 1) image base level w h =
        some ⟨last, .noMemory, []⟩ := by
  rw [buildLevels]
  cases result : reallocate image.storage level (levelRequest size base w h) (out.memory level) with
  | mk storage status =>
    cases status with
    | noError => exact absurd (by rw [result]) failed
    | noInit => exact ⟨_, rfl⟩
    | noMemory => exact ⟨_, rfl⟩
    | badType => exact ⟨_, rfl⟩

theorem buildLevels_allocated (rounds : Nat) {f : Filter} (found : filter base.format = some f)
    (allocated : (reallocate image.storage level (levelRequest size base w h)
      (out.memory level)).2 = .noError) :
    ∃ next : Image,
      next.storage =
        (reallocate image.storage level (levelRequest size base w h) (out.memory level)).1 ∧
      buildLevels size out (rounds + 1) image base level w h =
        if w &&& h = 1 then
          some ⟨next, .noError, [madeLevel f base (next.storage.mip level) level w h]⟩
        else
          (buildLevels size out rounds next (next.storage.mip level) (level + 1) (halve w)
            (halve h)).map fun p =>
              { p with made := madeLevel f base (next.storage.mip level) level w h :: p.made } := by
  rw [buildLevels]
  cases result : reallocate image.storage level (levelRequest size base w h) (out.memory level) with
  | mk storage status =>
    rw [result] at allocated
    obtain rfl : status = .noError := allocated
    simp only [found]
    refine ⟨Image.paint { image with storage := storage } level
      (f.copy (surfaceMemory { image with storage := storage } base)
        (blockSize (storage.mip level)) base.stride.toNat w h), paint_storage _ _ _, ?_⟩
    simp only [paint_storage]
    rfl

theorem filtered_eq (format : Nat) : Uploads.filtered format = (filter format).isSome := by
  simp only [Uploads.filtered, filter, List.mem_cons, List.not_mem_nil, or_false]
  grind

theorem buildLevels_uploads {rounds' : Nat} (enough : rounds ≤ rounds')
    (built : buildLevels size out rounds image base level w h = some p) :
    ∃ copy : Nat → Bytes → Bytes, ∀ out' : Outcome, out'.table = out.table → out'.data = out.data →
      (∀ l, level ≤ l → out'.copy l = copy l) →
      Uploads.buildLevels size out' base rounds' image level w h = (p.image, p.status) := by
  induction rounds generalizing rounds' image base level w h p with
  | zero => cases built
  | succ rounds ih =>
    obtain ⟨n, rfl⟩ : ∃ n, rounds' = n + 1 := ⟨rounds' - 1, by omega⟩
    have memory {out' : Outcome} (table : out'.table = out.table) (data : out'.data = out.data) :
        out'.memory level = out.memory level := by
      rw [Outcome.memory, Outcome.memory, table, data]
    rw [buildLevels] at built
    cases result : reallocate image.storage level (levelRequest size base w h)
        (out.memory level) with
    | mk storage status =>
      rw [result] at built
      cases status with
      | noError =>
        cases found : filter base.format with
        | none =>
          simp only [found] at built
          obtain rfl := Option.some_inj.mp built
          refine ⟨fun _ bytes => bytes, fun out' table data _ => ?_⟩
          rw [Uploads.buildLevels, memory table data, result]
          simp [filtered_eq, found]
        | some f =>
          simp only [found] at built
          let here := f.copy (surfaceMemory { image with storage := storage } base)
            (blockSize (storage.mip level)) base.stride.toNat w h
          by_cases last : w &&& h = 1
          · rw [if_pos last] at built
            obtain rfl := Option.some_inj.mp built
            refine ⟨fun _ => here, fun out' table data copies => ?_⟩
            rw [Uploads.buildLevels, memory table data, result]
            simp only [filtered_eq, found, Option.isSome_some, if_true, if_pos last]
            rw [copies level (Nat.le_refl level)]
          · rw [if_neg last] at built
            obtain ⟨q, later, rfl⟩ := Option.map_eq_some_iff.mp built
            obtain ⟨copy, rest⟩ := ih (Nat.le_of_succ_le_succ enough) later
            refine ⟨fun l => if l = level then here else copy l, fun out' table data copies => ?_⟩
            have first : out'.copy level = here := (copies level (Nat.le_refl level)).trans (if_pos rfl)
            rw [Uploads.buildLevels, memory table data, result]
            simp only [filtered_eq, found, Option.isSome_some, if_true, if_neg last, first]
            apply rest out' table data
            intro l hl
            exact (copies l (by omega)).trans (if_neg (by omega))
      | noInit | noMemory | badType =>
        obtain rfl := Option.some_inj.mp built
        refine ⟨fun _ bytes => bytes, fun out' table data _ => ?_⟩
        rw [Uploads.buildLevels, memory table data, result]

theorem buildAPyramid_uploads (enough : rounds ≤ 32)
    (built : buildAPyramid rounds image out = some p) :
    ∃ copy : Nat → Bytes → Bytes,
      Uploads.buildAPyramid image { out with copy := copy } = (p.image, p.status) := by
  rw [buildAPyramid] at built
  by_cases one : image.storage.surface.width &&& image.storage.surface.height = 1
  · rw [if_pos one] at built
    obtain rfl := Option.some_inj.mp built
    refine ⟨out.copy, ?_⟩
    simp only [Uploads.buildAPyramid, if_pos one]
  · rw [if_neg one] at built
    obtain ⟨copy, same⟩ := buildLevels_uploads enough built
    refine ⟨copy, ?_⟩
    simp only [Uploads.buildAPyramid, if_neg one]
    exact same { out with copy := copy } rfl rfl fun _ _ => rfl

def depth (w h : Nat) : Nat := Nat.log2 (max w h)

theorem depth_halve (hw : 0 < w) : depth (halve w) (halve h) = depth w h - 1 := by
  rw [depth, halve_eq_shrink, halve_eq_shrink, ← shrink_max, log2_shrink (lt_max_of_lt_left hw)]
  rfl

theorem depth_succ (hw : 0 < w) (further : depth w h ≠ 0) :
    depth w h = depth (halve w) (halve h) + 1 := by
  rw [depth_halve hw]
  omega

theorem shrink_halve (extent k : Nat) : shrink (halve extent) k = shrink extent (k + 1) := by
  rw [halve_eq_shrink, shrink_shrink, Nat.add_comm]

theorem shrink_depth (hw : 0 < w) (hh : 0 < h) :
    shrink w (depth w h) = 1 ∧ shrink h (depth w h) = 1 := by
  simp only [shrink_eq_one_iff hw, shrink_eq_one_iff hh, depth, Nat.log2_eq_log_two]
  exact ⟨Nat.log_mono_right (le_max_left w h), Nat.log_mono_right (le_max_right w h)⟩

theorem and_eq_one_of_depth (hw : 0 < w) (hh : 0 < h) (bottom : depth w h = 0) : w &&& h = 1 := by
  have one := shrink_depth hw hh
  rw [bottom, shrink_zero hw, shrink_zero hh] at one
  rw [one.1, one.2]
  rfl

theorem buildLevels_terminates (hw : 0 < w) (hh : 0 < h) (enough : depth w h < rounds) :
    ∃ p, buildLevels size out rounds image base level w h = some p := by
  induction rounds generalizing image base level w h with
  | zero => exact absurd enough (Nat.not_lt_zero _)
  | succ rounds ih =>
    by_cases allocated : (reallocate image.storage level (levelRequest size base w h)
        (out.memory level)).2 = .noError
    · cases found : filter base.format with
      | none =>
        rw [buildLevels]
        cases result : reallocate image.storage level (levelRequest size base w h)
            (out.memory level) with
        | mk storage status =>
          rw [result] at allocated
          obtain rfl : status = .noError := allocated
          simp only [found]
          exact ⟨_, rfl⟩
      | some f =>
        obtain ⟨next, -, round⟩ := buildLevels_allocated rounds found allocated
        rw [round]
        by_cases last : w &&& h = 1
        · rw [if_pos last]
          exact ⟨_, rfl⟩
        · have further : depth w h ≠ 0 := fun bottom => last (and_eq_one_of_depth hw hh bottom)
          have less : depth (halve w) (halve h) < rounds := by
            rw [depth_halve hw]
            omega
          obtain ⟨p, rest⟩ : ∃ p, buildLevels size out rounds next (next.storage.mip level)
              (level + 1) (halve w) (halve h) = some p :=
            ih (halve_pos w) (halve_pos h) less
          rw [if_neg last, rest]
          exact ⟨_, rfl⟩
    · obtain ⟨last, round⟩ := buildLevels_failed rounds allocated
      exact ⟨_, round⟩

theorem buildAPyramid_terminates (hw : 0 < image.storage.surface.width)
    (hh : 0 < image.storage.surface.height)
    (enough : depth image.storage.surface.width image.storage.surface.height ≤ rounds) :
    ∃ p, buildAPyramid rounds image out = some p := by
  rw [buildAPyramid]
  split_ifs with one
  · exact ⟨_, rfl⟩
  · have further : depth image.storage.surface.width image.storage.surface.height ≠ 0 :=
      fun bottom => one (and_eq_one_of_depth hw hh bottom)
    apply buildLevels_terminates (halve_pos _) (halve_pos _)
    rw [depth_halve hw]
    omega

def extents (m : Made) : Nat × Nat × Nat := (m.level, m.cur.width, m.cur.height)

/-- The levels from `level` on, the first of `w * h` texels, are all made. -/
structure Chain (level w h : Nat) (p : Pyramid) : Prop where
  status : p.status = .noError
  levels : p.made.map extents =
    (List.range (depth w h + 1)).map fun k => (level + k, shrink w k, shrink h k)

/-- The blocks can be allocated, and the exit condition does not hold before the last level. -/
def Unbroken (out : Outcome) (level w h : Nat) : Prop :=
  (∀ k < depth w h + 1, out.data (level + k) = true) ∧
    ∀ k < depth w h, shrink w k &&& shrink h k ≠ 1

theorem levels_succ (hw : 0 < w) (hh : 0 < h) (further : depth w h ≠ 0) :
    ((List.range (depth w h + 1)).map fun k => (level + k, shrink w k, shrink h k)) =
      (level, w, h) :: (List.range (depth (halve w) (halve h) + 1)).map fun k =>
        (level + 1 + k, shrink (halve w) k, shrink (halve h) k) := by
  have fewer := depth_succ hw further
  rw [fewer, List.range_succ_eq_map, List.map_cons, List.map_map, shrink_zero hw, shrink_zero hh]
  congr 1
  apply List.map_congr_left
  intro k _
  simp only [Function.comp_apply, Nat.succ_eq_add_one, shrink_halve, Prod.mk.injEq, and_true]
  omega

theorem inner_succ (hw : 0 < w) (hh : 0 < h) (further : depth w h ≠ 0) :
    (∀ k < depth w h, shrink w k &&& shrink h k ≠ 1) ↔
      w &&& h ≠ 1 ∧
        ∀ k < depth (halve w) (halve h), shrink (halve w) k &&& shrink (halve h) k ≠ 1 := by
  have fewer := depth_succ hw further
  simp only [fewer, Nat.forall_lt_succ_left, shrink_zero hw, shrink_zero hh, shrink_halve]

theorem unbroken_succ (hw : 0 < w) (hh : 0 < h) (further : depth w h ≠ 0) : Unbroken out level w h ↔
      out.data level = true ∧ w &&& h ≠ 1 ∧ Unbroken out (level + 1) (halve w) (halve h) := by
  have fewer := depth_succ hw further
  have blocks : (∀ k < depth w h + 1, out.data (level + k) = true) ↔
      out.data level = true ∧
        ∀ k < depth (halve w) (halve h) + 1, out.data (level + 1 + k) = true := by
    rw [fewer, Nat.forall_lt_succ_left]
    simp only [Nat.add_assoc, Nat.add_comm 1, Nat.add_zero]
  rw [Unbroken, blocks, inner_succ hw hh further, Unbroken]
  constructor
  · rintro ⟨⟨block, others⟩, first, inner⟩
    exact ⟨block, first, others, inner⟩
  · rintro ⟨block, first, others, inner⟩
    exact ⟨⟨block, others⟩, first, inner⟩

structure Ready (st : Storage) : Prop where
  tabled : Tabled st
  lods : 0 < numLods st.surface

theorem allocated_level {st : Storage} (ready : Ready st) (hlevel : 0 < level) (wide : w < 2 ^ 31)
    (high : h < 2 ^ 31)
    (allocated : (reallocate st level (levelRequest size base w h) (out.memory level)).2 =
      .noError) :
    let next := (reallocate st level (levelRequest size base w h) (out.memory level)).1
    Ready next ∧ next.mMipmaps ≠ none ∧
      ∃ data, next.mip level = ⟨w, h, w, base.format, base.compressedFormat, data⟩ := by
  intro next
  have apart := apart_of_lods ready.lods
  obtain ⟨tabled, surface⟩ := kept_of_reallocate ready.tabled hlevel
    (levelRequest size base w h) (out.memory level) apart
  have table := apart_of_reallocate hlevel _ _ apart allocated
  obtain ⟨data, mip⟩ := mip_of_reallocate ready.tabled hlevel _ _ apart allocated
  have lods : 0 < numLods next.surface := surface.symm ▸ ready.lods
  refine ⟨⟨tabled, lods⟩, table, data, mip.trans ?_⟩
  simp only [Request.surface, levelRequest, uint32_eq wide, uint32_eq high]

theorem chain_cons (hw : 0 < w) (hh : 0 < h) (further : depth w h ≠ 0) {m : Made}
    (first : extents m = (level, w, h)) (p : Pyramid) :
    Chain level w h { p with made := m :: p.made } ↔ Chain (level + 1) (halve w) (halve h) p := by
  constructor
  · rintro ⟨status, levels⟩
    rw [levels_succ hw hh further, List.map_cons, first] at levels
    exact ⟨status, (List.cons.inj levels).2⟩
  · rintro ⟨status, levels⟩
    refine ⟨status, ?_⟩
    rw [levels_succ hw hh further, List.map_cons, first, levels]

theorem chain_single (hw : 0 < w) (hh : 0 < h) {m : Made} (first : extents m = (level, w, h))
    (image : Image) : Chain level w h ⟨image, .noError, [m]⟩ ↔ depth w h = 0 := by
  constructor
  · intro chain
    have lengths := congrArg List.length chain.levels
    simp only [List.length_map, List.length_singleton, List.length_range] at lengths
    omega
  · intro bottom
    refine ⟨rfl, ?_⟩
    rw [bottom, List.map_singleton, first]
    simp [shrink_zero hw, shrink_zero hh]

theorem unbroken_bottom (bottom : depth w h = 0) :
    Unbroken out level w h ↔ out.data level = true := by
  rw [Unbroken, bottom]
  simp

/-- Which loops make the whole chain. The induction is on the rounds: each level below the base is
allocated, and there are as many left as halvings of its extents. -/
theorem chain_iff {size : Nat} {out : Outcome} {rounds : Nat} {image : Image} {base : GGLSurface}
    {level w h : Nat} (ready : Ready image.storage) (supported : filter base.format ≠ none)
    (hlevel : 0 < level) (hw : 0 < w) (hh : 0 < h) (wide : w < 2 ^ 31) (high : h < 2 ^ 31)
    (enough : depth w h < rounds) :
    (∃ p, buildLevels size out rounds image base level w h = some p ∧ Chain level w h p) ↔
      TableReady image.storage out.table ∧ Unbroken out level w h := by
  induction rounds generalizing image base level w h with
  | zero => exact absurd enough (Nat.not_lt_zero _)
  | succ rounds ih =>
    have success := reallocate_status_iff hlevel (levelRequest size base w h) (out.memory level)
      ready.lods
    by_cases allocated : (reallocate image.storage level (levelRequest size base w h)
        (out.memory level)).2 = .noError
    · obtain ⟨table, block⟩ := success.mp allocated
      obtain ⟨f, found⟩ := Option.ne_none_iff_exists'.mp supported
      obtain ⟨next, storage, round⟩ := buildLevels_allocated rounds found allocated
      obtain ⟨nextReady, nextTable, data, mip⟩ := allocated_level ready hlevel wide high allocated
      rw [← storage] at nextReady nextTable mip
      have first : extents (madeLevel f base (next.storage.mip level) level w h) = (level, w, h) := by
        rw [extents, madeLevel, mip]
      rw [round]
      by_cases last : w &&& h = 1
      · rw [if_pos last]
        by_cases bottom : depth w h = 0
        · exact iff_of_true ⟨_, rfl, (chain_single hw hh first next).mpr bottom⟩
            ⟨table, (unbroken_bottom bottom).mpr block⟩
        · refine iff_of_false ?_ fun unbroken =>
            ((unbroken_succ hw hh bottom).mp unbroken.2).2.1 last
          rintro ⟨p, made, chain⟩
          obtain rfl := Option.some_inj.mp made
          exact bottom ((chain_single hw hh first next).mp chain)
      · have further : depth w h ≠ 0 := fun bottom => last (and_eq_one_of_depth hw hh bottom)
        have less : depth (halve w) (halve h) < rounds := by
          rw [depth_halve hw]
          omega
        have rest := ih nextReady
          (show filter (next.storage.mip level).format ≠ none by rwa [mip])
          (Nat.succ_pos level) (halve_pos w) (halve_pos h)
          ((Coverage.halve_le hw).trans_lt wide) ((Coverage.halve_le hh).trans_lt high) less
        rw [if_neg last, unbroken_succ hw hh further]
        constructor
        · rintro ⟨p, made, chain⟩
          obtain ⟨q, later, rfl⟩ := Option.map_eq_some_iff.mp made
          have unbroken := rest.mp ⟨q, later, (chain_cons hw hh further first q).mp chain⟩
          exact ⟨table, block, last, unbroken.2⟩
        · rintro ⟨-, -, -, unbroken⟩
          obtain ⟨q, later, chain⟩ := rest.mpr ⟨.inl nextTable, unbroken⟩
          exact ⟨_, Option.map_eq_some_iff.mpr ⟨q, later, rfl⟩,
            (chain_cons hw hh further first q).mpr chain⟩
    · obtain ⟨last, round⟩ := buildLevels_failed rounds allocated
      rw [round]
      constructor
      · rintro ⟨p, made, chain⟩
        obtain rfl := Option.some_inj.mp made
        cases chain.status
      · rintro ⟨table, blocks, -⟩
        exact absurd (success.mpr ⟨table, blocks 0 (Nat.succ_pos _)⟩) allocated

/-- The call makes the levels down to one texel: as many as halvings take the larger extent to one,
each of half the extents of the one before it. -/
structure FullChain (w h : Nat) (p : Pyramid) : Prop where
  status : p.status = .noError
  levels : p.made.map extents =
    (List.range (Nat.log2 (max w h))).map fun l =>
      (l + 1, max 1 (w / 2 ^ (l + 1)), max 1 (h / 2 ^ (l + 1)))
  last : ∀ m ∈ p.made.getLast?, m.cur.width = 1 ∧ m.cur.height = 1

theorem FullChain.of_levels (hw : 0 < w) (hh : 0 < h) (status : p.status = .noError)
    (levels : p.made.map extents =
      (List.range (depth w h)).map fun l => (l + 1, shrink w (l + 1), shrink h (l + 1))) :
    FullChain w h p := by
  refine ⟨status, levels, fun m hm => ?_⟩
  have lasts := congrArg List.getLast? levels
  rw [List.getLast?_map, hm, List.getLast?_map] at lasts
  cases count : depth w h with
  | zero =>
    simp [count] at lasts
  | succ n =>
    rw [count, List.range_succ, List.getLast?_append] at lasts
    have same : extents m = (n + 1, shrink w (n + 1), shrink h (n + 1)) := by simpa using lasts
    have one := shrink_depth hw hh
    rw [count] at one
    rw [one.1, one.2] at same
    simp only [extents, Prod.mk.injEq] at same
    exact same.2

theorem fullChain_iff_chain (hw : 0 < w) (hh : 0 < h) (further : depth w h ≠ 0) (p : Pyramid) :
    FullChain w h p ↔ Chain 1 (halve w) (halve h) p := by
  have levels : ((List.range (depth (halve w) (halve h) + 1)).map fun k =>
      (1 + k, shrink (halve w) k, shrink (halve h) k)) =
        (List.range (depth w h)).map fun l => (l + 1, shrink w (l + 1), shrink h (l + 1)) := by
    rw [← depth_succ hw further]
    apply List.map_congr_left
    intro l _
    rw [shrink_halve, shrink_halve, Nat.add_comm 1 l]
  constructor
  · intro full
    exact ⟨full.status, full.levels.trans levels.symm⟩
  · intro chain
    exact FullChain.of_levels hw hh chain.status (chain.levels.trans levels)

/-- The condition on a call: no allocation fails, and no level above the last has extents whose
bitwise conjunction is one. -/
def Reaches (image : Image) (out : Outcome) (w h : Nat) : Prop :=
  (Nat.log2 (max w h) = 0 ∨ TableReady image.storage out.table) ∧
    (∀ l < Nat.log2 (max w h), out.data (l + 1) = true) ∧
    ∀ l < Nat.log2 (max w h), max 1 (w / 2 ^ l) &&& max 1 (h / 2 ^ l) ≠ 1

instance (image : Image) (out : Outcome) (w h : Nat) : Decidable (Reaches image out w h) :=
  inferInstanceAs (Decidable (_ ∧ _ ∧ _))

theorem reaches_iff (hw : 0 < w) (hh : 0 < h) (further : depth w h ≠ 0) : Reaches image out w h ↔
      TableReady image.storage out.table ∧ w &&& h ≠ 1 ∧ Unbroken out 1 (halve w) (halve h) := by
  have fewer := depth_succ hw further
  have blocks : (∀ l < depth w h, out.data (l + 1) = true) ↔
      ∀ k < depth (halve w) (halve h) + 1, out.data (1 + k) = true := by
    simp only [fewer, Nat.add_comm 1]
  constructor
  · rintro ⟨table, data, sizes⟩
    obtain ⟨first, later⟩ := (inner_succ hw hh further).mp sizes
    exact ⟨table.resolve_left further, first, blocks.mp data, later⟩
  · rintro ⟨table, first, data, later⟩
    exact ⟨.inr table, blocks.mpr data, (inner_succ hw hh further).mpr ⟨first, later⟩⟩

/-- Mipmap generation ends with the whole chain of levels exactly if no allocation fails and the
exit condition, which should say that both extents are one, does not hold earlier. -/
theorem fullChain_iff {image : Image} {out : Outcome} {rounds : Nat} (tabled : Tabled image.storage)
    (supported : filter image.storage.surface.format ≠ none)
    (hw : 0 < image.storage.surface.width) (hh : 0 < image.storage.surface.height)
    (wide : image.storage.surface.width < 2 ^ 31) (high : image.storage.surface.height < 2 ^ 31)
    (enough : Nat.log2 (max image.storage.surface.width image.storage.surface.height) ≤ rounds) :
    (∃ p, buildAPyramid rounds image out = some p ∧
      FullChain image.storage.surface.width image.storage.surface.height p) ↔
        Reaches image out image.storage.surface.width image.storage.surface.height := by
  have lods := numLods_eq (lt_max_of_lt_left hw) wide high
  rw [buildAPyramid]
  generalize hs : image.storage.surface = s at *
  by_cases bottom : depth s.width s.height = 0
  · rw [if_pos (and_eq_one_of_depth hw hh bottom)]
    have none : (List.range (depth s.width s.height)).map (fun l =>
        (l + 1, shrink s.width (l + 1), shrink s.height (l + 1))) = [] := by rw [bottom]; rfl
    have reaches : Reaches image out s.width s.height := by
      unfold depth at bottom
      rw [Reaches, bottom]
      simp
    exact iff_of_true ⟨_, rfl, FullChain.of_levels hw hh rfl none.symm⟩ reaches
  · rw [reaches_iff hw hh bottom]
    by_cases one : s.width &&& s.height = 1
    · rw [if_pos one]
      refine iff_of_false ?_ fun reaches => reaches.2.1 one
      rintro ⟨p, made, full⟩
      obtain rfl := Option.some_inj.mp made
      have lengths := congrArg List.length full.levels
      simp only [List.length_map, List.length_range, List.length_nil] at lengths
      exact bottom lengths.symm
    · have ready : Ready image.storage := by
        refine ⟨tabled, ?_⟩
        rw [hs, lods]
        exact_mod_cast Nat.pos_of_ne_zero bottom
      have less : depth (halve s.width) (halve s.height) < rounds := by
        rw [depth_halve hw]
        unfold depth at bottom ⊢
        omega
      have chain := @chain_iff (pixelSize s.format) out rounds image s 1 _ _ ready supported
        Nat.one_pos (halve_pos s.width) (halve_pos s.height)
        ((Coverage.halve_le hw).trans_lt wide) ((Coverage.halve_le hh).trans_lt high) less
      simp only [fullChain_iff_chain hw hh bottom, one, ne_eq, not_false_eq_true,
        true_and]
      exact chain

/-- An image with a base in `L_8`. -/
def luminance (width height : Nat) : Image where
  storage :=
    { mSize := width * height
      surface :=
        { width := width, height := height, stride := width, format := 9,
          data := some (.block 0 (width * height)) }
      mIsComplete := true }

def granted : Outcome := ⟨true, fun _ => true, true, fun _ bytes => bytes⟩

/-- A base of four by two texels. -/
theorem fullChain_iff_luminance :
    (∃ p, buildAPyramid 2 (luminance 4 2) granted = some p ∧ FullChain 4 2 p) ↔
      Reaches (luminance 4 2) granted 4 2 :=
  have tabled : Tabled (luminance 4 2).storage := by simp [Tabled, luminance]
  fullChain_iff tabled (by decide) (by decide) (by decide) (by decide) (by decide) (by decide)

/-- Three texels in a row get no level below them: the exit condition holds for the base. -/
theorem row_of_three_no_levels :
    ¬∃ p, buildAPyramid 32 (luminance 3 1) granted = some p ∧ FullChain 3 1 p := by
  rintro ⟨p, made, full⟩
  obtain rfl := Option.some_inj.mp made
  exact absurd full.levels (by decide)

end RabbitRender.Textures.PyramidLevels
