/- RabbitRender/Textures/LevelChains
   layer: proof
   source: swrender/TextureObjectManager.cpp
   digest: What every sequence of uploads keeps of the surfaces of an object and its completeness. -/

import RabbitRender.Textures.LevelBlocks

set_option autoImplicit false

namespace RabbitRender.Textures.LevelChains

open Lib.Halving Textures.Levels Textures.LevelSteps Textures.Reallocations

theorem completeAfter_iff (format : Nat) (levels : List GGLSurface) (prev : GGLSurface) :
    completeAfter format prev levels = true ↔
      ∀ i, i < levels.length → (levels.getD i {}).format = format ∧
        (levels.getD i {}).width = shrink prev.width (i + 1) ∧
        (levels.getD i {}).height = shrink prev.height (i + 1) := by
  induction levels generalizing prev with
  | nil => simp [completeAfter]
  | cons curr levels ih =>
    have first : completeAfter format prev (curr :: levels) = true ↔
        (curr.format = format ∧ curr.width = shrink prev.width 1 ∧
          curr.height = shrink prev.height 1) ∧ completeAfter format curr levels = true := by
      rw [completeAfter, halve_eq_shrink, halve_eq_shrink]
      split_ifs with other extents
      · simp [other]
      · refine iff_of_false id ?_
        rintro ⟨⟨-, width, height⟩, -⟩
        rcases extents with differ | differ
        · exact differ width.symm
        · exact differ height.symm
      · obtain ⟨width, height⟩ := not_or.mp extents
        simp [not_not.mp other, (not_not.mp width).symm, (not_not.mp height).symm]
    have next (extent i : Nat) : shrink (shrink extent 1) (i + 1) = shrink extent (i + 1 + 1) := by
      rw [shrink_shrink, Nat.add_comm 1]
    rw [first, ih]
    constructor
    · rintro ⟨⟨same, width, height⟩, rest⟩ i hi
      cases i with
      | zero => exact ⟨same, width, height⟩
      | succ i =>
        have below := rest i (Nat.lt_of_succ_lt_succ hi)
        rw [width, height, next, next] at below
        exact below
    · intro all
      have top : curr.format = format ∧ curr.width = shrink prev.width 1 ∧
          curr.height = shrink prev.height 1 := all 0 (Nat.succ_pos _)
      refine ⟨top, fun i hi => ?_⟩
      rw [top.2.1, top.2.2, next, next]
      exact all (i + 1) (Nat.succ_lt_succ hi)

theorem completeAfter_of_empty {format : Nat} (some : format ≠ 0) {levels : List GGLSurface}
    {i : Nat} (hi : i < levels.length) (empty : levels.getD i {} = {}) (prev : GGLSurface) :
    completeAfter format prev levels = false := by
  rw [Bool.eq_false_iff]
  intro complete
  have same := ((completeAfter_iff format levels prev).mp complete i hi).1
  rw [empty] at same
  exact some same.symm

theorem completeAfter_data (format : Nat) (r : Request) (d d' : Option Pointer)
    (levels : List GGLSurface) (i : Nat) (prev : GGLSurface) :
    completeAfter format prev (levels.set i (r.surface d)) =
      completeAfter format prev (levels.set i (r.surface d')) := by
  induction levels generalizing i prev with
  | nil => rfl
  | cons curr levels ih =>
    cases i with
    | zero =>
      cases levels with
      | nil => rfl
      | cons next levels => rfl
    | succ i => simp only [List.set_cons_succ, completeAfter, ih]

/-- The table is as long as the chain, its surfaces are empty or those of uploads, and so is the
base. -/
structure Shaped (st : Storage) : Prop where
  long : ∀ table, st.mMipmaps = some table → (table.2.length : Int) = numLods st.surface
  filled : ∀ s ∈ st.levels, s = {} ∨ s.data ≠ none ∧ s.format ≠ 0
  base : st.surface.data ≠ none ∨ st.mMipmaps ≠ none → st.surface.format ≠ 0
  extents : st.surface.width < 2 ^ 31 ∧ st.surface.height < 2 ^ 31

def Flagged (st : Storage) : Prop :=
  st.mMipmaps ≠ none → st.surface.data ≠ none →
    st.mIsComplete = completeAfter st.surface.format st.surface st.levels

theorem shaped_empty : Shaped {} :=
  ⟨fun _ h => absurd h.symm (Option.some_ne_none _), fun _ h => absurd h List.not_mem_nil,
    fun h => h.elim (absurd rfl) (absurd rfl), by decide⟩

theorem flagged_empty : Flagged {} := fun h => absurd rfl h

variable {st : Storage}

theorem shaped_untabled (none : st.mMipmaps = none)
    (base : st.surface.data ≠ Option.none → st.surface.format ≠ 0)
    (extents : st.surface.width < 2 ^ 31 ∧ st.surface.height < 2 ^ 31) : Shaped st := by
  refine ⟨fun table h => ?_, fun s h => ?_, ?_, extents⟩
  · rw [none] at h
    exact absurd h.symm (Option.some_ne_none _)
  · rw [Storage.levels, none] at h
    exact absurd h List.not_mem_nil
  · rintro (data | table)
    · exact base data
    · exact absurd none table

theorem fullChain_iff_checked (h : Shaped st) (tabled : Tabled st) (table : st.mMipmaps ≠ none) :
    FullChain st ↔ st.surface.data ≠ none ∧
      completeAfter st.surface.format st.surface st.levels = true := by
  obtain ⟨entry, hentry⟩ := Option.ne_none_iff_exists'.mp table
  have levels : st.levels = entry.2 := by rw [Storage.levels, hentry]; rfl
  have length : (st.levels.length : Int) = numLods st.surface := by rw [levels, h.long entry hentry]
  have some : 0 < st.levels.length := by
    rw [levels]
    exact List.length_pos_iff.mpr (tabled entry hentry)
  have extent : 0 < max st.surface.width st.surface.height := by
    by_contra none
    have lods : numLods st.surface = -1 := by
      rw [numLods, show st.surface.width = 0 by omega, show st.surface.height = 0 by omega]
      decide
    omega
  have chain := numLods_eq extent h.extents.1 h.extents.2
  rw [completeAfter_iff]
  constructor
  · rintro ⟨base, all⟩
    refine ⟨base, fun i hi => ?_⟩
    exact (all (i + 1) (Nat.succ_pos i) (by omega)).2
  · rintro ⟨base, all⟩
    refine ⟨base, fun level positive below => ?_⟩
    obtain ⟨i, rfl⟩ := Nat.exists_eq_add_one.mpr positive
    have inside : i < st.levels.length := by omega
    have agrees := all i inside
    rw [surfaceOf_succ]
    refine ⟨?_, agrees⟩
    have member : st.levels.getD i {} ∈ st.levels := by
      rw [List.getD, List.getElem?_eq_getElem inside]
      exact List.getElem_mem inside
    rcases h.filled _ member with empty | ⟨data, -⟩
    · rw [empty] at agrees
      exact absurd agrees.1.symm (h.base (.inr table))
    · exact data

theorem upload_extents (u : Upload) (data : Option Pointer) :
    (u.request.surface data).width < 2 ^ 31 ∧ (u.request.surface data).height < 2 ^ 31 := by
  have width := u.width
  have height := u.height
  simp only [Request.surface, uint32]
  omega

theorem shaped_reallocateBase (h : Shaped st) (u : Upload) (succeeds : Bool) :
    Shaped (reallocateBase st u.request succeeds).1 ∧
      Flagged (reallocateBase st u.request succeeds).1 := by
  unfold reallocateBase
  split_ifs with keeps
  · rw [freeMipmaps_eq]
    exact ⟨shaped_untabled rfl (fun _ => u.format) (upload_extents u _), fun table => absurd rfl table⟩
  · rcases malloc_cases (freeBase st) u.request.size succeeds with failed | got
    · rw [failed]
      refine ⟨⟨h.long, h.filled, ?_, h.extents⟩, fun _ data => absurd rfl data⟩
      exact fun some => some.elim (absurd rfl) fun table => h.base (.inr table)
    · rw [got]
      dsimp only
      rw [freeMipmaps_eq]
      exact ⟨shaped_untabled rfl (fun _ => u.format) (upload_extents u _),
        fun table => absurd rfl table⟩

theorem Shaped.heap (h : Shaped st) (heap : Heap) (complete : Bool) :
    Shaped { st with mIsComplete := complete, heap := heap } :=
  ⟨h.long, h.filled, h.base, h.extents⟩

theorem untabled_of_slot {level : Nat} (hlevel : 0 < level) (slot : st.slot level = none) :
    st.mMipmaps = none := by
  rw [Storage.slot, if_neg (by omega), Option.map_eq_none_iff] at slot
  exact slot

theorem shaped_setMip (h : Shaped st) (tabled : Tabled st) {level : Nat} (hlevel : 0 < level)
    {s : GGLSurface} (filled : s = {} ∨ s.data ≠ none ∧ s.format ≠ 0)
    (extents : s.width < 2 ^ 31 ∧ s.height < 2 ^ 31) : Shaped (st.setMip level s) := by
  cases slot : st.slot level with
  | none =>
    simp only [Storage.setMip, slot]
    refine shaped_untabled (untabled_of_slot hlevel slot) (fun data => ?_) extents
    rcases filled with rfl | ⟨-, format⟩
    · exact absurd rfl data
    · exact format
  | some i =>
    obtain ⟨address, levels, table, -⟩ := slot_some tabled slot
    have old := h.filled
    simp only [Storage.levels, table, Option.map_some, Option.getD_some] at old
    simp only [Storage.setMip, slot, table, Option.map_some]
    refine ⟨fun entry hentry => ?_, fun t member => ?_, fun _ => ?_, h.extents⟩
    · obtain rfl := Option.some_inj.mp hentry
      rw [List.length_set]
      exact h.long _ table
    · rcases List.mem_or_eq_of_mem_set member with before | rfl
      · exact old t before
      · exact filled
    · exact h.base (.inr (by rw [table]; exact Option.some_ne_none _))

theorem shaped_reallocateMip (h : Shaped st) (tabled : Tabled st) (u : Upload)
    (hlevel : 0 < u.level) (succeeds : Bool) :
    Shaped (reallocateMip st u.level u.request succeeds).1 ∧
      Flagged (reallocateMip st u.level u.request succeeds).1 := by
  rcases malloc_cases (free st.heap (st.mip u.level).data) u.request.size succeeds with failed | got
  · simp only [reallocateMip, failed]
    refine ⟨(shaped_setMip h tabled hlevel (.inl rfl) (by decide)).heap _ _, fun table data => ?_⟩
    cases slot : st.slot u.level with
    | none =>
      simp only [Storage.setMip, slot] at table
      exact absurd (untabled_of_slot hlevel slot) table
    | some i =>
      obtain ⟨address, levels, entry, inside⟩ := slot_some tabled slot
      have format : st.surface.format ≠ 0 :=
        h.base (.inr (by rw [entry]; exact Option.some_ne_none _))
      simp only [Storage.setMip, slot, Storage.levels, entry, Option.map_some, Option.getD_some]
      symm
      apply completeAfter_of_empty format
      · rw [List.length_set]
        exact inside
      · rw [List.getD, List.getElem?_set_self inside]
        rfl
  · simp only [reallocateMip, got]
    refine ⟨(shaped_setMip h tabled hlevel (.inr ⟨?_, u.format⟩) (upload_extents u _)).heap _ _, ?_⟩
    · exact Option.some_ne_none _
    · exact fun _ _ => rfl

theorem shaped_withTable (h : Shaped st) (data : st.surface.data ≠ none) {lods : Nat}
    (chain : (lods : Int) = numLods st.surface) : Shaped (withTable st lods) := by
  refine ⟨fun entry hentry => ?_, fun s member => ?_, fun _ => h.base (.inl data), h.extents⟩
  · obtain rfl := Option.some_inj.mp hentry
    rw [List.length_replicate]
    exact chain
  · exact .inl (List.mem_replicate.mp member).2

end RabbitRender.Textures.LevelChains
