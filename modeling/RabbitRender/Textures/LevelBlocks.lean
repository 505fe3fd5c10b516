/- RabbitRender/Textures/LevelBlocks
   layer: proof
   source: swrender/TextureObjectManager.cpp
   digest: What every sequence of uploads keeps of the levels of an object and their blocks. -/

import RabbitRender.Textures.LevelSteps

set_option autoImplicit false

namespace RabbitRender.Textures.LevelBlocks

open Textures.Levels Textures.LevelSteps Textures.Ownership

/-- Blocks that are all different, and different from those that are allocated later. -/
structure Apart (heap : Heap) (blocks : List Pointer) : Prop where
  once : blocks.Nodup
  numbered : ∀ p ∈ blocks, ∃ id size, p = .block id size ∧ id < heap.taken.length

structure Placed (st : Storage) : Prop where
  own : BaseOwn st
  apart : Apart st.heap (held st)
  tabled : Tabled st

theorem free_taken (heap : Heap) (data : Option Pointer) :
    (free heap data).taken = heap.taken := by
  rw [free, Lib.Handles.Ledger.giveBackAll_taken]

theorem freeBase_taken (st : Storage) : (freeBase st).taken = st.heap.taken := by
  unfold freeBase
  split_ifs
  · exact free_taken _ _
  · rfl

theorem Placed.held_base {st : Storage} (h : Placed st) : ownBase st = st.surface.data.toList := by
  cases data : st.surface.data with
  | none => simp [ownBase, data]
  | some p => simp [ownBase, data, h.own p data]

namespace Apart

variable {heap heap' : Heap} {blocks fewer : List Pointer}

theorem of_subperm (h : Apart heap blocks) (hf : fewer.Subperm blocks)
    (taken : heap'.taken = heap.taken) : Apart heap' fewer := by
  obtain ⟨kept, perm, sub⟩ := hf
  refine ⟨perm.nodup_iff.mp (sub.nodup h.once), fun p member => ?_⟩
  rw [taken]
  exact h.numbered p (sub.subset (perm.mem_iff.mpr member))

theorem fresh (h : Apart heap blocks) (size : Nat) :
    .block heap.taken.length size ∉ blocks := by
  intro member
  obtain ⟨id, n, same, below⟩ := h.numbered _ member
  injection same with same
  omega

theorem take (h : Apart heap blocks) (size : Nat) :
    Apart (heap.take (.block heap.taken.length size))
      (.block heap.taken.length size :: blocks) := by
  refine ⟨List.nodup_cons.mpr ⟨h.fresh size, h.once⟩, fun p member => ?_⟩
  rw [Lib.Handles.Ledger.take_taken, List.length_cons]
  rcases List.mem_cons.mp member with rfl | member
  · exact ⟨_, _, rfl, Nat.lt_succ_self _⟩
  · obtain ⟨id, n, rfl, below⟩ := h.numbered p member
    exact ⟨id, n, rfl, by omega⟩

end Apart

variable {i j : Nat} {p : Pointer} {st : Storage}

private theorem getD_data {levels : List GGLSurface} (data : (levels.getD i {}).data = some p) :
    ∃ h : i < levels.length, levels[i].data = some p := by
  by_cases inside : i < levels.length
  · rw [List.getD, List.getElem?_eq_getElem inside] at data
    exact ⟨inside, data⟩
  · rw [List.getD, List.getElem?_eq_none (by omega)] at data
    exact absurd data.symm (Option.some_ne_none p)

theorem mem_tableBlocks (data : (surfaceOf st (i + 1)).data = some p) : p ∈ tableBlocks st := by
  rw [surfaceOf_succ, Storage.levels] at data
  cases table : st.mMipmaps with
  | none => simp [table] at data
  | some entry =>
    obtain ⟨address, levels⟩ := entry
    simp only [table, Option.map_some, Option.getD_some] at data
    obtain ⟨inside, data⟩ := getD_data data
    rw [tableBlocks, table]
    exact List.mem_append_left _ (List.mem_filterMap.mpr ⟨_, List.getElem_mem inside, data⟩)

theorem Placed.mem (h : Placed st) (data : (surfaceOf st j).data = some p) : p ∈ held st := by
  cases j with
  | zero =>
    rw [surfaceOf_zero] at data
    rw [held, h.held_base, data]
    exact List.mem_append_left _ List.mem_cons_self
  | succ i => exact List.mem_append_right _ (mem_tableBlocks data)

private theorem filterMap_index {levels : List GGLSurface}
    (once : (levels.filterMap fun s => s.data).Nodup) (hi : (levels.getD i {}).data = some p)
    (hj : (levels.getD j {}).data = some p) : i = j := by
  have apart := List.pairwise_iff_getElem.mp (List.pairwise_filterMap.mp once)
  obtain ⟨hi', hi⟩ := getD_data hi
  obtain ⟨hj', hj⟩ := getD_data hj
  by_contra different
  rcases Nat.lt_or_gt_of_ne different with less | more
  · exact apart i j hi' hj' less p hi p hj rfl
  · exact apart j i hj' hi' more p hj p hi rfl

theorem Placed.distinct (h : Placed st) (hi : (surfaceOf st i).data = some p)
    (hj : (surfaceOf st j).data = some p) : i = j := by
  have once := h.apart.once
  rw [held, h.held_base] at once
  obtain ⟨-, below, apart⟩ := List.nodup_append.mp once
  have base {k : Nat} (h0 : st.surface.data = some p) (hk : (surfaceOf st (k + 1)).data = some p) :
      False := by
    refine apart p ?_ p (mem_tableBlocks hk) rfl
    rw [h0]
    exact List.mem_cons_self
  cases i with
  | zero =>
    cases j with
    | zero => rfl
    | succ j => exact (base hi hj).elim
  | succ i =>
    cases j with
    | zero => exact (base hj hi).elim
    | succ j =>
      cases table : st.mMipmaps with
      | none => simp [Storage.levels, table] at hi
      | some entry =>
        obtain ⟨address, levels⟩ := entry
        rw [tableBlocks, table] at below
        simp only [surfaceOf_succ, Storage.levels, table, Option.map_some, Option.getD_some] at hi hj
        rw [filterMap_index (List.nodup_append.mp below).1 hi hj]

theorem placed_empty : Placed {} :=
  ⟨fun _ h => absurd h.symm (Option.some_ne_none _),
    ⟨List.nodup_nil, fun _ h => absurd h List.not_mem_nil⟩,
    fun _ h => absurd h.symm (Option.some_ne_none _)⟩

private theorem placed_freeMipmaps (own : BaseOwn st) (apart : Apart st.heap (ownBase st)) :
    Placed (freeMipmaps st) := by
  rw [freeMipmaps_eq]
  refine ⟨own, ?_, fun _ h => absurd h.symm (Option.some_ne_none _)⟩
  have base : held { st with mMipmaps := none, heap := st.heap.giveBackAll (tableBlocks st) } =
      ownBase st := List.append_nil _
  rw [base]
  exact apart.of_subperm (List.Subperm.refl _) (Lib.Handles.Ledger.giveBackAll_taken _ _)

theorem placed_reallocateBase (h : Placed st) (r : Request) (succeeds : Bool) :
    Placed (reallocateBase st r succeeds).1 := by
  have base : Apart (freeBase st) (ownBase st) :=
    h.apart.of_subperm (List.sublist_append_left _ _).subperm (freeBase_taken st)
  unfold reallocateBase
  split_ifs with keeps
  · apply placed_freeMipmaps
    · exact h.own
    · exact h.apart.of_subperm (List.sublist_append_left _ _).subperm rfl
  · rcases malloc_cases (freeBase st) r.size succeeds with failed | got
    · rw [failed]
      refine ⟨fun p hp => absurd hp.symm (Option.some_ne_none p), ?_, h.tabled⟩
      exact h.apart.of_subperm (List.sublist_append_right _ _).subperm (freeBase_taken st)
    · rw [got]
      apply placed_freeMipmaps
      · intro p hp
        obtain rfl := Option.some_inj.mp hp
        rfl
      · exact (base.of_subperm List.nil_subperm rfl).take r.size

theorem placed_reallocateMip (h : Placed st) (level : Int) (r : Request) (succeeds : Bool) :
    Placed (reallocateMip st level r succeeds).1 := by
  have emptied : Apart (free st.heap (st.mip level).data) (held (st.setMip level {})) := by
    apply h.apart.of_subperm _ (free_taken _ _)
    exact (List.sublist_append_right _ _).subperm.trans
      (held_perm h.tabled fun _ => h.own).symm.subperm
  rcases malloc_cases (free st.heap (st.mip level).data) r.size succeeds with failed | got
  · simp only [reallocateMip, failed]
    refine ⟨fun p hp => ?_, emptied, tabled_setMip h.tabled level {}⟩
    exact (setMip_data hp).elim (fun new => absurd new.symm (Option.some_ne_none p)) (h.own p)
  · simp only [reallocateMip, got]
    refine ⟨fun p hp => ?_, ?_, tabled_setMip h.tabled level _⟩
    · rcases setMip_data hp with new | old
      · obtain rfl := Option.some_inj.mp new
        rfl
      · exact h.own p old
    · exact (emptied.take r.size).of_subperm (held_filled h.tabled level rfl rfl).subperm rfl

theorem placed_withTable (h : Placed st) (none : st.mMipmaps = none) {lods : Nat} (hlods : 0 < lods) :
    Placed (withTable st lods) :=
  ⟨h.own, (h.apart.take _).of_subperm (held_withTable none lods).subperm rfl,
    tabled_withTable st hlods⟩

end RabbitRender.Textures.LevelBlocks
