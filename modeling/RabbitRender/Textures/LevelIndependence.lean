/- RabbitRender/Textures/LevelIndependence
   layer: result
   source: swrender/TextureObjectManager.cpp
   digest: When a step that is addressed to a level below the base leaves the other levels alone. -/

import RabbitRender.Lib.GuardedRun
import RabbitRender.Textures.LevelChains

set_option autoImplicit false

namespace RabbitRender.Textures.LevelIndependence

open Lib.GuardedRun
open Textures.Coverage (paint_storage)
open Textures.LevelBlocks Textures.LevelChains Textures.Levels Textures.LevelSteps
open Textures.Reallocations Textures.Uploads

variable {st after ready : Storage} {level i : Nat} {s : GGLSurface} {image : Image} {u : Upload}

theorem slot_eq (some : 0 < st.levels.length) (hlevel : 0 < level) :
    st.slot level = .some (min (level - 1) (st.levels.length - 1)) := by
  have clamp : (level : Int).toNat - 1 = level - 1 := by omega
  rw [Storage.levels] at some ⊢
  rw [Storage.slot, if_neg (by omega), clamp]
  cases table : st.mMipmaps with
  | none => simp [table] at some
  | some entry => rfl

theorem mip_slot {level : Int} (slot : st.slot level = some i) :
    st.mip level = surfaceOf st (i + 1) := by
  rw [Storage.mip, slot, surfaceOf_succ]

theorem slot_level (inside : i + 1 ≤ st.levels.length) :
    st.slot ((i + 1 : Nat) : Int) = some i := by
  rw [slot_eq (by omega) (Nat.succ_pos i)]
  congr 1
  omega

theorem slot_beyond (last : st.levels.length = i + 1) (beyond : i + 1 < level) :
    st.slot level = some i := by
  rw [slot_eq (by omega) (by omega)]
  congr 1
  omega

theorem levels_setMip (tabled : Tabled st) {level : Int} (slot : st.slot level = some i)
    (s : GGLSurface) :
    (st.setMip level s).surface = st.surface ∧ (st.setMip level s).levels = st.levels.set i s ∧
      i < st.levels.length := by
  obtain ⟨address, levels, table, inside⟩ := slot_some tabled slot
  have own : st.levels = levels := by rw [Storage.levels, table]; rfl
  rw [own]
  refine ⟨?_, ?_, inside⟩
  · simp [Storage.setMip, slot]
  · simp [Storage.setMip, slot, Storage.levels, table]

/-- Entry `i` of the table was replaced, and what its data were is freed. -/
structure Edited (st : Storage) (i : Nat) (s : GGLSurface) (after : Storage) : Prop where
  surface : after.surface = st.surface
  levels : after.levels = st.levels.set i s
  returned : after.heap.returned = (surfaceOf st (i + 1)).data.toList ++ st.heap.returned
  inside : i < st.levels.length

theorem Edited.surfaceOf_same (h : Edited st i s after) : surfaceOf after (i + 1) = s := by
  rw [surfaceOf_succ, h.levels, List.getD, List.getElem?_set_self h.inside]
  rfl

theorem Edited.surfaceOf_other (h : Edited st i s after) {j : Nat} (other : j ≠ i + 1) :
    surfaceOf after j = surfaceOf st j := by
  cases j with
  | zero => exact h.surface
  | succ j =>
    rw [surfaceOf_succ, surfaceOf_succ, h.levels, List.getD, List.getD,
      List.getElem?_set_ne (by omega)]

def replacement (st : Storage) (r : Request) (succeeds : Bool) : GGLSurface :=
  if succeeds then r.surface (some (.block st.heap.taken.length r.size)) else {}

theorem reallocateMip_edited (tabled : Tabled st) {level : Int} (slot : st.slot level = some i)
    (r : Request) (succeeds : Bool) :
    Edited st i (replacement st r succeeds) (reallocateMip st level r succeeds).1 := by
  have freed : (free st.heap (st.mip level).data).returned =
      (surfaceOf st (i + 1)).data.toList ++ st.heap.returned := by
    rw [mip_slot slot, free]
    cases (surfaceOf st (i + 1)).data <;> rfl
  cases succeeds with
  | false =>
    obtain ⟨surface, levels, inside⟩ := levels_setMip tabled slot {}
    exact ⟨surface, levels, freed, inside⟩
  | true =>
    obtain ⟨surface, levels, inside⟩ := levels_setMip tabled slot
      (r.surface (some (.block (free st.heap (st.mip level).data).taken.length r.size)))
    have block : replacement st r true =
        r.surface (some (.block (free st.heap (st.mip level).data).taken.length r.size)) := by
      rw [free_taken]
      rfl
    rw [block]
    exact ⟨surface, levels, freed, inside⟩

theorem reallocateMip_flag (st : Storage) (level : Int) (r : Request) :
    let after := (reallocateMip st level r true).1
    after.mIsComplete = completeAfter after.surface.format after.surface after.levels := rfl

theorem kept_paint (h : Placed image.storage)
    (own : image.storage.mip level = surfaceOf image.storage level) (copy : Bytes → Bytes) :
    Kept level image (image.paint level copy) := by
  refine ⟨fun j _ => ?_, fun j _ p _ => ?_, fun j hj p data => ?_⟩
  · rw [paint_storage]
  · rw [paint_storage]
  · unfold Image.paint
    cases block : (image.storage.mip level).data with
    | none => rfl
    | some q =>
      have other : p ≠ q := by
        rintro rfl
        rw [own] at block
        exact hj (h.distinct data block)
      exact Function.update_of_ne other _ _

theorem kept_edited (h : Placed image.storage) (edited : Edited image.storage i s after) :
    Kept (i + 1) image { image with storage := after } := by
  refine ⟨fun j hj => edited.surfaceOf_other hj, fun j hj p data => ?_, fun _ _ _ _ => rfl⟩
  have other : p ∉ (surfaceOf image.storage (i + 1)).data.toList := by
    intro member
    exact hj (h.distinct data (Option.mem_toList.mp member))
  show after.heap.returned.count p = image.storage.heap.returned.count p
  rw [edited.returned, List.count_append, List.count_eq_zero_of_not_mem other, Nat.zero_add]

structure Arranged (st : Storage) : Prop where
  placed : Placed st
  shaped : Shaped st
  flagged : Flagged st

theorem arranged_empty : Arranged {} := ⟨placed_empty, shaped_empty, flagged_empty⟩

structure Ready (st ready : Storage) : Prop where
  placed : Placed ready
  shaped : Shaped ready
  table : ready.mMipmaps ≠ none
  surfaces : ∀ j, surfaceOf ready j = surfaceOf st j
  length : ready.levels.length = entries st
  returned : ready.heap.returned = st.heap.returned
  same : st.surface.data = none → ready.levels = st.levels

theorem result_cases (h : Arranged st) (hlevel : 0 < u.level) :
    (¬Reaches st u.memory.table ∧ u.result st = (st, .noMemory)) ∨
    (Reaches st u.memory.table ∧ st.mMipmaps = none ∧ st.surface.data ≠ none ∧
      numLods st.surface ≤ 0 ∧ u.result st = reallocateMip st u.level u.request u.memory.data) ∨
    (Reaches st u.memory.table ∧ ∃ ready, Ready st ready ∧
      u.result st = reallocateMip ready u.level u.request u.memory.data) := by
  have nonzero : ¬(u.level : Int) = 0 := by omega
  rw [Upload.result, reallocate, if_neg nonzero]
  by_cases table : st.mMipmaps = none
  · rw [if_neg (by simp [table])]
    by_cases data : st.surface.data = none
    · rw [allocateMipmaps, if_pos data]
      exact .inl ⟨by simp [Reaches, table, data], rfl⟩
    · by_cases lods : numLods st.surface ≤ 0
      · rw [allocateMipmaps, if_neg data, if_pos lods]
        exact .inr (.inl ⟨.inr ⟨data, .inl lods⟩, table, data, lods, rfl⟩)
      · cases allocated : u.memory.table with
        | false =>
          rw [allocateMipmaps, if_neg data, if_neg lods]
          exact .inl ⟨by simp [Reaches, table, lods], rfl⟩
        | true =>
          rw [allocateMipmaps_ready (by omega) data]
          obtain ⟨n, hn⟩ : ∃ n : Nat, n = (numLods st.surface).toNat := ⟨_, rfl⟩
          rw [← hn]
          refine .inr (.inr ⟨.inr ⟨data, .inr rfl⟩, withTable st n, ?_, rfl⟩)
          refine ⟨placed_withTable h.placed table (by omega), shaped_withTable h.shaped data
            (by omega), Option.some_ne_none _, fun j => ?_, ?_, rfl, fun none => absurd none data⟩
          · cases j with
            | zero => rfl
            | succ i =>
              rw [surfaceOf_succ, surfaceOf_succ, Storage.levels, Storage.levels, table]
              show (List.replicate n {}).getD i {} = ([] : List GGLSurface).getD i {}
              rw [List.getD, List.getElem?_replicate]
              split_ifs <;> rfl
          · rw [entries, if_pos table, ← hn]
            exact List.length_replicate
  · rw [if_pos (Option.isSome_iff_ne_none.mpr table)]
    refine .inr (.inr ⟨.inl table, st, ?_, rfl⟩)
    exact ⟨h.placed, h.shaped, table, fun _ => rfl, by rw [entries, if_neg table], rfl,
      fun _ => rfl⟩

theorem arranged_step (h : Arranged image.storage) (op : Op) :
    Arranged (step image op).storage := by
  cases op with
  | update level copy =>
    rw [step_update_storage]
    exact h
  | upload u =>
    show Arranged (u.result image.storage).1
    rcases Nat.eq_zero_or_pos u.level with base | hlevel
    · have result : u.result image.storage =
          reallocateBase image.storage u.request u.memory.data := by
        rw [Upload.result, base]
        rfl
      rw [result]
      obtain ⟨shaped, flagged⟩ := shaped_reallocateBase h.shaped u u.memory.data
      exact ⟨placed_reallocateBase h.placed _ _, shaped, flagged⟩
    · rcases result_cases h hlevel with ⟨-, same⟩ | ⟨-, -, -, -, same⟩ | ⟨-, ready, prepared, same⟩
      · rw [same]
        exact h
      · rw [same]
        obtain ⟨shaped, flagged⟩ :=
          shaped_reallocateMip h.shaped h.placed.tabled u hlevel u.memory.data
        exact ⟨placed_reallocateMip h.placed _ _ _, shaped, flagged⟩
      · rw [same]
        obtain ⟨shaped, flagged⟩ :=
          shaped_reallocateMip prepared.shaped prepared.placed.tabled u hlevel u.memory.data
        exact ⟨placed_reallocateMip prepared.placed _ _ _, shaped, flagged⟩

theorem independent_of_unchanged {op : Op} (same : step image op = image)
    (fails : ¬Succeeds image op) (idle : target image op = none) : Independent image op := by
  refine ⟨?_, fun j _ p _ => ?_, fun _ => fails, fun succeeds => absurd succeeds fails⟩
  · rw [same]
    exact Kept.refl _ _
  · rw [idle]
    exact (Option.some_ne_none p).symm

private theorem fallback_dependent (h : Arranged image.storage) (hlevel : 0 < u.level)
    (table : image.storage.mMipmaps = none) (data : image.storage.surface.data ≠ none)
    (result : u.result image.storage = reallocateMip image.storage u.level u.request u.memory.data) :
    ¬Independent image (.upload u) := by
  intro independent
  have base := independent.kept.surfaces 0 (by show 0 ≠ u.level; omega)
  have slot : image.storage.slot u.level = none := by
    rw [Storage.slot, if_neg (by omega), table]
    rfl
  rw [step_upload_storage, result, surfaceOf_zero, surfaceOf_zero] at base
  cases allocated : u.memory.data with
  | false =>
    rw [allocated] at base
    simp only [reallocateMip, malloc, Storage.setMip, slot] at base
    rw [← base] at data
    exact data rfl
  | true =>
    rw [allocated] at base
    simp only [reallocateMip, malloc, Storage.setMip, slot, free_taken] at base
    have own : (surfaceOf image.storage 0).data =
        some (.block image.storage.heap.taken.length u.request.size) := by
      rw [surfaceOf_zero, ← base]
      rfl
    exact h.placed.apart.fresh u.request.size (h.placed.mem own)

private theorem kept_ready (prepared : Ready image.storage ready) (level : Nat) :
    Kept level image { image with storage := ready } :=
  ⟨fun j _ => prepared.surfaces j, fun _ _ _ _ => by rw [prepared.returned], fun _ _ _ _ => rfl⟩

private theorem kept_upload (prepared : Ready image.storage ready)
    (result : u.result image.storage = reallocateMip ready u.level u.request u.memory.data)
    (level : u.level = i + 1) (inside : i + 1 ≤ ready.levels.length) :
    Kept u.level image (step image (.upload u)) := by
  have edited := reallocateMip_edited prepared.placed.tabled (slot_level inside) u.request
    u.memory.data
  rw [step, result, level]
  exact (kept_ready prepared (i + 1)).trans (kept_edited prepared.placed edited)

private theorem complete_upload_iff (prepared : Ready image.storage ready)
    (result : u.result image.storage = reallocateMip ready u.level u.request u.memory.data)
    (level : u.level = i + 1) (inside : i + 1 ≤ ready.levels.length)
    (allocated : u.memory.data = true) :
    ((step image (.upload u)).storage.mIsComplete = true ↔
        FullChain (step image (.upload u)).storage) ↔
      image.storage.surface.data ≠ none ∨
        completedBy image.storage u.level (u.request.surface none) = false := by
  have hlevel : 0 < u.level := by omega
  have placed := placed_reallocateMip prepared.placed u.level u.request true
  have shaped := (shaped_reallocateMip prepared.shaped prepared.placed.tabled u hlevel true).1
  have slot : ready.slot u.level = some i := by
    rw [level]
    exact slot_level inside
  have edited := reallocateMip_edited prepared.placed.tabled slot u.request true
  have flag := reallocateMip_flag ready u.level u.request
  rw [step_upload_storage, result, allocated]
  obtain ⟨after, hafter⟩ : ∃ after, after = (reallocateMip ready u.level u.request true).1 :=
    ⟨_, rfl⟩
  rw [← hafter] at placed shaped edited flag ⊢
  have table : after.mMipmaps ≠ none := by
    intro none
    have empty := congrArg List.length edited.levels
    rw [Storage.levels, none, List.length_set] at empty
    exact absurd empty (by simp; omega)
  have base : after.surface = image.storage.surface := edited.surface.trans (prepared.surfaces 0)
  rw [fullChain_iff_checked shaped placed.tabled table, flag, base]
  by_cases data : image.storage.surface.data = none
  · have check : completeAfter image.storage.surface.format image.storage.surface after.levels =
        completedBy image.storage u.level (u.request.surface none) := by
      rw [edited.levels, prepared.same data, completedBy, level, Nat.add_sub_cancel]
      exact completeAfter_data _ _ _ _ _ _ _
    rw [check]
    simp [data]
  · simp [data]

private theorem independent_upload_iff (prepared : Ready image.storage ready)
    (result : u.result image.storage = reallocateMip ready u.level u.request u.memory.data)
    (level : u.level = i + 1) (inside : i + 1 ≤ ready.levels.length) :
    Independent image (.upload u) ↔ (u.memory.data = true →
      image.storage.surface.data ≠ none ∨
        completedBy image.storage u.level (u.request.surface none) = false) := by
  have succeeds : Succeeds image (.upload u) ↔ u.memory.data = true := by
    show (u.result image.storage).2 = .noError ↔ _
    rw [result]
    exact reallocateMip_status _ _ _ _
  constructor
  · intro independent allocated
    exact (complete_upload_iff prepared result level inside allocated).mp
      (independent.complete (succeeds.mpr allocated))
  · intro chain
    have length : (step image (.upload u)).storage.levels.length = ready.levels.length := by
      have slot : ready.slot u.level = some i := by
        rw [level]
        exact slot_level inside
      have edited := reallocateMip_edited prepared.placed.tabled slot u.request u.memory.data
      rw [step_upload_storage, result, edited.levels, List.length_set]
    refine ⟨kept_upload prepared result level inside, fun _ _ p _ => (Option.some_ne_none p).symm,
      fun beyond => ?_, fun done => ?_⟩
    · rw [length] at beyond
      have less : ready.levels.length < u.level := beyond
      omega
    · have allocated := succeeds.mp done
      exact (complete_upload_iff prepared result level inside allocated).mpr (chain allocated)

private theorem independent_beyond_iff (prepared : Ready image.storage ready)
    (result : u.result image.storage = reallocateMip ready u.level u.request u.memory.data)
    (last : ready.levels.length = i + 1) (beyond : i + 1 < u.level) :
    Independent image (.upload u) ↔
      u.memory.data = false ∧ (surfaceOf image.storage (i + 1)).data = none := by
  have edited := reallocateMip_edited prepared.placed.tabled (slot_beyond last beyond) u.request
    u.memory.data
  rw [← result] at edited
  constructor
  · intro independent
    have same := independent.kept.surfaces (i + 1) (by show i + 1 ≠ u.level; omega)
    rw [step_upload_storage, edited.surfaceOf_same] at same
    cases allocated : u.memory.data with
    | false =>
      refine ⟨rfl, ?_⟩
      rw [← same, allocated]
      rfl
    | true =>
      have own : (surfaceOf ready (i + 1)).data =
          some (.block ready.heap.taken.length u.request.size) := by
        rw [prepared.surfaces, ← same, allocated]
        rfl
      exact absurd (prepared.placed.mem own) (prepared.placed.apart.fresh u.request.size)
  · rintro ⟨refused, empty⟩
    have status : (u.result image.storage).2 ≠ .noError := by
      rw [result, Ne, reallocateMip_status, refused]
      exact Bool.false_ne_true
    have none : surfaceOf ready (i + 1) = {} := by
      have member : surfaceOf ready (i + 1) ∈ ready.levels := by
        rw [surfaceOf_succ, List.getD, List.getElem?_eq_getElem (by omega)]
        exact List.getElem_mem _
      rcases prepared.shaped.filled _ member with blank | ⟨data, -⟩
      · exact blank
      · rw [prepared.surfaces] at data
        exact absurd empty data
    refine ⟨⟨fun j _ => ?_, fun j _ p _ => ?_, fun _ _ _ _ => rfl⟩,
      fun _ _ p _ => (Option.some_ne_none p).symm, fun _ => status, fun done => absurd done status⟩
    · rw [step_upload_storage, ← prepared.surfaces]
      by_cases entry : j = i + 1
      · rw [entry, edited.surfaceOf_same, refused, none]
        rfl
      · exact edited.surfaceOf_other entry
    · rw [step_upload_storage, edited.returned, none, prepared.returned]
      rfl

theorem upload_iff (h : Arranged image.storage) (u : Upload) (hlevel : 0 < u.level) :
    Independent image (.upload u) ↔ InChain image (.upload u) := by
  rcases result_cases h hlevel with
    ⟨stopped, result⟩ | ⟨reached, table, data, lods, result⟩ | ⟨reached, ready, prepared, result⟩
  · have status : (u.result image.storage).2 ≠ .noError := by
      rw [result]
      exact Status.noConfusion
    have same : step image (.upload u) = image := by rw [step, result]
    exact iff_of_true (independent_of_unchanged same status rfl) fun reaches =>
      absurd reaches stopped
  · refine iff_of_false (fallback_dependent h hlevel table data result) fun chain => ?_
    have none : entries image.storage = 0 := by
      rw [entries, if_pos table]
      omega
    rcases (chain reached).1 with below | ⟨-, some, -⟩
    · omega
    · omega
  · have length := prepared.length
    have some : 0 < ready.levels.length := by
      obtain ⟨entry, hentry⟩ := Option.ne_none_iff_exists'.mp prepared.table
      rw [Storage.levels, hentry]
      exact List.length_pos_iff.mpr (prepared.placed.tabled entry hentry)
    obtain ⟨k, level⟩ := Nat.exists_eq_add_one.mpr hlevel
    have reduced : InChain image (.upload u) ↔
        (u.level ≤ entries image.storage ∨ u.memory.data = false ∧
          (surfaceOf image.storage (entries image.storage)).data = none) ∧
        (u.memory.data = true → image.storage.surface.data ≠ none ∨
          completedBy image.storage u.level (u.request.surface none) = false) := by
      constructor
      · intro chain
        exact ⟨(chain reached).1.imp_right fun all => ⟨all.1, all.2.2⟩, (chain reached).2⟩
      · rintro ⟨place, complete⟩ -
        exact ⟨place.imp_right fun all => ⟨all.1, by omega, all.2⟩, complete⟩
    rw [reduced]
    by_cases below : u.level ≤ entries image.storage
    · rw [independent_upload_iff prepared result level (by omega)]
      simp only [below, true_or, true_and]
    · obtain ⟨i, last⟩ := Nat.exists_eq_add_one.mpr some
      rw [independent_beyond_iff prepared result last (by omega), ← length, last]
      have outside : ¬u.level ≤ i + 1 := by omega
      constructor
      · rintro ⟨refused, empty⟩
        refine ⟨.inr ⟨refused, empty⟩, fun allocated => ?_⟩
        rw [refused] at allocated
        exact absurd allocated Bool.false_ne_true
      · rintro ⟨place, -⟩
        exact place.resolve_left outside

theorem update_iff (h : Arranged image.storage) (level : Nat) (copy : Bytes → Bytes)
    (hlevel : 0 < level) :
    Independent image (.update level copy) ↔ InChain image (.update level copy) := by
  by_cases data : (image.storage.mip level).data = none
  · have same : step image (.update level copy) = image := by
      show image.paint level copy = image
      rw [Image.paint, data]
    exact iff_of_true (independent_of_unchanged same (fun some => some data) data)
      fun some => absurd data some
  · obtain ⟨p, block⟩ := Option.ne_none_iff_exists'.mp data
    obtain ⟨i, rfl⟩ := Nat.exists_eq_add_one.mpr hlevel
    by_cases inside : i + 1 ≤ image.storage.levels.length
    · have own := mip_slot (slot_level inside)
      have table : image.storage.mMipmaps ≠ none := by
        intro none
        simp [Storage.levels, none] at inside
      have storage := step_update_storage image (i + 1) copy
      have flag : (image.storage.mIsComplete = true ↔ FullChain image.storage) ↔
          image.storage.surface.data ≠ none ∨ image.storage.mIsComplete = false := by
        rw [fullChain_iff_checked h.shaped h.placed.tabled table]
        by_cases base : image.storage.surface.data = none
        · simp [base]
        · rw [h.flagged table base]
          simp [base]
      constructor
      · intro independent _
        have complete := independent.complete data
        rw [storage] at complete
        exact ⟨inside, flag.mp complete⟩
      · intro chain
        refine ⟨kept_paint h.placed own copy, fun j hj q other written => ?_, fun beyond => ?_,
          fun _ => ?_⟩
        · have same : (surfaceOf image.storage (i + 1)).data = some q := by
            rw [← own]
            exact written
          exact hj (h.placed.distinct other same)
        · rw [storage] at beyond
          exact absurd inside (Nat.not_le.mpr beyond)
        · rw [storage]
          exact flag.mpr (chain data).2
    · refine iff_of_false (fun independent => ?_) fun chain => inside (chain data).1
      have written : target image (.update (i + 1) copy) = some p := block
      rcases Nat.eq_zero_or_pos image.storage.levels.length with none | some
      · have table : image.storage.mMipmaps = Option.none := by
          by_contra table
          obtain ⟨entry, hentry⟩ := Option.ne_none_iff_exists'.mp table
          rw [Storage.levels, hentry] at none
          exact h.placed.tabled entry hentry (List.length_eq_zero_iff.mp none)
        have slot : image.storage.slot ((i + 1 : Nat) : Int) = Option.none := by
          rw [Storage.slot, if_neg (by omega), table]
          rfl
        rw [Storage.mip, slot] at block
        exact independent.unwritten 0 (Nat.zero_ne_add_one i) p block written
      · obtain ⟨k, last⟩ := Nat.exists_eq_add_one.mpr some
        rw [mip_slot (slot_beyond last (by omega))] at block
        exact independent.unwritten (k + 1) (by show k + 1 ≠ i + 1; omega) p block written

theorem stepIndependent_iff (h : Arranged image.storage) (op : Op) :
    StepIndependent image op ↔ StepInChain image op := by
  apply forall_congr'
  intro hlevel
  cases op with
  | upload u => exact upload_iff h u hlevel
  | update level copy => exact update_iff h level copy hlevel

/-- In every sequence of uploads and updates of one object, the steps addressed to levels below the
base leave the other levels alone, and the flag right, exactly if they meet the condition in the
state they are made in. -/
theorem levels_independent_iff (ops : List Op) :
    Guarded step StepIndependent {} ops ↔ Guarded step StepInChain {} ops :=
  guarded_congr (fun _ op h => arranged_step h op) (fun _ op h => stepIndependent_iff h op)
    arranged_empty

/-- A square image of `extent` RGBA texels a side. -/
private def rgbaSquare (level : Nat) (extent : Fin 8) : Upload :=
  { level := level
    request := ⟨extent.val, extent.val, extent.val, 1, 0, 4 * extent.val⟩
    memory := ⟨true, true⟩
    format := Nat.one_ne_zero
    width := by dsimp only; omega
    height := by dsimp only; omega }

example : Guarded step StepInChain {}
    [.upload (rgbaSquare 0 4), .upload (rgbaSquare 2 1), .upload (rgbaSquare 1 2),
      .update 1 fun _ => []] := by
  decide +kernel

private def texel : Image := step {} (.upload (rgbaSquare 0 1))

/-- Over a base of one texel, an image for level 1 becomes the base. -/
theorem texel_base_replaced :
    (texel.storage.surface.width = 1 ∧
      (step texel (.upload (rgbaSquare 1 2))).storage.surface.width = 2) ∧
      ¬Guarded step StepIndependent {} [.upload (rgbaSquare 0 1), .upload (rgbaSquare 1 2)] := by
  have replaced : texel.storage.surface.width = 1 ∧
      (step texel (.upload (rgbaSquare 1 2))).storage.surface.width = 2 := by
    decide +kernel
  refine ⟨replaced, ?_⟩
  rintro ⟨-, second, -⟩
  have independent : Independent texel (.upload (rgbaSquare 1 2)) := second Nat.one_pos
  have same := congrArg GGLSurface.width (independent.kept.surfaces 0 Nat.zero_ne_one)
  rw [surfaceOf_zero, surfaceOf_zero, replaced.1, replaced.2] at same
  exact absurd same (by decide)

end RabbitRender.Textures.LevelIndependence
