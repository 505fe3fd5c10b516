/- RabbitRender/Textures/Reallocations
   layer: proof
   source: swrender/TextureObjectManager.cpp
   digest: When the reallocation of a level below the base succeeds, and what it leaves. -/

import RabbitRender.Lib.Halving
import RabbitRender.Textures.Coverage

set_option autoImplicit false

namespace RabbitRender.Textures.Reallocations

open Fixed (wrap32 wrap32_natCast gglClz)
open Lib.Halving Textures.Levels Textures.Coverage

theorem uint32_eq {n : Nat} (h : n < 2 ^ 31) : uint32 n = n := by
  unfold uint32
  omega

theorem halve_eq_shrink (extent : Nat) : halve extent = shrink extent 1 := by
  unfold halve shrink
  split_ifs <;> omega

theorem numLods_eq {s : GGLSurface} (some : 0 < max s.width s.height) (hwide : s.width < 2 ^ 31)
    (hhigh : s.height < 2 ^ 31) : numLods s = Nat.log2 (max s.width s.height) := by
  have largest : max (wrap32 s.width) (wrap32 s.height) = (max s.width s.height : Nat) := by
    rw [wrap32_natCast hwide, wrap32_natCast hhigh]
    omega
  have word : max s.width s.height < 2 ^ 31 := max_lt hwide hhigh
  have bits := (Nat.log2_lt some.ne').mpr word
  rw [numLods, largest, uint32_eq word, gglClz, if_neg some.ne']
  omega

def TableReady (st : Storage) (table : Bool) : Prop :=
  st.mMipmaps ≠ none ∨ st.surface.data ≠ none ∧ table = true

instance (st : Storage) (table : Bool) : Decidable (TableReady st table) :=
  inferInstanceAs (Decidable (_ ∨ _ ∧ _))

theorem reallocateMip_status (st : Storage) (level : Int) (r : Request) (succeeds : Bool) :
    (reallocateMip st level r succeeds).2 = .noError ↔ succeeds = true := by
  cases succeeds <;> simp [reallocateMip, malloc]

variable {st : Storage}

theorem allocateMipmaps_ready (lods : 0 < numLods st.surface) (data : st.surface.data ≠ none) :
    allocateMipmaps st true = (withTable st (numLods st.surface).toNat, .noError) := by
  rw [allocateMipmaps, if_neg data, if_neg (by omega)]
  rfl

theorem reallocate_status_iff {level : Nat} (hlevel : 0 < level) (r : Request) (mem : Memory)
    (lods : 0 < numLods st.surface) :
    (reallocate st level r mem).2 = .noError ↔ TableReady st mem.table ∧ mem.data = true := by
  have nonzero : (level : Int) ≠ 0 := by omega
  rw [reallocate, if_neg nonzero]
  by_cases table : st.mMipmaps = none
  · rw [if_neg (by simp [table])]
    by_cases data : st.surface.data = none
    · rw [allocateMipmaps, if_pos data]
      simp [TableReady, table, data]
    · cases allocated : mem.table with
      | false =>
        rw [allocateMipmaps, if_neg data, if_neg (by omega)]
        simp [TableReady, malloc, table]
      | true =>
        rw [allocateMipmaps_ready lods data]
        simp only [reallocateMip_status]
        simp [TableReady, data]
  · rw [if_pos (Option.isSome_iff_ne_none.mpr table), reallocateMip_status]
    simp [TableReady, table]

theorem apart_of_lods (lods : 0 < numLods st.surface) : ¬Shared st :=
  fun shared => absurd shared.2.1 (by omega)

theorem kept_of_reallocate (h : Tabled st) {level : Nat} (hlevel : 0 < level) (r : Request)
    (mem : Memory) (apart : ¬Shared st) :
    Tabled (reallocate st level r mem).1 ∧ (reallocate st level r mem).1.surface = st.surface := by
  rcases reallocate_level st hlevel r mem apart with he | ⟨ready, prepared, he⟩
  · rw [he]
    exact ⟨h, rfl⟩
  · rw [he]
    obtain ⟨i, slot⟩ := prepared.slot hlevel
    have base (s : GGLSurface) : (ready.setMip level s).surface = st.surface := by
      simp only [Storage.setMip, slot, prepared.surface]
    rcases malloc_cases (free ready.heap (ready.mip level).data) r.size mem.data with failed | got
    · simp only [reallocateMip, failed]
      exact ⟨tabled_setMip (prepared.tabled h) level _, base _⟩
    · simp only [reallocateMip, got]
      exact ⟨tabled_setMip (prepared.tabled h) level _, base _⟩

end RabbitRender.Textures.Reallocations
