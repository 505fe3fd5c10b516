/- RabbitRender/Arrays/Locks
   layer: result
   source: swrender/array.cpp
   digest: The locks of the vertex cache: no draw call leaves one behind. -/

import RabbitRender.Arrays.CacheCoherence

set_option autoImplicit false

namespace RabbitRender.Arrays.Locks

open Arrays.Compile Arrays.Draw
open Arrays.Steps (IndexInvariant RenderPreorder)
open Arrays.CacheCoherence Lib.GuardedRun

structure LocksIn (q : Nat) (m : Machine) (held : List Nat) : Prop where
  sequence : m.sequence = q
  locks : ∀ slot, (m.verts slot).locked = true → slot ∈ held

section IndexLists

variable {p : Pipeline} {q : Nat} {m r : Machine} {held : List Nat}

private theorem LocksIn.rendered (h : LocksIn q m held) (hr : Rendered m r) : LocksIn q r held :=
  ⟨hr.sequence.trans h.sequence, fun slot locked => h.locks slot (hr.locks slot locked)⟩

private theorem LocksIn.lock (h : LocksIn q m held) (slot : Nat) : LocksIn q (lock m slot) (slot :: held) := by
  refine ⟨h.sequence, ?_⟩
  intro i locked
  by_cases one : i = slot
  · simp [one]
  · rw [Draw.lock, Machine.set_other _ _ _ one] at locked
    exact List.mem_cons_of_mem _ (h.locks i locked)

private theorem LocksIn.unlock (h : LocksIn q m held) (slot : Nat) {held' : List Nat}
    (others : ∀ i ∈ held, i ≠ slot → i ∈ held') : LocksIn q (unlock m slot) held' := by
  refine ⟨h.sequence, ?_⟩
  intro i locked
  by_cases one : i = slot
  · rw [one, Draw.unlock, Machine.set_same] at locked
    exact Bool.noConfusion locked
  · rw [Draw.unlock, Machine.set_other _ _ _ one] at locked
    exact others i (h.locks i locked) one

private theorem LocksIn.compile (h : LocksIn q m held) (slot : Nat) (first : Int) :
    LocksIn q (compileElement p m slot first) held := by
  refine ⟨h.sequence, ?_⟩
  intro i locked
  rw [compileElement_locked] at locked
  exact h.locks i locked

private theorem LocksIn.fetch (h : LocksIn q m held) (i : Index) :
    LocksIn q (fetchVertex p m i).1 ((fetchVertex p m i).2 :: held) := by
  simp only [fetchVertex]
  split_ifs
  · have counted : LocksIn q { m with hits := m.hits ++
        [⟨i ||| m.sequence, (m.verts (cacheSlot (i ||| m.sequence))).source, m.draw⟩] } held :=
      ⟨h.sequence, h.locks⟩
    exact counted.lock _
  · exact (h.compile _ _).lock _

private theorem indexInvariant_locksIn : IndexInvariant p (LocksIn q) where
  point v h := h.rendered (rendered_renderPoint p _ v)
  line v0 v1 h := h.rendered (rendered_renderLine p _ v0 v1)
  triangle v0 v1 v2 h := h.rendered (rendered_renderTriangle p _ v0 v1 v2)
  unlock _ slot _ h others := h.unlock slot others
  compile slot _ t h := h.compile slot t
  fetch i h := h.fetch i
  weaken _ h := ⟨h.sequence, fun slot locked => absurd (h.locks slot locked) (by simp)⟩

end IndexLists

structure Quiet (m : Machine) : Prop where
  aligned : m.sequence % indexSeq = 0
  bounded : m.sequence < 0x80000000
  unlocked : ∀ slot, (m.verts slot).locked = false

theorem quiet_init : Quiet Machine.init := ⟨rfl, by decide, fun _ => rfl⟩

theorem Quiet.clear {m : Machine} (h : Quiet m) : Quiet (clear m) := by
  obtain ⟨aligned, bounded, unlocked⟩ := h
  refine ⟨?_, ?_, fun slot => (clear_locked m slot).trans (unlocked slot)⟩
  · rw [Draw.clear]
    split_ifs
    · exact Nat.mod_self indexSeq
    · exact (Nat.add_mod_right m.sequence indexSeq).trans aligned
  · rw [Draw.clear]
    split_ifs with wraps
    · exact (show indexSeq < 0x80000000 by decide)
    · exact Nat.not_le.mp wraps

theorem Quiet.step {m : Machine} (h : Quiet m) (call : DrawCall) : Quiet (step m call) := by
  cases call with
  | arrays p mode first count =>
    have counted : Quiet { m with draw := m.draw + 1 } := ⟨h.aligned, h.bounded, h.unlocked⟩
    obtain ⟨-, unlocked, sequence, -⟩ :=
      filled_drawArrays p mode { m with draw := m.draw + 1 } first count
    simp only [CacheCoherence.step, glDrawArrays]
    split_ifs
    · exact counted
    · exact ⟨by rw [sequence]; exact h.aligned, by rw [sequence]; exact h.bounded,
        unlocked h.unlocked⟩
  | elements p mode indices =>
    have counted : Quiet { m with draw := m.draw + 1 } := ⟨h.aligned, h.bounded, h.unlocked⟩
    have cleared := counted.clear
    have start : LocksIn (Draw.clear { m with draw := m.draw + 1 }).sequence
        (Draw.clear { m with draw := m.draw + 1 }) [] := by
      refine ⟨rfl, fun slot locked => ?_⟩
      rw [cleared.unlocked] at locked
      exact Bool.noConfusion locked
    obtain ⟨sequence, locks⟩ := (@indexInvariant_locksIn p _).drawElements start mode indices
    simp only [CacheCoherence.step, glDrawElements]
    split_ifs
    · exact counted
    · refine ⟨by rw [sequence]; exact cleared.aligned, by rw [sequence]; exact cleared.bounded,
        fun slot => ?_⟩
      rw [Bool.eq_false_iff]
      intro locked
      exact absurd (locks slot locked) (by simp)

theorem quiet_after_run (calls : List DrawCall) : Quiet (run step Machine.init calls) := by
  have kept : ∀ (m : Machine), Quiet m → Quiet (run step m calls) := by
    induction calls with
    | nil => exact fun _ h => h
    | cons call calls ih => exact fun m h => ih _ (h.step call)
  exact kept Machine.init quiet_init

end RabbitRender.Arrays.Locks
