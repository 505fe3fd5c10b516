/- RabbitRender/Arrays/CacheCoherence
   layer: result
   source: swrender/array.cpp
   digest: A run of draw calls, and the entries of the vertex cache that its index lists hit. -/

import RabbitRender.Arrays.Steps

set_option autoImplicit false

namespace RabbitRender.Arrays.CacheCoherence

open Vertices Arrays.Compile Arrays.Draw
open Arrays.Steps (IndexInvariant RenderPreorder)
open Primitives Lib.GuardedRun

/-- A draw call with what it reads: the state it is made in and the arrays may be any. -/
inductive DrawCall where
  | arrays (p : Pipeline) (mode : Mode) (first : Int) (count : Nat)
  | elements (p : Pipeline) (mode : Mode) (indices : List Index)

def step (m : Machine) : DrawCall → Machine
  | .arrays p mode first count => glDrawArrays p m mode first count
  | .elements p mode indices => glDrawElements p m mode indices

/-- The entry that was hit holds the element of the index, compiled by the draw call of the hit. -/
def Current (h : Hit) : Prop := h.source = ⟨h.draw, h.index % indexSeq⟩

/-- The tag of `v` is 0, or `v` is still what was compiled as `w`. -/
def TagKept (v w : Vertex) : Prop := v.index = 0 ∨ v.index = w.index ∧ v.source = w.source

private theorem TagKept.refl (v : Vertex) : TagKept v v := .inr ⟨rfl, rfl⟩

private theorem TagKept.trans {u v w : Vertex} (h : TagKept u v) (h' : TagKept v w) :
    TagKept u w := by
  rcases h with zero | ⟨index, source⟩
  · exact .inl zero
  · rcases h' with zero' | ⟨index', source'⟩
    · exact .inl (index.trans zero')
    · exact .inr ⟨index.trans index', source.trans source'⟩

/-- `r` is `m` after an operation that compiles nothing. -/
structure TagsKept (m r : Machine) : Prop where
  verts : ∀ slot, TagKept (r.verts slot) (m.verts slot)
  sequence : r.sequence = m.sequence
  hits : r.hits = m.hits
  draw : r.draw = m.draw

private theorem TagsKept.refl (m : Machine) : TagsKept m m :=
  ⟨fun slot => .refl (m.verts slot), rfl, rfl, rfl⟩

private theorem TagsKept.trans {a b c : Machine} (h : TagsKept a b) (h' : TagsKept b c) :
    TagsKept a c :=
  ⟨fun slot => (h'.verts slot).trans (h.verts slot), h'.sequence.trans h.sequence,
    h'.hits.trans h.hits, h'.draw.trans h.draw⟩

private theorem tagsKept_set (m : Machine) {slot : Nat} {v : Vertex}
    (h : TagKept v (m.verts slot)) : TagsKept m (m.set slot v) := by
  refine ⟨?_, rfl, rfl, rfl⟩
  intro i
  by_cases hi : i = slot
  · subst hi
    rwa [Machine.set_same]
  · rw [Machine.set_other _ _ _ hi]
    exact .refl _

private theorem tagsKept_lock (m : Machine) (slot : Nat) : TagsKept m (lock m slot) :=
  tagsKept_set m (.inr ⟨rfl, rfl⟩)

private theorem tagsKept_unlock (m : Machine) (slot : Nat) : TagsKept m (unlock m slot) :=
  tagsKept_set m (.inr ⟨rfl, rfl⟩)

/-- `r` is `m` after rendering: nothing gets locked. -/
structure Rendered (m r : Machine) : Prop extends TagsKept m r where
  locks : ∀ slot, (r.verts slot).locked = true → (m.verts slot).locked = true

theorem Rendered.refl (m : Machine) : Rendered m m := ⟨.refl m, fun _ => id⟩

private theorem Rendered.trans {a b c : Machine} (h : Rendered a b) (h' : Rendered b c) :
    Rendered a c :=
  ⟨h.toTagsKept.trans h'.toTagsKept, fun slot => h.locks slot ∘ h'.locks slot⟩

private theorem rendered_shaded {m r : Machine} (h : Shaded m r) : Rendered m r :=
  ⟨⟨fun slot => .inr ⟨(h.verts slot).index, (h.verts slot).source⟩, h.sequence, h.hits, h.draw⟩,
    fun slot locked => (h.verts slot).locked ▸ locked⟩

section Renderers

variable (p : Pipeline)

theorem rendered_renderPoint (m : Machine) (v : Nat) : Rendered m (renderPoint p m v) := by
  have called : Rendered m { m with calls := m.calls ++ [.point (m.verts v)] } :=
    ⟨⟨(TagsKept.refl m).verts, rfl, rfl, rfl⟩, fun _ => id⟩
  exact called.trans (rendered_shaded (shaded_renderPoint p m v))

theorem rendered_renderTriangle (m : Machine) (v0 v1 v2 : Nat) :
    Rendered m (renderTriangle p m v0 v1 v2) := by
  have called : Rendered m
      { m with calls := m.calls ++ [.triangle (m.verts v0) (m.verts v1) (m.verts v2)] } :=
    ⟨⟨(TagsKept.refl m).verts, rfl, rfl, rfl⟩, fun _ => id⟩
  exact called.trans (rendered_shaded (shaded_renderTriangle p m v0 v1 v2))

def Clipped (v w : Vertex) : Prop := TagKept v w ∧ (v.locked = true → w.locked = true)

private theorem Clipped.refl (v : Vertex) : Clipped v v := ⟨.refl v, id⟩

private theorem Clipped.trans {u v w : Vertex} (h : Clipped u v) (h' : Clipped v w) :
    Clipped u w :=
  ⟨h.1.trans h'.1, h'.2 ∘ h.2⟩

private theorem clipped_clipAgainst (plane : Plane) (nv : Vertex) (t : Int) (s q : Vertex) :
    Clipped (clipAgainst p plane nv t s q) nv := by
  cases plane with
  | user i => exact ⟨.inl rfl, fun locked => Bool.noConfusion locked⟩
  | frustum i => exact ⟨.inr ⟨rfl, rfl⟩, id⟩

private theorem clipped_clipPlanes (planes : List Plane) (s q : Vertex) :
    Clipped (clipPlanes p planes s q).2.1 s ∧ Clipped (clipPlanes p planes s q).2.2 q := by
  induction planes generalizing s q with
  | nil => exact ⟨.refl s, .refl q⟩
  | cons plane planes ih =>
    simp only [clipPlanes]
    split_ifs
    · exact ih s q
    · obtain ⟨start, stop⟩ := ih s (clipAgainst p plane q
        (Fixed.clipDivide (distance p plane s) (distance p plane s - distance p plane q)) q s)
      exact ⟨start, stop.trans (clipped_clipAgainst p plane q _ q s)⟩
    · obtain ⟨start, stop⟩ := ih (clipAgainst p plane s
        (Fixed.clipDivide (distance p plane q) (distance p plane q - distance p plane s)) s q) q
      exact ⟨start.trans (clipped_clipAgainst p plane s _ s q), stop⟩
    · exact ih s q
    · exact ⟨.refl s, .refl q⟩

private theorem rendered_set {m r : Machine} (h : Rendered m r) {slot : Nat} {v : Vertex}
    (hv : Clipped v (m.verts slot)) : Rendered m (r.set slot v) := by
  have verts (i : Nat) : Clipped ((r.set slot v).verts i) (m.verts i) := by
    by_cases hi : i = slot
    · subst hi
      rwa [Machine.set_same]
    · rw [Machine.set_other _ _ _ hi]
      exact ⟨h.verts i, h.locks i⟩
  exact ⟨⟨fun i => (verts i).1, h.sequence, h.hits, h.draw⟩, fun i => (verts i).2⟩

theorem rendered_renderLine (m : Machine) (v0 v1 : Nat) :
    Rendered m (renderLine p m v0 v1) := by
  set called : Machine := { m with calls := m.calls ++ [.line (m.verts v0) (m.verts v1)] }
  have same : Rendered m called := ⟨⟨(TagsKept.refl m).verts, rfl, rfl, rfl⟩, fun _ => id⟩
  set r := lightTriangle p (fetchTexcoord p called v0 v1 v1) v0 v1 v1
  have lighted : Rendered m r := same.trans (rendered_shaded
    ((shaded_fetchTexcoord p called v0 v1 v1).trans (shaded_lightTriangle p _ v0 v1 v1)))
  have drawn {w : Machine} (h : Rendered m w) (lines : List (Vertex × Vertex)) :
      Rendered m { w with lines := lines } := ⟨⟨h.verts, h.sequence, h.hits, h.draw⟩, h.locks⟩
  -- the second vertex is stored over the first one if both are one entry
  have clipped : Rendered m ((r.set v0 (clipLine p (r.verts v0) (r.verts v1)).2.1).set v1
      (clipLine p (r.verts v0) (r.verts v1)).2.2) := by
    obtain ⟨start, stop⟩ := clipped_clipPlanes p
      (clippingPlanes (r.verts v0) (r.verts v1)) (r.verts v0) (r.verts v1)
    have before (i : Nat) : Clipped (r.verts i) (m.verts i) := ⟨lighted.verts i, lighted.locks i⟩
    exact rendered_set (rendered_set lighted (start.trans (before v0))) (stop.trans (before v1))
  rw [renderLine, primitiveLine]
  dsimp only
  split_ifs
  · exact drawn clipped _
  · exact clipped
  · exact drawn lighted _

theorem rendered_ite {m r s : Machine} {c : Prop} [Decidable c] (h : Rendered m r)
    (hs : Rendered r s) : Rendered m (if c then s else r) := by
  split_ifs
  · exact h.trans hs
  · exact h

end Renderers

/-- No entry has a tag that an index of a later call can get, unless the sequence starts over
before; and every hit so far was current. -/
structure Tags (m : Machine) : Prop where
  aligned : m.sequence % indexSeq = 0
  bounded : m.sequence < 0x80000000
  before : ∀ t : Nat, (m.verts (cacheSlot t)).index = t → t < 0x80000000 →
    t < m.sequence + indexSeq
  hits : ∀ h ∈ m.hits, Current h

structure Between (m : Machine) : Prop extends Tags m where
  unlocked : ∀ slot, (m.verts slot).locked = false

/-- In an indexed draw call the entries that an index can hit were compiled by the call, and only
those held are locked. -/
structure Indexed (m : Machine) (held : List Nat) : Prop extends Tags m where
  started : indexSeq ≤ m.sequence
  current : ∀ t : Nat, (m.verts (cacheSlot t)).index = t → m.sequence ≤ t → t < 0x80000000 →
    (m.verts (cacheSlot t)).source = ⟨m.draw, t % indexSeq⟩
  locks : ∀ slot, (m.verts slot).locked = true → slot ∈ held

theorem cacheSlot_bounds (t : Nat) : 8 ≤ cacheSlot t ∧ cacheSlot t < 72 := by
  simp only [cacheSlot, vertexBufferSize, vertexCacheSize]
  omega

theorem spareSlot_bounds (m : Machine) : 2 ≤ spareSlot m ∧ spareSlot m < 6 := by
  unfold spareSlot
  cases (m.verts 2).locked <;> cases (m.verts 3).locked <;> decide

theorem elementOf_natCast (t : Nat) : elementOf (t : Int) = t % indexSeq := by
  simp only [elementOf, indexSeq]
  omega

theorem or_sequence {q : Nat} (aligned : q % indexSeq = 0) (i : Index) : i ||| q = q + i := by
  have low : (i : Nat) < 2 ^ 16 := i.isLt
  have split := Nat.two_pow_add_eq_or_of_lt low (q / indexSeq)
  have whole : 2 ^ 16 * (q / indexSeq) = q := by
    simp only [indexSeq] at aligned ⊢
    omega
  rw [whole] at split
  rw [Nat.or_comm, ← split]

section IndexLists

variable {m r : Machine} {held : List Nat}

private theorem Indexed.kept {held' : List Nat} (h : Indexed m held) (hr : TagsKept m r)
    (locks : ∀ slot, (r.verts slot).locked = true → slot ∈ held') : Indexed r held' := by
  have tagged {t : Nat} (tag : (r.verts (cacheSlot t)).index = t) : t = 0 ∨
      (m.verts (cacheSlot t)).index = t ∧
        (r.verts (cacheSlot t)).source = (m.verts (cacheSlot t)).source := by
    rcases hr.verts (cacheSlot t) with zero | ⟨index, source⟩
    · left
      omega
    · exact .inr ⟨index.symm.trans tag, source⟩
  have started := h.started
  have sequence := hr.sequence
  refine ⟨⟨by rw [sequence, h.aligned], by rw [sequence]; exact h.bounded, ?_, ?_⟩,
    by rw [sequence]; exact started, ?_, locks⟩
  · intro t tag ht
    rw [sequence]
    rcases tagged tag with zero | ⟨index, -⟩
    · simp only [indexSeq]
      omega
    · exact h.before t index ht
  · rw [hr.hits]
    exact h.hits
  · intro t tag hq ht
    rw [sequence] at hq
    rcases tagged tag with zero | ⟨index, source⟩
    · simp only [indexSeq] at started
      omega
    · rw [source, hr.draw]
      exact h.current t index hq ht

private theorem Indexed.rendered (h : Indexed m held) (hr : Rendered m r) : Indexed r held :=
  h.kept hr.toTagsKept fun slot locked => h.locks slot (hr.locks slot locked)

private theorem Indexed.lock (h : Indexed m held) (slot : Nat) :
    Indexed (lock m slot) (slot :: held) := by
  refine h.kept (tagsKept_lock m slot) ?_
  intro i locked
  by_cases one : i = slot
  · simp [one]
  · rw [Draw.lock, Machine.set_other _ _ _ one] at locked
    exact List.mem_cons_of_mem _ (h.locks i locked)

private theorem Indexed.unlock (h : Indexed m held) (slot : Nat) {held' : List Nat}
    (others : ∀ i ∈ held, i ≠ slot → i ∈ held') : Indexed (unlock m slot) held' := by
  refine h.kept (tagsKept_unlock m slot) ?_
  intro i locked
  by_cases one : i = slot
  · rw [one, Draw.unlock, Machine.set_same] at locked
    exact Bool.noConfusion locked
  · rw [Draw.unlock, Machine.set_other _ _ _ one] at locked
    exact others i (h.locks i locked) one

private theorem Indexed.finish (h : Indexed m []) : Between m := by
  refine ⟨h.toTags, ?_⟩
  intro slot
  rw [Bool.eq_false_iff]
  intro locked
  exact absurd (h.locks slot locked) (by simp)

variable (p : Pipeline)

theorem compileElement_locked (m : Machine) (slot i : Nat) (first : Int) :
    ((compileElement p m slot first).verts i).locked = (m.verts i).locked := by
  by_cases one : i = slot
  · rw [one, compileElement, compileAt_same, p.compileVertex_locked]
  · rw [compileElement, compileAt_other _ _ _ _ _ one]

private theorem Indexed.compileBuffer (h : Indexed m held) (slot : Nat) (hslot : slot < 8) (t : Nat) :
    Indexed (compileElement p m slot t) held := by
  have elsewhere {u : Nat} : cacheSlot u ≠ slot := by
    have := cacheSlot_bounds u
    omega
  refine ⟨⟨h.aligned, h.bounded, ?_, h.hits⟩, h.started, ?_, ?_⟩
  · intro u tag
    rw [compileElement, compileAt_other _ _ _ _ _ elsewhere] at tag
    exact h.before u tag
  · intro u tag
    rw [compileElement, compileAt_other _ _ _ _ _ elsewhere] at tag ⊢
    exact h.current u tag
  · intro i locked
    rw [compileElement_locked] at locked
    exact h.locks i locked

private theorem Indexed.compileCache (h : Indexed m held) {t : Nat}
    (next : t < m.sequence + indexSeq) : Indexed (compileElement p m (cacheSlot t) t) held := by
  refine ⟨⟨h.aligned, h.bounded, ?_, h.hits⟩, h.started, ?_, ?_⟩
  · intro u tag _
    rw [compileElement, compileAt_sequence]
    by_cases here : cacheSlot u = cacheSlot t
    · rw [compileElement, here, compileAt_same, p.compileVertex_index] at tag
      omega
    · rw [compileElement, compileAt_other _ _ _ _ _ here] at tag
      exact h.before u tag ‹_›
  · intro u tag
    by_cases here : cacheSlot u = cacheSlot t
    · rw [compileElement, here, compileAt_same, p.compileVertex_index] at tag
      intro _ _
      rw [compileElement, here, compileAt_same, p.compileVertex_source, elementOf_natCast,
        compileAt_draw, show u = t by omega]
    · rw [compileElement, compileAt_other _ _ _ _ _ here] at tag ⊢
      exact h.current u tag
  · intro i locked
    rw [compileElement_locked] at locked
    exact h.locks i locked

private theorem Indexed.cacheVertex (h : Indexed m held) {t : Nat}
    (next : t < m.sequence + indexSeq) :
    Indexed (cacheVertex p m (cacheSlot t) t).1 ((cacheVertex p m (cacheSlot t) t).2 :: held) := by
  have spare := spareSlot_bounds m
  simp only [Draw.cacheVertex]
  split_ifs
  · exact (h.compileBuffer p (spareSlot m) (by omega) t).lock _
  · exact (h.compileCache p next).lock _

private theorem Indexed.fetchVertex (h : Indexed m held) (i : Index) :
    Indexed (fetchVertex p m i).1 ((fetchVertex p m i).2 :: held) := by
  have aligned := h.aligned
  have bounded := h.bounded
  have range := i.isLt
  have fits : m.sequence + i < 0x80000000 := by
    simp only [indexSeq] at aligned
    omega
  simp only [Draw.fetchVertex, or_sequence aligned i]
  split_ifs with hit
  · refine Indexed.lock ?_ _
    refine ⟨⟨aligned, bounded, h.before, ?_⟩, h.started, h.current, h.locks⟩
    intro e he
    rcases List.mem_append.mp he with old | new
    · exact h.hits e old
    · rw [List.mem_singleton.mp new]
      exact h.current _ hit (by omega) fits
  · exact h.cacheVertex p (by simp only [indexSeq]; omega)

theorem indexInvariant_indexed : IndexInvariant p Indexed where
  point v h := h.rendered (rendered_renderPoint p _ v)
  line v0 v1 h := h.rendered (rendered_renderLine p _ v0 v1)
  triangle v0 v1 v2 h := h.rendered (rendered_renderTriangle p _ v0 v1 v2)
  unlock _ slot _ h others := h.unlock slot others
  compile slot buffer t h := h.compileBuffer p slot buffer t
  fetch i h := h.fetchVertex p i
  weaken _ h := ⟨h.toTags, h.started, h.current, fun slot locked =>
    absurd (h.locks slot locked) (by simp)⟩

theorem Tags.clear (h : Tags m) : Tags (clear m) ∧ indexSeq ≤ (clear m).sequence ∧
    ∀ t : Nat, ((clear m).verts (cacheSlot t)).index = t → (clear m).sequence ≤ t →
      ¬ t < 0x80000000 := by
  obtain ⟨aligned, bounded, before, hits⟩ := h
  have size : indexSeq = 0x10000 := rfl
  rw [size] at aligned before
  by_cases wrap : m.sequence + indexSeq ≥ 0x80000000
  · -- the sequence starts over, and every tag is 0
    rw [Draw.clear, if_pos wrap]
    refine ⟨⟨Nat.mod_self _, ?_, ?_, hits⟩, ?_, ?_⟩ <;> dsimp only <;> omega
  · rw [Draw.clear, if_neg wrap]
    refine ⟨⟨?_, ?_, ?_, hits⟩, ?_, ?_⟩ <;> dsimp only
    · rw [Nat.add_mod_right, size, aligned]
    · omega
    · intro t tag ht
      have := before t tag ht
      omega
    · omega
    · intro t tag sequence ht
      have := before t tag ht
      omega

theorem clear_locked (m : Machine) (slot : Nat) :
    ((clear m).verts slot).locked = (m.verts slot).locked := by
  by_cases wrap : m.sequence + indexSeq ≥ 0x80000000
  · rw [Draw.clear, if_pos wrap]
  · rw [Draw.clear, if_neg wrap]

theorem Between.clear (h : Between m) : Indexed (clear m) [] := by
  obtain ⟨tags, started, fresh⟩ := h.toTags.clear
  refine ⟨tags, started, fun t tag sequence ht => absurd ht (fresh t tag sequence), ?_⟩
  intro slot locked
  rw [clear_locked, h.unlocked] at locked
  exact Bool.noConfusion locked

end IndexLists

/-- The vertices a mode compiles ahead of its batches, into the entries before them. -/
def ahead : Mode → Nat
  | .points | .lines | .triangles => 0
  | .lineStrip | .lineLoop => 1
  | .triangleStrip | .triangleFan => 2

def batchSize : Mode → Nat
  | .points | .lines | .triangles => 72
  | .lineStrip | .lineLoop => 71
  | .triangleStrip | .triangleFan => 70

/-- The entry of the vertex at position `k` of the array. -/
def arraySlot (mode : Mode) (k : Nat) : Nat :=
  if k < ahead mode then k else ahead mode + (k - ahead mode) % batchSize mode

/-- The vertices the loop over the batches compiles: fewer than `least` are left alone. -/
def batched (vcs least count : Nat) : Nat :=
  if count % vcs < least then count - count % vcs else count

theorem batched_one (vcs count : Nat) : batched vcs 1 count = count := by
  unfold batched
  split_ifs <;> omega

variable {least count : Nat}

theorem batched_few {vcs : Nat} (hvcs : least ≤ vcs) (few : count < least) :
    batched vcs least count = 0 := by
  rw [batched, Nat.mod_eq_of_lt (by omega), if_pos few, Nat.sub_self]

theorem batched_full {vcs : Nat} (full : vcs ≤ count) :
    batched vcs least count = vcs + batched vcs least (count - vcs) := by
  have again : count % vcs = (count - vcs) % vcs := Nat.mod_eq_sub_mod full
  have le := Nat.mod_le (count - vcs) vcs
  simp only [batched, again]
  split_ifs <;> omega

theorem batched_last {vcs : Nat} (part : count < vcs) (enough : least ≤ count) :
    batched vcs least count = count := by
  rw [batched, Nat.mod_eq_of_lt part, if_neg (by omega)]

/-- The vertices `glDrawArrays` compiles. -/
def compiledCount (mode : Mode) (count : Nat) : Nat :=
  match mode with
  | .points => count
  | .lines => batched 72 2 count
  | .triangles => batched 72 3 count
  | .lineStrip | .lineLoop => if count < 2 then 0 else count
  | .triangleStrip | .triangleFan => if count < 3 then 0 else count

/-- What the entries outside of entries 0 to 7 hold after the `n` vertices from `first` on went
through the `vcs` entries from `b` on: nothing, the last vertex compiled there, or what they held. -/
structure Filled (b vcs : Nat) (first : Int) (n : Nat) (m r : Machine) : Prop where
  verts : ∀ slot, 8 ≤ slot → (r.verts slot).index = 0 ∨
    (∃ k < n, n ≤ k + vcs ∧ slot = b + k % vcs ∧ (r.verts slot).index = first + k) ∨
    (slot < b ∨ b + min vcs n ≤ slot) ∧ (r.verts slot).index = (m.verts slot).index
  unlocked : (∀ slot, (m.verts slot).locked = false) → ∀ slot, (r.verts slot).locked = false
  sequence : r.sequence = m.sequence
  hits : r.hits = m.hits

section Filled

variable {b vcs n : Nat} {first : Int} {m r s : Machine}

private theorem Filled.none : Filled b vcs first 0 m m := by
  refine ⟨?_, id, rfl, rfl⟩
  intro slot hslot
  right; right
  exact ⟨by omega, rfl⟩

private theorem Filled.rendered (h : Filled b vcs first n m r) (hs : Rendered r s) :
    Filled b vcs first n m s := by
  refine ⟨?_, ?_, hs.sequence.trans h.sequence, hs.hits.trans h.hits⟩
  · intro slot hslot
    rcases hs.verts slot with zero | ⟨index, -⟩
    · exact .inl zero
    · rw [index]
      exact h.verts slot hslot
  · intro unlocked slot
    rw [Bool.eq_false_iff]
    intro locked
    have before := hs.locks slot locked
    rw [h.unlocked unlocked slot] at before
    exact Bool.noConfusion before

private theorem Filled.set (h : Filled b vcs first n m r) {slot : Nat} (hslot : slot < 8)
    {v : Vertex} (hv : (∀ slot, (m.verts slot).locked = false) → v.locked = false) :
    Filled b vcs first n m (r.set slot v) := by
  refine ⟨?_, ?_, h.sequence, h.hits⟩
  · intro i hi
    rw [Machine.set_other _ _ _ (by omega)]
    exact h.verts i hi
  · intro unlocked i
    rw [Machine.set_verts]
    split_ifs
    · exact hv unlocked
    · exact h.unlocked unlocked i

private theorem Filled.after {m' : Machine} (h : Filled b vcs first n m' r)
    (hverts : ∀ slot, 8 ≤ slot → m'.verts slot = m.verts slot)
    (hlocked : ∀ slot, (m'.verts slot).locked = (m.verts slot).locked)
    (sequence : m'.sequence = m.sequence) (hits : m'.hits = m.hits) :
    Filled b vcs first n m r := by
  refine ⟨?_, ?_, h.sequence.trans sequence, h.hits.trans hits⟩
  · intro slot hslot
    rw [← hverts slot hslot]
    exact h.verts slot hslot
  · intro unlocked
    exact h.unlocked fun slot => (hlocked slot).trans (unlocked slot)

private theorem Filled.add (h : Filled b vcs first vcs m r)
    (h' : Filled b vcs (first + vcs) n r s) : Filled b vcs first (vcs + n) m s := by
  refine ⟨?_, h'.unlocked ∘ h.unlocked, h'.sequence.trans h.sequence, h'.hits.trans h.hits⟩
  intro slot hslot
  rcases h'.verts slot hslot with zero | ⟨k, hk, last, place, index⟩ | ⟨outside, index⟩
  · exact .inl zero
  · right; left
    refine ⟨vcs + k, by omega, by omega, by rw [place, Nat.add_mod_left], ?_⟩
    rw [index]
    omega
  · rw [index]
    rcases h.verts slot hslot with zero | ⟨k, hk, -, place, index'⟩ | ⟨outside', index'⟩
    · exact .inl zero
    · -- the vertex of the first batch is not compiled over
      rw [Nat.mod_eq_of_lt hk] at place
      right; left
      exact ⟨k, by omega, by omega, by rw [Nat.mod_eq_of_lt hk, place], index'⟩
    · right; right
      exact ⟨by omega, index'⟩

private theorem filled_batches {S : Type} (machine : S → Machine) {least : Nat}
    (hleast : 0 < least) (hvcs : least ≤ vcs) {body : S → Int → Nat → Nat → S}
    (hbody : ∀ s first num rest, num ≤ vcs →
      Filled b vcs first num (machine s) (machine (body s first num rest)))
    (s : S) (first : Int) (count : Nat) : Filled b vcs first (batched vcs least count)
      (machine s) (machine (batches vcs least body s first count)) := by
  induction count using Nat.strong_induction_on generalizing s first with
  | _ count ih =>
    by_cases stop : count < least
    · rw [batches_stop (.inl stop), batched_few hvcs stop]
      exact .none
    · rw [batches_step (by omega) (by omega) (by omega)]
      have batch := hbody s first (min vcs count) (count - min vcs count) (by omega)
      by_cases full : vcs ≤ count
      · rw [Nat.min_eq_left full] at batch ⊢
        rw [batched_full full]
        exact batch.add (ih (count - vcs) (by omega) _ _)
      · rw [Nat.min_eq_right (by omega)] at batch ⊢
        rw [batched_last (by omega) (by omega), batches_stop (by omega)]
        exact batch

variable (p : Pipeline)

private theorem compileElements_locked (m : Machine) (slot : Nat) (first : Int) (num i : Nat) :
    ((compileElements p m slot first num).verts i).locked = (m.verts i).locked := by
  obtain ⟨outer, inner, -⟩ := compileRun_spec p num m slot (elementOf first) first
  by_cases outside : i < slot ∨ slot + num ≤ i
  · rw [compileElements, outer i outside]
  · have compiled := inner (i - slot) (by omega)
    rw [show slot + (i - slot) = i by omega] at compiled
    rw [compileElements, compiled, p.compileVertex_locked]

private theorem filled_compileElements (m : Machine) (slot : Nat) (first : Int) {num vcs : Nat}
    (hnum : num ≤ vcs) : Filled slot vcs first num m (compileElements p m slot first num) := by
  obtain ⟨outer, inner, -, -, -, hits, -, sequence⟩ :=
    compileRun_spec p num m slot (elementOf first) first
  refine ⟨?_, ?_, sequence, hits⟩
  · intro i _
    by_cases outside : i < slot ∨ slot + num ≤ i
    · right; right
      exact ⟨by omega, by rw [compileElements, outer i outside]⟩
    · right; left
      have place : i = slot + (i - slot) := by omega
      have small : (i - slot) % vcs = i - slot := Nat.mod_eq_of_lt (by omega)
      refine ⟨i - slot, by omega, by omega, by rw [small]; exact place, ?_⟩
      have compiled := inner (i - slot) (by omega)
      rw [← place] at compiled
      rw [compileElements, compiled, p.compileVertex_index]
  · intro unlocked i
    rw [compileElements_locked, unlocked]

end Filled

section Runs

variable (p : Pipeline)

private theorem renderPreorder_rendered : RenderPreorder p Rendered where
  refl := .refl
  trans := .trans
  point := rendered_renderPoint p
  line := rendered_renderLine p
  triangle := rendered_renderTriangle p

private theorem filled_separate {least : Nat} (hleast : 0 < least) (hvcs : least ≤ 72)
    {draw : Nat → Machine → Nat → Machine} (hdraw : ∀ num m, Rendered m (draw num m 0))
    (m : Machine) (first : Int) (count : Nat) :
    Filled 0 72 first (batched 72 least count) m (batches 72 least (fun m first num _ =>
      let m := compileElements p { m with cull := clipAll } 0 first num
      if m.cull = 0 then draw num m 0 else m) m first count) := by
  apply filled_batches id hleast hvcs
  intro m first num _ hnum
  have compiled := filled_compileElements p { m with cull := clipAll } 0 first hnum
  refine Filled.after (compiled.rendered ?_) (fun _ _ => rfl) (fun _ => rfl) rfl rfl
  exact rendered_ite (.refl _) (hdraw num _)

private theorem filled_lineBatch {num : Nat} (m : Machine) (first : Int) (rest : Nat)
    (hnum : num ≤ 71) : Filled 1 71 first num m (lineBatch p m first num rest) := by
  have compiled := filled_compileElements p m 1 first hnum
  set r := compileElements p m 1 first num with hr
  have drawn : Filled 1 71 first num m
      (if r.cull = 0 then lineRun p num r 1 0 else (r, 0)).1 := by
    split_ifs
    · exact compiled.rendered ((renderPreorder_rendered p).lineRun num r 1 0)
    · exact compiled
  simp only [lineBatch, ← hr]
  set d := if r.cull = 0 then lineRun p num r 1 0 else (r, 0)
  have stored := drawn.set (show 0 < 8 by decide) fun unlocked => drawn.unlocked unlocked d.2
  exact ⟨stored.verts, stored.unlocked, stored.sequence, stored.hits⟩

private theorem filled_fanOrStripBatch {num : Nat} (s : Machine × Nat) (first : Int) (rest : Nat)
    (hnum : num ≤ 70) : Filled 2 70 first num s.1 (fanOrStripBatch p s first num rest).1 := by
  have compiled := filled_compileElements p s.1 2 first hnum
  set r := compileElements p s.1 2 first num with hr
  have drawn : Filled 2 70 first num s.1
      (if r.cull = 0 then fanOrStripRun p num r 2 0 1 s.2 else (r, s.2)).1 := by
    split_ifs
    · exact compiled.rendered ((renderPreorder_rendered p).fanOrStripRun num r 2 0 1 s.2)
    · exact compiled
  simp only [fanOrStripBatch, ← hr]
  set d := if r.cull = 0 then fanOrStripRun p num r 2 0 1 s.2 else (r, s.2)
  have v1 (unlocked : ∀ slot, (s.1.verts slot).locked = false) := drawn.unlocked unlocked 71
  split_ifs
  · have stored := (drawn.set (show 0 < 8 by decide) fun unlocked =>
      drawn.unlocked unlocked 70).set (show 1 < 8 by decide) v1
    exact ⟨stored.verts, stored.unlocked, stored.sequence, stored.hits⟩
  · have stored := drawn.set (show 1 < 8 by decide) v1
    exact ⟨stored.verts, stored.unlocked, stored.sequence, stored.hits⟩
  · exact drawn

private theorem filled_lineStrip (m : Machine) (first : Int) (count : Nat) :
    Filled 1 71 (first + 1) (count - 1) m (drawPrimitivesLineStrip p m first count) := by
  unfold drawPrimitivesLineStrip
  split_ifs with few
  · rw [show count - 1 = 0 by omega]
    exact .none
  · have run := filled_batches id (b := 1) (by decide) (show 1 ≤ 71 by decide)
      (fun m first num rest h => filled_lineBatch p m first rest h)
      (compileElement p { m with cull := clipAll } 0 first) (first + 1) (count - 1)
    rw [batched_one] at run
    exact run.after (fun slot hslot => compileAt_other _ _ _ _ _ (by omega))
      (fun slot => compileElement_locked p _ 0 slot first) rfl rfl

private theorem filled_fanOrStrip (m : Machine) (first : Int) (count winding : Nat) :
    Filled 2 70 (first + 2) (count - 2) m
      (drawPrimitivesTriangleFanOrStrip p m first count winding) := by
  unfold drawPrimitivesTriangleFanOrStrip
  split_ifs with few
  · rw [show count - 2 = 0 by omega]
    exact .none
  · have run := filled_batches Prod.fst (b := 2) (by decide) (show 1 ≤ 70 by decide)
      (fun s first num rest h => filled_fanOrStripBatch p s first rest h)
      (compileElements p { m with cull := clipAll } 0 first 2, winding) (first + 2) (count - 2)
    rw [batched_one] at run
    obtain ⟨outer, -, -, -, -, hits, -, sequence⟩ :=
      compileRun_spec p 2 { m with cull := clipAll } 0 (elementOf first) first
    exact run.after (fun slot hslot => outer slot (by omega))
      (fun slot => compileElements_locked p _ 0 first 2 slot) sequence hits

private theorem filled_lineLoop (m : Machine) (first : Int) (count : Nat) :
    Filled 1 71 (first + 1) (count - 1) m (drawPrimitivesLineLoop p m first count) := by
  have strip := filled_lineStrip p m first count
  unfold drawPrimitivesLineLoop
  split_ifs with few more
  · rw [show count - 1 = 0 by omega]
    exact .none
  · -- the first vertex is compiled once more, into entry 1
    set r := drawPrimitivesLineStrip p m first count
    have stored := @Filled.set _ _ _ _ _ _ strip 1 (by decide)
      (p.compileVertex (r.verts 1) (elementOf first) first r.draw).2 fun unlocked => by
        rw [p.compileVertex_locked, strip.unlocked unlocked]
    have again : Filled 1 71 (first + 1) (count - 1) m (compileElement p r 1 first) :=
      ⟨stored.verts, stored.unlocked, stored.sequence, stored.hits⟩
    exact again.rendered (rendered_ite (.refl _) (rendered_renderLine p _ 0 1))
  · exact strip

theorem filled_drawArrays (mode : Mode) (m : Machine) (first : Int) (count : Nat) :
    Filled (ahead mode) (batchSize mode) (first + ahead mode)
      (compiledCount mode count - ahead mode) m (drawArraysPrims p mode m first count) := by
  have none {b vcs : Nat} {first : Int} : Filled b vcs first 0 m m :=
    .none
  have lines : (if count < 2 then 0 else count) - 1 = count - 1 := by
    split_ifs <;> omega
  have triangles : (if count < 3 then 0 else count) - 2 = count - 2 := by
    split_ifs <;> omega
  cases mode <;> simp only [ahead, batchSize, compiledCount, drawArraysPrims, lines, triangles,
    Int.natCast_zero, Int.add_zero, Nat.sub_zero]
  case points =>
    unfold drawPrimitivesPoints
    split_ifs with few
    · rw [show count = 0 by omega]
      exact none
    · have run := filled_separate p (show 0 < 1 by decide) (by decide)
        (fun num m => (renderPreorder_rendered p).pointRun num m 0) m first count
      rwa [batched_one] at run
  case lines =>
    unfold drawPrimitivesLines
    split_ifs with few
    · rw [batched_few (by decide) few]
      exact none
    · exact filled_separate p (by decide) (by decide) (fun num m => (renderPreorder_rendered p).linesRun num m 0)
        m first count
  case triangles =>
    unfold drawPrimitivesTriangles
    split_ifs with few
    · rw [batched_few (by decide) few]
      exact none
    · exact filled_separate p (by decide) (by decide)
        (fun num m => (renderPreorder_rendered p).trianglesRun num m 0) m first count
  case lineLoop => exact filled_lineLoop p m first count
  case lineStrip => exact filled_lineStrip p m first count
  case triangleStrip => exact filled_fanOrStrip p m first count 1
  case triangleFan => exact filled_fanOrStrip p m first count 2

end Runs

def cullsAll (p : Pipeline) : Bool := p.cullEnable && p.cullFace = GL.frontAndBack

/-- A call of `glDrawArrays` leaves no vertex in the entry its own index maps to, unless the index
is below the end of the current sequence or does not fit 31 bits. -/
def TagsFit (m : Machine) : DrawCall → Prop
  | .elements _ _ _ => True
  | .arrays p mode first count => cullsAll p ∨
    ∀ k < compiledCount mode count, compiledCount mode count ≤ k + batchSize mode →
      ∀ t : Nat, first + k = t → cacheSlot t = arraySlot mode k →
        t < m.sequence + indexSeq ∨ 0x80000000 ≤ t

theorem between_init : Between Machine.init := by
  refine ⟨⟨rfl, by decide, ?_, by simp [Machine.init]⟩, fun _ => rfl⟩
  intro t tag _
  have zero : t = 0 := by
    have : (0 : Int) = t := tag
    omega
  rw [zero]
  decide

private theorem Between.glDrawElements {m : Machine} (h : Between m) (p : Pipeline) (mode : Mode)
    (indices : List Index) : Between (glDrawElements p m mode indices) := by
  have counted : Between { m with draw := m.draw + 1 } :=
    ⟨⟨h.aligned, h.bounded, h.before, h.hits⟩, h.unlocked⟩
  simp only [Draw.glDrawElements]
  split_ifs
  · exact counted
  · exact ((indexInvariant_indexed p).drawElements counted.clear mode indices).finish

private theorem Between.glDrawArrays {m : Machine} (h : Between m) {p : Pipeline} {mode : Mode}
    {first : Int} {count : Nat} (fit : TagsFit m (.arrays p mode first count)) :
    Between (glDrawArrays p m mode first count) := by
  have counted : Between { m with draw := m.draw + 1 } :=
    ⟨⟨h.aligned, h.bounded, h.before, h.hits⟩, h.unlocked⟩
  simp only [Draw.glDrawArrays]
  split_ifs with nothing
  · exact counted
  have drawn : ¬ cullsAll p = true := by
    intro culled
    simp only [cullsAll] at culled
    simp [culled] at nothing
  obtain ⟨verts, unlocked, sequence, hits⟩ :=
    filled_drawArrays p mode { m with draw := m.draw + 1 } first count
  refine ⟨⟨by rw [sequence]; exact h.aligned, by rw [sequence]; exact h.bounded, ?_,
    by rw [hits]; exact h.hits⟩, unlocked h.unlocked⟩
  intro t tag ht
  rw [sequence]
  show t < m.sequence + indexSeq
  have slots := cacheSlot_bounds t
  rcases verts (cacheSlot t) slots.1 with zero | ⟨k, hk, last, place, index⟩ | ⟨-, old⟩
  · have : t = 0 := by omega
    rw [this]
    exact Nat.lt_of_lt_of_le (by decide) (Nat.le_add_left indexSeq m.sequence)
  · have position : arraySlot mode (k + ahead mode) = cacheSlot t := by
      rw [arraySlot, if_neg (by omega), Nat.add_sub_cancel, place]
    have value : first + ((k + ahead mode : Nat) : Int) = t := by omega
    have fits := fit.resolve_left drawn (k + ahead mode) (by omega) (by omega) t value position.symm
    exact fits.resolve_right (by omega)
  · exact h.before t (old.symm.trans tag) ht

theorem Between.step {m : Machine} {call : DrawCall} (h : Between m) (fit : TagsFit m call) :
    Between (step m call) := by
  cases call with
  | arrays p mode first count => exact h.glDrawArrays fit
  | elements p mode indices => exact h.glDrawElements p mode indices

/-- In a run of draw calls whose arrays leave no tag of a later call behind, every hit up to any
point of the run finds the element of its index, compiled by the draw call itself. -/
theorem cache_hits_current {calls pre : List DrawCall}
    (h : Guarded step TagsFit Machine.init calls) (hpre : pre <+: calls) :
    ∀ hit ∈ (run step Machine.init pre).hits, Current hit := by
  have between : Between (run step Machine.init pre) :=
    run_invariant (fun _ _ hm => hm.step) between_init (h.of_prefix hpre)
  exact between.hits

/-- Arrays and index lists drawn in turn. -/
theorem cache_hits_current_mixed :
    let p := Pipeline.flat fun _ => ⟨0, 0, 0, 0⟩
    let calls := [.arrays p .points 0 10, .elements p .points [3, 3], .elements p .points [3]]
    ∀ hit ∈ (run step Machine.init calls).hits, Current hit := by
  intro p calls
  refine @cache_hits_current calls calls ?_ (List.prefix_refl _)
  refine ⟨.inr ?_, trivial, trivial, trivial⟩
  intro k hk _ t ht _
  left
  simp only [compiledCount] at hk
  simp only [indexSeq]
  omega

/-- The ninth point of an array has the tag of index 0 in the first sequence, in the same entry. -/
theorem array_tag_taken_for_index :
    ¬ ∀ hit ∈ (run step Machine.init [.arrays (.flat fun _ => ⟨0, 0, 0, 0⟩) .points 65528 9,
      .elements (.flat fun _ => ⟨0, 0, 0, 0⟩) .points [0]]).hits, Current hit := by
  have fit (p : Pipeline) (m : Machine) := drawPrimitivesPoints_fit p (show 0 < 9 by decide)
    (by decide) m 65528
  intro current
  have found : (run step Machine.init [.arrays (.flat fun _ => ⟨0, 0, 0, 0⟩) .points 65528 9,
      .elements (.flat fun _ => ⟨0, 0, 0, 0⟩) .points [0]]).hits = [⟨65536, ⟨1, 65536⟩, 2⟩] := by
    simp only [run_cons, run_nil, step, glDrawArrays, drawArraysPrims, fit]
    decide +kernel
  have hit := current ⟨65536, ⟨1, 65536⟩, 2⟩ (by rw [found]; exact List.mem_singleton_self _)
  revert hit
  unfold Current
  decide

end RabbitRender.Arrays.CacheCoherence
