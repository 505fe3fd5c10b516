/- RabbitRender/Arrays/IndexedTriangles
   layer: result
   source: swrender/array.cpp
   digest: The triangles of indexed strips and fans, and the cache entries in use between them. -/

import RabbitRender.Arrays.CacheCoherence
import RabbitRender.Arrays.Triangles

set_option autoImplicit false

namespace RabbitRender.Arrays.IndexedTriangles

open Vertices Arrays.Compile Arrays.Draw Arrays.Trace Arrays.Triangles Arrays.CacheCoherence
open Lib.GuardedRun
open Primitives (renderTriangle shaded_renderTriangle)

def untagged (s : Shape) : Shape := { s with index := s.index % (indexSeq : Int) }

def element (p : Pipeline) (i : Index) : Shape := untagged (p.seen (p.compiled i (i : Nat)))

def elementTrace (p : Pipeline) (m : Machine) : List (List Shape) :=
  (trace p m).map (List.map untagged)

section Elements

variable (p : Pipeline)

theorem compiled_retag (e : Nat) (a b : Int) :
    p.compiled e a = { p.compiled e b with index := a } := by
  simp only [Pipeline.compiled, Pipeline.compileVertex, Pipeline.divide]
  cases p.divider with
  | validate => rfl
  | perspective2D => rfl
  | perspective3D | perspective3DZ =>
    simp only [Pipeline.clipFrustumPerspective]
    split_ifs <;> rfl
  | clipAllPerspective3D | clipAllPerspective3DZ =>
    simp only [Pipeline.clipAllPerspective, Pipeline.clipFrustumPerspective]
    split_ifs <;> rfl

private theorem untagged_compiled {i : Index} {t : Nat} (ht : t % indexSeq = i) :
    untagged (p.seen (p.compiled i t)) = element p i := by
  have same : ((t : Nat) : Int) % (indexSeq : Int) = ((i : Nat) : Int) % (indexSeq : Int) := by
    have range := i.isLt
    simp only [indexSeq] at ht ⊢
    omega
  have retag (a : Int) : untagged (p.seen (p.compiled i a)) =
      { p.seen (p.compiled i 0) with index := a % (indexSeq : Int) } := by
    rw [compiled_retag p i a 0]
    rfl
  rw [element, retag, retag, same]

theorem element_outside (i : Index) : (element p i).outside = (p.compiled i (i : Nat)).outside :=
  p.outside_seen _

private theorem issue_untagged (a b c : Shape) :
    (issue a b c).map (List.map untagged) = issue (untagged a) (untagged b) (untagged c) := by
  simp only [issue]
  split_ifs with h h' h'
  · rfl
  · exact absurd h h'
  · exact absurd h' h
  · rfl

end Elements

-- The function holds on to two entries between triangles: one that it drops after the next
-- triangle, and one that it keeps.
/-- An entry in use. `resident` is the index of an entry of the cache, and none for an entry of
the buffer; the flag of the latter does not matter. -/
structure Held where
  resident : Option Index
  locked : Bool
deriving DecidableEq, Repr

namespace Held

def buffer : Held := ⟨none, false⟩

/-- Index `i` maps to the entry, which holds another one. -/
def contends (h : Held) (i : Index) : Bool :=
  match h.resident with
  | some x => x ≠ i && cacheSlot x = cacheSlot i
  | none => false

/-- The kept entry after index `i`: a hit locks it, and dropping the entry unlocks it if both are
one entry. -/
def keep (kept dropped : Held) (i : Index) : Held :=
  { kept with
    locked := (kept.locked || kept.resident = some i) && kept.resident ≠ dropped.resident }

/-- The entry of index `i`: one of the buffer if its entry of the cache is in use for another
index. -/
def fetched (kept dropped : Held) (i : Index) : Held :=
  { resident := if kept.contends i || dropped.contends i then none else some i
    locked := dropped.resident ≠ some i }

theorem contends_iff {h : Held} {i : Index} :
    h.contends i ↔ ∃ x, h.resident = some x ∧ x ≠ i ∧ cacheSlot x = cacheSlot i := by
  unfold contends
  cases h.resident <;> simp

end Held

/-- No index takes an entry in use, which only the lock of the entry prevents. After each triangle
a strip keeps its newest entry, and a fan the one of its first vertex. -/
def Undisturbed (winding : Nat) : (kept dropped : Held) → List Index → Prop
  | _, _, [] => True
  | kept, dropped, i :: indices =>
    (kept.contends i → kept.locked) ∧ (dropped.contends i → dropped.locked) ∧
      if winding = 1 then Undisturbed winding (kept.fetched dropped i) (kept.keep dropped i) indices
      else Undisturbed winding (kept.keep dropped i) (kept.fetched dropped i) indices

instance decidableUndisturbed (winding : Nat) : ∀ (kept dropped : Held) (indices : List Index),
    Decidable (Undisturbed winding kept dropped indices)
  | _, _, [] => .isTrue trivial
  | kept, dropped, i :: indices =>
    have := decidableUndisturbed winding (kept.fetched dropped i) (kept.keep dropped i) indices
    have := decidableUndisturbed winding (kept.keep dropped i) (kept.fetched dropped i) indices
    inferInstanceAs (Decidable (_ ∧ _ ∧ if winding = 1 then _ else _))

def EntriesKept (winding : Nat) : List Index → Prop
  | _ :: _ :: indices => Undisturbed winding .buffer .buffer indices
  | _ => True

section Fetch

variable (p : Pipeline) {m : Machine} {i : Index}

/-- What the entry that `fetch_vertex` returns holds, and what it leaves alone. -/
structure Fetched (m r : Machine) (v : Nat) (i : Index) : Prop where
  others : ∀ slot, slot ≠ v → r.verts slot = m.verts slot
  locked : (r.verts v).locked = true
  shape : untagged (p.seen (r.verts v)) = element p i
  sequence : r.sequence = m.sequence
  calls : r.calls = m.calls

/-- The entries of the cache that index `i` hits hold its element. -/
def Coherent (m : Machine) : Prop := ∀ i : Index,
  (m.verts (cacheSlot i)).index = (m.sequence + i : Nat) →
    untagged (p.seen (m.verts (cacheSlot i))) = element p i

theorem cacheSlot_sequence (aligned : m.sequence % indexSeq = 0) (i : Index) :
    cacheSlot (m.sequence + i) = cacheSlot i := by
  simp only [cacheSlot, vertexBufferSize, vertexCacheSize, indexSeq] at aligned ⊢
  omega

private theorem fetched_compiled (aligned : m.sequence % indexSeq = 0) (slot : Nat) :
    Fetched p m (lock (compileElement p m slot (m.sequence + i : Nat)) slot) slot i ∧
      ((lock (compileElement p m slot (m.sequence + i : Nat)) slot).verts slot).index =
        (m.sequence + i : Nat) := by
  have low : (m.sequence + i) % indexSeq = i := by
    have range := i.isLt
    simp only [indexSeq] at aligned ⊢
    omega
  refine ⟨⟨?_, ?_, ?_, rfl, rfl⟩, ?_⟩
  · intro other h
    rw [lock, Machine.set_other _ _ _ h, compileElement, compileAt_other _ _ _ _ _ h]
  · rw [lock, Machine.set_same]
  · rw [lock, Machine.set_same, compileElement, compileAt_same, elementOf_natCast, low]
    exact (congrArg untagged (p.seen_compileVertex _ _ _ _)).trans (untagged_compiled p low)
  · rw [lock, Machine.set_same, compileElement, compileAt_same]
    exact p.compileVertex_index _ _ _ _

/-- A fetch returns the entry of the index, by a hit or because the entry is not locked, or an
entry of the buffer. -/
private theorem fetchVertex_spec (aligned : m.sequence % indexSeq = 0) (coherent : Coherent p m)
    (i : Index) :
    let r := fetchVertex p m i
    Fetched p m r.1 r.2 i ∧
      (r.2 = cacheSlot i ∧ (r.1.verts r.2).index = (m.sequence + i : Nat) ∧
          ((m.verts (cacheSlot i)).index = (m.sequence + i : Nat) ∨
            (m.verts (cacheSlot i)).locked = false) ∨
        r.2 = spareSlot m ∧ (m.verts (cacheSlot i)).index ≠ (m.sequence + i : Nat) ∧
          (m.verts (cacheSlot i)).locked = true) := by
  have slot := cacheSlot_sequence aligned i
  simp only [fetchVertex, or_sequence aligned, slot]
  split_ifs with hit
  · refine ⟨⟨?_, ?_, ?_, rfl, rfl⟩, .inl ⟨rfl, ?_, .inl hit⟩⟩
    · intro other h
      rw [lock, Machine.set_other _ _ _ h]
    · rw [lock, Machine.set_same]
    · rw [lock, Machine.set_same]
      exact coherent i hit
    · rw [lock, Machine.set_same]
      exact hit
  · simp only [cacheVertex]
    split_ifs with locked
    · exact ⟨(fetched_compiled p aligned _).1, .inr ⟨rfl, hit, locked⟩⟩
    · obtain ⟨fetched, tag⟩ := @fetched_compiled p m i aligned (cacheSlot i)
      exact ⟨fetched, .inl ⟨rfl, tag, .inr (by simpa using locked)⟩⟩

end Fetch

section Uses

variable (p : Pipeline)

/-- Entry `slot` is the one in use, with geometry `s`. -/
structure Holds (m : Machine) (slot : Nat) (h : Held) (s : Shape) : Prop where
  shape : untagged (p.seen (m.verts slot)) = s
  buffer : h.resident = none → slot < 8 ∧ (2 ≤ slot → (m.verts slot).locked = true)
  cache : ∀ x, h.resident = some x → slot = cacheSlot x ∧
    (m.verts slot).index = (m.sequence + x : Nat) ∧ (m.verts slot).locked = h.locked

/-- The kept and the dropped entry: only they are locked, and two of the buffer are not one. -/
structure Uses (m : Machine) (kept dropped : Nat) (hk hd : Held) (sk sd : Shape) : Prop where
  aligned : m.sequence % indexSeq = 0
  holdsKept : Holds p m kept hk sk
  holdsDropped : Holds p m dropped hd sd
  apart : kept = dropped → 8 ≤ kept
  locks : ∀ slot, (m.verts slot).locked = true → slot = kept ∨ slot = dropped
  coherent : Coherent p m

variable {p} {m r w : Machine} {slot kept dropped v : Nat} {h hk hd : Held} {s sk sd : Shape}
  {i : Index}

theorem Uses.swap (u : Uses p m kept dropped hk hd sk sd) : Uses p m dropped kept hd hk sd sk :=
  ⟨u.aligned, u.holdsDropped, u.holdsKept, fun same => same ▸ u.apart same.symm,
    fun slot locked => (u.locks slot locked).symm, u.coherent⟩

private theorem Holds.resident (holds : Holds p m slot h s) (hslot : 8 ≤ slot) :
    ∃ x, h.resident = some x := by
  cases resident : h.resident with
  | none =>
    have := (holds.buffer resident).1
    omega
  | some x => exact ⟨x, rfl⟩

private theorem Holds.shape_resident (holds : Holds p m slot h s) (coherent : Coherent p m)
    {x : Index} (hx : h.resident = some x) : s = element p x := by
  obtain ⟨place, tag, -⟩ := holds.cache x hx
  rw [place] at tag
  rw [← coherent x tag, ← place, holds.shape]

private theorem Uses.same (u : Uses p m kept dropped hk hd sk sd) {x : Index}
    (hx : hk.resident = some x) : kept = dropped ↔ hk.resident = hd.resident := by
  obtain ⟨place, tag, -⟩ := u.holdsKept.cache x hx
  constructor
  · intro one
    obtain ⟨y, hy⟩ := u.holdsDropped.resident (one ▸ u.apart one)
    obtain ⟨-, tag', -⟩ := u.holdsDropped.cache y hy
    rw [← one, tag] at tag'
    rw [hx, hy, Option.some.injEq, Fin.ext_iff]
    omega
  · intro equal
    rw [place, (u.holdsDropped.cache x (equal ▸ hx)).1]

private theorem spareSlot_ne {other : Nat}
    (only : ∀ slot, slot < 8 → (m.verts slot).locked = true → slot = other)
    (locked : 2 ≤ other → other < 8 → (m.verts other).locked = true) : spareSlot m ≠ other := by
  have second := only 2 (by omega)
  have third := only 3 (by omega)
  intro spare
  have range := spareSlot_bounds m
  have taken := locked (by omega) (by omega)
  unfold spareSlot at spare
  cases h2 : (m.verts 2).locked <;> cases h3 : (m.verts 3).locked <;>
    simp only [h2, h3] at spare second third
  · have two : other = 2 := by
      rw [← spare]
      rfl
    rw [two, h2] at taken
    exact absurd taken (by decide)
  · rw [← third trivial] at spare
    exact absurd spare (by decide)
  · rw [← second trivial] at spare
    exact absurd spare (by decide)
  · rw [← second trivial] at spare
    exact absurd spare (by decide)

private theorem Uses.spareSlot_ne_dropped (u : Uses p m kept dropped hk hd sk sd)
    (hslot : 8 ≤ kept) : spareSlot m ≠ dropped := by
  refine spareSlot_ne ?_ ?_
  · intro slot small locked
    rcases u.locks slot locked with one | other
    · omega
    · exact other
  · intro low high
    cases resident : hd.resident with
    | none => exact (u.holdsDropped.buffer resident).2 low
    | some x =>
      have := cacheSlot_bounds x
      have := (u.holdsDropped.cache x resident).1
      omega

private theorem Uses.spareSlot_ne (u : Uses p m kept dropped hk hd sk sd)
    (locked : (m.verts (cacheSlot i)).locked = true) :
    spareSlot m ≠ kept ∧ spareSlot m ≠ dropped := by
  have spare := spareSlot_bounds m
  have bounds := cacheSlot_bounds i
  rcases u.locks _ locked with one | one
  · exact ⟨by omega, u.spareSlot_ne_dropped (by omega)⟩
  · exact ⟨u.swap.spareSlot_ne_dropped (by omega), by omega⟩

structure HoldsFetched (p : Pipeline) (m r : Machine) (v slot : Nat) (h : Held) (s : Shape) (i : Index) :
    Prop where
  shape : untagged (p.seen (r.verts slot)) = s
  index : ∀ x, h.resident = some x → (r.verts slot).index = (m.sequence + x : Nat)
  same : slot = v ↔ h.resident = some i

private theorem Holds.fetched (holds : Holds p m slot h s) (coherent : Coherent p m)
    (ok : h.contends i → h.locked) (fetched : Fetched p m r v i)
    (place : v = cacheSlot i ∧ (r.verts v).index = (m.sequence + i : Nat) ∧
        ((m.verts (cacheSlot i)).index = (m.sequence + i : Nat) ∨
          (m.verts (cacheSlot i)).locked = false) ∨
      v ≠ slot ∧ (m.verts (cacheSlot i)).index ≠ (m.sequence + i : Nat)) :
    HoldsFetched p m r v slot h s i := by
  have same : slot = v ↔ h.resident = some i := by
    constructor
    · intro one
      rcases place with ⟨hv, -, free⟩ | ⟨apart, -⟩
      · have bounds := cacheSlot_bounds i
        obtain ⟨x, hx⟩ := holds.resident (by omega)
        obtain ⟨hslot, tag, locked⟩ := holds.cache x hx
        by_cases equal : x = i
        · rw [hx, equal]
        · -- the entry is in use for another index, and its lock has kept the index out
          have contends : h.contends i = true :=
            Held.contends_iff.mpr ⟨x, hx, equal, by rw [← hslot, one, hv]⟩
          rw [one, hv] at tag locked
          rcases free with hit | unlocked
          · rw [tag] at hit
            exact absurd (Fin.ext (by omega)) equal
          · rw [unlocked] at locked
            rw [← locked] at ok
            exact absurd (ok contends) (by decide)
      · exact absurd one.symm apart
    · intro resident
      obtain ⟨hslot, tag, -⟩ := holds.cache i resident
      rcases place with ⟨hv, -⟩ | ⟨-, miss⟩
      · rw [hslot, hv]
      · rw [hslot] at tag
        exact absurd tag miss
  refine ⟨?_, ?_, same⟩
  · by_cases one : slot = v
    · rw [holds.shape_resident coherent (same.mp one), one, fetched.shape]
    · rw [fetched.others slot one, holds.shape]
  · intro x hx
    by_cases one : slot = v
    · rcases place with ⟨-, tag, -⟩ | ⟨apart, -⟩
      · have equal : i = x := by
          rw [same.mp one, Option.some.injEq] at hx
          exact hx
        rw [one, tag, equal]
      · exact absurd one.symm apart
    · rw [fetched.others slot one, (holds.cache x hx).2.1]

structure UsesFetched (p : Pipeline) (m r : Machine) (v kept dropped : Nat) (hk hd : Held) (sk sd : Shape)
    (i : Index) : Prop where
  fetched : Fetched p m r v i
  holdsKept : HoldsFetched p m r v kept hk sk i
  holdsDropped : HoldsFetched p m r v dropped hd sd i
  spare : (hk.fetched hd i).resident = none → v ≠ kept ∧ v ≠ dropped ∧ v < 8
  cache : ∀ x, (hk.fetched hd i).resident = some x → x = i ∧ v = cacheSlot i ∧
    (r.verts v).index = (m.sequence + i : Nat)

private theorem Uses.fetch (u : Uses p m kept dropped hk hd sk sd) (i : Index)
    (okKept : hk.contends i → hk.locked) (okDropped : hd.contends i → hd.locked) :
    let r := fetchVertex p m i
    UsesFetched p m r.1 r.2 kept dropped hk hd sk sd i := by
  intro r
  obtain ⟨fetched, found | ⟨spare, miss, locked⟩⟩ := fetchVertex_spec p u.aligned u.coherent i
  · have kept := u.holdsKept.fetched u.coherent okKept fetched (.inl found)
    have dropped := u.holdsDropped.fetched u.coherent okDropped fetched (.inl found)
    -- an entry of the cache that contends would be the one that was given out
    have free {slot : Nat} {h : Held} {s : Shape} (holds : Holds p m slot h s)
        (after : HoldsFetched p m r.1 r.2 slot h s i) : h.contends i = false := by
      rw [Bool.eq_false_iff]
      intro contends
      obtain ⟨x, hx, differs, one⟩ := Held.contends_iff.mp contends
      have resident := after.same.mp ((holds.cache x hx).1.trans (one.trans found.1.symm))
      rw [hx, Option.some.injEq] at resident
      exact differs resident
    have resident : (hk.fetched hd i).resident = some i := by
      simp only [Held.fetched, free u.holdsKept kept, free u.holdsDropped dropped]
      rfl
    refine ⟨fetched, kept, dropped, ?_, ?_⟩
    · intro none
      rw [resident] at none
      exact absurd none (by simp)
    · intro x hx
      rw [resident, Option.some.injEq] at hx
      exact ⟨hx.symm, found.1, found.2.1⟩
  · obtain ⟨notKept, notDropped⟩ := u.spareSlot_ne locked
    rw [← spare] at notKept notDropped
    have range := spareSlot_bounds m
    have bounds := cacheSlot_bounds i
    -- the locked entry is one of those in use, and holds another index
    have contends {slot : Nat} {h : Held} {s : Shape} (holds : Holds p m slot h s)
        (one : cacheSlot i = slot) : h.contends i = true := by
      obtain ⟨x, hx⟩ := holds.resident (by omega)
      obtain ⟨place, tag, -⟩ := holds.cache x hx
      refine Held.contends_iff.mpr ⟨x, hx, ?_, place.symm.trans one.symm⟩
      rintro rfl
      rw [← one] at tag
      exact miss tag
    have resident : (hk.fetched hd i).resident = none := by
      rcases u.locks _ locked with one | one
      · simp [Held.fetched, contends u.holdsKept one]
      · simp [Held.fetched, contends u.holdsDropped one]
    refine ⟨fetched, u.holdsKept.fetched u.coherent okKept fetched (.inr ⟨notKept, miss⟩),
      u.holdsDropped.fetched u.coherent okDropped fetched (.inr ⟨notDropped, miss⟩),
      fun _ => ⟨notKept, notDropped, spare.trans_lt (by omega)⟩, ?_⟩
    intro x hx
    rw [resident] at hx
    exact absurd hx (by simp)

private theorem unlock_spec (geometry : ∀ slot, SameGeometry (w.verts slot) (r.verts slot))
    (slot : Nat) :
    ((unlock w dropped).verts slot).index = (r.verts slot).index ∧
      p.seen ((unlock w dropped).verts slot) = p.seen (r.verts slot) ∧
      (((unlock w dropped).verts slot).locked = true ↔
        slot ≠ dropped ∧ (r.verts slot).locked = true) := by
  have drawn : p.seen (w.verts slot) = p.seen (r.verts slot) := (geometry slot).seen _
  by_cases one : slot = dropped
  · subst one
    rw [unlock, Machine.set_same, ← drawn, ← (geometry slot).index]
    exact ⟨rfl, rfl, by simp⟩
  · rw [unlock, Machine.set_other _ _ _ one, (geometry slot).locked]
    exact ⟨(geometry slot).index, drawn, by simp [one]⟩

private theorem Fetched.locked_iff (f : Fetched p m r v i) (slot : Nat) :
    (r.verts slot).locked = true ↔ slot = v ∨ (m.verts slot).locked = true := by
  by_cases one : slot = v
  · simp [one, f.locked]
  · simp [one, f.others slot one]

private theorem UsesFetched.drop (u : Uses p m kept dropped hk hd sk sd)
    (f : UsesFetched p m r v kept dropped hk hd sk sd i)
    (geometry : ∀ slot, SameGeometry (w.verts slot) (r.verts slot))
    (sequence : w.sequence = r.sequence) :
    Uses p (unlock w dropped) kept v (hk.keep hd i) (hk.fetched hd i) sk (element p i) := by
  have total : (unlock w dropped).sequence = m.sequence := sequence.trans f.fetched.sequence
  have after (slot : Nat) := @unlock_spec p r w dropped geometry slot
  have locks (slot : Nat) : ((unlock w dropped).verts slot).locked = true ↔
      slot ≠ dropped ∧ (slot = v ∨ (m.verts slot).locked = true) := by
    rw [(after slot).2.2, f.fetched.locked_iff]
  refine ⟨total ▸ u.aligned, ⟨?_, ?_, ?_⟩, ⟨?_, ?_, ?_⟩, ?_, ?_, ?_⟩
  · rw [(after kept).2.1, f.holdsKept.shape]
  · intro none
    obtain ⟨small, locked⟩ := u.holdsKept.buffer none
    refine ⟨small, fun low => (locks kept).mpr ⟨?_, .inr (locked low)⟩⟩
    intro one
    have := u.apart one
    omega
  · intro x hx
    have resident : hk.resident = some x := hx
    obtain ⟨place, -, locked⟩ := u.holdsKept.cache x resident
    refine ⟨place, by rw [(after kept).1, total, f.holdsKept.index x resident], ?_⟩
    rw [Bool.eq_iff_iff, locks, locked, f.holdsKept.same, Ne, u.same resident]
    simp only [Held.keep, Bool.and_eq_true, Bool.or_eq_true, decide_eq_true_eq]
    tauto
  · rw [(after v).2.1, f.fetched.shape]
  · intro none
    obtain ⟨-, notDropped, small⟩ := f.spare none
    exact ⟨small, fun _ => (locks v).mpr ⟨notDropped, .inl rfl⟩⟩
  · intro x hx
    obtain ⟨rfl, place, tag⟩ := f.cache x hx
    refine ⟨place, by rw [(after v).1, total, tag], ?_⟩
    have one : v ≠ dropped ↔ hd.resident ≠ some x := by
      rw [Ne, eq_comm, f.holdsDropped.same]
    rw [Bool.eq_iff_iff, locks, one]
    simp [Held.fetched]
  · intro one
    rw [(u.holdsKept.cache i (f.holdsKept.same.mp one)).1]
    exact (cacheSlot_bounds i).1
  · intro slot locked
    obtain ⟨notDropped, new | old⟩ := (locks slot).mp locked
    · exact .inr new
    · exact .inl ((u.locks slot old).resolve_right notDropped)
  · intro j tag
    rw [(after _).1, total] at tag
    rw [(after _).2.1]
    by_cases one : cacheSlot j = v
    · have bounds := cacheSlot_bounds j
      cases resident : (hk.fetched hd i).resident with
      | none =>
        have := (f.spare resident).2.2
        omega
      | some x =>
        obtain ⟨-, -, tag'⟩ := f.cache x resident
        rw [one, tag'] at tag
        rw [one, f.fetched.shape, show i = j from Fin.ext (by omega)]
    · rw [f.fetched.others _ one] at tag ⊢
      exact u.coherent j tag

end Uses

/-- Which of the two pointers is dropped, for the triangle before `k` more vertices were fetched. -/
inductive Turn (k kept dropped : Nat) : (winding w v0 v1 : Nat) → Prop
  | even (h : k % 2 = 0) : Turn k kept dropped 1 1 dropped kept
  | odd (h : k % 2 = 1) : Turn k kept dropped 1 0 kept dropped
  | fan {w : Nat} (h : w = 2 ∨ w = 3) : Turn k kept dropped 2 w kept dropped

/-- The geometry of the kept vertex before triangle `k`. -/
def keptShape (winding : Nat) (f : Nat → Shape) (k : Nat) : Shape :=
  if winding = 1 then f (k + 1) else f 0

/-- The geometry of the dropped vertex before triangle `k`. -/
def droppedShape (winding : Nat) (f : Nat → Shape) (k : Nat) : Shape :=
  if winding = 1 then f k else f (k + 1)

section Runs

variable (p : Pipeline)

/-- The vertex of index `i` is fetched, and the triangle drawn. -/
def drawn (m : Machine) (v0 v1 : Nat) (i : Index) : Machine :=
  let (m, v2) := fetchVertex p m i
  let cc := (m.verts v0).flags &&& (m.verts v1).flags &&& (m.verts v2).flags
  if cc &&& clipAll = 0 then renderTriangle p m v0 v1 v2 else m

private theorem drawn_spec (m : Machine) (v0 v1 : Nat) (i : Index) :
    let r := fetchVertex p m i
    let w := drawn p m v0 v1 i
    (∀ slot, SameGeometry (w.verts slot) (r.1.verts slot)) ∧ w.sequence = r.1.sequence ∧
      elementTrace p w = elementTrace p r.1 ++ issue (untagged (p.seen (r.1.verts v0)))
        (untagged (p.seen (r.1.verts v1))) (untagged (p.seen (r.1.verts r.2))) := by
  intro r w
  have issued := issued_renderTriangle p r.1 v0 v1 r.2
  have shaded := shaded_renderTriangle p r.1 v0 v1 r.2
  refine ⟨?_, ?_, ?_⟩
  · simp only [w, drawn]
    split_ifs
    · exact shaded.verts
    · exact fun slot => .refl _
  · simp only [w, drawn]
    split_ifs
    · exact shaded.sequence
    · rfl
  · rw [← issue_untagged, elementTrace, elementTrace, ← List.map_append]
    exact congrArg _ issued.trace

variable {winding k v0 v1 : Nat} {f : Nat → Shape} {indices : List Index}

theorem Turn.next {w kept dropped : Nat} (t : Turn k kept dropped winding w v0 v1) (m : Machine)
    (v2 : Nat) (i : Index) (indices : List Index) :
    let v := (fetchVertex p m i).2
    ∃ v0' v1' w', Turn (k + 1) (if winding = 1 then v else kept)
        (if winding = 1 then kept else v) winding w' v0' v1' ∧
      indexedFanOrStripRun p m v0 v1 v2 w (i :: indices) =
        indexedFanOrStripRun p (unlock (drawn p m v0 v1 i) dropped) v0' v1' v w' indices := by
  intro v
  cases t with
  | even h => exact ⟨v, v1, 0, .odd (by omega), rfl⟩
  | odd h => exact ⟨v0, v, 1, .even (by omega), rfl⟩
  | fan h =>
    rcases h with rfl | rfl
    · exact ⟨v0, v, 3, .fan (.inr rfl), rfl⟩
    · exact ⟨v0, v, 2, .fan (.inl rfl), rfl⟩

theorem Turn.triangle {w kept dropped : Nat} (t : Turn k kept dropped winding w v0 v1)
    {g : Nat → Shape} (hkept : g kept = keptShape winding f k)
    (hdropped : g dropped = droppedShape winding f k) :
    issue (g v0) (g v1) (f (k + 2)) = Triangles.triangle winding f k := by
  cases t with
  | even h =>
    rw [hkept, hdropped, Triangles.triangle, if_pos rfl, stripTriangle, if_pos h]
    rfl
  | odd h =>
    rw [hkept, hdropped, Triangles.triangle, if_pos rfl, stripTriangle, if_neg (by omega)]
    rfl
  | fan h =>
    rw [hkept, hdropped]
    rfl

private theorem Uses.next {m : Machine} {w kept dropped : Nat} {hk hd : Held} {i : Index}
    (u : Uses p m kept dropped hk hd (keptShape winding f k) (droppedShape winding f k))
    (t : Turn k kept dropped winding w v0 v1) (hi : f (k + 2) = element p i)
    (okKept : hk.contends i → hk.locked) (okDropped : hd.contends i → hd.locked) :
    let v := (fetchVertex p m i).2
    let r := unlock (drawn p m v0 v1 i) dropped
    elementTrace p r = elementTrace p m ++ Triangles.triangle winding f k ∧
      Uses p r (if winding = 1 then v else kept) (if winding = 1 then kept else v)
        (if winding = 1 then hk.fetched hd i else hk.keep hd i)
        (if winding = 1 then hk.keep hd i else hk.fetched hd i)
        (keptShape winding f (k + 1)) (droppedShape winding f (k + 1)) := by
  have fetched := u.fetch i okKept okDropped
  obtain ⟨geometry, sequence, trace⟩ := drawn_spec p m v0 v1 i
  have used := fetched.drop u geometry sequence
  rw [← hi] at used
  refine ⟨?_, ?_⟩
  · have calls : elementTrace p (fetchVertex p m i).1 = elementTrace p m :=
      congrArg (fun calls => (calls.map (shapes p)).map (List.map untagged)) fetched.fetched.calls
    rw [fetched.fetched.shape, ← hi, calls] at trace
    rw [← t.triangle (g := fun slot => untagged (p.seen ((fetchVertex p m i).1.verts slot)))
      fetched.holdsKept.shape fetched.holdsDropped.shape, ← trace]
    rfl
  · cases t with
    | fan _ => exact used
    | even _ => exact used.swap
    | odd _ => exact used.swap

def Shows (f : Nat → Shape) (k : Nat) (indices : List Index) : Prop :=
  ∀ j (h : j < indices.length), f (k + j) = element p indices[j]

theorem Shows.head {i : Index} (h : Shows p f k (i :: indices)) : f k = element p i := h 0 (by simp)

theorem Shows.tail {i : Index} (h : Shows p f k (i :: indices)) : Shows p f (k + 1) indices := by
  intro j hj
  have here := h (j + 1) (by simpa using hj)
  rwa [← Nat.add_assoc, Nat.add_right_comm] at here

private theorem undisturbed_cons {hk hd : Held} {i : Index} :
    Undisturbed winding hk hd (i :: indices) ↔
      (hk.contends i → hk.locked) ∧ (hd.contends i → hd.locked) ∧
        Undisturbed winding (if winding = 1 then hk.fetched hd i else hk.keep hd i)
          (if winding = 1 then hk.keep hd i else hk.fetched hd i) indices := by
  rw [Undisturbed]
  split_ifs <;> rfl

private theorem run_trace (indices : List Index) {m : Machine} {w v2 kept dropped : Nat}
    {hk hd : Held}
    (u : Uses p m kept dropped hk hd (keptShape winding f k) (droppedShape winding f k))
    (t : Turn k kept dropped winding w v0 v1) (shows : Shows p f (k + 2) indices)
    (undisturbed : Undisturbed winding hk hd indices) :
    elementTrace p (indexedFanOrStripRun p m v0 v1 v2 w indices).1 =
      elementTrace p m ++ primitives (Triangles.triangle winding f) k indices.length := by
  induction indices generalizing m k w v0 v1 v2 kept dropped hk hd with
  | nil => simp [indexedFanOrStripRun, primitives]
  | cons i indices ih =>
    obtain ⟨okKept, okDropped, rest⟩ := undisturbed_cons.mp undisturbed
    obtain ⟨trace, used⟩ := u.next p t shows.head okKept okDropped
    obtain ⟨v0', v1', w', turn, step⟩ := t.next p m v2 i indices
    rw [step, ih used turn shows.tail rest, trace, List.append_assoc, List.length_cons,
      primitives_succ]

private theorem fetchVertex_calls (m : Machine) (i : Nat) :
    (fetchVertex p m i).1.calls = m.calls := by
  simp only [fetchVertex]
  split_ifs <;> rfl

private theorem run_more (indices : List Index) (m : Machine) (v0 v1 v2 w : Nat) :
    ∃ more, elementTrace p (indexedFanOrStripRun p m v0 v1 v2 w indices).1 =
      elementTrace p m ++ more := by
  induction indices generalizing m v0 v1 v2 w with
  | nil => exact ⟨[], by simp [indexedFanOrStripRun]⟩
  | cons i indices ih =>
    obtain ⟨-, -, trace⟩ := drawn_spec p m v0 v1 i
    have calls : elementTrace p (fetchVertex p m i).1 = elementTrace p m := by
      rw [elementTrace, elementTrace, Trace.trace, Trace.trace, fetchVertex_calls]
    rw [calls] at trace
    have unlocked (slot : Nat) : elementTrace p (unlock (drawn p m v0 v1 i) slot) =
        elementTrace p (drawn p m v0 v1 i) := rfl
    have step : indexedFanOrStripRun p m v0 v1 v2 w (i :: indices) = if w ^^^ 1 ≠ 0 then
        indexedFanOrStripRun p (unlock (drawn p m v0 v1 i) v1) v0 (fetchVertex p m i).2
          (fetchVertex p m i).2 (w ^^^ 1) indices
        else indexedFanOrStripRun p (unlock (drawn p m v0 v1 i) v0) (fetchVertex p m i).2 v1
          (fetchVertex p m i).2 (w ^^^ 1) indices := rfl
    rw [step]
    split_ifs
    all_goals
      obtain ⟨more, h⟩ := ih _ _ _ _ _
      rw [h, unlocked, trace, List.append_assoc]
      exact ⟨_, rfl⟩

private theorem Holds.disturbed {m : Machine} {slot : Nat} {h : Held} {s : Shape} {i : Index}
    (holds : Holds p m slot h s) (aligned : m.sequence % indexSeq = 0) (coherent : Coherent p m)
    (bad : ¬(h.contends i → h.locked)) :
    ∃ x, x ≠ i ∧ s = element p x ∧
      untagged (p.seen ((fetchVertex p m i).1.verts slot)) = element p i := by
  obtain ⟨contends, unlocked⟩ := Classical.not_imp.mp bad
  obtain ⟨x, hx, differs, one⟩ := Held.contends_iff.mp contends
  obtain ⟨place, tag, locked⟩ := holds.cache x hx
  refine ⟨x, differs, holds.shape_resident coherent hx, ?_⟩
  obtain ⟨fetched, ⟨found, -⟩ | ⟨-, -, taken⟩⟩ := fetchVertex_spec p aligned coherent i
  · rw [place, one, ← found]
    exact fetched.shape
  · rw [← one, ← place, locked] at taken
    exact absurd taken unlocked

private theorem issue_inside {a b c : Shape} (h : c.outside = 0) : issue a b c = [[a, b, c]] := by
  simp [issue, h]

private theorem Turn.forced {w kept dropped : Nat} (t : Turn k kept dropped winding w v0 v1)
    {g : Nat → Shape} {x y : List (List Shape)} (inside : (f (k + 2)).outside = 0)
    (eq : issue (g v0) (g v1) (f (k + 2)) ++ x = Triangles.triangle winding f k ++ y) :
    g kept = keptShape winding f k ∧ g dropped = droppedShape winding f k := by
  rw [issue_inside inside] at eq
  cases t with
  | even h =>
    rw [Triangles.triangle, if_pos rfl, stripTriangle, if_pos h, issue_inside inside] at eq
    simp only [List.cons_append, List.cons.injEq] at eq
    exact ⟨eq.1.2.1, eq.1.1⟩
  | odd h =>
    rw [Triangles.triangle, if_pos rfl, stripTriangle, if_neg (by omega), issue_inside inside] at eq
    simp only [List.cons_append, List.cons.injEq] at eq
    exact ⟨eq.1.1, eq.1.2.1⟩
  | fan h =>
    rw [Triangles.triangle, if_neg (by decide), fanTriangle, issue_inside inside] at eq
    simp only [List.cons_append, List.cons.injEq] at eq
    exact ⟨eq.1.1, eq.1.2.1⟩

private theorem element_flat {i j : Index}
    (h : element (.flat spread) i = element (.flat spread) j) : i = j := by
  have coordinate := congrArg (fun s => s.obj.x) h
  have same : (i : Int) = (j : Int) := coordinate
  exact Fin.ext (by omega)

private theorem run_undisturbed (indices : List Index) {m : Machine} {w v2 kept dropped : Nat}
    {hk hd : Held}
    (u : Uses (.flat spread) m kept dropped hk hd (keptShape winding f k) (droppedShape winding f k))
    (t : Turn k kept dropped winding w v0 v1) (shows : Shows (.flat spread) f (k + 2) indices)
    (trace : elementTrace (.flat spread) (indexedFanOrStripRun (.flat spread) m v0 v1 v2 w indices).1 =
      elementTrace (.flat spread) m ++ primitives (Triangles.triangle winding f) k indices.length) :
    Undisturbed winding hk hd indices := by
  induction indices generalizing m k w v0 v1 v2 kept dropped hk hd with
  | nil => trivial
  | cons i indices ih =>
    obtain ⟨v0', v1', w', turn, step⟩ := t.next (.flat spread) m v2 i indices
    rw [step, List.length_cons, primitives_succ] at trace
    by_cases ok : (hk.contends i → hk.locked) ∧ (hd.contends i → hd.locked)
    · obtain ⟨drawn, used⟩ := u.next (.flat spread) t shows.head ok.1 ok.2
      rw [← List.append_assoc, ← drawn] at trace
      exact undisturbed_cons.mpr ⟨ok.1, ok.2, ih used turn shows.tail trace⟩
    · -- the triangle has the element of `i` in the place of another one
      obtain ⟨more, rest⟩ := run_more (.flat spread) indices
        (unlock (drawn (.flat spread) m v0 v1 i) dropped) v0' v1' (fetchVertex (.flat spread) m i).2 w'
      have third := (fetchVertex_spec (.flat spread) u.aligned u.coherent i).1.shape
      have calls : elementTrace (.flat spread) (fetchVertex (.flat spread) m i).1 =
          elementTrace (.flat spread) m := by
        rw [elementTrace, elementTrace, Trace.trace, Trace.trace, fetchVertex_calls]
      have first := (drawn_spec (.flat spread) m v0 v1 i).2.2
      rw [third, ← shows.head, calls] at first
      rw [rest, show elementTrace (.flat spread) (unlock (drawn (.flat spread) m v0 v1 i) dropped) = _
        from first, List.append_assoc, List.append_cancel_left_eq] at trace
      have inside : (f (k + 2)).outside = 0 := by
        rw [shows.head, element_outside, Pipeline.flat_outside]
      obtain ⟨keptForced, droppedForced⟩ := t.forced
        (g := fun slot => untagged ((Pipeline.flat spread).seen
          ((fetchVertex (.flat spread) m i).1.verts slot))) inside trace
      rcases not_and_or.mp ok with bad | bad
      · obtain ⟨x, differs, shape, now⟩ := u.holdsKept.disturbed (.flat spread) u.aligned u.coherent bad
        exact absurd (element_flat (shape.symm.trans (keptForced.symm.trans now))) differs
      · obtain ⟨x, differs, shape, now⟩ := u.holdsDropped.disturbed (.flat spread) u.aligned u.coherent bad
        exact absurd (element_flat (shape.symm.trans (droppedForced.symm.trans now))) differs

end Runs

/-- The vertex cache before an indexed draw call: nothing is locked, and no index can hit. -/
structure Ready (m : Machine) : Prop where
  aligned : m.sequence % indexSeq = 0
  unlocked : ∀ slot, (m.verts slot).locked = false
  fresh : ∀ i : Index, (m.verts (cacheSlot i)).index ≠ (m.sequence + i : Nat)

section Results

def started (p : Pipeline) (m : Machine) (i j : Index) : Machine :=
  compileElement p (compileElement p m 0 (i : Nat)) 1 (j : Nat)

private theorem uses_started (p : Pipeline) {m : Machine} (ready : Ready m) (i j : Index) :
    Uses p (started p m i j) 1 0 .buffer .buffer (element p j) (element p i) := by
  have low (i : Index) : (i : Nat) % indexSeq = i := Nat.mod_eq_of_lt i.isLt
  have shape (m : Machine) (slot : Nat) (i : Index) :
      untagged (p.seen ((compileElement p m slot (i : Nat)).verts slot)) = element p i := by
    rw [compileElement, compileAt_same, elementOf_natCast, low]
    exact congrArg untagged (p.seen_compileVertex _ _ _ _)
  have locked (m : Machine) (slot other : Nat) (i : Index) :
      ((compileElement p m slot (i : Nat)).verts other).locked = (m.verts other).locked := by
    by_cases one : other = slot
    · rw [one, compileElement, compileAt_same, p.compileVertex_locked]
    · rw [compileElement, compileAt_other _ _ _ _ _ one]
  have unlocked (slot : Nat) : ((started p m i j).verts slot).locked = false := by
    rw [started, locked, locked, ready.unlocked]
  have others (slot : Nat) (h : 2 ≤ slot) : (started p m i j).verts slot = m.verts slot := by
    rw [started, compileElement, compileAt_other _ _ _ _ _ (by omega), compileElement,
      compileAt_other _ _ _ _ _ (by omega)]
  have entry0 : (started p m i j).verts 0 = (compileElement p m 0 (i : Nat)).verts 0 := by
    rw [started, compileElement, compileAt_other _ _ _ _ _ (by omega)]
  refine ⟨ready.aligned, ⟨shape _ 1 j, ?_, fun _ none => by cases none⟩,
    ⟨?_, ?_, fun _ none => by cases none⟩, by decide, ?_, ?_⟩
  · exact fun _ => ⟨by decide, fun h => absurd h (by decide)⟩
  · rw [entry0, shape]
  · exact fun _ => ⟨by decide, fun h => absurd h (by decide)⟩
  · intro slot taken
    rw [unlocked] at taken
    exact absurd taken (by decide)
  · intro k tag
    have bounds := cacheSlot_bounds k
    rw [others _ (by omega)] at tag
    exact absurd tag (ready.fresh k)

def elements (p : Pipeline) (indices : List Index) (k : Nat) : Shape :=
  element p (indices.getD k 0)

private theorem shows_elements (p : Pipeline) (i j : Index) (indices : List Index) :
    Shows p (elements p (i :: j :: indices)) 2 indices := by
  intro k hk
  rw [elements, Nat.add_comm]
  simp [hk]

private theorem uses_first (p : Pipeline) {m : Machine} (ready : Ready m) {winding : Nat}
    (hw : winding = 1 ∨ winding = 2) (i j : Index) (indices : List Index) :
    let f := elements p (i :: j :: indices)
    ∃ kept dropped, Turn 0 kept dropped winding winding 0 1 ∧
      Uses p (started p m i j) kept dropped .buffer .buffer (keptShape winding f 0)
        (droppedShape winding f 0) := by
  have used := uses_started p ready i j
  rcases hw with rfl | rfl
  · exact ⟨1, 0, .even rfl, used⟩
  · exact ⟨0, 1, .fan (.inl rfl), used.swap⟩

private theorem draw_trace (p : Pipeline) (m : Machine) (winding : Nat) (i j : Index)
    (indices : List Index) :
    elementTrace p (drawIndexedPrimitivesTriangleFanOrStrip p m winding (i :: j :: indices)) =
      elementTrace p (indexedFanOrStripRun p (started p m i j) 0 1 0 winding indices).1 := by
  cases indices <;> rfl

private theorem entriesKept_of_drawn {m : Machine} (ready : Ready m) {winding : Nat}
    (hw : winding = 1 ∨ winding = 2) (indices : List Index)
    (drawn : elementTrace (.flat spread)
        (drawIndexedPrimitivesTriangleFanOrStrip (.flat spread) m winding indices) =
      elementTrace (.flat spread) m ++
        primitives (triangle winding (elements (.flat spread) indices)) 0 (indices.length - 2)) :
    EntriesKept winding indices := by
  match indices with
  | [] => trivial
  | [_] => trivial
  | i :: j :: indices =>
    obtain ⟨kept, dropped, turn, used⟩ := uses_first (.flat spread) ready hw i j indices
    rw [draw_trace] at drawn
    exact run_undisturbed indices used turn (shows_elements _ i j indices) drawn

/-- An index list draws the triangles of its strip or fan, in order and less those outside of one
plane, for all arrays exactly if none of its indices takes an entry in use. -/
theorem indexed_triangles {m : Machine} (ready : Ready m) {winding : Nat}
    (hw : winding = 1 ∨ winding = 2) (indices : List Index) :
    (∀ p : Pipeline,
        elementTrace p (drawIndexedPrimitivesTriangleFanOrStrip p m winding indices) =
          elementTrace p m ++
            primitives (triangle winding (elements p indices)) 0 (indices.length - 2)) ↔
      EntriesKept winding indices := by
  constructor
  · intro drawn
    exact entriesKept_of_drawn ready hw indices (drawn (.flat spread))
  · intro undisturbed p
    match indices with
    | [] => simp [drawIndexedPrimitivesTriangleFanOrStrip, primitives]
    | [_] => simp [drawIndexedPrimitivesTriangleFanOrStrip, primitives]
    | i :: j :: indices =>
      obtain ⟨kept, dropped, turn, used⟩ := uses_first p ready hw i j indices
      rw [draw_trace]
      exact run_trace p indices used turn (shows_elements p i j indices) undisturbed

/-- The cache of a new context is ready, and so is one after draw calls whose arrays leave no tag
of a later call behind. -/
theorem ready_after_run {calls : List DrawCall} (h : Guarded step TagsFit Machine.init calls) :
    Ready (clear (run step Machine.init calls)) := by
  have between : Between (run step Machine.init calls) :=
    run_invariant (fun _ _ hm => hm.step) between_init h
  obtain ⟨⟨aligned, bounded, -, -⟩, -, fresh⟩ := between.toTags.clear
  refine ⟨aligned, ?_, ?_⟩
  · intro slot
    rw [clear_locked, between.unlocked]
  · intro i tag
    have range := i.isLt
    rw [← cacheSlot_sequence aligned i] at tag
    have late := fresh _ tag (Nat.le_add_right _ _)
    simp only [indexSeq] at aligned
    omega

/-- A strip with a repeated index. -/
theorem indexed_triangles_repeated :
    elementTrace (.flat spread) (drawIndexedPrimitivesTriangleFanOrStrip (.flat spread)
        (clear Machine.init) 1 [7, 7, 8, 72]) =
      elementTrace (.flat spread) (clear Machine.init) ++
        primitives (triangle 1 (elements (.flat spread) [7, 7, 8, 72])) 0 2 := by
  have kept : EntriesKept 1 [7, 7, 8, 72] := by
    unfold EntriesKept
    decide
  have ready : Ready (clear Machine.init) := @ready_after_run [] trivial
  exact (indexed_triangles ready (.inl rfl) [7, 7, 8, 72]).mpr kept (.flat spread)

/-- A strip whose entry of index 2 is unlocked by the repetition, and taken by index 66. -/
theorem strip_entry_taken : ¬ ∀ p : Pipeline,
    elementTrace p (drawIndexedPrimitivesTriangleFanOrStrip p (clear Machine.init) 1
        [0, 1, 2, 2, 3, 66]) =
      elementTrace p (clear Machine.init) ++
        primitives (triangle 1 (elements p [0, 1, 2, 2, 3, 66])) 0 4 := by
  intro drawn
  have kept := entriesKept_of_drawn (@ready_after_run [] trivial) (.inl rfl) [0, 1, 2, 2, 3, 66]
    (drawn (.flat spread))
  revert kept
  unfold EntriesKept
  decide

end Results

section Consecutive

variable {first count : Nat}

/-- The indices of `count` elements from `first` on. -/
def indicesFrom (first count : Nat) : List Index :=
  (List.range' first count).map (Fin.ofNat 0x10000)

theorem indicesFrom_succ (first count : Nat) :
    indicesFrom first (count + 1) = Fin.ofNat 0x10000 first :: indicesFrom (first + 1) count := by
  rw [indicesFrom, List.range'_succ, List.map_cons]
  rfl

/-- An entry of the buffer, or that of one of the last `d` indices before `i`. -/
def Held.Recent (h : Held) (d i : Nat) : Prop :=
  ∀ x : Index, h.resident = some x → (x : Nat) < i ∧ i ≤ x + d

theorem Held.Recent.apart {h : Held} {d : Nat} {i : Index} (recent : h.Recent d i) (few : d < 64) :
    ¬h.contends i := by
  rw [contends_iff]
  rintro ⟨x, resident, -, one⟩
  obtain ⟨below, near⟩ := recent x resident
  simp only [cacheSlot, vertexBufferSize, vertexCacheSize] at one
  omega

private theorem undisturbed_indicesFrom (count : Nat) {first : Nat} {kept dropped : Held}
    (newest : kept.Recent 1 first) (older : dropped.Recent 2 first)
    (named : first + count ≤ 0x10000) : Undisturbed 1 kept dropped (indicesFrom first count) := by
  induction count generalizing first kept dropped with
  | zero => trivial
  | succ count ih =>
    rw [indicesFrom_succ]
    set i : Index := Fin.ofNat 0x10000 first with hi
    have index : (i : Nat) = first := Nat.mod_eq_of_lt (by omega)
    rw [← index] at newest older
    have keptApart := newest.apart (by decide)
    have droppedApart := older.apart (by decide)
    refine undisturbed_cons.mpr ⟨(absurd · keptApart), (absurd · droppedApart), ?_⟩
    rw [if_pos rfl, if_pos rfl]
    refine ih (fun x resident => ?_) (fun x resident => ?_) (by omega)
    · have same : some i = some x := by simpa [Held.fetched, keptApart, droppedApart] using resident
      obtain rfl := Option.some_inj.mp same
      omega
    · obtain ⟨below, near⟩ := newest x resident
      omega

theorem elements_indicesFrom (p : Pipeline) {k : Nat} (hk : k < count) :
    elements p (indicesFrom first count) k = element p (Fin.ofNat 0x10000 (first + k)) := by
  simp [elements, indicesFrom, hk]

theorem elementTrace_elements (p : Pipeline) {m : Machine} (ready : Ready m)
    (named : first + count ≤ 0x10000) :
    elementTrace p (drawIndexedPrimitivesTriangleStrip p m (indicesFrom first count)) =
      elementTrace p m ++ primitives
        (stripTriangle fun k => element p (Fin.ofNat 0x10000 (first + k))) 0 (count - 2) := by
  match count with
  | 0 | 1 => simp [indicesFrom, drawIndexedPrimitivesTriangleStrip,
      drawIndexedPrimitivesTriangleFanOrStrip, primitives]
  | n + 2 =>
    have shape {k : Nat} (hk : k < n + 2) := @elements_indicesFrom first _ p k hk
    rw [indicesFrom_succ, indicesFrom_succ] at shape ⊢
    obtain ⟨kept, dropped, turn, used⟩ := uses_first p ready (.inl rfl) (Fin.ofNat 0x10000 first)
      (Fin.ofNat 0x10000 (first + 1)) (indicesFrom (first + 1 + 1) n)
    have buffer (d : Nat) : Held.buffer.Recent d (first + 1 + 1) := by
      rintro x resident
      cases resident
    rw [drawIndexedPrimitivesTriangleStrip, draw_trace, run_trace p _ used turn
      (shows_elements p _ _ _) (undisturbed_indicesFrom n (buffer 1) (buffer 2) (by omega))]
    rw [indicesFrom, List.length_map, List.length_range', ← indicesFrom]
    congr 1
    apply primitives_shift
    intro k hk
    rw [Triangles.triangle, if_pos rfl, stripTriangle, stripTriangle, shape (by omega),
      shape (by omega), shape (by omega)]

theorem elementTrace_arrays (p : Pipeline) (m : Machine) (named : first + count ≤ 0x10000) :
    elementTrace p (drawPrimitivesTriangleStrip p m first count) =
      elementTrace p m ++ primitives
        (stripTriangle fun k => element p (Fin.ofNat 0x10000 (first + k))) 0 (count - 2) := by
  have start (some : 2 < count) : elementOf (first : Int) = first := by
    rw [elementOf_natCast]
    exact Nat.mod_eq_of_lt (by simp only [indexSeq]; omega)
  have inRange : BatchesInRange first count := by
    intro b hb
    rw [start (by omega)]
    omega
  have shape {k : Nat} (some : 2 < count) (hk : k < count) : untagged (vertexShape p first k) =
      element p (Fin.ofNat 0x10000 (first + k)) := by
    have index : ((Fin.ofNat 0x10000 (first + k) : Index) : Nat) = first + k :=
      Nat.mod_eq_of_lt (by omega)
    rw [vertexShape, triangleVertex_inRange p inRange hk, arrayVertex, start some, element, index]
    rfl
  rw [elementTrace, elementTrace, trace_strip, List.map_append, primitives, List.map_flatMap]
  congr 1
  apply primitives_shift (f := fun k => (stripTriangle (vertexShape p first) k).map _)
  intro k hk
  simp only [stripTriangle]
  split_ifs <;> rw [issue_untagged, shape (by omega) (by omega), shape (by omega) (by omega),
    shape (by omega) (by omega)]

end Consecutive

end RabbitRender.Arrays.IndexedTriangles
