/- RabbitRender/Clipping/Bounds
   layer: result
   source: swrender/primitives.cpp
   digest: Around a polygon the distances change sign in pairs, so `clip_triangle` stays in its arrays. -/

import RabbitRender.Clipping.Triangles

set_option autoImplicit false

namespace RabbitRender.Clipping.Bounds

open Vertices Primitives Clipping.Triangles

structure Within (m : Memory) : Prop where
  buffer : ∀ i ∈ m.bufferWrites, i < bufferSize
  lists : ∀ i ∈ m.listWrites, i < outSize

private theorem mem_concat {l : List Nat} {n bound : Nat} (h : ∀ i ∈ l, i < bound) (hn : n < bound) :
    ∀ i ∈ l ++ [n], i < bound := by
  intro i hi
  rcases List.mem_append.mp hi with old | new
  · exact h i old
  · rw [List.mem_singleton.mp new]
    exact hn

theorem Within.push {m : Memory} (h : Within m) (ovl : Bool) {oc : Nat} (hoc : oc < outSize)
    (v : Pointer) : Within (m.push ovl oc v) :=
  ⟨h.buffer, mem_concat h.lists hoc⟩

theorem Within.pushNew {m : Memory} (h : Within m) (ovl : Bool) {oc : Nat} (hoc : oc < outSize)
    (hused : m.used < bufferSize) (v : Vertex) : Within (m.pushNew ovl oc v) :=
  ⟨mem_concat h.buffer hused, mem_concat h.lists hoc⟩

def Made (m : Memory) : Pointer → Prop
  | .corner _ => True
  | .buffer i => i < m.used

/-- What writing list `ovl` and new vertices leaves alone. -/
structure Kept (ovl : Bool) (m r : Memory) : Prop where
  corners : r.corners = m.corners
  buffer : ∀ i < m.used, r.buffer i = m.buffer i
  out : ∀ list, list ≠ ovl → r.out list = m.out list
  used : m.used ≤ r.used

section Kept

variable {ovl : Bool} {m r : Memory}

theorem Kept.refl (ovl : Bool) (m : Memory) : Kept ovl m m := ⟨rfl, fun _ _ => rfl, fun _ _ => rfl, le_refl _⟩

theorem Kept.deref (h : Kept ovl m r) {v : Pointer} (hv : Made m v) : r.deref v = m.deref v := by
  cases v with
  | corner i => exact congrFun h.corners i
  | buffer i => exact h.buffer i hv

theorem Kept.made (h : Kept ovl m r) {v : Pointer} (hv : Made m v) : Made r v := by
  cases v with
  | corner i => trivial
  | buffer i => exact Nat.lt_of_lt_of_le hv h.used

theorem Kept.push (h : Kept ovl m r) (oc : Nat) (v : Pointer) : Kept ovl m (r.push ovl oc v) := by
  refine ⟨h.corners, h.buffer, ?_, h.used⟩
  intro list other
  rw [← h.out list other]
  exact Function.update_of_ne other _ _

theorem Kept.pushNew (h : Kept ovl m r) (oc : Nat) (v : Vertex) :
    Kept ovl m (r.pushNew ovl oc v) := by
  have made : Kept ovl m { r with
      buffer := Function.update r.buffer r.used v
      used := r.used + 1
      bufferWrites := r.bufferWrites ++ [r.used] } := by
    refine ⟨h.corners, ?_, h.out, Nat.le_succ_of_le h.used⟩
    intro i hi
    have below := h.used
    rw [← h.buffer i hi]
    exact Function.update_of_ne (by omega) _ _
  exact made.push oc _

end Kept

/-- The first `n` entries of list `ovl` lead to vertices that have been made. -/
def AllMade (m : Memory) (ovl : Bool) (n : Nat) : Prop := ∀ k < n, Made m (m.out ovl k)

private theorem made_push {m : Memory} {v : Pointer} (h : Made m v) (ovl : Bool) (oc : Nat)
    (w : Pointer) : Made (m.push ovl oc w) v := by
  cases v with
  | corner i => trivial
  | buffer i => exact h

theorem AllMade.push {m : Memory} {ovl : Bool} {oc : Nat} (h : AllMade m ovl oc) {v : Pointer}
    (hv : Made m v) : AllMade (m.push ovl oc v) ovl (oc + 1) := by
  intro k hk
  have entry : (m.push ovl oc v).out ovl k = if k = oc then v else m.out ovl k := by
    simp only [Memory.push, Function.update_self, Function.update_apply]
  rw [entry]
  split_ifs with last
  · exact made_push hv ovl oc v
  · exact made_push (h k (by omega)) ovl oc v

theorem AllMade.pushNew {m : Memory} {ovl : Bool} {oc : Nat} (h : AllMade m ovl oc) (v : Vertex) :
    AllMade (m.pushNew ovl oc v) ovl (oc + 1) := by
  refine AllMade.push ?_ (Nat.lt_succ_self m.used)
  intro k hk
  have old := h k hk
  show Made _ (m.out ovl k)
  cases pointer : m.out ovl k with
  | corner i => trivial
  | buffer i =>
    rw [pointer] at old
    exact Nat.lt_succ_of_lt old

variable (dist : Plane → Vertex → Int) (make : Plane → Vertex → Int → Vertex → Vertex → Vertex)
variable (plane : Plane) {g : Polygon} {d : Int} {i : Nat} {l : Loop} {q : Pointer}

/-- The polygon has few vertices, all of them made, and its list is not the next output list. -/
structure Fits (k : Nat) (g : Polygon) : Prop where
  within : Within g.memory
  used : g.memory.used ≤ 2 * k
  small : g.ic ≤ 3 + k
  enough : 3 ≤ g.ic
  other : g.ivl ≠ some g.outi
  made : ∀ i < g.ic, Made g.memory (entry g.memory g.ivl i)

/-- The loop after `i` vertices, of which some are outside; `d` is the distance it started with.
A new vertex needs one that is outside. -/
structure Going (g : Polygon) (d : Int) (i : Nat) (l : Loop) : Prop where
  within : Within l.memory
  kept : Kept g.outi g.memory l.memory
  made : AllMade l.memory g.outi l.oc
  used : l.memory.used = g.memory.used + l.sentinel
  few : l.sentinel ≤ 2
  counted : ∃ outside, l.oc + outside = i + l.sentinel ∧
    (0 < l.sentinel → 0 < outside ∨ d < 0) ∧
    (l.sd < 0 → 0 < outside ∨ d < 0) ∧ (0 < i → l.sd < 0 → 0 < outside)

variable {k : Nat}

theorem Going.turn (h : Going g d i l) (hk : k < maxClippingPlanes) (fits : Fits k g)
    (hi : i < g.ic) (hq : Made l.memory q) :
    match Triangles.turn dist make plane g.outi l q with
    | .error m => Within m ∧ m.used ≤ 2 * k + 3
    | .ok r => Going g d (i + 1) r ∧ r.s = q ∧ r.sd = dist plane (l.memory.deref q) := by
  obtain ⟨within, kept, made, used, few, outside, count, new, before, after⟩ := h
  have small := fits.small
  have usedBefore := fits.used
  have planes : maxClippingPlanes = 12 := rfl
  have list : l.oc + 1 < outSize := by
    show l.oc + 1 < 17
    omega
  have buffer : l.memory.used < bufferSize := by
    show l.memory.used < 25
    omega
  have one := within.push g.outi (Nat.lt_of_succ_lt list) q
  have fresh (v : Vertex) := within.pushNew g.outi (Nat.lt_of_succ_lt list) buffer v
  simp only [Triangles.turn]
  split_ifs with inside inside' third outer nonzero third
  · refine ⟨⟨one, kept.push _ q, made.push hq, used, few, outside, ?_, new, ?_, ?_⟩, rfl, rfl⟩
    · show l.oc + 1 + outside = i + 1 + l.sentinel
      omega
    · exact fun negative => absurd negative (not_lt_of_ge inside')
    · exact fun _ negative => absurd negative (not_lt_of_ge inside')
  · refine ⟨fresh _, ?_⟩
    show l.memory.used + 1 ≤ _
    omega
  · refine ⟨⟨fresh _, kept.pushNew _ _, made.pushNew _, ?_, ?_, outside + 1, ?_, ?_, ?_, ?_⟩, rfl, rfl⟩
    · show l.memory.used + 1 = g.memory.used + (l.sentinel + 1)
      omega
    · show l.sentinel + 1 ≤ 2
      omega
    · show l.oc + 1 + (outside + 1) = i + 1 + (l.sentinel + 1)
      omega
    all_goals exact fun _ => by omega
  · refine ⟨fresh _, ?_⟩
    show l.memory.used + 1 ≤ _
    omega
  · refine ⟨⟨(fresh _).push g.outi list q, (kept.pushNew _ _).push _ q,
      (made.pushNew _).push ?_, ?_, ?_, outside, ?_, ?_, ?_, ?_⟩, rfl, rfl⟩
    · cases q with
      | corner j => trivial
      | buffer j => exact Nat.lt_succ_of_lt hq
    · show l.memory.used + 1 = g.memory.used + (l.sentinel + 1)
      omega
    · show l.sentinel + 1 ≤ 2
      omega
    · show l.oc + 1 + 1 + outside = i + 1 + (l.sentinel + 1)
      omega
    · exact fun _ => before (by omega)
    · exact fun negative => absurd negative (not_lt_of_ge outer)
    · exact fun _ negative => absurd negative (not_lt_of_ge outer)
  · refine ⟨⟨one, kept.push _ q, made.push hq, used, few, outside, ?_, new, ?_, ?_⟩, rfl, rfl⟩
    · show l.oc + 1 + outside = i + 1 + l.sentinel
      omega
    · exact fun negative => absurd negative (not_lt_of_ge outer)
    · exact fun _ negative => absurd negative (not_lt_of_ge outer)
  · refine ⟨⟨within, kept, made, used, few, outside + 1, ?_, ?_, ?_, ?_⟩, rfl, rfl⟩
    · show l.oc + (outside + 1) = i + 1 + l.sentinel
      omega
    all_goals exact fun _ => by omega

theorem Going.entry (h : Going g d i l) (other : g.ivl ≠ some g.outi) (k : Nat) :
    entry l.memory g.ivl k = Triangles.entry g.memory g.ivl k := by
  cases list : g.ivl with
  | none => rfl
  | some b =>
    have differs : b ≠ g.outi := fun same => other (list.trans (congrArg some same))
    exact congrFun (h.kept.out b differs) k

/-- The loop has the distance of the vertex before vertex `i`. -/
def Measured (dist : Plane → Vertex → Int) (plane : Plane) (g : Polygon) (i : Nat) (l : Loop) : Prop :=
  0 < i → l.sd = dist plane (g.memory.deref (Triangles.entry g.memory g.ivl (i - 1)))

theorem Going.turns (n : Nat) (h : Going g d i l) (measured : Measured dist plane g i l)
    (hk : k < maxClippingPlanes) (fits : Fits k g) (hn : i + n = g.ic) :
    match Triangles.turns dist make plane g.ivl g.outi n i l with
    | .error m => Within m ∧ m.used ≤ 2 * k + 3
    | .ok r => Going g d g.ic r ∧ Measured dist plane g g.ic r := by
  induction n generalizing i l with
  | zero =>
    obtain rfl : i = g.ic := hn
    exact ⟨h, measured⟩
  | succ n ih =>
    have hi : i < g.ic := by omega
    have here := h.entry fits.other i
    have made := fits.made i hi
    have one := h.turn dist make plane hk fits hi
      (q := Triangles.entry l.memory g.ivl i) (by rw [here]; exact h.kept.made made)
    rw [Triangles.turns]
    cases turned : Triangles.turn dist make plane g.outi l (Triangles.entry l.memory g.ivl i) with
    | error m =>
      rw [turned] at one
      exact one
    | ok r =>
      rw [turned] at one
      obtain ⟨going, -, distance⟩ := one
      refine ih going ?_ (by omega)
      intro _
      rw [distance, here, h.kept.deref made, Nat.add_sub_cancel]

theorem going_started (fits : Fits i g) : Going g (started dist plane g).sd 0 (started dist plane g) :=
  ⟨fits.within, .refl _ _, fun _ h => absurd h (Nat.not_lt_zero _), rfl, Nat.zero_le 2, 0, rfl,
    fun h => absurd h (Nat.lt_irrefl 0), fun h => .inr h, fun h => absurd h (Nat.lt_irrefl 0)⟩

theorem Fits.clipPlane (fits : Fits k g) (hk : k < maxClippingPlanes) :
    match Triangles.clipPlane dist make plane g with
    | .error m => Within m ∧ m.used ≤ 2 * k + 3
    | .ok r => Fits (k + 1) r := by
  have all := (going_started dist plane fits).turns dist make plane g.ic
    (fun h => absurd h (Nat.lt_irrefl 0)) hk fits (Nat.zero_add g.ic)
  rw [Triangles.clipPlane]
  cases turned : Triangles.turns dist make plane g.ivl g.outi g.ic 0 (started dist plane g) with
  | error m =>
    rw [turned] at all
    exact all
  | ok l =>
    rw [turned] at all
    have enough := fits.enough
    have small := fits.small
    have usedBefore := fits.used
    obtain ⟨⟨within, kept, made, used, few, outside, count, new, -, after⟩, last⟩ := all
    have closed : l.sd = (started dist plane g).sd := last (by omega)
    have around : 0 < l.sentinel → 0 < outside := by
      intro some
      rcases new some with one | start
      · exact one
      · exact after (by omega) (closed ▸ start)
    dsimp only
    split_ifs with few3
    · exact ⟨within, by omega⟩
    · refine ⟨within, ?_, ?_, by show 3 ≤ l.oc; omega, ?_, made⟩
      · show l.memory.used ≤ _
        omega
      · show l.oc ≤ _
        omega
      · show some g.outi ≠ some (!g.outi)
        cases g.outi <;> decide

theorem Fits.clipPlanes (planes : List Plane) (fits : Fits k g)
    (hk : k + planes.length ≤ maxClippingPlanes) :
    let r := Triangles.clipPlanes dist make planes g
    (∀ j < r.1.length, r.1.getD j 0 ≤ 3 + (k + j + 1)) ∧ Within (memoryOf r.2) ∧
      (memoryOf r.2).used ≤ bufferSize := by
  have size : bufferSize = 25 := rfl
  have planes12 : maxClippingPlanes = 12 := rfl
  induction planes generalizing g k with
  | nil =>
    have used := fits.used
    refine ⟨fun j hj => absurd hj (Nat.not_lt_zero j), fits.within, ?_⟩
    simp only [List.length_nil] at hk
    show g.memory.used ≤ _
    omega
  | cons plane planes ih =>
    rw [List.length_cons] at hk
    have one := fits.clipPlane dist make plane (by omega)
    simp only [Triangles.clipPlanes]
    cases clipped : Triangles.clipPlane dist make plane g with
    | error m =>
      rw [clipped] at one
      refine ⟨fun j hj => absurd hj (Nat.not_lt_zero j), one.1, ?_⟩
      have := one.2
      show m.used ≤ _
      omega
    | ok r =>
      rw [clipped] at one
      obtain ⟨sizes, within, used⟩ := ih one (by omega)
      refine ⟨?_, within, used⟩
      intro j hj
      cases j with
      | zero =>
        have := one.small
        simpa [Nat.add_assoc] using this
      | succ j =>
        have := sizes j (by simpa using hj)
        simp only [List.getD_cons_succ]
        omega

theorem planesOf_length (v0 v1 v2 : Vertex) : (planesOf v0 v1 v2).length ≤ maxClippingPlanes :=
  List.length_filter_le _ _

theorem fits_entered (buffer : Nat → Vertex) (out : Bool → Nat → Pointer) (v0 v1 v2 : Vertex) :
    Fits 0 (entered buffer out v0 v1 v2) :=
  ⟨⟨fun _ h => absurd h List.not_mem_nil, fun _ h => absurd h List.not_mem_nil⟩, le_refl _,
    le_refl _, le_refl _, nofun, fun _ _ => trivial⟩

/-- For any distances and any new vertices, and whatever the arrays held before, `clip_triangle`
makes no more vertices than `buffer` has room for, every plane adds at most one vertex to the list,
and nothing is written past an array. -/
theorem clip_triangle_inBounds (dist : Plane → Vertex → Int)
    (make : Plane → Vertex → Int → Vertex → Vertex → Vertex) (buffer : Nat → Vertex)
    (out : Bool → Nat → Pointer) (v0 v1 v2 : Vertex) :
    let r := clipPlanes dist make (planesOf v0 v1 v2) (entered buffer out v0 v1 v2)
    (memoryOf r.2).used ≤ maxClippingPlanes * 2 + 1 ∧
      (∀ j < r.1.length, r.1.getD j 0 ≤ 3 + (j + 1)) ∧
      (∀ i ∈ (memoryOf r.2).listWrites, i < outSize) ∧
      ∀ i ∈ (memoryOf r.2).bufferWrites, i < bufferSize := by
  have length := planesOf_length v0 v1 v2
  obtain ⟨sizes, within, used⟩ := (fits_entered buffer out v0 v1 v2).clipPlanes dist make
    (planesOf v0 v1 v2) (by omega)
  refine ⟨used, ?_, within.lists, within.buffer⟩
  intro j hj
  have := sizes j hj
  omega

-- Read through its pointers, the polygon is the list that clipping works on.
section Lists

open Arrays.Compile (Pipeline)
open Arrays.Colors (clipTriangle)

/-- The part of `buffer` that is not in use holds nothing. -/
def Blank (m : Memory) : Prop := ∀ i, m.used ≤ i → m.buffer i = .zero

private theorem blank_pushNew {m : Memory} (h : Blank m) (ovl : Bool) (oc : Nat) (v : Vertex) :
    Blank (m.pushNew ovl oc v) := by
  intro i hi
  have above : m.used + 1 ≤ i := hi
  rw [← h i (by omega)]
  exact Function.update_of_ne (by omega) _ _

private theorem contents_succ (m : Memory) (ovl : Bool) (n : Nat) :
    contents m (some ovl) (n + 1) = contents m (some ovl) n ++ [m.deref (m.out ovl n)] := by
  rw [contents, List.range_succ, List.map_append]
  rfl

private theorem contents_push (m : Memory) (ovl : Bool) (oc : Nat) (v : Pointer) :
    contents (m.push ovl oc v) (some ovl) (oc + 1) = contents m (some ovl) oc ++ [m.deref v] := by
  have others : contents (m.push ovl oc v) (some ovl) oc = contents m (some ovl) oc := by
    refine List.map_congr_left fun k hk => ?_
    have low : k ≠ oc := Nat.ne_of_lt (List.mem_range.mp hk)
    have old : (m.push ovl oc v).out ovl k = m.out ovl k := by
      simp only [Memory.push, Function.update_self, Function.update_of_ne low]
    show Memory.deref _ ((m.push ovl oc v).out ovl k) = _
    rw [old]
    rfl
  have last : (m.push ovl oc v).out ovl oc = v := by
    simp only [Memory.push, Function.update_self]
  rw [contents_succ, others, last]
  rfl

private theorem contents_pushNew {m : Memory} {ovl : Bool} {oc : Nat} (made : AllMade m ovl oc)
    (v : Vertex) :
    contents (m.pushNew ovl oc v) (some ovl) (oc + 1) = contents m (some ovl) oc ++ [v] := by
  have kept := (Kept.refl ovl m).pushNew oc v
  rw [Memory.pushNew, contents_push]
  refine congrArg₂ _ (List.map_congr_left fun k hk => ?_) ?_
  · exact kept.deref (made k (List.mem_range.mp hk))
  · show [Function.update m.buffer m.used v m.used] = [v]
    rw [Function.update_self]

variable (p : Pipeline)

private theorem deref_push (m : Memory) (ovl : Bool) (oc : Nat) (v w : Pointer) :
    (m.push ovl oc w).deref v = m.deref v := by
  cases v <;> rfl

private theorem deref_pushNew {m : Memory} {v : Pointer} (h : Made m v) (ovl : Bool) (oc : Nat)
    (w : Vertex) : (m.pushNew ovl oc w).deref v = m.deref v :=
  ((Kept.refl ovl m).pushNew oc w).deref h

variable {k : Nat}

theorem Going.clipLoop (n : Nat) (h : Going g d i l) (blank : Blank l.memory)
    (hs : Made l.memory l.s) (hsd : l.sd = distance p plane (l.memory.deref l.s))
    (hk : k < maxClippingPlanes) (fits : Fits k g) (hn : i + n = g.ic) :
    Arrays.Colors.clipLoop p plane
        ((List.range' i n).map fun j => g.memory.deref (Triangles.entry g.memory g.ivl j))
        (l.memory.deref l.s) (contents l.memory (some g.outi) l.oc) l.sentinel =
      match Triangles.turns (distance p) (clipAgainst p) plane g.ivl g.outi n i l with
      | .error _ => none
      | .ok r => if r.oc < 3 then none else some (contents r.memory (some g.outi) r.oc) := by
  induction n generalizing i l with
  | zero =>
    have length : (contents l.memory (some g.outi) l.oc).length = l.oc := by simp [contents]
    simp only [List.range'_zero, List.map_nil, Arrays.Colors.clipLoop, Triangles.turns, length]
  | succ n ih =>
    have hi : i < g.ic := by omega
    have made : Made l.memory (Triangles.entry l.memory g.ivl i) := by
      rw [h.entry fits.other i]
      exact h.kept.made (fits.made i hi)
    have vertex : g.memory.deref (Triangles.entry g.memory g.ivl i) =
        l.memory.deref (Triangles.entry l.memory g.ivl i) := by
      rw [h.entry fits.other i, h.kept.deref (fits.made i hi)]
    set q := Triangles.entry l.memory g.ivl i with hq
    have one := h.turn (distance p) (clipAgainst p) plane hk fits hi made
    have fresh : crossing (clipAgainst p) plane l.memory = fun t outer inner =>
        clipAgainst p plane .zero t (l.memory.deref outer) (l.memory.deref inner) := by
      unfold crossing
      rw [blank l.memory.used (le_refl _)]
    rw [List.range'_succ, List.map_cons, Triangles.turns, ← hq, vertex]
    simp only [Arrays.Colors.clipLoop, Triangles.turn, ← hsd, fresh] at one ⊢
    have pushed := contents_push l.memory g.outi l.oc q
    split_ifs at one ⊢ with inside inside' third outer nonzero third
    · rw [← ih one.1 blank made (by rw [deref_push]) (by omega), pushed, deref_push]
    · rfl
    · have new := contents_pushNew h.made
        (clipAgainst p plane .zero (Fixed.clipDivide l.sd (l.sd - distance p plane (l.memory.deref q)))
          (l.memory.deref q) (l.memory.deref l.s))
      rw [← ih one.1 (blank_pushNew blank _ _ _) ((Kept.refl g.outi _).pushNew _ _ |>.made made)
        (by rw [deref_pushNew made]) (by omega), new, deref_pushNew made]
    · rfl
    · have new := contents_pushNew h.made
        (clipAgainst p plane .zero (Fixed.clipDivide (distance p plane (l.memory.deref q))
          (distance p plane (l.memory.deref q) - l.sd)) (l.memory.deref l.s) (l.memory.deref q))
      rw [← ih one.1 (blank_pushNew blank g.outi l.oc _)
        (((Kept.refl g.outi _).pushNew l.oc _).push (l.oc + 1) q |>.made made)
        (by rw [deref_push, deref_pushNew made]) (by omega), contents_push, new, deref_push,
        deref_pushNew made, List.append_assoc]
      rfl
    · rw [← ih one.1 blank made (by rw [deref_push]) (by omega), pushed, deref_push]
    · rw [← ih one.1 blank made rfl (by omega)]

private theorem blank_turns (n : Nat) (ivl : Option Bool) (ovl : Bool) (i : Nat) (l : Loop)
    (blank : Blank l.memory) :
    ∀ r ∈ (turns dist make plane ivl ovl n i l).toOption, Blank r.memory := by
  induction n generalizing i l with
  | zero =>
    intro r hr
    obtain rfl := Option.some_inj.mp hr
    exact blank
  | succ n ih =>
    rw [turns]
    simp only [turn]
    split_ifs
    · exact ih _ _ blank
    · exact fun _ h => absurd h (by simp [Except.toOption])
    · exact ih _ _ (blank_pushNew blank _ _ _)
    · exact fun _ h => absurd h (by simp [Except.toOption])
    · exact ih _ _ (blank_pushNew blank ovl l.oc _)
    · exact ih _ _ blank
    · exact ih _ _ blank

def vertices (g : Polygon) : List Vertex := contents g.memory g.ivl g.ic

private theorem contents_range (m : Memory) (ivl : Option Bool) (n : Nat) :
    contents m ivl n = (List.range' 0 n).map fun i => m.deref (entry m ivl i) := by
  rw [contents, List.range_eq_range']

private theorem vertices_last (enough : 3 ≤ g.ic) :
    (vertices g).getLastD .zero = g.memory.deref (entry g.memory g.ivl (g.ic - 1)) := by
  obtain ⟨n, hn⟩ : ∃ n, g.ic = n + 1 := ⟨g.ic - 1, by omega⟩
  rw [vertices, contents, hn, List.range_succ, List.map_append, List.map_singleton,
    List.getLastD_concat, Nat.add_sub_cancel]

theorem Fits.clipLoop (fits : Fits k g) (hk : k < maxClippingPlanes) (blank : Blank g.memory) :
    Arrays.Colors.clipLoop p plane (vertices g) ((vertices g).getLastD .zero) [] 0 =
      (Triangles.clipPlane (distance p) (clipAgainst p) plane g).toOption.map vertices ∧
      ∀ r ∈ (Triangles.clipPlane (distance p) (clipAgainst p) plane g).toOption, Blank r.memory := by
  have enough := fits.enough
  have loop : Arrays.Colors.clipLoop p plane (vertices g) ((vertices g).getLastD .zero) [] 0 =
      match turns (distance p) (clipAgainst p) plane g.ivl g.outi g.ic 0
          (started (distance p) plane g) with
      | .error _ => none
      | .ok r => if r.oc < 3 then none else some (contents r.memory (some g.outi) r.oc) := by
    rw [vertices_last enough, vertices, contents_range]
    exact (going_started (distance p) plane fits).clipLoop plane p g.ic blank
      (fits.made (g.ic - 1) (by omega)) rfl hk fits (Nat.zero_add g.ic)
  have blanks := blank_turns (distance p) (clipAgainst p) plane g.ic g.ivl g.outi 0
    (started (distance p) plane g) blank
  rw [loop, Triangles.clipPlane]
  cases result : turns (distance p) (clipAgainst p) plane g.ivl g.outi g.ic 0
    (started (distance p) plane g) with
  | error m => exact ⟨rfl, fun _ h => absurd h (by simp [Except.toOption])⟩
  | ok r =>
    have kept := blanks r (by rw [result]; rfl)
    dsimp only
    split_ifs
    · exact ⟨rfl, fun _ h => absurd h (by simp [Except.toOption])⟩
    · refine ⟨rfl, fun s hs => ?_⟩
      obtain rfl := Option.some_inj.mp hs
      exact kept

theorem Fits.clipPolygon (planes : List Plane) (fits : Fits k g)
    (hk : k + planes.length ≤ maxClippingPlanes) (blank : Blank g.memory) :
    Arrays.Colors.clipPolygon p planes (vertices g) =
      (Triangles.clipPlanes (distance p) (clipAgainst p) planes g).2.toOption.map vertices := by
  induction planes generalizing g k with
  | nil => rfl
  | cons plane planes ih =>
    rw [List.length_cons] at hk
    obtain ⟨same, blanks⟩ := fits.clipLoop plane p (by omega) blank
    have next := fits.clipPlane (distance p) (clipAgainst p) plane (by omega)
    rw [Arrays.Colors.clipPolygon, same, Triangles.clipPlanes]
    cases clipped : Triangles.clipPlane (distance p) (clipAgainst p) plane g with
    | error m => rfl
    | ok r =>
      rw [clipped] at next blanks
      exact ih next (by omega) (blanks r rfl)

theorem triangles_eq (out : Bool → Nat → Pointer) (v0 v1 v2 : Vertex) :
    triangles p (Triangles.clipPlanes (distance p) (clipAgainst p) (planesOf v0 v1 v2)
        (entered (fun _ => .zero) out v0 v1 v2)).2 =
      clipTriangle p v0 v1 v2 := by
  have length := planesOf_length v0 v1 v2
  have polygon := (fits_entered (fun _ => .zero) out v0 v1 v2).clipPolygon p (planesOf v0 v1 v2)
    (by omega) fun _ _ => rfl
  have corners : vertices (entered (fun _ => .zero) out v0 v1 v2) = [v0, v1, v2] := rfl
  rw [corners] at polygon
  simp only [clipTriangle]
  rw [show (allPlanes.filter fun plane => (v0.flags ||| v1.flags ||| v2.flags) &&& clipAll &&&
    plane.bit ≠ 0) = planesOf v0 v1 v2 from rfl, polygon]
  cases (Triangles.clipPlanes (distance p) (clipAgainst p) (planesOf v0 v1 v2)
    (entered (fun _ => .zero) out v0 v1 v2)).2 with
  | error m => rfl
  | ok r =>
    rw [triangles, Except.toOption, Option.map_some, vertices]
    cases contents r.memory r.ivl r.ic with
    | nil => rfl
    | cons p0 tail => cases tail <;> rfl

end Lists

end RabbitRender.Clipping.Bounds
