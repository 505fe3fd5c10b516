/- RabbitRender/Raster/Sweep
   layer: proof
   source: libpixelflinger/trap.cpp
   digest: On every scanline a triangle draws what is between its two edges there. -/

import Mathlib.Tactic.NormNum
import RabbitRender.Raster.Edges

set_option autoImplicit false

namespace RabbitRender.Raster.Sweep

open Fixed Raster.Edges Raster.Trap

/-- `e` is to the left of `f` at a scanline, or will not be to the right of it on the next. -/
def Before (e f : Edge) (y : Int) : Prop :=
  crossing e y < crossing f y ∨ crossing e y = crossing f y ∧ e.xIncr ≤ f.xIncr

instance (e f : Edge) (y : Int) : Decidable (Before e f y) := inferInstanceAs (Decidable (_ ∨ _))

/-- The pixels of scanline `y` from `e` to `f`. -/
def FromTo (e f : Edge) (x y : Int) : Prop := pixel (crossing e y) ≤ x ∧ x < pixel (crossing f y)

/-- The pixels of scanline `y` between two edges that are sorted at scanline `s`. -/
def Between (e f : Edge) (s x y : Int) : Prop :=
  if Before e f s then FromTo e f x y else FromTo f e x y

theorem before_total (e f : Edge) (y : Int) : Before e f y ∨ Before f e y := by
  unfold Before
  omega

variable {e f edge edge' : Edge} {s t : Int} {scissor : Scissor} {a m b : Vertex}

theorem crossing_eq_of_before (ef : Before e f s) (fe : Before f e s) (n : Int) :
    crossing e (s + n) = crossing f (s + n) := by
  have same : crossing e s = crossing f s ∧ e.xIncr = f.xIncr := by
    unfold Before at ef fe
    omega
  rw [crossing_add, crossing_add, same.1, same.2]

theorem between_comm (e f : Edge) (s x y : Int) : Between e f s x y ↔ Between f e s x y := by
  unfold Between
  by_cases ef : Before e f s
  · by_cases fe : Before f e s
    · have same := crossing_eq_of_before ef fe (y - s)
      rw [add_sub_cancel] at same
      simp [ef, fe, FromTo, same]
    · rw [if_pos ef, if_neg fe]
  · have fe := (before_total e f s).resolve_left ef
    rw [if_neg ef, if_pos fe]

theorem covered_nil (x y : Int) : ¬Covered [] x y := by
  rintro ⟨_, member, -⟩
  exact List.not_mem_nil member

theorem covered_append (spans more : List Span) (x y : Int) :
    Covered (spans ++ more) x y ↔ Covered spans x y ∨ Covered more x y := by
  simp only [Covered, List.mem_append, or_and_right, exists_or]

theorem covered_row (rest : List Span) (xl xr s x y : Int) :
    Covered (if xl < xr then ⟨s, xl, xr⟩ :: rest else rest) x y ↔
      (s = y ∧ xl ≤ x ∧ x < xr) ∨ Covered rest x y := by
  split_ifs with nonempty
  · simp only [Covered, List.exists_mem_cons_iff]
  · have : ¬(s = y ∧ xl ≤ x ∧ x < xr) := by omega
    rw [or_iff_right this]

theorem sweepRows_covered (scissor : Scissor) (e f : Edge) (count : Nat) (s x y : Int) :
    Covered (sweepRows scissor e.xIncr f.xIncr count (crossing e s) (crossing f s) s) x y ↔
      (s ≤ y ∧ y < s + count) ∧ FromTo e f x y ∧ scissor.left ≤ x ∧ x < scissor.right := by
  induction count generalizing s with
  | zero =>
    refine iff_of_false (covered_nil x y) ?_
    omega
  | succ count ih =>
    have next (e : Edge) : wrap32 (crossing e s + e.xIncr) = crossing e (s + 1) := by
      rw [crossing_add, mul_one]
    rw [sweepRows, next, next, covered_row, ih (s + 1)]
    unfold FromTo pixel
    by_cases here : s = y
    · subst here
      omega
    · omega

/-- The record is on the way of the edge, at scanline `s`. -/
structure OnWay (e edge : Edge) (s : Int) : Prop where
  x : e.x = crossing edge s
  xIncr : e.xIncr = edge.xIncr

theorem OnWay.after_iff (he : OnWay e edge s) (hf : OnWay f edge' s) :
    e.after f ↔ ¬Before edge edge' s := by
  simp only [Edge.after, Before, he.x, he.xIncr, hf.x, hf.xIncr]
  omega

theorem OnWay.advance (he : OnWay e edge s) : OnWay (e.advance (t - s)) edge t := by
  refine ⟨?_, he.xIncr⟩
  rw [Edge.advance, he.x, he.xIncr, ← crossing_add, add_sub_cancel]

@[simp] theorem advance_yBot (e : Edge) (count : Int) : (e.advance count).yBot = e.yBot := rfl

theorem sweep_spec (scissor : Scissor) (nonempty : s < t) (he : OnWay e edge s)
    (hf : OnWay f edge' s) :
    ∃ spans, triangleSweepEdges scissor e f (16 * s + 8) (16 * t - 8) s =
        (spans, e.advance (t - s), f.advance (t - s), t) ∧
      ∀ x y, Covered spans x y ↔ (s ≤ y ∧ y < t) ∧ Between edge edge' s x y ∧
        scissor.left ≤ x ∧ x < scissor.right := by
  have rows : (16 * t - 8 - (16 * s + 8)) >>> (4 : Nat) + 1 = t - s := by
    rw [Int.shiftRight_eq_div_pow]
    norm_num
    omega
  obtain ⟨n, hn⟩ : ∃ n : Nat, t - s = n := ⟨(t - s).toNat, by omega⟩
  have last : t = s + n := by omega
  subst last
  have some : ¬(n : Int) ≤ 0 := by omega
  rw [add_sub_cancel_left] at rows ⊢
  by_cases sorted : Before edge edge' s
  · have inOrder : ¬e.after f := fun h => (he.after_iff hf).mp h sorted
    refine ⟨sweepRows scissor edge.xIncr edge'.xIncr n (crossing edge s) (crossing edge' s) s, ?_,
      fun x y => ?_⟩
    · simp only [triangleSweepEdges, rows, if_neg some, if_neg inOrder, he.x, he.xIncr, hf.x,
        hf.xIncr, Int.toNat_natCast]
    · simp only [Between, if_pos sorted]
      exact sweepRows_covered scissor edge edge' n s x y
  · have swapped : e.after f := (he.after_iff hf).mpr sorted
    refine ⟨sweepRows scissor edge'.xIncr edge.xIncr n (crossing edge' s) (crossing edge s) s, ?_,
      fun x y => ?_⟩
    · simp only [triangleSweepEdges, rows, if_neg some, if_pos swapped, he.x, he.xIncr, hf.x,
        hf.xIncr, Int.toNat_natCast]
    · simp only [Between, if_neg sorted]
      exact sweepRows_covered scissor edge' edge n s x y

/-- What a triangle with vertices `a`, `m`, `b` from top to bottom draws on scanline `y`. -/
def Row (scissor : Scissor) (a m b : Vertex) (x y : Int) : Prop :=
  (top scissor a ≤ y ∧ y < bottom scissor m ∧
    Between (record scissor a b) (record scissor a m) (top scissor a) x y) ∨
  (top scissor m ≤ y ∧ y < bottom scissor b ∧
    Between (record scissor a b) (record scissor m b) (top scissor m) x y)

theorem record_onWay (scissor : Scissor) (p q : Vertex) :
    OnWay (record scissor p q) (record scissor p q) (top scissor p) :=
  ⟨record_crossing scissor p q, rfl⟩

theorem firstRow_mono {p q : Vertex} (down : Down p q) : firstRow p ≤ firstRow q := by
  unfold Down at down
  unfold firstRow
  omega

theorem sweeps_three (upper : top scissor a < bottom scissor m)
    (lower : top scissor m < bottom scissor b) {left right : Edge}
    (pair : (left = record scissor a m ∧ right = record scissor a b) ∨
      (left = record scissor a b ∧ right = record scissor a m)) :
    ∃ spans, sweeps scissor left right (some (record scissor m b)) (16 * top scissor a + 8)
        (16 * bottom scissor b - 8) = some spans ∧
      ∀ x y, Covered spans x y ↔
        Row scissor a m b x y ∧ scissor.left ≤ x ∧ x < scissor.right := by
  have hm : bottom scissor m = top scissor m := by
    unfold top bottom at *
    omega
  have row : (16 * top scissor a + 8) >>> (4 : Nat) = top scissor a := by
    rw [Int.shiftRight_eq_div_pow]
    norm_num
    omega
  have mid : min (16 * bottom scissor m - 8) (16 * bottom scissor b - 8) =
      16 * bottom scissor m - 8 := by omega
  have next : 16 * bottom scissor m - 8 + triOne = 16 * top scissor m + 8 := by
    unfold triOne
    omega
  have more : 16 * top scissor m + 8 ≤ 16 * bottom scissor b - 8 := by omega
  have short : ¬16 * bottom scissor m - 8 = 16 * bottom scissor b - 8 := by omega
  have advanced := (record_onWay scissor a b).advance (t := top scissor m)
  rcases pair with ⟨rfl, rfl⟩ | ⟨rfl, rfl⟩
  · obtain ⟨first, run, drawn⟩ := sweep_spec scissor upper (record_onWay scissor a m)
      (record_onWay scissor a b)
    obtain ⟨second, run', drawn'⟩ := sweep_spec scissor lower (record_onWay scissor m b) advanced
    refine ⟨first ++ second, ?_, fun x y => ?_⟩
    · simp only [sweeps, record_yBot, mid, row, run, next, if_pos more, Option.map_some,
        advance_yBot, if_neg short, record_yTop, lt_self_iff_false, if_false]
      rw [hm, run']
    · rw [covered_append, drawn, drawn', Row, between_comm, between_comm (record scissor m b)]
      simp only [and_assoc, or_and_right]
  · obtain ⟨first, run, drawn⟩ := sweep_spec scissor upper (record_onWay scissor a b)
      (record_onWay scissor a m)
    obtain ⟨second, run', drawn'⟩ := sweep_spec scissor lower advanced (record_onWay scissor m b)
    refine ⟨first ++ second, ?_, fun x y => ?_⟩
    · simp only [sweeps, record_yBot, min_comm (16 * bottom scissor b - 8), mid, row, run, next,
        if_pos more, Option.map_some, advance_yBot, if_true, record_yTop, lt_self_iff_false,
        if_false]
      rw [hm, run']
    · rw [covered_append, drawn, drawn', Row]
      simp only [and_assoc, or_and_right]

theorem sweeps_two (scissor : Scissor) (nonempty : s < t) (he : OnWay e edge s)
    (hf : OnWay f edge' s) (ends : e.yBot = 16 * t - 8 ∧ f.yBot = 16 * t - 8) :
    ∃ spans, sweeps scissor e f none (16 * s + 8) (16 * t - 8) = some spans ∧
      ∀ x y, Covered spans x y ↔ (s ≤ y ∧ y < t) ∧ Between edge edge' s x y ∧
        scissor.left ≤ x ∧ x < scissor.right := by
  obtain ⟨spans, run, drawn⟩ := sweep_spec scissor nonempty he hf
  have row : (16 * s + 8) >>> (4 : Nat) = s := by
    rw [Int.shiftRight_eq_div_pow]
    norm_num
    omega
  have past : ¬16 * t - 8 + triOne ≤ 16 * t - 8 := by
    unfold triOne
    omega
  refine ⟨spans, ?_, drawn⟩
  simp only [sweeps, ends.1, ends.2, min_self, row, run, if_neg past]

inductive Listed {α : Type} (a b c : α) : α → α → α → Prop where
  | abc : Listed a b c a b c
  | acb : Listed a b c a c b
  | bac : Listed a b c b a c
  | bca : Listed a b c b c a
  | cab : Listed a b c c a b
  | cba : Listed a b c c b a

theorem Listed.edges {α β : Type} {a m b v0 v1 v2 : α} (edge : α → α → β)
    (comm : ∀ p q, edge p q = edge q p) (listed : Listed a m b v0 v1 v2) :
    Listed (edge a m) (edge a b) (edge m b) (edge v0 v1) (edge v0 v2) (edge v1 v2) := by
  cases listed with
  | abc => exact .abc
  | acb =>
    rw [comm b m]
    exact .bac
  | bac =>
    rw [comm m a]
    exact .acb
  | bca =>
    rw [comm m a, comm b a]
    exact .cab
  | cab =>
    rw [comm b a, comm b m]
    exact .bca
  | cba =>
    rw [comm b m, comm b a, comm m a]
    exact .cba

theorem Listed.swap {α : Type} {a b c x y z : α} (listed : Listed a b c x y z) :
    Listed a c b x y z := by
  cases listed
  all_goals constructor

theorem Listed.rotate {α : Type} {a b c x y z : α} (listed : Listed a b c x y z) :
    Listed c a b x y z := by
  cases listed
  all_goals constructor

theorem Listed.all {α : Type} {P : α → Prop} {a m b v0 v1 v2 : α} (listed : Listed a m b v0 v1 v2)
    (h : ∀ v ∈ [v0, v1, v2], P v) : P a ∧ P m ∧ P b := by
  cases listed
  all_goals
    simp only [List.mem_cons, List.not_mem_nil, or_false, forall_eq_or_imp, forall_eq] at h
    tauto

theorem sides_of_listed {u l w e0 e1 e2 : Edge} (level : u.yTop = l.yTop) (later : u.yTop < w.yTop)
    (listed : Listed u l w e0 e1 e2) :
    sides e0 e1 e2 = (u, l, w) ∨ sides e0 e1 e2 = (l, u, w) := by
  cases listed
  all_goals
    simp only [sides]
    split_ifs
    all_goals first | exact .inl rfl | exact .inr rfl | omega

theorem fillEdges_three (upper : top scissor a < bottom scissor m)
    (lower : top scissor m < bottom scissor b) {e0 e1 e2 : Edge}
    (listed : Listed (record scissor a m) (record scissor a b) (record scissor m b) e0 e1 e2) :
    ∃ spans, fillEdges scissor [e0, e1, e2] = some spans ∧ ∀ x y, Covered spans x y ↔
      Row scissor a m b x y ∧ scissor.left ≤ x ∧ x < scissor.right := by
  have later : top scissor a < top scissor m := by
    unfold top bottom at *
    omega
  have sooner : bottom scissor m < bottom scissor b := by
    unfold top bottom at *
    omega
  have first : min (min e0.yTop e1.yTop) e2.yTop = 16 * top scissor a + 8 := by
    cases listed
    all_goals
      simp only [record_yTop]
      omega
  have last : max (max e0.yBot e1.yBot) e2.yBot = 16 * bottom scissor b - 8 := by
    cases listed
    all_goals
      simp only [record_yBot]
      omega
  have waits : (record scissor a m).yTop < (record scissor m b).yTop := by
    simp only [record_yTop]
    omega
  have level : (record scissor a m).yTop = (record scissor a b).yTop := rfl
  rw [fillEdges, first, last]
  rcases sides_of_listed level waits listed with order | order
  · rw [order]
    exact sweeps_three upper lower (.inl ⟨rfl, rfl⟩)
  · rw [order]
    exact sweeps_three upper lower (.inr ⟨rfl, rfl⟩)

theorem fillEdges_two (nonempty : s < t) (he : OnWay e edge s) (hf : OnWay f edge' s)
    (starts : e.yTop = 16 * s + 8 ∧ f.yTop = 16 * s + 8)
    (ends : e.yBot = 16 * t - 8 ∧ f.yBot = 16 * t - 8) {edges : List Edge}
    (pair : edges = [e, f] ∨ edges = [f, e]) :
    ∃ spans, fillEdges scissor edges = some spans ∧ ∀ x y, Covered spans x y ↔
      (s ≤ y ∧ y < t) ∧ Between edge edge' s x y ∧ scissor.left ≤ x ∧ x < scissor.right := by
  rcases pair with rfl | rfl
  · rw [fillEdges, starts.1, starts.2, ends.1, ends.2, min_self, max_self]
    exact sweeps_two scissor nonempty he hf ends
  · rw [fillEdges, starts.1, starts.2, ends.1, ends.2, min_self, max_self]
    obtain ⟨spans, run, drawn⟩ := sweeps_two scissor nonempty hf he ends.symm
    refine ⟨spans, run, fun x y => ?_⟩
    rw [drawn, between_comm]

theorem filterMap_three {α : Type} {u l w : α} {o0 o1 o2 : Option α}
    (listed : Listed (some u) (some l) (some w) o0 o1 o2) :
    ∃ e0 e1 e2, [o0, o1, o2].filterMap id = [e0, e1, e2] ∧ Listed u l w e0 e1 e2 := by
  cases listed
  · exact ⟨u, l, w, rfl, .abc⟩
  · exact ⟨u, w, l, rfl, .acb⟩
  · exact ⟨l, u, w, rfl, .bac⟩
  · exact ⟨l, w, u, rfl, .bca⟩
  · exact ⟨w, u, l, rfl, .cab⟩
  · exact ⟨w, l, u, rfl, .cba⟩

theorem filterMap_upper {α : Type} {u l : α} {o0 o1 o2 : Option α}
    (listed : Listed (some u) (some l) none o0 o1 o2) :
    [o0, o1, o2].filterMap id = [u, l] ∨ [o0, o1, o2].filterMap id = [l, u] := by
  cases listed
  all_goals simp

theorem filterMap_lower {α : Type} {l w : α} {o0 o1 o2 : Option α}
    (listed : Listed none (some l) (some w) o0 o1 o2) :
    [o0, o1, o2].filterMap id = [l, w] ∨ [o0, o1, o2].filterMap id = [w, l] := by
  cases listed
  all_goals simp

theorem filterMap_none {α : Type} {o0 o1 o2 : Option α} (listed : Listed none none none o0 o1 o2) :
    [o0, o1, o2].filterMap id = [] := by
  cases listed
  all_goals rfl

theorem trianglexBig_spec (scissor : Scissor) {v0 v1 v2 : Vertex} (listed : Listed a m b v0 v1 v2)
    (down : Down a m) (further : Down m b) :
    ∃ spans, trianglexBig scissor v0 v1 v2 = some spans ∧ ∀ x y, Covered spans x y ↔
      Row scissor a m b x y ∧ scissor.left ≤ x ∧ x < scissor.right := by
  have u := edgeSetup_eq scissor down
  have l := edgeSetup_eq scissor (down.trans further)
  have w := edgeSetup_eq scissor further
  have order := listed.edges (fun p q => edgeSetup p q (scissor.top * triOne + triHalf)
    (scissor.bottom * triOne - triHalf)) fun p q => edgeSetup_comm p q _ _
  have rows := firstRow_mono down
  have rows' := firstRow_mono further
  unfold trianglexBig
  dsimp only
  by_cases upper : top scissor a < bottom scissor m
  · have long : top scissor a < bottom scissor b := by
      unfold top bottom at *
      omega
    rw [u, l, w, if_pos upper, if_pos long] at order
    by_cases lower : top scissor m < bottom scissor b
    · rw [if_pos lower] at order
      obtain ⟨e0, e1, e2, counted, listed'⟩ := filterMap_three order
      rw [counted]
      exact fillEdges_three upper lower listed'
    · have ends : bottom scissor b = bottom scissor m := by
        unfold top bottom at *
        omega
      rw [if_neg lower] at order
      obtain ⟨spans, run, drawn⟩ := fillEdges_two upper (record_onWay scissor a m)
        (record_onWay scissor a b) ⟨rfl, rfl⟩ ⟨rfl, congrArg (16 * · - 8) ends⟩
        (filterMap_upper order)
      refine ⟨spans, run, fun x y => ?_⟩
      rw [drawn, Row, between_comm]
      grind
  · by_cases lower : top scissor m < bottom scissor b
    · have starts : top scissor a = top scissor m := by
        unfold top bottom at *
        omega
      have long : top scissor a < bottom scissor b := starts ▸ lower
      have onLong : OnWay (record scissor a b) (record scissor a b) (top scissor m) :=
        starts ▸ record_onWay scissor a b
      rw [u, l, w, if_neg upper, if_pos lower, if_pos long] at order
      obtain ⟨spans, run, drawn⟩ := fillEdges_two lower onLong (record_onWay scissor m b)
        ⟨congrArg (16 * · + 8) starts, rfl⟩ ⟨rfl, rfl⟩ (filterMap_lower order)
      refine ⟨spans, run, fun x y => ?_⟩
      rw [drawn, Row]
      grind
    · have long : ¬top scissor a < bottom scissor b := by
        unfold top bottom at *
        omega
      rw [u, l, w, if_neg upper, if_neg lower, if_neg long] at order
      refine ⟨[], ?_, fun x y => ?_⟩
      · rw [filterMap_none order, fillEdges]
        · simp
        · simp
      · refine iff_of_false (covered_nil x y) ?_
        rintro ⟨⟨after, before, -⟩ | ⟨after, before, -⟩, -⟩
        · exact upper (after.trans_lt before)
        · exact lower (after.trans_lt before)

theorem drawn_iff {v0 v1 v2 : Vertex} (listed : Listed a m b v0 v1 v2) (down : Down a m)
    (further : Down m b) (x y : Int) :
    Drawn scissor v0 v1 v2 x y ↔
      Row scissor a m b x y ∧ scissor.left ≤ x ∧ x < scissor.right := by
  obtain ⟨spans, run, drawn⟩ := trianglexBig_spec scissor listed down further
  rw [← drawn]
  exact ⟨fun ⟨_, run', member⟩ => Option.some_inj.mp (run'.symm.trans run) ▸ member,
    fun member => ⟨spans, run, member⟩⟩

theorem exists_listed (v0 v1 v2 : Vertex) :
    ∃ a m b, Listed a m b v0 v1 v2 ∧ Down a m ∧ Down m b := by
  unfold Down
  rcases le_total (oddRow v0.y) (oddRow v1.y) with h01 | h10 <;>
    rcases le_total (oddRow v1.y) (oddRow v2.y) with h12 | h21 <;>
    rcases le_total (oddRow v0.y) (oddRow v2.y) with h02 | h20
  · exact ⟨v0, v1, v2, .abc, h01, h12⟩
  · exact ⟨v0, v1, v2, .abc, h01, h12⟩
  · exact ⟨v0, v2, v1, .acb, h02, h21⟩
  · exact ⟨v2, v0, v1, .bca, h20, h01⟩
  · exact ⟨v1, v0, v2, .bac, h10, h02⟩
  · exact ⟨v1, v2, v0, .cab, h12, h20⟩
  · exact ⟨v2, v1, v0, .cba, h21, h10⟩
  · exact ⟨v2, v1, v0, .cba, h21, h10⟩

end RabbitRender.Raster.Sweep
