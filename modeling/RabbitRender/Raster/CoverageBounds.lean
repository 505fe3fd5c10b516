/- RabbitRender/Raster/CoverageBounds
   layer: theorem
   source: libpixelflinger/trap.cpp
   digest: When the sweep of an anti-aliased polygon stays in the coverage buffer, in the rows of
     the scissor and in the edge records that were set up. -/

import RabbitRender.Raster.Antialiased

set_option autoImplicit false

namespace RabbitRender.Raster.CoverageBounds

open Fixed Raster.Antialiased
open Raster.Trap (Vertex)

/-- A turn writes words of the coverage buffer, rasterises rows of the scissor and takes edge
records that were set up. -/
structure Safe (p : Polygon) (length : Int) (s : State) : Prop where
  coverage : ∀ w ∈ (p.turn s).writes, w.Within length
  rows : ∀ row ∈ (p.turn s).rows, p.scissor.top ≤ row ∧ row < p.scissor.bottom
  records : ∀ k ∈ (p.turn s).records, k < p.edges.length

/-- The scissor is inside of the surface, for whose width, a word, the buffer was allocated. -/
structure Inside (p : Polygon) (length : Int) : Prop where
  left : 0 ≤ p.scissor.left
  right : p.scissor.right ≤ length
  top : 0 ≤ p.scissor.top
  bottom : 0 ≤ p.scissor.bottom
  word : length < 2 ^ 32

/-- The rightmost position of the left edge in a turn. -/
def reachLeft (s : State) : Int := max s.l (s.left.position s.y)

def reachRight (s : State) : Int := max s.r (s.right.position s.y)

/-- The rightmost positions can be rounded up in 32 bits. -/
structure Reaches (s : State) : Prop where
  left : reachLeft s + 0xFFFF < 2 ^ 31
  right : reachRight s + 0xFFFF < 2 ^ 31

/-- The first column to the right of the left edge is at most the one after the right edge, or it is
the first one. -/
def Meets (xmax : Int) (s : State) : Prop :=
  min xmax ((reachLeft s + 0xFFFF) / 2 ^ 16) ≤ max 1 (reachRight s / 2 ^ 16 + 1)

/-- The buffer has every column that 16.16 has, the turn is a whole row high, and the right edge is
in the last of these columns. -/
structure Passes (p : Polygon) (length : Int) (s : State) : Prop where
  wide : 2 ^ 15 ≤ length
  whole : s.y - s.yt = triOne
  last : 0x7FFF0000 < reachRight s ∨ reachRight s = 0x7FFF0000 ∧ 2 ^ 15 ≤ p.scissor.right

/-- No record is left for an edge that ends. -/
def Done (p : Polygon) (s : State) : Prop :=
  (s.y = s.left.yBot ∨ s.y = s.right.yBot) ∧ p.edges.length ≤ s.next

/-- The span that the row has after the turn has columns. -/
def Shown (p : Polygon) (s : State) : Prop :=
  let xml := max p.scissor.left ((s.leftExtent p.scissor.right).minI >>> (16 : Nat))
  let xmr := min p.scissor.right ((s.rightExtent p.scissor.right).maxI >>> (16 : Nat))
  (if s.retire then xml else min s.xl xml) < if s.retire then xmr else max s.xr xmr

/-- The row the iterators are at in the turn. -/
def rowIn (s : State) : Int := if s.retire then s.row + 1 else s.row

/-- In a turn of a whole row the edges are not crossed; a position that cannot be rounded up does no
harm. The iterators have not left the rows of the scissor where a row is drawn. Where both edges
end, there are two more records or none. -/
structure Sound (p : Polygon) (length : Int) (s : State) : Prop where
  meets : Reaches s → s.y - s.yt = triOne → Meets p.scissor.right s
  passes : ¬Reaches s → Passes p length s
  previous : s.retire = true → s.xl < s.xr → p.scissor.top ≤ s.row ∧ s.row < p.scissor.bottom
  last : Done p s → Shown p s → p.scissor.top ≤ rowIn s ∧ rowIn s < p.scissor.bottom
  paired : s.y = s.left.yBot → s.y = s.right.yBot → s.next + 1 ≠ p.edges.length

instance (s : State) : Decidable (Reaches s) :=
  decidable_of_iff (reachLeft s + 0xFFFF < 2 ^ 31 ∧ reachRight s + 0xFFFF < 2 ^ 31)
    ⟨fun h => ⟨h.1, h.2⟩, fun h => ⟨h.left, h.right⟩⟩

instance (xmax : Int) (s : State) : Decidable (Meets xmax s) := Int.decLe _ _

instance (p : Polygon) (length : Int) (s : State) : Decidable (Passes p length s) :=
  decidable_of_iff (2 ^ 15 ≤ length ∧ s.y - s.yt = triOne ∧
    (0x7FFF0000 < reachRight s ∨ reachRight s = 0x7FFF0000 ∧ 2 ^ 15 ≤ p.scissor.right))
    ⟨fun h => ⟨h.1, h.2.1, h.2.2⟩, fun h => ⟨h.wide, h.whole, h.last⟩⟩

instance (p : Polygon) (s : State) : Decidable (Done p s) := inferInstanceAs (Decidable (_ ∧ _))

instance (p : Polygon) (s : State) : Decidable (Shown p s) := Int.decLt _ _

instance (p : Polygon) (length : Int) : DecidablePred (Sound p length) := fun s =>
  decidable_of_iff ((Reaches s → s.y - s.yt = triOne → Meets p.scissor.right s) ∧
    (¬Reaches s → Passes p length s) ∧
    (s.retire = true → s.xl < s.xr → p.scissor.top ≤ s.row ∧ s.row < p.scissor.bottom) ∧
    (Done p s → Shown p s → p.scissor.top ≤ rowIn s ∧ rowIn s < p.scissor.bottom) ∧
    (s.y = s.left.yBot → s.y = s.right.yBot → s.next + 1 ≠ p.edges.length))
    ⟨fun h => ⟨h.1, h.2.1, h.2.2.1, h.2.2.2.1, h.2.2.2.2⟩,
      fun h => ⟨h.meets, h.passes, h.previous, h.last, h.paired⟩⟩

/-- What the clamps leave of an edge whose rightmost position is `hi`. -/
structure Clamped (xmax hi : Int) (e : Extent) : Prop where
  low : 0 ≤ e.min
  order : e.min ≤ e.max
  high : e.max < xmax * 2 ^ 16
  reach : e.max ≤ 0x7FFF0000
  floor : e.minI = e.min / 2 ^ 16 * 2 ^ 16
  ceil : e.maxI = (e.max + 0xFFFF) / 2 ^ 16 * 2 ^ 16
  firstRight : e.maxI = min xmax (max 0 ((hi + 0xFFFF) / 2 ^ 16)) * 2 ^ 16
  lastColumn : e.max / 2 ^ 16 = min (xmax - 1) (max 0 (hi / 2 ^ 16))

/-- What they leave when `hi` cannot be rounded up: it seems to be left of the scissor's right. -/
structure Passed (xmax hi : Int) (e : Extent) : Prop where
  low : 0 ≤ e.min
  high : e.min < xmax * 2 ^ 16
  order : e.min ≤ hi
  max : e.max = hi
  floor : e.minI = e.min / 2 ^ 16 * 2 ^ 16
  ceil : e.maxI = -2 ^ 31

theorem gglFixedToIntCeil_eq {f : Int} (low : 0 ≤ f) (high : f + 0xFFFF < 2 ^ 31) :
    gglFixedToIntCeil f = (f + 0xFFFF) / 2 ^ 16 := by
  unfold gglFixedToIntCeil
  rw [wrap32_of_bounds (by omega) high, Int.shiftRight_eq_div_pow]
  rfl

theorem gglFloorx_eq {v : Int} (low : 0 ≤ v) (high : v < 2 ^ 31) :
    gglFloorx v = v / 2 ^ 16 * 2 ^ 16 := by
  unfold gglFloorx
  rw [Int.shiftRight_eq_div_pow]
  exact wrap32_of_bounds (by omega) (by omega)

theorem gglCeilx_eq {v : Int} (low : 0 ≤ v) (high : v + 0xFFFF < 2 ^ 31) :
    gglCeilx v = (v + 0xFFFF) / 2 ^ 16 * 2 ^ 16 := by
  unfold gglCeilx
  rw [gglFixedToIntCeil_eq low high]
  exact wrap32_of_bounds (by omega) (by omega)

theorem lastColumn_eq {xmax : Int} (some : 0 < xmax) (narrow : xmax < 2 ^ 15) :
    lastColumn xmax = xmax * 2 ^ 16 - 1 := by
  unfold lastColumn
  rw [wrap32_of_bounds (x := xmax * 2 ^ 16) (by omega) (by omega)]
  exact wrap32_of_bounds (by omega) (by omega)

theorem ordered_ends (x0 x1 : Int) : ∃ lo,
    (if x1 > x0 then (x0, x1) else (x1, x0)) = (lo, max x0 x1) ∧ lo ≤ max x0 x1 := by
  split
  · exact ⟨x0, Prod.ext rfl (by dsimp only; omega), by omega⟩
  · exact ⟨x1, Prod.ext rfl (by dsimp only; omega), by omega⟩

theorem positive_part (x : Int) : (if x < 0 then 0 else x) = max x 0 := by
  split <;> omega

/-- The columns of the clamped edge, in 16.16 as well. -/
theorem clamped_extent {xmax x0 x1 : Int} (some : 0 < xmax)
    (reach : max x0 x1 + 0xFFFF < 2 ^ 31) :
    Clamped (min xmax (2 ^ 15)) (max x0 x1) (extent xmax x0 x1) := by
  obtain ⟨lo, ordered, order⟩ := ordered_ends x0 x1
  generalize max x0 x1 = hi at *
  have bounds : 0 ≤ max hi 0 ∧ max hi 0 + 0xFFFF < 2 ^ 31 := by omega
  have least : (max lo 0) >>> (16 : Nat) = max lo 0 / 2 ^ 16 := Int.shiftRight_eq_div_pow _ _
  have narrow : xmax < 2 ^ 15 → lastColumn xmax = xmax * 2 ^ 16 - 1 := lastColumn_eq some
  unfold extent
  rw [ordered]
  dsimp only
  rw [positive_part, positive_part, least, gglFixedToIntCeil_eq bounds.1 bounds.2]
  generalize lastColumn xmax = column at *
  generalize leftmost : (if max lo 0 / 2 ^ 16 ≥ xmax then column else max lo 0) = a
  generalize rightmost :
    (if (max hi 0 + 0xFFFF) / 2 ^ 16 ≥ xmax then column else max hi 0) = b
  have limit : min xmax (2 ^ 15) = xmax ∧ xmax < 2 ^ 15 ∨
      min xmax (2 ^ 15) = 2 ^ 15 ∧ 2 ^ 15 ≤ xmax := by omega
  generalize min xmax (2 ^ 15) = top at *
  have clamps : 0 ≤ a ∧ a ≤ b ∧ b < top * 2 ^ 16 ∧ b ≤ 0x7FFF0000 := by
    split at leftmost <;> split at rightmost <;> omega
  have columns : (b + 0xFFFF) / 2 ^ 16 = min top (max 0 ((hi + 0xFFFF) / 2 ^ 16)) ∧
      b / 2 ^ 16 = min (top - 1) (max 0 (hi / 2 ^ 16)) := by
    clear leftmost
    split at rightmost <;> rcases limit with ⟨rfl, small⟩ | ⟨rfl, large⟩ <;> omega
  obtain ⟨low, inOrder, high, last⟩ := clamps
  have ceil : gglCeilx b = (b + 0xFFFF) / 2 ^ 16 * 2 ^ 16 := gglCeilx_eq (by omega) (by omega)
  exact ⟨low, inOrder, high, last, gglFloorx_eq low (by omega), ceil, columns.1 ▸ ceil, columns.2⟩

theorem passed_extent {xmax x0 x1 : Int} (some : 0 < xmax) (word : max x0 x1 < 2 ^ 31)
    (passed : 2 ^ 31 ≤ max x0 x1 + 0xFFFF) :
    Passed (min xmax (2 ^ 15)) (max x0 x1) (extent xmax x0 x1) := by
  obtain ⟨lo, ordered, order⟩ := ordered_ends x0 x1
  generalize max x0 x1 = hi at *
  have least : (max lo 0) >>> (16 : Nat) = max lo 0 / 2 ^ 16 := Int.shiftRight_eq_div_pow _ _
  have narrow : xmax < 2 ^ 15 → lastColumn xmax = xmax * 2 ^ 16 - 1 := lastColumn_eq some
  have positive : max hi 0 = hi := by omega
  have rounded : gglFixedToIntCeil hi = -2 ^ 15 := by
    unfold gglFixedToIntCeil
    have turned : wrap32 (hi + 0xFFFF) = hi + 0xFFFF - 2 ^ 32 := by
      rw [← wrap32_sub_turn]
      exact wrap32_of_bounds (by omega) (by omega)
    rw [turned, Int.shiftRight_eq_div_pow]
    omega
  have below : ¬gglFixedToIntCeil hi ≥ xmax := by omega
  have ceil : gglCeilx hi = -2 ^ 31 := by
    unfold gglCeilx
    rw [rounded]
    decide
  unfold extent
  rw [ordered]
  dsimp only
  rw [positive_part, positive_part, least, positive, if_neg below]
  generalize lastColumn xmax = column at *
  generalize leftmost : (if max lo 0 / 2 ^ 16 ≥ xmax then column else max lo 0) = a
  have clamps : 0 ≤ a ∧ a < min xmax (2 ^ 15) * 2 ^ 16 ∧ a ≤ hi := by
    split at leftmost <;> omega
  obtain ⟨low, high, inOrder⟩ := clamps
  exact ⟨low, high, inOrder, rfl, gglFloorx_eq low (by omega), ceil⟩

section Ramp

variable {write : Int → Int → Write} {incr xmax length : Int}

theorem ramp_index (n : Nat) (index cf : Int) : (ramp write incr n index cf).2.1 = index + n := by
  induction n generalizing index cf with
  | zero => exact (Int.add_zero index).symm
  | succ n ih =>
    have rest := ih (index + 1) (wrap32 (cf + incr))
    simp only [ramp, rest]
    omega

theorem ramp_within (within : ∀ i cf, 0 ≤ i → i < xmax → (write i cf).Within length) (n : Nat)
    {index : Int} (low : 0 ≤ index) (high : index + n ≤ xmax) (cf : Int) :
    ∀ w ∈ (ramp write incr n index cf).1, w.Within length := by
  induction n generalizing index cf with
  | zero =>
    intro w mem
    cases mem
  | succ n ih =>
    intro w mem
    rcases List.mem_cons.1 mem with rfl | later
    · exact within _ _ low (by omega)
    · have low' : 0 ≤ index + 1 := by omega
      have high' : index + 1 + n ≤ xmax := by omega
      exact ih low' high' _ w later

theorem edgeCoverage_within {hi : Int} {e : Extent} (clamped : Clamped xmax hi e)
    (within : ∀ i cf, 0 ≤ i → i < xmax → (write i cf).Within length) (yIncr dy : Int) :
    ∀ w ∈ edgeCoverage write e yIncr dy, w.Within length := by
  obtain ⟨low, order, high, reach, floor, ceil, -, -⟩ := clamped
  have index : e.minI >>> (16 : Nat) = e.min / 2 ^ 16 := by
    rw [floor, Int.shiftRight_eq_div_pow]
    omega
  have highest : gglFloorx e.max = e.max / 2 ^ 16 * 2 ^ 16 := gglFloorx_eq (by omega) (by omega)
  unfold edgeCoverage
  rw [index, highest]
  dsimp only
  split
  · intro w mem
    rw [List.mem_singleton.1 mem]
    exact within _ _ (by omega) (by omega)
  · rename_i several
    have stop : wrap32 (e.maxI - 0x10000) = e.maxI - 0x10000 :=
      wrap32_of_bounds (by omega) (by omega)
    have begins : wrap32 (e.minI + 0x10000) = e.minI + 0x10000 :=
      wrap32_of_bounds (by omega) (by omega)
    rw [stop, begins, ramp_index]
    generalize count : ((e.maxI - 0x10000 - (e.minI + 0x10000)) / 0x10000).toNat = n
    intro w mem
    rcases List.mem_cons.1 mem with rfl | later
    · exact within _ _ (by omega) (by omega)
    · rcases List.mem_append.1 later with middle | last
      · exact ramp_within within n (by omega) (by omega) _ w middle
      · rw [List.mem_singleton.1 last]
        exact within _ _ (by omega) (by omega)

/-- The last column of 16.16 is written. -/
theorem edgeCoverage_passed_iff {hi : Int} {e : Extent} (passed : Passed xmax hi e)
    (narrow : xmax ≤ 2 ^ 15) (last : 0x7FFF0000 < hi) (word : hi < 2 ^ 31)
    (within : ∀ i cf, (write i cf).Within length ↔ 0 ≤ i ∧ i < length) (yIncr dy : Int) :
    (∀ w ∈ edgeCoverage write e yIncr dy, w.Within length) ↔ 2 ^ 15 ≤ length := by
  obtain ⟨low, high, order, max, floor, ceil⟩ := passed
  have index : e.minI >>> (16 : Nat) = e.min / 2 ^ 16 := by
    rw [floor, Int.shiftRight_eq_div_pow]
    omega
  have highest : gglFloorx e.max = 0x7FFF0000 := by
    rw [max, gglFloorx_eq (by omega) word]
    omega
  unfold edgeCoverage
  rw [index, highest]
  dsimp only
  split
  · rw [List.forall_mem_singleton, within]
    omega
  · have stop : wrap32 (e.maxI - 0x10000) = 0x7FFF0000 := by
      rw [ceil]
      decide
    have begins : wrap32 (e.minI + 0x10000) = e.minI + 0x10000 :=
      wrap32_of_bounds (by omega) (by omega)
    rw [stop, begins, ramp_index]
    generalize count : ((0x7FFF0000 - (e.minI + 0x10000)) / 0x10000).toNat = n
    rw [List.forall_mem_cons, List.forall_mem_append, List.forall_mem_singleton, within, within]
    constructor
    · rintro ⟨-, -, lastWrite⟩
      omega
    · intro wide
      have inBuffer (i cf : Int) (atLeast : 0 ≤ i) (below : i < 2 ^ 15) :
          (write i cf).Within length := (within i cf).2 (by omega)
      exact ⟨by omega, ramp_within inBuffer n (by omega) (by omega) _, by omega⟩

/-- The coverage of one edge stays in a buffer with the columns of the scissor, unless its rightmost
position cannot be rounded up and the buffer lacks the last column of 16.16. -/
theorem edgeCoverage_iff {x0 x1 : Int} (some : 0 < xmax) (fits : min xmax (2 ^ 15) ≤ length)
    (word : max x0 x1 < 2 ^ 31)
    (within : ∀ i cf, (write i cf).Within length ↔ 0 ≤ i ∧ i < length) (yIncr dy : Int) :
    (∀ w ∈ edgeCoverage write (extent xmax x0 x1) yIncr dy, w.Within length) ↔
      max x0 x1 + 0xFFFF < 2 ^ 31 ∨ 2 ^ 15 ≤ length := by
  rcases Int.lt_or_le (max x0 x1 + 0xFFFF) (2 ^ 31) with reach | passed
  · have stays := edgeCoverage_within (clamped_extent some reach)
      (fun i cf low high => (within i cf).2 ⟨low, Int.lt_of_lt_of_le high fits⟩) yIncr dy
    exact iff_of_true stays (.inl reach)
  · have last := edgeCoverage_passed_iff (passed_extent some word passed) (Int.min_le_right _ _)
      (by omega) word within yIncr dy
    rw [last]
    exact (or_iff_right (by omega)).symm

end Ramp

theorem last_column_iff {xmax hi : Int} {e : Extent} (clamped : Clamped (min xmax (2 ^ 15)) hi e)
    (reach : hi ≤ 0x7FFF0000) : 0x7FFF0000 ≤ e.max ↔ hi = 0x7FFF0000 ∧ 2 ^ 15 ≤ xmax := by
  have column := clamped.lastColumn
  have high := clamped.reach
  rcases Int.lt_or_le xmax (2 ^ 15) with small | large
  · rw [Int.min_eq_left (Int.le_of_lt small)] at column
    omega
  · rw [Int.min_eq_right large] at column
    omega

section FullCoverage

variable {xmax length hiLeft hiRight dy : Int} {left right : Extent}

/-- A negative count is a number of words that no buffer has. -/
theorem set_within_iff (size : length < 2 ^ 32) {first n : Int} (low : -2 ^ 31 ≤ first)
    (least : -2 ^ 31 ≤ n) (most : n < 2 ^ 31) (value : Int) :
    (Write.set first (words n) value).Within length ↔
      n = 0 ∨ 0 < n ∧ 0 ≤ first ∧ first + n ≤ length := by
  unfold Write.Within words
  rcases Int.lt_or_le n 0 with negative | positive
  · have count : n % 2 ^ 63 = n + 2 ^ 63 := by omega
    rw [count]
    omega
  · rw [Int.emod_eq_of_lt positive (by omega)]
    omega

theorem fullCoverage_whole (left right : Extent) : fullCoverage left right triOne =
    [.set (left.maxI >>> (16 : Nat))
      (words (wrap32 (right.max - left.maxI) >>> (16 : Nat) + 1)) 0x7FFF] := by
  unfold fullCoverage
  rw [if_pos (by decide)]

theorem fullCoverage_part (above : -2 ^ 16 ≤ dy) (below : dy < triOne) :
    fullCoverage left right dy =
      if right.max > 0x7FFF0000 then [.flood (left.maxI >>> (16 : Nat)) (dy * 2 ^ 11)]
      else (List.range ((right.max - left.maxI + 0xFFFF) / 0x10000).toNat).map fun (k : Nat) =>
        .add (left.maxI >>> (16 : Nat) + k) (dy * 2 ^ 11) := by
  simp only [triOne] at below
  have whole : wrap32 (dy * 2 ^ 11) = dy * 2 ^ 11 := wrap32_of_bounds (by omega) (by omega)
  unfold fullCoverage
  rw [whole]
  dsimp only
  rw [if_neg (by omega)]

theorem uncrossed_iff (some : 0 < xmax) (clamped : Clamped xmax hiLeft left)
    (clampedRight : Clamped xmax hiRight right) :
    min xmax ((hiLeft + 0xFFFF) / 2 ^ 16) ≤ max 1 (hiRight / 2 ^ 16 + 1) ↔
      (left.max + 0xFFFF) / 2 ^ 16 ≤ right.max / 2 ^ 16 + 1 := by
  have firstRight := clamped.firstRight
  have lastColumn := clampedRight.lastColumn
  rw [clamped.ceil] at firstRight
  omega

theorem firstColumn (clamped : Clamped xmax hiLeft left) :
    left.maxI >>> (16 : Nat) = (left.max + 0xFFFF) / 2 ^ 16 := by
  rw [clamped.ceil, Int.shiftRight_eq_div_pow]
  omega

theorem fullCoverage_iff (some : 0 < xmax) (enough : xmax ≤ length) (size : length < 2 ^ 32)
    (clamped : Clamped xmax hiLeft left) (clampedRight : Clamped xmax hiRight right)
    (above : -2 ^ 16 ≤ dy) (below : dy ≤ triOne) :
    (∀ w ∈ fullCoverage left right dy, w.Within length) ↔
      (dy = triOne → min xmax ((hiLeft + 0xFFFF) / 2 ^ 16) ≤ max 1 (hiRight / 2 ^ 16 + 1)) := by
  obtain ⟨low, order, high, reach, -, ceil, -, -⟩ := id clamped
  obtain ⟨lowRight, orderRight, highRight, reachRight, -, -, -, -⟩ := id clampedRight
  by_cases whole : dy = triOne
  · have count : wrap32 (right.max - left.maxI) >>> (16 : Nat) + 1 =
        right.max / 2 ^ 16 - (left.max + 0xFFFF) / 2 ^ 16 + 1 := by
      rw [wrap32_of_bounds (by omega) (by omega), Int.shiftRight_eq_div_pow]
      omega
    rw [whole, fullCoverage_whole, List.forall_mem_singleton, firstColumn clamped, count,
      uncrossed_iff some clamped clampedRight,
      set_within_iff size (by omega) (by omega) (by omega)]
    omega
  · rw [fullCoverage_part above (by omega), if_neg (by omega), firstColumn clamped]
    refine iff_of_true ?_ fun same => absurd same whole
    intro w mem
    obtain ⟨k, inRange, rfl⟩ := List.mem_map.1 mem
    have last := List.mem_range.1 inRange
    unfold Write.Within
    omega

/-- The right edge cannot be rounded up. -/
theorem fullCoverage_right_iff (size : length < 2 ^ 32) (clamped : Clamped xmax hiLeft left)
    (last : 0x7FFF0000 < right.max) (word : right.max < 2 ^ 31) (above : -2 ^ 16 ≤ dy)
    (below : dy ≤ triOne) : (∀ w ∈ fullCoverage left right dy, w.Within length) ↔
      dy = triOne ∧ 2 ^ 15 ≤ length := by
  obtain ⟨low, order, -, reach, -, ceil, -, -⟩ := id clamped
  by_cases whole : dy = triOne
  · have count : wrap32 (right.max - left.maxI) >>> (16 : Nat) + 1 =
        2 ^ 15 - (left.max + 0xFFFF) / 2 ^ 16 := by
      rw [wrap32_of_bounds (by omega) (by omega), Int.shiftRight_eq_div_pow]
      omega
    rw [whole, fullCoverage_whole, List.forall_mem_singleton, firstColumn clamped, count,
      set_within_iff size (by omega) (by omega) (by omega)]
    omega
  · rw [fullCoverage_part above (by omega), if_pos last, List.forall_mem_singleton]
    exact iff_of_false id fun passes => whole passes.1

/-- The left edge cannot be rounded up: the columns between the edges begin before the buffer. -/
theorem fullCoverage_left_iff (size : length < 2 ^ 32) (ceil : left.maxI = -2 ^ 31)
    (low : 0 ≤ right.max) (word : right.max < 2 ^ 31) (above : -2 ^ 16 ≤ dy) (below : dy ≤ triOne) :
    (∀ w ∈ fullCoverage left right dy, w.Within length) ↔
      dy = triOne ∧ 0x7FFF0000 ≤ right.max := by
  have index : left.maxI >>> (16 : Nat) = -2 ^ 15 := by
    rw [ceil]
    decide
  by_cases whole : dy = triOne
  · have count : wrap32 (right.max - left.maxI) >>> (16 : Nat) + 1 =
        right.max / 2 ^ 16 - 2 ^ 15 + 1 := by
      have turned : wrap32 (right.max - left.maxI) = right.max - 2 ^ 31 := by
        rw [ceil, ← wrap32_sub_turn]
        exact (wrap32_of_bounds (by omega) (by omega)).trans (by omega)
      rw [turned, Int.shiftRight_eq_div_pow]
      omega
    rw [whole, fullCoverage_whole, List.forall_mem_singleton, index, count,
      set_within_iff size (by omega) (by omega) (by omega)]
    omega
  · rw [fullCoverage_part above (by omega), index]
    refine iff_of_false ?_ fun passes => whole passes.1
    intro within
    split at within
    · exact within _ List.mem_cons_self
    · have first : (0 : Nat) ∈
          List.range ((right.max - left.maxI + 0xFFFF) / 0x10000).toNat :=
        List.mem_range.2 (by omega)
      have written := within _ (List.mem_map.2 ⟨0, first, rfl⟩)
      unfold Write.Within at written
      omega

end FullCoverage

section Turn

variable {p : Polygon} {s : State} {length : Int}

/-- What the states of a sweep have as long as it takes no record that was not set up. -/
structure Kept (p : Polygon) (s : State) : Prop where
  columns : 0 < p.scissor.right
  left : s.left ∈ p.edges
  right : s.right ∈ p.edges
  l : s.l < 2 ^ 31
  r : s.r < 2 ^ 31
  yt : -2 ^ 15 ≤ s.yt ∧ s.yt ≤ 2 ^ 15

theorem setup_of_mem {e : AAEdge} (mem : e ∈ p.edges) :
    ∃ p1 p2, aaEdgeSetup p1 p2 (wrap32 (p.scissor.top * triOne))
      (wrap32 (p.scissor.bottom * triOne)) = some e := by
  obtain ⟨⟨p1, p2⟩, -, h⟩ := List.mem_filterMap.1 (p.perm.mem_iff.1 mem)
  exact ⟨p1, p2, h⟩

/-- The fields of a record that was set up have their widths. -/
theorem fields_of_mem {e : AAEdge} (mem : e ∈ p.edges) : e.x < 2 ^ 31 ∧
    (-2 ^ 15 ≤ e.yTop ∧ e.yTop < 2 ^ 15) ∧ -2 ^ 15 ≤ e.yBot ∧ e.yBot < 2 ^ 15 := by
  obtain ⟨p1, p2, h⟩ := setup_of_mem mem
  have half (v : Int) : -2 ^ 15 ≤ int16 v ∧ int16 v < 2 ^ 15 :=
    ⟨Int.le_bmod (by decide), Int.bmod_lt (by decide)⟩
  unfold aaEdgeSetup at h
  generalize (if p1.y > p2.y then (p2, p1) else (p1, p2)) = ends at h
  dsimp only at h
  split at h
  · cases h
  · obtain rfl := Option.some.inj h
    have word (c : Prop) [Decidable c] (a b : Int) :
        (if c then wrap32 a else wrap32 b) < 2 ^ 31 := by
      split <;> exact (wrap32_bounds _).2
    exact ⟨word _ _ _, half _, half _⟩

theorem Kept.height (kept : Kept p s) : -2 ^ 16 ≤ s.y - s.yt ∧ s.y - s.yt ≤ triOne ∧
    -2 ^ 15 ≤ s.y ∧ s.y ≤ 2 ^ 15 := by
  have left := (fields_of_mem kept.left).2.2
  have right := (fields_of_mem kept.right).2.2
  have yt := kept.yt
  have next : s.yt < (s.yt + triOne) / triOne * triOne ∧
      (s.yt + triOne) / triOne * triOne ≤ s.yt + triOne := by
    simp only [triOne]
    omega
  have below : s.y ≤ (s.yt + triOne) / triOne * triOne := Int.min_le_right _ _
  have toLeft : s.y ≤ s.left.yBot := Int.le_trans (Int.min_le_left _ _) (Int.min_le_left _ _)
  have above : -2 ^ 15 ≤ s.y :=
    Int.le_min.2 ⟨Int.le_min.2 ⟨left.1, right.1⟩, by omega⟩
  exact ⟨by omega, by omega, above, by omega⟩

theorem position_lt (e : AAEdge) (y : Int) : e.position y < 2 ^ 31 := (wrap32_bounds _).2

theorem Kept.words (kept : Kept p s) : reachLeft s < 2 ^ 31 ∧ reachRight s < 2 ^ 31 :=
  ⟨Int.max_lt.2 ⟨kept.l, position_lt _ _⟩, Int.max_lt.2 ⟨kept.r, position_lt _ _⟩⟩

theorem writes_iff (inside : Inside p length) : (∀ w ∈ (p.turn s).writes, w.Within length) ↔
    (∀ w ∈ edgeCoverage .add (s.leftExtent p.scissor.right) s.left.yIncr (s.y - s.yt),
      w.Within length) ∧
    (∀ w ∈ fullCoverage (s.leftExtent p.scissor.right) (s.rightExtent p.scissor.right)
      (s.y - s.yt), w.Within length) ∧
    ∀ w ∈ edgeCoverage .sub (s.rightExtent p.scissor.right) s.right.yIncr (s.y - s.yt),
      w.Within length := by
  have cleared : ∀ w ∈ (if s.retire then [p.clear] else []), w.Within length := by
    have low := inside.left
    have high := inside.right
    split
    · rw [List.forall_mem_singleton]
      unfold Polygon.clear Write.Within
      omega
    · exact nofun
  change (∀ w ∈ (_ ++ _ ++ _ ++ _ : List Write), w.Within length) ↔ _
  rw [List.forall_mem_append, List.forall_mem_append, List.forall_mem_append, and_assoc, and_assoc]
  exact and_iff_right cleared

/-- 16.16 has no columns beyond the first 2^15. -/
theorem meets_iff {xmax : Int} (reach : reachLeft s + 0xFFFF < 2 ^ 31) :
    min (min xmax (2 ^ 15)) ((reachLeft s + 0xFFFF) / 2 ^ 16) ≤
      max 1 (reachRight s / 2 ^ 16 + 1) ↔ Meets xmax s := by
  have column : min (2 ^ 15) ((reachLeft s + 0xFFFF) / 2 ^ 16) =
      (reachLeft s + 0xFFFF) / 2 ^ 16 := Int.min_eq_right (by omega)
  unfold Meets
  rw [Int.min_assoc, column]

theorem coverage_iff (inside : Inside p length) (kept : Kept p s) :
    (∀ w ∈ (p.turn s).writes, w.Within length) ↔
      (Reaches s → s.y - s.yt = triOne → Meets p.scissor.right s) ∧
        (¬Reaches s → Passes p length s) := by
  obtain ⟨above, below, -, -⟩ := kept.height
  obtain ⟨wordLeft, wordRight⟩ := kept.words
  have some := kept.columns
  have enough := inside.right
  have fits : min p.scissor.right (2 ^ 15) ≤ length := by omega
  have starts : (∀ w ∈ edgeCoverage .add (s.leftExtent p.scissor.right) s.left.yIncr (s.y - s.yt),
      w.Within length) ↔ reachLeft s + 0xFFFF < 2 ^ 31 ∨ 2 ^ 15 ≤ length :=
    edgeCoverage_iff some fits wordLeft (fun _ _ => Iff.rfl) _ _
  have stops : (∀ w ∈ edgeCoverage .sub (s.rightExtent p.scissor.right) s.right.yIncr (s.y - s.yt),
      w.Within length) ↔ reachRight s + 0xFFFF < 2 ^ 31 ∨ 2 ^ 15 ≤ length :=
    edgeCoverage_iff some fits wordRight (fun _ _ => Iff.rfl) _ _
  have leftIn (h : reachLeft s + 0xFFFF < 2 ^ 31) : Clamped (min p.scissor.right (2 ^ 15))
      (reachLeft s) (s.leftExtent p.scissor.right) := clamped_extent some h
  have rightIn (h : reachRight s + 0xFFFF < 2 ^ 31) : Clamped (min p.scissor.right (2 ^ 15))
      (reachRight s) (s.rightExtent p.scissor.right) := clamped_extent some h
  have leftOut (h : 2 ^ 31 ≤ reachLeft s + 0xFFFF) : Passed (min p.scissor.right (2 ^ 15))
      (reachLeft s) (s.leftExtent p.scissor.right) := passed_extent some wordLeft h
  have rightOut (h : 2 ^ 31 ≤ reachRight s + 0xFFFF) : Passed (min p.scissor.right (2 ^ 15))
      (reachRight s) (s.rightExtent p.scissor.right) := passed_extent some wordRight h
  rw [writes_iff inside, starts, stops]
  generalize s.leftExtent p.scissor.right = left at *
  generalize s.rightExtent p.scissor.right = right at *
  rcases Int.lt_or_le (reachLeft s + 0xFFFF) (2 ^ 31) with ofLeft | ofLeft <;>
    rcases Int.lt_or_le (reachRight s + 0xFFFF) (2 ^ 31) with ofRight | ofRight
  · have full := fullCoverage_iff (by omega) (by omega) inside.word (leftIn ofLeft)
      (rightIn ofRight) above below
    rw [meets_iff ofLeft] at full
    have reaches : Reaches s := ⟨ofLeft, ofRight⟩
    constructor
    · rintro ⟨-, between, -⟩
      exact ⟨fun _ => full.1 between, fun none => absurd reaches none⟩
    · rintro ⟨uncrossed, -⟩
      exact ⟨.inl ofLeft, full.2 (uncrossed reaches), .inl ofRight⟩
  · have ofMax := (rightOut ofRight).max
    have last : 0x7FFF0000 < right.max ∧ right.max < 2 ^ 31 := by omega
    have full := fullCoverage_right_iff inside.word (leftIn ofLeft) last.1 last.2 above below
    constructor
    · rintro ⟨-, between, -⟩
      obtain ⟨whole, wide⟩ := full.1 between
      exact ⟨fun reaches => by have := reaches.right; omega,
        fun _ => ⟨wide, whole, .inl (by omega)⟩⟩
    · rintro ⟨-, passes⟩
      obtain ⟨wide, whole, -⟩ := passes fun reaches => by have := reaches.right; omega
      exact ⟨.inl ofLeft, full.2 ⟨whole, wide⟩, .inr wide⟩
  · have bounds : 0 ≤ right.max ∧ right.max < 2 ^ 31 := by
      obtain ⟨low, order, -, reach, -⟩ := rightIn ofRight
      omega
    have column := last_column_iff (rightIn ofRight) (by omega)
    have full := fullCoverage_left_iff inside.word (leftOut ofLeft).ceil bounds.1 bounds.2 above
      below
    constructor
    · rintro ⟨begins, between, -⟩
      obtain ⟨whole, most⟩ := full.1 between
      exact ⟨fun reaches => by have := reaches.left; omega,
        fun _ => ⟨by omega, whole, .inr (column.1 most)⟩⟩
    · rintro ⟨-, passes⟩
      obtain ⟨wide, whole, most⟩ := passes fun reaches => by have := reaches.left; omega
      have last := most.resolve_left (by omega)
      exact ⟨.inr wide, full.2 ⟨whole, column.2 last⟩, .inl ofRight⟩
  · have ofMax := (rightOut ofRight).max
    have bounds : 0 ≤ right.max ∧ right.max < 2 ^ 31 := by omega
    have full := fullCoverage_left_iff inside.word (leftOut ofLeft).ceil bounds.1 bounds.2 above
      below
    constructor
    · rintro ⟨begins, between, -⟩
      exact ⟨fun reaches => by have := reaches.left; omega,
        fun _ => ⟨by omega, (full.1 between).1, .inl (by omega)⟩⟩
    · rintro ⟨-, passes⟩
      obtain ⟨wide, whole, -⟩ := passes fun reaches => by have := reaches.left; omega
      exact ⟨.inr wide, full.2 ⟨whole, by omega⟩, .inr wide⟩

theorem advance_none_iff : s.advance p = none ↔ Done p s := by
  unfold State.advance Done
  by_cases ended : s.y = s.left.yBot ∨ s.y = s.right.yBot
  · by_cases done : s.next ≥ p.edges.length
    · rw [if_pos ended, if_pos done]
      exact iff_of_true rfl ⟨ended, done⟩
    · rw [if_pos ended, if_neg done]
      exact iff_of_false nofun fun h => done h.2
  · rw [if_neg ended]
    exact iff_of_false nofun fun h => ended h.1

theorem rows_iff (inRows : Int → Prop) : (∀ row ∈ (p.turn s).rows, inRows row) ↔
    (s.retire = true → s.xl < s.xr → inRows s.row) ∧
      (Done p s → Shown p s → inRows (rowIn s)) := by
  have single (c : Prop) [Decidable c] (row : Int) :
      (∀ r ∈ (if c then [row] else []), inRows r) ↔ (c → inRows row) := by
    split
    · rename_i h
      rw [List.forall_mem_singleton]
      exact ⟨fun inside _ => inside, fun inside => inside h⟩
    · rename_i h
      exact iff_of_true nofun fun h' => absurd h' h
  change (∀ row ∈ (if s.retire = true ∧ s.xl < s.xr then [s.row] else []) ++
    (if (s.advance p).isNone = true ∧ Shown p s then [rowIn s] else []), inRows row) ↔ _
  rw [List.forall_mem_append, single, single, and_imp, and_imp, Option.isNone_iff_eq_none,
    advance_none_iff]

theorem advance_cases {left right : AAEdge} {i : Nat} (h : s.advance p = some (left, right, i)) :
    (left = s.left ∧ right = s.right ∧ i = s.next) ∨
    (s.next < p.edges.length ∧ left = p.record s.next ∧ right = s.right ∧ i = s.next + 1) ∨
    (s.next < p.edges.length ∧ left = s.left ∧ right = p.record s.next ∧ i = s.next + 1) ∨
    (s.next < p.edges.length ∧ s.y = s.left.yBot ∧ s.y = s.right.yBot ∧
      left = p.record s.next ∧ right = p.record (s.next + 1) ∧ i = s.next + 2) := by
  unfold State.advance at h
  by_cases ended : s.y = s.left.yBot ∨ s.y = s.right.yBot
  · rw [if_pos ended] at h
    by_cases done : s.next ≥ p.edges.length
    · rw [if_pos done] at h
      cases h
    · rw [if_neg done] at h
      by_cases ofLeft : s.y = s.left.yBot <;> by_cases ofRight : s.y = s.right.yBot
      · simp only [if_pos ofLeft, if_pos ofRight, Option.some.injEq, Prod.mk.injEq] at h
        exact .inr (.inr (.inr ⟨by omega, ofLeft, ofRight, h.1.symm, h.2.1.symm, h.2.2.symm⟩))
      · simp only [if_pos ofLeft, if_neg ofRight, Option.some.injEq, Prod.mk.injEq] at h
        exact .inr (.inl ⟨by omega, h.1.symm, h.2.1.symm, h.2.2.symm⟩)
      · simp only [if_neg ofLeft, if_pos ofRight, Option.some.injEq, Prod.mk.injEq] at h
        exact .inr (.inr (.inl ⟨by omega, h.1.symm, h.2.1.symm, h.2.2.symm⟩))
      · exact absurd ended (by omega)
  · rw [if_neg ended] at h
    simp only [Option.some.injEq, Prod.mk.injEq] at h
    exact .inl ⟨h.1.symm, h.2.1.symm, h.2.2.symm⟩

theorem records_iff : (∀ k ∈ (p.turn s).records, k < p.edges.length) ↔
    (s.y = s.left.yBot → s.y = s.right.yBot → s.next + 1 ≠ p.edges.length) := by
  constructor
  · intro taken ofLeft ofRight last
    have advanced : s.advance p =
        some (p.record s.next, p.record (s.next + 1), s.next + 2) := by
      unfold State.advance
      rw [if_pos (.inl ofLeft), if_neg (by omega), if_pos ofLeft]
      dsimp only
      rw [if_pos ofRight]
    have beyond : s.next + 1 ∈ (p.turn s).records := by
      simp only [Polygon.turn, advanced, Option.map_some, Option.getD_some, List.mem_range'_1]
      omega
    have inside := taken _ beyond
    omega
  · intro paired k mem
    cases advanced : s.advance p with
    | none =>
      simp only [Polygon.turn, advanced, Option.map_none, Option.getD_none] at mem
      cases mem
    | some next =>
      obtain ⟨left, right, i⟩ := next
      simp only [Polygon.turn, advanced, Option.map_some, Option.getD_some,
        List.mem_range'_1] at mem
      rcases advance_cases advanced with ⟨-, -, rfl⟩ | ⟨more, -, -, rfl⟩ | ⟨more, -, -, rfl⟩ |
        ⟨more, endLeft, endRight, -, -, rfl⟩
      · omega
      · omega
      · omega
      · have twoMore := paired endLeft endRight
        omega

/-- A turn is safe exactly if the state before it is sound. -/
theorem safe_iff_sound (inside : Inside p length) (kept : Kept p s) :
    Safe p length s ↔ Sound p length s := by
  have coverage := coverage_iff inside kept
  have rows := rows_iff (p := p) (s := s) fun row => p.scissor.top ≤ row ∧ row < p.scissor.bottom
  have records := records_iff (p := p) (s := s)
  constructor
  · intro safe
    obtain ⟨meets, passes⟩ := coverage.1 safe.coverage
    obtain ⟨previous, last⟩ := rows.1 safe.rows
    exact ⟨meets, passes, previous, last, records.1 safe.records⟩
  · intro sound
    exact ⟨coverage.2 ⟨sound.meets, sound.passes⟩, rows.2 ⟨sound.previous, sound.last⟩,
      records.2 sound.paired⟩

end Turn

section Run

variable {p : Polygon} {s t : State} {length : Int}

theorem record_mem {k : Nat} (h : k < p.edges.length) : p.record k ∈ p.edges := by
  unfold Polygon.record
  rw [List.getD_eq_getElem?_getD, List.getElem?_eq_getElem h]
  exact List.getElem_mem h

theorem start_cases (h : p.start = some s) :
    p.scissor.left < p.scissor.right ∧ 2 ≤ p.edges.length ∧ s.left = p.record 0 ∧
    s.right = p.record 1 ∧ s.yt = s.left.yTop ∧ s.l = s.left.x ∧ s.r = s.right.x := by
  unfold Polygon.start at h
  split at h
  · cases h
  · rename_i run
    obtain rfl := Option.some.inj h
    exact ⟨by omega, by omega, rfl, rfl, rfl, rfl, rfl⟩

theorem kept_start (inside : Inside p length) (h : p.start = some s) : Kept p s := by
  obtain ⟨columns, enough, left, right, yt, l, r⟩ := start_cases h
  have ofLeft : s.left ∈ p.edges := left ▸ record_mem (by omega)
  have ofRight : s.right ∈ p.edges := right ▸ record_mem (by omega)
  have top := (fields_of_mem ofLeft).2.1
  have low := inside.left
  exact ⟨by omega, ofLeft, ofRight, l ▸ (fields_of_mem ofLeft).1, r ▸ (fields_of_mem ofRight).1,
    by omega⟩

theorem next_cases (h : (p.turn s).next = some t) : ∃ left right i,
    s.advance p = some (left, right, i) ∧ t.left = left ∧ t.right = right ∧ t.yt = s.y ∧
    t.l = s.left.position s.y ∧ t.r = s.right.position s.y := by
  obtain ⟨⟨left, right, i⟩, advanced, rfl⟩ := Option.map_eq_some_iff.1 h
  exact ⟨left, right, i, advanced, rfl, rfl, rfl, rfl, rfl⟩

theorem kept_next (kept : Kept p s)
    (paired : s.y = s.left.yBot → s.y = s.right.yBot → s.next + 1 ≠ p.edges.length)
    (h : (p.turn s).next = some t) : Kept p t := by
  obtain ⟨left, right, i, advanced, ofLeft, ofRight, yt, l, r⟩ := next_cases h
  have height := kept.height.2.2
  have edges : left ∈ p.edges ∧ right ∈ p.edges := by
    rcases advance_cases advanced with ⟨rfl, rfl, -⟩ | ⟨more, rfl, rfl, -⟩ | ⟨more, rfl, rfl, -⟩ |
      ⟨more, endLeft, endRight, rfl, rfl, -⟩
    · exact ⟨kept.left, kept.right⟩
    · exact ⟨record_mem more, kept.right⟩
    · exact ⟨kept.left, record_mem more⟩
    · have twoMore := paired endLeft endRight
      exact ⟨record_mem more, record_mem (by omega)⟩
  exact ⟨kept.columns, ofLeft ▸ edges.1, ofRight ▸ edges.2, l ▸ position_lt _ _,
    r ▸ position_lt _ _, by omega⟩

theorem kept_sweep (inside : Inside p length) {n : Nat}
    (paired : ∀ k < n, ∀ s ∈ p.sweep k,
      s.y = s.left.yBot → s.y = s.right.yBot → s.next + 1 ≠ p.edges.length) :
    ∀ s ∈ p.sweep n, Kept p s := by
  induction n with
  | zero =>
    intro s h
    exact kept_start inside h
  | succ n ih =>
    intro t h
    obtain ⟨s, reached, h⟩ := Option.bind_eq_some_iff.1 h
    have earlier := ih (fun k hk => paired k (by omega)) s reached
    exact kept_next earlier (paired n (by omega) s reached) h

def triangle : Polygon where
  scissor := ⟨0, 0, 4, 4⟩
  pts := [⟨32, 0⟩, ⟨16, 16⟩, ⟨48, 24⟩]
  edges := [⟨131072, -65536, 65536, 0, 16⟩, ⟨131072, 43690, 98304, 0, 24⟩,
    ⟨65536, 262144, 16384, 16, 24⟩]
  beyond _ := ⟨0, 0, 0, 0, 0⟩
  perm := by decide +kernel
  sorted := by decide +kernel

def onBottom : Polygon where
  scissor := ⟨0, 0, 8, 8⟩
  pts := [⟨64, 16⟩, ⟨16, 128⟩, ⟨112, 160⟩]
  edges := [⟨262144, -28086, 152917, 16, 128⟩, ⟨262144, 21845, 196608, 16, 128⟩,
    ⟨65536, 196608, 21845, 128, 128⟩]
  beyond _ := ⟨0, 0, 0, 0, 0⟩
  perm := by decide +kernel
  sorted := by decide +kernel

end Run

end RabbitRender.Raster.CoverageBounds
