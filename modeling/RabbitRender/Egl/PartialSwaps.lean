/- RabbitRender/Egl/PartialSwaps
   layer: theorem
   source: swrender/egl.cpp
   digest: Frames drawn into two buffers by turns, each only inside the swap rectangle, show what
     one buffer would. -/

import RabbitRender.Egl.SwapRegions
import RabbitRender.Lib.GuardedRun

set_option autoImplicit false

namespace RabbitRender.Egl.PartialSwaps

open Lib.GuardedRun Egl.SwapRegions

variable {α : Type}

instance (r : Rect) (p : Pixel) : Decidable (p ∈ r.pixels) :=
  inferInstanceAs (Decidable (_ ∧ _ ∧ _ ∧ _))

def overlay (r : Rect) (paint buffer : Pixel → α) : Pixel → α :=
  fun p => if p ∈ r.pixels then paint p else buffer p

/-- `eglSetSwapRectangle`, and a frame: the client draws inside the rectangle and swaps. -/
inductive Op (α : Type) where
  | rectangle (l t w h : Int)
  | frame (paint : Pixel → α)

/-- A surface on a window with two buffers: `front` is the one posted last, `back` is drawn to. -/
structure Window (α : Type) where
  surface : Surface
  front : Pixel → α
  back : Pixel → α

def bounds (width height : Int) : Rect := ⟨0, 0, width, height⟩

def present (width height : Int) (w : Window α) (paint : Pixel → α) : Window α :=
  let drawn := overlay (w.surface.dirtyRegion.andSelf (bounds width height)) paint w.back
  let (surface, copied) := swapBuffers w.surface width height
  ⟨surface, fun p => if p ∈ copied then w.front p else drawn p, w.front⟩

def step (width height : Int) (w : Window α) : Op α → Window α
  | .rectangle l t x y => { w with surface := setSwapRectangle w.surface l t x y }
  | .frame paint => present width height w paint

/-- A window whose only buffer keeps what was drawn before. -/
structure Screen (α : Type) where
  rect : Rect
  shown : Pixel → α

def screenStep (width height : Int) (s : Screen α) : Op α → Screen α
  | .rectangle l t x y =>
    { s with rect := (setSwapRectangle ⟨s.rect, s.rect, false⟩ l t x y).dirtyRegion }
  | .frame paint =>
    let clip := s.rect.andSelf (bounds width height)
    ⟨clip, overlay clip paint s.shown⟩

def view (w : Window α) : Screen α := ⟨w.surface.dirtyRegion, w.front⟩

/-- A frame has a swap rectangle, which meets the one of the frame before. -/
def Continues (width height : Int) (w : Window α) : Op α → Prop
  | .rectangle .. => True
  | .frame _ => ¬w.surface.dirtyRegion.isEmpty ∧ (w.surface.previousBuffer = true →
      w.surface.oldDirtyRegion.isEmpty ∨
        Meets w.surface.oldDirtyRegion (w.surface.dirtyRegion.andSelf (bounds width height)))

/-- The buffers differ at most inside the rectangle of the last frame, which is inside them. -/
structure Consistent (width height : Int) (w : Window α) : Prop where
  fresh : w.surface.previousBuffer = false → w.back = w.front
  inside : w.surface.previousBuffer = true →
    0 ≤ w.surface.oldDirtyRegion.left ∧ 0 ≤ w.surface.oldDirtyRegion.top ∧
      w.surface.oldDirtyRegion.right ≤ width ∧ w.surface.oldDirtyRegion.bottom ≤ height
  outside : w.surface.previousBuffer = true →
    ∀ p, p ∉ w.surface.oldDirtyRegion.pixels → w.back p = w.front p

section Runs

variable {width height : Int} {w : Window α}

/-- What is copied from the front buffer completes the frame. -/
theorem posted (wide : width < 2 ^ 31) (high : height < 2 ^ 31) (kept : Consistent width height w)
    {paint : Pixel → α} (continues : Continues width height w (.frame paint)) :
    (present width height w paint).front =
      overlay (w.surface.dirtyRegion.andSelf (bounds width height)) paint w.front := by
  obtain ⟨some, meets⟩ := continues
  funext p
  unfold present swapBuffers
  rw [if_neg some]
  change (if p ∈ (if w.surface.previousBuffer = true then
      copyBlt (subtract w.surface.oldDirtyRegion
        (w.surface.dirtyRegion.andSelf (bounds width height))) else []) then w.front p
    else overlay _ paint w.back p) = _
  cases previous : w.surface.previousBuffer with
  | false => rw [kept.fresh previous]; simp
  | true =>
    obtain ⟨left, top, right, bottom⟩ := kept.inside previous
    have copied := (copies_subtract (meets previous) left top (by omega) (by omega)).2 p
    rw [if_pos rfl]
    unfold overlay
    split_ifs with copy clip clip
    · exact absurd clip (copied.mp copy).2
    · rfl
    · rfl
    · exact kept.outside previous p fun old => copy (copied.mpr ⟨old, clip⟩)

theorem consistent_step (wide : width < 2 ^ 31) (high : height < 2 ^ 31) (w : Window α) (op : Op α)
    (kept : Consistent width height w) (continues : Continues width height w op) :
    Consistent width height (step width height w op) ∧
      view (step width height w op) = screenStep width height (view w) op := by
  cases op with
  | rectangle l t x y => exact ⟨⟨kept.fresh, kept.inside, kept.outside⟩, rfl⟩
  | frame paint =>
    have front := posted wide high kept continues
    have surface : (present width height w paint).surface =
        ⟨w.surface.dirtyRegion.andSelf (bounds width height),
          w.surface.dirtyRegion.andSelf (bounds width height), true⟩ := by
      unfold present swapBuffers
      rw [if_neg continues.1]
      rfl
    refine ⟨⟨?_, ?_, ?_⟩, ?_⟩
    · intro fresh
      rw [step, surface] at fresh
      cases fresh
    · intro _
      rw [step, surface]
      exact ⟨le_max_right _ _, le_max_right _ _, min_le_right _ _, min_le_right _ _⟩
    · intro _ p outside
      rw [step, surface] at outside
      rw [step, front]
      exact (if_neg outside).symm
    · rw [step, view, surface, front]
      rfl

/-- Every run of frames with rectangles that continue each other shows what one buffer would. -/
theorem frames_shown (wide : width < 2 ^ 31) (high : height < 2 ^ 31) (rect old : Rect)
    (blank : Pixel → α) {ops : List (Op α)}
    (continues : Guarded (step width height) (Continues width height)
      ⟨⟨rect, old, false⟩, blank, blank⟩ ops) :
    view (run (step width height) ⟨⟨rect, old, false⟩, blank, blank⟩ ops) =
      run (screenStep width height) ⟨rect, blank⟩ ops :=
  run_view view (consistent_step wide high)
    ⟨fun _ => rfl, fun started => Bool.noConfusion started, fun started => Bool.noConfusion started⟩
    continues

end Runs

/-- Three frames of a 16 by 16 window. -/
theorem frames_shown_three :
    let ops : List (Op Nat) := [.rectangle 0 0 8 8, .frame fun _ => 1, .rectangle 4 4 8 8,
      .frame fun _ => 2, .rectangle 8 0 4 6, .frame fun _ => 3]
    view (run (step 16 16) ⟨⟨⟨0, 0, 0, 0⟩, ⟨0, 0, 0, 0⟩, false⟩, fun _ => 0, fun _ => 0⟩ ops) =
      run (screenStep 16 16) ⟨⟨0, 0, 0, 0⟩, fun _ => 0⟩ ops :=
  frames_shown (by decide) (by decide) _ _ _
    ⟨trivial, ⟨by decide, by decide⟩, trivial, ⟨by decide, by decide⟩, trivial,
      ⟨by decide, by decide⟩, trivial⟩

end RabbitRender.Egl.PartialSwaps
