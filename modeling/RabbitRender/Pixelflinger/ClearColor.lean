/- RabbitRender/Pixelflinger/ClearColor
   layer: proof
   source: libpixelflinger/clear.cpp, libpixelflinger/pixelflinger.cpp
   digest: A clear writes the clear colour as it was packed for the buffer of an earlier clear. -/

import RabbitRender.Pixelflinger.ClearBounds

set_option autoImplicit false

namespace RabbitRender.Pixelflinger.ClearColor

open Lib.ByteMemory Lib.GuardedRun Pixelflinger.State Pixelflinger.Clear Pixelflinger.ClearBounds

inductive ColorOp where
  | clearColorx (r g b a : Int)
  | colorBuffer (surface : GGLSurface) (allocated : Bool)
  | clear (mask : Nat)

def ColorOp.call : ColorOp → ClearOp
  | .clearColorx r g b a => .clearColorx r g b a
  | .colorBuffer surface allocated => .state (.colorBuffer surface allocated)
  | .clear mask => .clear mask

/-- The calls packed so far, with the format the colour was packed in since it was last set. -/
structure Tracked where
  x : Rasterizer
  packedFor : Option Format

def packs (x : Rasterizer) (mask : Nat) : Prop :=
  ¬(clearWidth x.context = 0 ∨ clearHeight x.context = 0) ∧ clearsColor x.context mask

instance (x : Rasterizer) (mask : Nat) : Decidable (packs x mask) :=
  inferInstanceAs (Decidable (_ ∧ _))

def track (s : Tracked) (op : ColorOp) : Tracked where
  x := step s.x op.call
  packedFor := match op with
    | .clearColorx _ _ _ _ => none
    | .colorBuffer _ _ => s.packedFor
    | .clear mask =>
      if packs s.x mask then some (s.packedFor.getD s.x.context.color.format) else s.packedFor

def start (memory : Memory) : Tracked := ⟨init memory, none⟩

/-- A clear leaves the clear colour, packed for the colour buffer, in all its pixels. -/
def Fills (x : Rasterizer) (mask : Nat) : Prop :=
  ∀ memory (px py k : Nat), px < x.context.color.width → py < x.context.color.height →
    k < (formats x.context.color.format).size →
    (gglClear { x with memory } mask).memory (address x.context.color px py + k) =
      byteOf (packedColor x.clear x.context.color.format) k

/-- The bytes of the clear colour are the same in the format it was packed for. -/
def Fresh (s : Tracked) : Prop :=
  ∀ f ∈ s.packedFor, ∀ k < (formats s.x.context.color.format).size,
    byteOf (packedColor s.x.clear f) k =
      byteOf (packedColor s.x.clear s.x.context.color.format) k

def FillsWhen (s : Tracked) : Prop :=
  s.x.context.color.width = 0 ∨ s.x.context.color.height = 0 ∨
    (formats s.x.context.color.format).size = 0 ∨
    ((formats s.x.context.color.format).size ≠ 3 ∧ Fresh s)

/-- The packed colour is that of the tracked format, and there is no scissor and no depth buffer. -/
structure Coherent (s : Tracked) : Prop where
  sync : InSync s.x.context
  scissor : s.x.context.enables .scissorTest = false
  depth : s.x.context.depth.format = Format.none
  packed : ∀ format, usedColor s.x.clear format =
    packedColor s.x.clear (s.packedFor.getD format)

theorem gglColorBuffer_frame (c : Context) (surface : GGLSurface) (allocated : Bool) :
    (gglColorBuffer c surface allocated).enables .scissorTest = c.enables .scissorTest ∧
      (gglColorBuffer c surface allocated).depth = c.depth := by
  by_cases changed : surface.format = c.color.format <;>
    simp [gglColorBuffer, setScissor, stateChanged, changed]

theorem coherent_start (memory : Memory) : Coherent (start memory) :=
  ⟨rfl, rfl, rfl, fun _ => rfl⟩

def SameColor (a b : ClearState) : Prop := a.r = b.r ∧ a.g = b.g ∧ a.b = b.b ∧ a.a = b.a

theorem packedColor_congr {a b : ClearState} (same : SameColor a b) (format : Format) :
    packedColor a format = packedColor b format := by
  obtain ⟨r, g, b, a⟩ := same
  unfold packedColor
  rw [r, g, b, a]

theorem clearDepthBuffer_color (x : Rasterizer) :
    SameColor (clearDepthBuffer x).clear x.clear ∧
      ∀ format, usedColor (clearDepthBuffer x).clear format = usedColor x.clear format := by
  unfold clearDepthBuffer
  cases x.clear.depthDirty <;> exact ⟨⟨rfl, rfl, rfl, rfl⟩, fun _ => rfl⟩

theorem clearColorBuffer_color (x : Rasterizer) :
    SameColor (clearColorBuffer x).clear x.clear ∧ ∀ format,
      usedColor (clearColorBuffer x).clear format = usedColor x.clear x.context.color.format := by
  obtain ⟨context, clear, memory⟩ := x
  cases dirty : clear.colorDirty with
  | true =>
    simp only [clearColorBuffer, dirty, usedColor, if_true]
    exact ⟨⟨rfl, rfl, rfl, rfl⟩, fun _ => rfl⟩
  | false =>
    simp only [clearColorBuffer, dirty, usedColor, Bool.false_eq_true, if_false]
    exact ⟨⟨rfl, rfl, rfl, rfl⟩, fun _ => trivial⟩

theorem gglClear_color (x : Rasterizer) (mask : Nat) :
    SameColor (gglClear x mask).clear x.clear ∧ ∀ format,
      usedColor (gglClear x mask).clear format =
        if packs x mask then usedColor x.clear x.context.color.format
        else usedColor x.clear format := by
  have same : SameColor x.clear x.clear := ⟨rfl, rfl, rfl, rfl⟩
  have depth (y : Rasterizer) (p : Prop) [Decidable p] :
      SameColor (if p then clearDepthBuffer y else y).clear y.clear ∧ ∀ format,
        usedColor (if p then clearDepthBuffer y else y).clear format = usedColor y.clear format := by
    split
    · exact clearDepthBuffer_color y
    · exact ⟨⟨rfl, rfl, rfl, rfl⟩, fun _ => rfl⟩
  unfold gglClear packs
  by_cases skipped : clearWidth x.context = 0 ∨ clearHeight x.context = 0
  · simp only [skipped, if_true, not_true_eq_false, false_and, if_false]
    exact ⟨same, fun _ => trivial⟩
  by_cases color : clearsColor x.context mask
  · simp only [skipped, color, if_true, if_false, not_false_eq_true, true_and]
    obtain ⟨kept, used⟩ := depth (clearColorBuffer x) (clearsDepth (clearColorBuffer x).context mask)
    obtain ⟨own, packed⟩ := clearColorBuffer_color x
    refine ⟨⟨kept.1.trans own.1, kept.2.1.trans own.2.1, kept.2.2.1.trans own.2.2.1,
      kept.2.2.2.trans own.2.2.2⟩, fun format => (used format).trans (packed format)⟩
  · simp only [skipped, color, if_false, not_false_eq_true, true_and]
    exact depth x (clearsDepth x.context mask)

variable {s : Tracked} {mask : Nat}

theorem track_coherent (h : Coherent s) (op : ColorOp) : Coherent (track s op) := by
  have sync := step_inSync h.sync op.call
  cases op with
  | clearColorx r g b a => exact ⟨sync, h.scissor, h.depth, fun _ => rfl⟩
  | colorBuffer surface allocated =>
    obtain ⟨scissor, depth⟩ := gglColorBuffer_frame s.x.context surface allocated
    refine ⟨sync, scissor.trans h.scissor, ?_, h.packed⟩
    exact (congrArg (fun d : Surface => d.format) depth).trans h.depth
  | clear mask =>
    obtain ⟨color, used⟩ := gglClear_color s.x mask
    have context : (track s (.clear mask)).x.context = s.x.context := gglClear_context s.x mask
    refine ⟨sync, context ▸ h.scissor, context ▸ h.depth, fun format => ?_⟩
    simp only [track, ColorOp.call, step]
    rw [used, packedColor_congr color]
    split_ifs
    · exact h.packed _
    · exact h.packed _

theorem run_coherent (h : Coherent s) (ops : List ColorOp) : Coherent (run track s ops) := by
  induction ops generalizing s with
  | nil => exact h
  | cons op ops ih => exact ih (track_coherent h op)

theorem scissor_color (h : Coherent s) :
    (s.x.context.scissor.left = 0 ∧ s.x.context.scissor.top = 0) ∧
      s.x.context.scissor.right = s.x.context.color.width ∧
      s.x.context.scissor.bottom = s.x.context.color.height := by
  obtain ⟨right, bottom⟩ := clip_color h.sync (s := s.x.context.color) rfl rfl
  rw [clipRight, h.scissor] at right
  rw [clipBottom, h.scissor] at bottom
  refine ⟨?_, right.symm, bottom.symm⟩
  rcases inSync_cases h.sync with ⟨enabled, _⟩ | ⟨_, left, top⟩
  · rw [h.scissor] at enabled
    exact absurd enabled Bool.false_ne_true
  · exact ⟨left, top⟩

theorem target_color (h : Coherent s) {px py : Nat} (hx : px < s.x.context.color.width)
    (hy : py < s.x.context.color.height) :
    ClearBounds.Target s.x.context s.x.context.color px py := by
  refine ⟨by omega, fun enabled => ?_⟩
  rw [h.scissor] at enabled
  exact absurd enabled Bool.false_ne_true

theorem gglClear_eq (h : Coherent s) (color : clearsColor s.x.context mask) (memory : Memory) :
    (gglClear { s.x with memory } mask).memory =
      cleared s.x.context s.x.context.color
        (packedColor s.x.clear (s.packedFor.getD s.x.context.color.format)) memory := by
  have whole := gglClear_memory { s.x with memory } mask
  have other : ¬clearsDepth s.x.context mask := fun both => both.2 h.depth
  dsimp only at whole
  rwa [if_pos color, if_neg other, h.packed] at whole

theorem clears_color (h : Coherent s) (sound : Sound s.x.context.color)
    (wide : s.x.context.color.width ≠ 0) (high : s.x.context.color.height ≠ 0)
    (size : (formats s.x.context.color.format).size ≠ 3) :
    Clears s.x.context s.x.context.color := by
  obtain ⟨⟨left, top⟩, right, bottom⟩ := scissor_color h
  have clip := clip_color h.sync (s := s.x.context.color) rfl rfl
  have width := sound.width
  have height := sound.height
  unfold Clears
  split_ifs with skipped ordered
  · unfold clearWidth clearHeight at skipped
    omega
  · refine .inr ⟨size, clip, ?_⟩
    rw [left, top, zero_mul, add_zero]
  · omega

theorem cleared_none {c : Context} {s : Surface} {packed : Nat} {m : Memory}
    (size : (formats s.format).size = 3) : cleared c s packed m = m := by
  unfold cleared
  split
  · rfl
  · exact memset2d_none (.inr size)

theorem fills_of (h : Coherent s) (color : clearsColor s.x.context mask)
    (sound : Sound s.x.context.color) (condition : FillsWhen s) : Fills s.x mask := by
  intro memory px py k hx hy hk
  rcases condition with none | none | none | ⟨size, fresh⟩
  · omega
  · omega
  · omega
  have clears := clears_color h sound (by omega) (by omega) size
  rw [gglClear_eq h color,
    (clears_painted h.sync sound clears _ memory).inside px py k (target_color h hx hy) hk]
  cases packed : s.packedFor with
  | none => rfl
  | some f => exact fresh f packed k hk

theorem of_fills (h : Coherent s) (color : clearsColor s.x.context mask)
    (sound : Sound s.x.context.color) (fills : Fills s.x mask) : FillsWhen s := by
  by_cases wide : s.x.context.color.width = 0
  · exact .inl wide
  by_cases high : s.x.context.color.height = 0
  · exact .inr (.inl high)
  by_cases bytes : (formats s.x.context.color.format).size = 0
  · exact .inr (.inr (.inl bytes))
  have size : (formats s.x.context.color.format).size ≠ 3 := by
    intro three
    have kept (old : UInt8) :
        old = byteOf (packedColor s.x.clear s.x.context.color.format) 0 := by
      have corner := fills (fun _ => old) 0 0 0 (by omega) (by omega) (by omega)
      rwa [gglClear_eq h color, cleared_none three] at corner
    exact absurd ((kept 0).trans (kept 1).symm) (by decide)
  refine .inr (.inr (.inr ⟨size, fun f packed k hk => ?_⟩))
  have clears := clears_color h sound wide high size
  have corner := fills (fun _ => 0) 0 0 k (by omega) (by omega) hk
  have format : s.packedFor.getD s.x.context.color.format = f := by
    rw [Option.mem_def.mp packed, Option.getD_some]
  rwa [gglClear_eq h color, (clears_painted h.sync sound clears _ _).inside _ _ k
    (target_color h (by omega) (by omega)) hk, format] at corner

/-- After every run, a clear fills the colour buffer exactly when the clear colour is the same in the
format it was packed for. -/
theorem gglClear_fills (memory : Memory) (ops : List ColorOp) (mask : Nat)
    (color : clearsColor (run track (start memory) ops).x.context mask)
    (sound : Sound (run track (start memory) ops).x.context.color) :
    Fills (run track (start memory) ops).x mask ↔ FillsWhen (run track (start memory) ops) :=
  have h := run_coherent (coherent_start memory) ops
  ⟨of_fills h color sound, fills_of h color sound⟩

def pixel (format : Format) : ColorOp :=
  .colorBuffer { width := 1, height := 1, stride := 1, format } true

/-- Red on a buffer of another size, cleared for the first time. -/
theorem gglClear_fills_first :
    Fills (run track (start fun _ => 0)
      [.clearColorx 0x10000 0 0 0x10000, pixel Format.rgba8888, pixel Format.rgb565]).x (1 <<< 14) :=
  (gglClear_fills _ _ _ (by decide) ⟨by decide, by decide, by decide, by decide, by decide⟩).mpr
    (.inr (.inr (.inr ⟨by decide, fun _ none => nomatch none⟩)))

/-- Red on a buffer of 16 bits after one of 32. -/
theorem gglClear_stale :
    ¬∀ ops mask, clearsColor (run track (start fun _ => 0) ops).x.context mask →
      Sound (run track (start fun _ => 0) ops).x.context.color →
        Fills (run track (start fun _ => 0) ops).x mask := by
  intro all
  have fills := all [.clearColorx 0x10000 0 0 0x10000, pixel Format.rgba8888, .clear (1 <<< 14),
    pixel Format.rgb565] (1 <<< 14) (by decide)
    ⟨by decide, by decide, by decide, by decide, by decide⟩
  have first := fills (fun _ => 0) 0 0 0 (by decide) (by decide) (by decide)
  revert first
  decide +kernel

end RabbitRender.Pixelflinger.ClearColor
