/- RabbitRender/Egl/Geometry
   layer: model
   source: swrender/egl.cpp, swrender/matrix.cpp, libpixelflinger/pixelflinger.cpp
   digest: What binding a surface makes of the depth buffer, the viewport and the scissor of the
     rasterizer. -/

import RabbitRender.Egl.Bindings

set_option autoImplicit false

namespace RabbitRender.Egl.Geometry

open Egl.Machine Egl.Bindings RabbitRender.Matrix Pixelflinger
open RabbitRender.Matrix.Transforms (GLfloat)
open Pixelflinger.State (GGLSurface)

/-- The depth buffer behind a surface: its data, width, height and stride. Without a format there is
none. -/
def depthOf (s : GGLSurface) : Option (Int × Nat × Nat × Int) :=
  if s.format = Format.z16 then some (s.data, s.width, s.height, s.stride) else none

def Holds (c : State.Context) (depth : GGLSurface) : Prop :=
  depthOf c.depth.toGGLSurface = depthOf depth

/-- `bindDrawSurface` passes the depth buffer on, or the rasterizer has it. -/
def Passes (c : State.Context) (depth : GGLSurface) : Prop :=
  depth.data ≠ c.depth.data ∨ Holds c depth

theorem enableFlag_frame (c : State.Context) (flag : State.Enable) (enable : Bool) :
    (State.enableFlag c flag enable).depth = c.depth ∧
      (State.enableFlag c flag enable).color = c.color ∧
      (State.enableFlag c flag enable).scissor = c.scissor := by
  unfold State.enableFlag
  split_ifs <;> exact ⟨rfl, rfl, rfl⟩

theorem depthBuffer_holds (c : State.Context) {depth : GGLSurface} (stride : 0 ≤ depth.stride) :
    Holds (State.gglDepthBuffer c depth) depth := by
  unfold Holds State.gglDepthBuffer
  split_ifs with z16
  · have data : (State.setSurface c.depth depth).toGGLSurface = depth := by
      unfold State.setSurface
      rw [if_neg (not_lt.mpr stride)]
    rw [data]
  · unfold State.gglEnableDepthTest
    rw [(enableFlag_frame _ _ _).1]
    unfold depthOf
    have apart : Format.none ≠ Format.z16 := by decide
    rw [if_neg z16, if_neg apart]

def connectDepth (s : EglSurface) (o : Outcome) : GGLSurface :=
  match s.native, o.dequeued with
  | .window _, some buffer => s.connectedDepth buffer o
  | _, _ => s.depth

def swapDepth (s : EglSurface) (o : Outcome) : GGLSurface :=
  match s.native, o.dequeued with
  | .window w, some buffer =>
    if w.width = buffer.width ∧ w.height = buffer.height then s.depth else s.resizedDepth buffer o
  | _, _ => s.depth

theorem connect_depth (s : EglSurface) (o : Outcome) :
    (s.connect o).1.depth = connectDepth s o := by
  unfold connectDepth
  cases native : s.native with
  | memory pixels => rw [connect_memory native]
  | window w =>
    rw [connect_window native, EglSurface.connectWindow]
    cases o.dequeued with
    | none => rfl
    | some buffer =>
      dsimp only
      split_ifs <;> rfl

theorem connectDepth_disconnect (s : EglSurface) (o : Outcome) :
    connectDepth s.disconnect o = connectDepth s o := by
  unfold connectDepth EglSurface.disconnect
  cases native : s.native with
  | memory pixels =>
    dsimp only
    rw [native]
  | window w => cases o.dequeued <;> rfl

theorem disconnect_depth (s : EglSurface) : s.disconnect.depth = s.depth := by
  unfold EglSurface.disconnect
  split <;> rfl

theorem swap_depth (s : EglSurface) (o : Outcome) :
    (Swappable s o → (s.swapBuffers o).1.depth = swapDepth s o) ∧
      (¬Swappable s o → (s.swapBuffers o).1.depth = s.depth) := by
  unfold swapDepth Swappable
  cases native : s.native with
  | memory pixels =>
    rw [swap_memory native]
    exact ⟨fun _ => rfl, fun _ => rfl⟩
  | window w =>
    rw [swap_window native, EglSurface.swapWindow]
    cases held : w.buffer with
    | none =>
      refine ⟨fun can => ?_, fun _ => rfl⟩
      have had := (can w rfl).1
      rw [held] at had
      cases had
    | some posted =>
      cases o.dequeued with
      | none => exact ⟨fun can => absurd (can w rfl).2 Bool.false_ne_true, fun _ => rfl⟩
      | some buffer =>
        refine ⟨fun _ => ?_, fun cannot => ?_⟩
        · unfold EglSurface.resize
          dsimp only
          split_ifs <;> rfl
        · refine absurd (fun v same => ?_) cannot
          cases same
          exact ⟨by rw [held]; rfl, rfl⟩

theorem stride_connect {s : EglSurface} (h : 0 ≤ s.depth.stride) (o : Outcome) :
    0 ≤ (connectDepth s o).stride := by
  unfold connectDepth EglSurface.connectedDepth
  split
  · split_ifs
    · exact h
    · exact Int.natCast_nonneg _
  · exact h

theorem stride_swap {s : EglSurface} (h : 0 ≤ s.depth.stride) (o : Outcome) :
    0 ≤ (swapDepth s o).stride := by
  unfold swapDepth EglSurface.resizedDepth
  split
  · split_ifs
    · exact h
    · exact h
    · exact Int.natCast_nonneg _
  · exact h

/-- A rectangle with the origin at the upper left: left, top, right and bottom. -/
def flipped (r : Rect) (height : Nat) : Int × Int × Int × Int :=
  (r.x, height - (r.y + r.h), r.x + r.w, height - (r.y + r.h) + r.h)

/-- The scissor rectangle of the rasterizer, before it is clipped to the buffer. -/
def scissorOf (c : State.Context) : Int × Int × Int × Int :=
  (c.scissor.userLeft, c.scissor.userTop, c.scissor.userRight, c.scissor.userBottom)

/-- The rectangles asked for, and the heights of the colour buffer when they reached the context. -/
structure Asked where
  viewport : Rect
  scissor : Rect
  viewportHeight : Nat
  scissorHeight : Nat

section Port

variable {F : Type}

theorem scissor_frame (c : State.Context) (x y w h : Int) :
    (State.gglScissor c x y w h).color = c.color ∧ (State.gglScissor c x y w h).depth = c.depth ∧
      scissorOf (State.gglScissor c x y w h) = (x, y, x + w, y + h) := by
  unfold State.gglScissor State.setScissor scissorOf
  dsimp only
  split_ifs <;> exact ⟨rfl, rfl, rfl⟩

variable {r : Rect} {viewportHeight scissorHeight : Nat}

theorem oglesScissor_accepted {gl : OglesContext F} (port : gl.viewport.surfaceport = (0, 0))
    (size : ¬(r.w < 0 ∨ r.h < 0)) :
    (oglesScissor gl r).viewport = { gl.viewport with scissor := r } ∧
      (oglesScissor gl r).transforms = gl.transforms ∧
      (oglesScissor gl r).rasterizer.color = gl.rasterizer.color ∧
      (oglesScissor gl r).rasterizer.depth = gl.rasterizer.depth ∧
      scissorOf (oglesScissor gl r).rasterizer = flipped r gl.rasterizer.color.height := by
  unfold oglesScissor
  rw [if_neg size, port]
  obtain ⟨color, depth, scissor⟩ := scissor_frame gl.rasterizer (r.x + 0)
    (gl.rasterizer.color.height - (r.y + 0 + r.h)) r.w r.h
  refine ⟨rfl, rfl, color, depth, ?_⟩
  rw [Int.add_zero, Int.add_zero] at scissor
  dsimp only
  rw [Int.add_zero, Int.add_zero]
  exact scissor

theorem oglesScissor_frame (gl : OglesContext F) (r : Rect) :
    (oglesScissor gl r).viewport.surfaceport = gl.viewport.surfaceport ∧
      (oglesScissor gl r).rasterizer.color = gl.rasterizer.color ∧
      (oglesScissor gl r).rasterizer.depth = gl.rasterizer.depth := by
  unfold oglesScissor
  split_ifs
  · exact ⟨rfl, rfl, rfl⟩
  · obtain ⟨color, depth, -⟩ := scissor_frame gl.rasterizer (r.x + gl.viewport.surfaceport.1)
      (gl.rasterizer.color.height - (r.y + gl.viewport.surfaceport.2 + r.h)) r.w r.h
    exact ⟨rfl, color, depth⟩

variable [GLfloat F]

open Transforms.GLfloat

/-- The offset of the viewport transform, the origin at the lower left of a buffer of a height. -/
def viewportOffset (r : Rect) (height : Nat) : F × F :=
  (div2f (ofInt r.w) + ofInt r.x, div2f (ofInt r.h) - ofInt r.y + ofInt (height - r.h))

def offsetOf (gl : OglesContext F) : F × F :=
  (gl.transforms.vpt.matrix 12, gl.transforms.vpt.matrix 13)

/-- What the context holds comes from its rectangles and the heights at that time. -/
structure Ported (gl : OglesContext F) (viewportHeight scissorHeight : Nat) : Prop where
  surfaceport : gl.viewport.surfaceport = (0, 0)
  offset : offsetOf gl = viewportOffset gl.viewport.area viewportHeight
  scissor : scissorOf gl.rasterizer = flipped gl.viewport.scissor scissorHeight

theorem oglesViewport_frame (gl : OglesContext F) (r : Rect) :
    (oglesViewport gl r).rasterizer = gl.rasterizer ∧
      (oglesViewport gl r).viewport.surfaceport = gl.viewport.surfaceport ∧
      (oglesViewport gl r).viewport.scissor = gl.viewport.scissor := by
  unfold oglesViewport
  dsimp only
  split_ifs <;> exact ⟨rfl, rfl, rfl⟩

theorem oglesViewport_accepted {gl : OglesContext F} (port : gl.viewport.surfaceport = (0, 0))
    (size : ¬(r.w < 0 ∨ r.h < 0)) :
    (oglesViewport gl r).viewport.area = r ∧
      offsetOf (oglesViewport gl r) = viewportOffset r gl.rasterizer.color.height := by
  unfold oglesViewport offsetOf
  dsimp only
  unfold Transforms.glViewport OglesContext.onSurface
  rw [if_neg size, if_neg size, port]
  refine ⟨rfl, Prod.ext ?_ ?_⟩
  · change div2f (ofInt r.w) + ofInt (r.x + 0) = _
    rw [Int.add_zero]
    rfl
  · change div2f (ofInt r.h) - ofInt (r.y + 0) + ofInt (gl.rasterizer.color.height - r.h) = _
    rw [Int.add_zero]
    rfl

theorem ported_viewport {gl : OglesContext F} (h : Ported gl viewportHeight scissorHeight)
    (size : ¬(r.w < 0 ∨ r.h < 0)) :
    Ported (oglesViewport gl r) gl.rasterizer.color.height scissorHeight := by
  obtain ⟨raster, port, scissor⟩ := oglesViewport_frame gl r
  obtain ⟨area, offset⟩ := oglesViewport_accepted h.surfaceport size
  refine ⟨port.trans h.surfaceport, ?_, ?_⟩
  · rw [offset, area]
  · rw [raster, scissor]
    exact h.scissor

theorem ported_viewport_refused {gl : OglesContext F} (h : Ported gl viewportHeight scissorHeight)
    (size : r.w < 0 ∨ r.h < 0) :
    Ported (oglesViewport gl r) viewportHeight scissorHeight ∧
      (oglesViewport gl r).viewport = gl.viewport := by
  have viewport : (oglesViewport gl r).viewport = gl.viewport := if_pos size
  have matrix : (oglesViewport gl r).transforms.vpt = gl.transforms.vpt := by
    unfold oglesViewport Transforms.glViewport
    dsimp only
    rw [if_pos size]
    rfl
  refine ⟨⟨?_, ?_, ?_⟩, viewport⟩
  · rw [viewport]
    exact h.surfaceport
  · unfold offsetOf
    rw [matrix, viewport]
    exact h.offset
  · rw [viewport, (oglesViewport_frame gl r).1]
    exact h.scissor

theorem ported_scissor {gl : OglesContext F} (h : Ported gl viewportHeight scissorHeight)
    (size : ¬(r.w < 0 ∨ r.h < 0)) :
    Ported (oglesScissor gl r) viewportHeight gl.rasterizer.color.height := by
  obtain ⟨viewport, transforms, -, -, scissor⟩ := oglesScissor_accepted h.surfaceport size
  refine ⟨?_, ?_, ?_⟩
  · rw [viewport]
    exact h.surfaceport
  · unfold offsetOf
    rw [transforms, viewport]
    exact h.offset
  · rw [scissor, viewport]

theorem ported_scissor_refused {gl : OglesContext F} (h : Ported gl viewportHeight scissorHeight)
    (size : r.w < 0 ∨ r.h < 0) :
    Ported (oglesScissor gl r) viewportHeight scissorHeight ∧
      (oglesScissor gl r).viewport = gl.viewport ∧
      (oglesScissor gl r).rasterizer = gl.rasterizer := by
  unfold oglesScissor
  rw [if_pos size]
  exact ⟨⟨h.surfaceport, h.offset, h.scissor⟩, rfl, rfl⟩

theorem oglesSurfaceport_frame (gl : OglesContext F) :
    (oglesSurfaceport gl 0 0).viewport.surfaceport = (0, 0) ∧
      (oglesSurfaceport gl 0 0).rasterizer.color = gl.rasterizer.color ∧
      (oglesSurfaceport gl 0 0).rasterizer.depth = gl.rasterizer.depth := by
  unfold oglesSurfaceport
  dsimp only
  obtain ⟨port, color, depth⟩ := oglesScissor_frame
    (oglesViewport { gl with viewport := { gl.viewport with surfaceport := (0, 0) } }
      gl.viewport.area)
    (oglesViewport { gl with viewport := { gl.viewport with surfaceport := (0, 0) } }
      gl.viewport.area).viewport.scissor
  obtain ⟨raster, port', -⟩ := oglesViewport_frame
    { gl with viewport := { gl.viewport with surfaceport := (0, 0) } } gl.viewport.area
  rw [raster] at color depth
  exact ⟨port.trans port', color, depth⟩

theorem ported_first (gl : OglesContext F) (w h : Nat) :
    Ported (firstPort gl w h) gl.rasterizer.color.height gl.rasterizer.color.height ∧
      (firstPort gl w h).viewport.area = ⟨0, 0, w, h⟩ ∧
      (firstPort gl w h).viewport.scissor = ⟨0, 0, w, h⟩ ∧
      (firstPort gl w h).rasterizer.depth = gl.rasterizer.depth ∧
      (firstPort gl w h).rasterizer.color = gl.rasterizer.color := by
  have nonneg : ¬((⟨0, 0, w, h⟩ : Rect).w < 0 ∨ (⟨0, 0, w, h⟩ : Rect).h < 0) := by
    rintro (negative | negative)
    · exact absurd negative (not_lt.mpr (Int.natCast_nonneg w))
    · exact absurd negative (not_lt.mpr (Int.natCast_nonneg h))
  obtain ⟨port, color, depth⟩ := oglesSurfaceport_frame gl
  obtain ⟨raster, port', -⟩ := oglesViewport_frame (oglesSurfaceport gl 0 0) ⟨0, 0, w, h⟩
  obtain ⟨area, offset⟩ := oglesViewport_accepted port nonneg
  obtain ⟨viewport, transforms, color', depth', scissor⟩ :=
    oglesScissor_accepted (port'.trans port) nonneg
  rw [raster] at color' depth' scissor
  unfold firstPort
  refine ⟨⟨?_, ?_, ?_⟩, ?_, ?_, depth'.trans depth, color'.trans color⟩
  · rw [viewport]
    exact port'.trans port
  · have same : offsetOf (oglesScissor (oglesViewport (oglesSurfaceport gl 0 0) ⟨0, 0, w, h⟩)
        ⟨0, 0, w, h⟩) = offsetOf (oglesViewport (oglesSurfaceport gl 0 0) ⟨0, 0, w, h⟩) := by
      unfold offsetOf
      rw [transforms]
    rw [same, offset, viewport, color]
    exact congrArg (fun r => viewportOffset r gl.rasterizer.color.height) area.symm
  · rw [scissor, viewport, color]
  · rw [viewport]
    exact area
  · rw [viewport]

end Port

section Binding

variable {F : Type}

theorem colorBuffer_frame (c : State.Context) (surface : GGLSurface) (allocated : Bool) :
    (State.gglColorBuffer c surface allocated).depth = c.depth ∧
      scissorOf (State.gglColorBuffer c surface allocated) = scissorOf c := by
  unfold State.gglColorBuffer State.setScissor State.stateChanged scissorOf
  dsimp only
  split_ifs <;> exact ⟨rfl, rfl⟩

theorem depthBuffer_frame (c : State.Context) (depth : GGLSurface) :
    scissorOf (State.gglDepthBuffer c depth) = scissorOf c := by
  unfold State.gglDepthBuffer State.gglEnableDepthTest
  by_cases z16 : depth.format = Format.z16
  · rw [if_pos z16]
    rfl
  · rw [if_neg z16]
    unfold scissorOf
    rw [(enableFlag_frame _ _ _).2.2]

/-- The rasterizer of a surface that has just been bound has its depth buffer; the viewport and the
scissor are what they were. -/
theorem bindDrawSurface_spec {s : EglSurface} {gl gl' : OglesContext F} {coverage : Bool}
    (h : bindDrawSurface s gl coverage = some gl') (stride : 0 ≤ s.depth.stride)
    (passes : Passes gl.rasterizer s.depth) :
    Holds gl'.rasterizer s.depth ∧ gl'.viewport = gl.viewport ∧ gl'.transforms = gl.transforms ∧
      scissorOf gl'.rasterizer = scissorOf gl.rasterizer := by
  obtain ⟨pixels, -, rfl⟩ := Option.map_eq_some_iff.mp h
  obtain ⟨depth, scissor⟩ := colorBuffer_frame gl.rasterizer pixels coverage
  refine ⟨?_, rfl, rfl, ?_⟩
  · dsimp only
    split_ifs with differs
    · exact depthBuffer_holds _ stride
    · rw [depth] at differs
      have has := passes.resolve_left differs
      unfold Holds at has ⊢
      rw [depth]
      exact has
  · dsimp only
    split_ifs
    · exact (depthBuffer_frame _ _).trans scissor
    · exact scissor

theorem bindReadSurface_spec {s : EglSurface} {gl gl' : OglesContext F}
    (h : bindReadSurface s gl = some gl') :
    gl'.rasterizer.depth = gl.rasterizer.depth ∧ gl'.viewport = gl.viewport ∧
      gl'.transforms = gl.transforms ∧ scissorOf gl'.rasterizer = scissorOf gl.rasterizer := by
  obtain ⟨pixels, -, rfl⟩ := Option.map_eq_some_iff.mp h
  exact ⟨rfl, rfl, rfl, rfl⟩

structure SameFields (c c' : EglContext F) : Prop where
  draw : c'.draw = c.draw
  read : c'.read = c.read
  neverCurrent : c'.neverCurrent = c.neverCurrent
  viewport : c'.gl.viewport = c.gl.viewport
  transforms : c'.gl.transforms = c.gl.transforms
  scissor : scissorOf c'.gl.rasterizer = scissorOf c.gl.rasterizer

theorem SameFields.refl (c : EglContext F) : SameFields c c := ⟨rfl, rfl, rfl, rfl, rfl, rfl⟩

theorem SameFields.trans {a b c : EglContext F} (h : SameFields a b) (h' : SameFields b c) :
    SameFields a c :=
  ⟨h'.draw.trans h.draw, h'.read.trans h.read, h'.neverCurrent.trans h.neverCurrent,
    h'.viewport.trans h.viewport, h'.transforms.trans h.transforms, h'.scissor.trans h.scissor⟩

theorem SameFields.ported [GLfloat F] {c c' : EglContext F} (h : SameFields c c')
    {viewportHeight scissorHeight : Nat} (ported : Ported c.gl viewportHeight scissorHeight) :
    Ported c'.gl viewportHeight scissorHeight := by
  refine ⟨?_, ?_, ?_⟩
  · rw [h.viewport]
    exact ported.surfaceport
  · unfold offsetOf
    rw [h.transforms, h.viewport]
    exact ported.offset
  · rw [h.scissor, h.viewport]
    exact ported.scissor

theorem bindDraw_spec (m : Thread F) (d : SurfaceId) (x : ContextId) (coverage : Bool) :
    (bindDraw m d x coverage).surfaces = m.surfaces ∧
      (∀ y, y ≠ x → (bindDraw m d x coverage).contexts y = m.contexts y) ∧
      (0 ≤ (m.surfaces d).depth.stride →
        Passes (m.contexts x).gl.rasterizer (m.surfaces d).depth →
          (m.surfaces d).pixels.isSome = true →
            SameFields (m.contexts x) ((bindDraw m d x coverage).contexts x) ∧
              Holds ((bindDraw m d x coverage).contexts x).gl.rasterizer (m.surfaces d).depth) := by
  unfold bindDraw
  cases bound : bindDrawSurface (m.surfaces d) (m.contexts x).gl coverage with
  | none =>
    refine ⟨rfl, fun _ _ => rfl, fun _ _ pixels => ?_⟩
    obtain ⟨pixels', has⟩ := Option.isSome_iff_exists.mp pixels
    unfold bindDrawSurface at bound
    rw [has] at bound
    cases bound
  | some gl =>
    refine ⟨rfl, fun y other => Thread.withContext_of_ne other m _, fun stride passes _ => ?_⟩
    obtain ⟨holds, viewport, transforms, scissor⟩ := bindDrawSurface_spec bound stride passes
    dsimp only
    rw [Thread.withContext_self]
    exact ⟨⟨rfl, rfl, rfl, viewport, transforms, scissor⟩, holds⟩

theorem bindRead_spec (m : Thread F) (r : SurfaceId) (x : ContextId) :
    (bindRead m r x).surfaces = m.surfaces ∧
      (∀ y, y ≠ x → (bindRead m r x).contexts y = m.contexts y) ∧
      SameFields (m.contexts x) ((bindRead m r x).contexts x) ∧
      ((bindRead m r x).contexts x).gl.rasterizer.depth =
        (m.contexts x).gl.rasterizer.depth := by
  unfold bindRead
  cases bound : bindReadSurface (m.surfaces r) (m.contexts x).gl with
  | none => exact ⟨rfl, fun _ _ => rfl, SameFields.refl _, rfl⟩
  | some gl =>
    obtain ⟨depth, viewport, transforms, scissor⟩ := bindReadSurface_spec bound
    refine ⟨rfl, fun y other => Thread.withContext_of_ne other m _, ?_, ?_⟩
    · dsimp only
      rw [Thread.withContext_self]
      exact ⟨rfl, rfl, rfl, viewport, transforms, scissor⟩
    · dsimp only
      rw [Thread.withContext_self]
      exact depth

theorem release_other {m : Thread F} {x : ContextId} (s : SurfaceId) :
    ((release m x).surfaces s).depth = (m.surfaces s).depth ∧
      connectDepth ((release m x).surfaces s) = connectDepth (m.surfaces s) := by
  unfold release
  split
  · rename_i t _
    by_cases here : s = t
    · rw [here, Thread.withSurface_self]
      exact ⟨disconnect_depth _, funext fun o => connectDepth_disconnect _ o⟩
    · rw [Thread.withSurface_of_ne here]
      exact ⟨rfl, rfl⟩
  · exact ⟨rfl, rfl⟩

theorem attachRead_spec (m : Thread F) (x : ContextId) (read : Option SurfaceId) :
    (∀ s, ((attachRead m x read).surfaces s).depth = (m.surfaces s).depth) ∧
      (∀ y, y ≠ x → (attachRead m x read).contexts y = m.contexts y) ∧
      SameFields (m.contexts x) ((attachRead m x read).contexts x) ∧
      ((attachRead m x read).contexts x).gl.rasterizer.depth =
        (m.contexts x).gl.rasterizer.depth := by
  cases read with
  | none => exact ⟨fun _ => rfl, fun _ _ => rfl, SameFields.refl _, rfl⟩
  | some r =>
    obtain ⟨surfaces, others, same, depth⟩ :=
      bindRead_spec (m.withSurface r fun s => { s with ctx := some x }) r x
    refine ⟨fun s => ?_, others, same, depth⟩
    unfold attachRead
    dsimp only
    rw [surfaces]
    by_cases here : s = r
    · rw [here, Thread.withSurface_self]
    · rw [Thread.withSurface_of_ne here]

end Binding

end RabbitRender.Egl.Geometry
