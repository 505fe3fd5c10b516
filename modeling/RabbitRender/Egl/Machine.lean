/- RabbitRender/Egl/Machine
   layer: model
   source: swrender/egl.cpp, swrender/matrix.cpp
   digest: Contexts and surfaces, how a thread binds them to each other, and what that does to the
     rasterizer. -/

import RabbitRender.Egl.Configs
import RabbitRender.Matrix.Transforms
import RabbitRender.Pixelflinger.State

set_option autoImplicit false

namespace RabbitRender.Egl.Machine

open Egl.Configs RabbitRender.Matrix Pixelflinger
open RabbitRender.Matrix.Transforms (GLfloat Matrixf)
open Pixelflinger.State (GGLSurface)

namespace EGL

def success : EGLint := 0x3000
def badAccess : EGLint := 0x3002
def badAlloc : EGLint := 0x3003
def badCurrentSurface : EGLint := 0x3007
def badDisplay : EGLint := 0x3008
def badMatch : EGLint := 0x3009
def badSurface : EGLint := 0x300D

end EGL

structure Rect where
  x : Int
  y : Int
  w : Int
  h : Int
deriving DecidableEq, Repr

/-- `viewport_t` -/
structure Viewport where
  area : Rect := ⟨0, 0, 0, 0⟩
  scissor : Rect := ⟨0, 0, 0, 0⟩
  surfaceport : Int × Int := (0, 0)
deriving DecidableEq, Repr

/-- `ogles_context_t`, the part that surfaces decide. -/
structure OglesContext (F : Type) where
  rasterizer : State.Context
  viewport : Viewport
  transforms : Transforms.Context F

section Port

variable {F : Type} [GLfloat F]

def oglesInit (inverse : Matrixf F → Matrixf F) : OglesContext F where
  rasterizer :=
    State.gglEnableDither
      (State.gglDepthMask (State.gglShadeModel State.initContext GL.smooth) 1) true
  viewport := {}
  transforms := Transforms.init 0 (0, 0, 0) inverse

/-- The transform state sees the origin of the surface and the height of the colour buffer. -/
def OglesContext.onSurface (gl : OglesContext F) : Transforms.Context F :=
  { gl.transforms with
    surface := (gl.viewport.surfaceport.1, gl.viewport.surfaceport.2, gl.rasterizer.color.height) }

def oglesViewport (gl : OglesContext F) (r : Rect) : OglesContext F :=
  { gl with
    viewport :=
      if r.w < 0 ∨ r.h < 0 then gl.viewport else { gl.viewport with area := r }
    transforms := Transforms.glViewport gl.onSurface r.x r.y r.w r.h }

def oglesScissor (gl : OglesContext F) (r : Rect) : OglesContext F :=
  if r.w < 0 ∨ r.h < 0 then
    { gl with transforms := Transforms.oglesError gl.transforms GL.invalidValue }
  else
    let x := r.x + gl.viewport.surfaceport.1
    let y := r.y + gl.viewport.surfaceport.2
    { gl with
      viewport := { gl.viewport with scissor := r }
      rasterizer :=
        State.gglScissor gl.rasterizer x (gl.rasterizer.color.height - (y + r.h)) r.w r.h }

def oglesSurfaceport (gl : OglesContext F) (x y : Int) : OglesContext F :=
  let gl := { gl with viewport := { gl.viewport with surfaceport := (x, y) } }
  let gl := oglesViewport gl gl.viewport.area
  oglesScissor gl gl.viewport.scissor

end Port

abbrev Display := Nat
abbrev ContextId := Nat
abbrev SurfaceId := Nat

/-- `egl_display_t::is_valid` -/
def validDisplay (dpy : Display) : Bool := dpy = 1

/-- `ANativeWindowBuffer`, with its address and that of its pixels. -/
structure Buffer where
  address : Nat
  width : Nat
  height : Nat
  stride : Nat
  format : Format
  data : Int
deriving DecidableEq, Repr

/-- `egl_window_surface_v2_t`, what it adds to `egl_surface_t`. -/
structure Window where
  buffer : Option Buffer := none
  previousBuffer : Option Buffer := none
  width : Nat
  height : Nat
  bits : Int := 0
deriving DecidableEq, Repr

/-- What a surface draws into: a window, or the memory of a pixmap or a pbuffer. -/
inductive Native where
  | window (w : Window)
  | memory (pixels : GGLSurface)
deriving DecidableEq, Repr

/-- `egl_surface_t`; `magic` tells whether the field of that name is `MAGIC`. -/
structure EglSurface where
  magic : Bool
  dpy : Display
  ctx : Option ContextId
  depth : GGLSurface
  native : Native
deriving DecidableEq, Repr

/-- What the window and the allocator answer during a call: the buffer that is dequeued, the address
of the depth buffer (0 for none), and whether a larger coverage buffer could be had. -/
structure Outcome where
  dequeued : Option Buffer
  depthData : Int
  coverage : Bool := true

namespace EglSurface

def width (s : EglSurface) : Nat :=
  match s.native with
  | .window w => w.width
  | .memory pixels => pixels.width

def height (s : EglSurface) : Nat :=
  match s.native with
  | .window w => w.height
  | .memory pixels => pixels.height

/-- The depth buffer `connect` allocates for the size of the new buffer. -/
def connectedDepth (s : EglSurface) (buffer : Buffer) (o : Outcome) : GGLSurface :=
  if s.depth.format = Format.none then s.depth
  else
    { s.depth with
      width := buffer.width, height := buffer.height, stride := buffer.width
      data := o.depthData }

/-- `connect`, for a window; the buffer stays dequeued when the depth buffer cannot be had. -/
def connectWindow (s : EglSurface) (w : Window) (o : Outcome) : EglSurface × Bool :=
  match o.dequeued with
  | none => (s, false)
  | some buffer =>
    let sized := { w with buffer := some buffer, width := buffer.width, height := buffer.height }
    let s := { s with depth := s.connectedDepth buffer o, native := .window sized }
    if s.depth.format ≠ Format.none ∧ o.depthData = 0 then (s, false)
    else ({ s with native := .window { sized with bits := buffer.data } }, true)

def connect (s : EglSurface) (o : Outcome) : EglSurface × Bool :=
  match s.native with
  | .window w => s.connectWindow w o
  | .memory _ => (s, true)

/-- `disconnect`; the depth buffer is left where it is. -/
def disconnect (s : EglSurface) : EglSurface :=
  match s.native with
  | .window w =>
    { s with
      native := .window
        { w with
          buffer := none, previousBuffer := none
          bits := if w.buffer.isSome then 0 else w.bits } }
  | .memory _ => s

/-- The depth buffer `swapBuffers` allocates for another size; here the stride is that of the new
buffer. -/
def resizedDepth (s : EglSurface) (buffer : Buffer) (o : Outcome) : GGLSurface :=
  if s.depth.data = 0 then s.depth
  else
    { s.depth with
      width := buffer.width, height := buffer.height, stride := buffer.stride
      data := o.depthData }

/-- The part of `swapBuffers` that follows the new buffer. -/
def resize (s : EglSurface) (w : Window) (buffer : Buffer) (o : Outcome) :
    EglSurface × Option EGLint :=
  if w.width = buffer.width ∧ w.height = buffer.height then
    ({ s with native := .window { w with bits := buffer.data } }, none)
  else
    let sized := { w with width := buffer.width, height := buffer.height }
    let resized := { s with depth := s.resizedDepth buffer o, native := .window sized }
    if s.depth.data ≠ 0 ∧ o.depthData = 0 then (resized, some EGL.badAlloc)
    else ({ resized with native := .window { sized with bits := buffer.data } }, none)

/-- `swapBuffers`, for a window, with the error it records. -/
def swapWindow (s : EglSurface) (w : Window) (o : Outcome) : EglSurface × Option EGLint :=
  match w.buffer with
  | none => (s, some EGL.badAccess)
  | some posted =>
    match o.dequeued with
    | none =>
      ({ s with native := .window { w with buffer := none, previousBuffer := some posted } },
        some EGL.badCurrentSurface)
    | some buffer =>
      s.resize { w with buffer := some buffer, previousBuffer := some posted } buffer o

def swapBuffers (s : EglSurface) (o : Outcome) : EglSurface × Option EGLint :=
  match s.native with
  | .window w => s.swapWindow w o
  | .memory _ => (s, none)

/-- What is bound as colour buffer. A window surface has nothing without a buffer: the source
follows a null pointer. -/
def pixels (s : EglSurface) : Option GGLSurface :=
  match s.native with
  | .window w =>
    w.buffer.map fun b =>
      { width := b.width, height := b.height, stride := b.stride, data := w.bits,
        format := b.format }
  | .memory pixels => some pixels

end EglSurface

/-- `egl_context_t` with its `ogles_context_t`; `live` tells whether it has been created and not
destroyed. -/
structure EglContext (F : Type) where
  live : Bool
  isCurrent : Bool
  neverCurrent : Bool
  read : Option SurfaceId
  draw : Option SurfaceId
  gl : OglesContext F

/-- What one thread sees; `current` is its `getGlThreadSpecific`. The last two fields tell whether
`bindDrawSurface` or `bindReadSurface` has followed the null buffer of a window surface. -/
structure Thread (F : Type) where
  contexts : ContextId → EglContext F
  surfaces : SurfaceId → EglSurface
  current : Option ContextId
  error : EGLint
  nullDraw : Bool
  nullRead : Bool

section Calls

variable {F : Type}

namespace Thread

def setError (m : Thread F) (error : EGLint) : Thread F := { m with error := error }

def withContext (m : Thread F) (x : ContextId) (f : EglContext F → EglContext F) : Thread F :=
  { m with contexts := Function.update m.contexts x (f (m.contexts x)) }

def withSurface (m : Thread F) (s : SurfaceId) (f : EglSurface → EglSurface) : Thread F :=
  { m with surfaces := Function.update m.surfaces s (f (m.surfaces s)) }

@[simp] theorem withContext_surfaces (m : Thread F) (x : ContextId)
    (f : EglContext F → EglContext F) : (m.withContext x f).surfaces = m.surfaces := rfl

@[simp] theorem withSurface_contexts (m : Thread F) (s : SurfaceId) (f : EglSurface → EglSurface) :
    (m.withSurface s f).contexts = m.contexts := rfl

@[simp] theorem withContext_self (m : Thread F) (x : ContextId) (f : EglContext F → EglContext F) :
    (m.withContext x f).contexts x = f (m.contexts x) :=
  Function.update_self _ _ _

theorem withContext_of_ne {x y : ContextId} (h : y ≠ x) (m : Thread F)
    (f : EglContext F → EglContext F) : (m.withContext x f).contexts y = m.contexts y :=
  Function.update_of_ne h _ _

@[simp] theorem withSurface_self (m : Thread F) (s : SurfaceId) (f : EglSurface → EglSurface) :
    (m.withSurface s f).surfaces s = f (m.surfaces s) :=
  Function.update_self _ _ _

theorem withSurface_of_ne {s t : SurfaceId} (h : t ≠ s) (m : Thread F)
    (f : EglSurface → EglSurface) : (m.withSurface s f).surfaces t = m.surfaces t :=
  Function.update_of_ne h _ _

end Thread

/-- `bindDrawSurface`, of all three kinds of surfaces. -/
def bindDrawSurface (s : EglSurface) (gl : OglesContext F) (coverage : Bool) :
    Option (OglesContext F) :=
  s.pixels.map fun pixels =>
    let rasterizer := State.gglColorBuffer gl.rasterizer pixels coverage
    { gl with
      rasterizer :=
        if s.depth.data ≠ rasterizer.depth.data then State.gglDepthBuffer rasterizer s.depth
        else rasterizer }

def bindReadSurface (s : EglSurface) (gl : OglesContext F) : Option (OglesContext F) :=
  s.pixels.map fun pixels => { gl with rasterizer := State.gglReadBuffer gl.rasterizer pixels }

def bindDraw (m : Thread F) (d : SurfaceId) (x : ContextId) (coverage : Bool) : Thread F :=
  match bindDrawSurface (m.surfaces d) (m.contexts x).gl coverage with
  | some gl => m.withContext x fun c => { c with gl := gl }
  | none => { m with nullDraw := true }

def bindRead (m : Thread F) (r : SurfaceId) (x : ContextId) : Thread F :=
  match bindReadSurface (m.surfaces r) (m.contexts x).gl with
  | some gl => m.withContext x fun c => { c with gl := gl }
  | none => { m with nullRead := true }

def leave (m : Thread F) : Thread F :=
  match m.current with
  | some x => m.withContext x fun c => { c with isCurrent := false }
  | none => m

/-- `makeCurrent`; nothing when the context is current elsewhere. -/
def makeCurrent (m : Thread F) : Option ContextId → Option (Thread F)
  | some x =>
    if (m.contexts x).isCurrent then
      if m.current ≠ some x then none else some m
    else
      some { (leave m).withContext x fun c => { c with isCurrent := true } with current := some x }
  | none => some { leave m with current := none }

def surfaceError (m : Thread F) (dpy : Display) : Option SurfaceId → Option EGLint
  | none => none
  | some s =>
    if (m.surfaces s).magic = false then some EGL.badSurface
    else if (m.surfaces s).dpy ≠ dpy then some EGL.badDisplay
    else none

def boundElsewhere (m : Thread F) (x : ContextId) : Option SurfaceId → Bool
  | none => false
  | some s => (m.surfaces s).ctx.isSome && (m.surfaces s).ctx ≠ some x

/-- The checks of `eglMakeCurrent`, in their order. -/
def refusal (m : Thread F) (dpy : Display) (draw read : Option SurfaceId)
    (ctx : Option ContextId) : Option EGLint :=
  if validDisplay dpy = false then some EGL.badDisplay
  else
    (surfaceError m dpy draw).or <| (surfaceError m dpy read).or <|
      if read = none ∧ draw = none ∧ ctx ≠ none then some EGL.badMatch
      else if (read ≠ none ∨ draw ≠ none) ∧ ctx = none then some EGL.badMatch
      else
        ctx.bind fun x =>
          if boundElsewhere m x draw || boundElsewhere m x read then some EGL.badAccess else none

def release (m : Thread F) (x : ContextId) : Thread F :=
  match (m.contexts x).draw with
  | some s => m.withSurface s EglSurface.disconnect
  | none => m

def attachRead (m : Thread F) (x : ContextId) : Option SurfaceId → Thread F
  | none => m
  | some r => bindRead (m.withSurface r fun s => { s with ctx := some x }) r x

def detachDraw (m : Thread F) (x : ContextId) : Thread F :=
  match (m.contexts x).draw with
  | some d =>
    (m.withContext x fun c => { c with draw := none }).withSurface d fun s =>
      { s with ctx := none }.disconnect
  | none => m

def detachRead (m : Thread F) (x : ContextId) : Thread F :=
  match (m.contexts x).read with
  | some r =>
    (m.withContext x fun c => { c with read := none }).withSurface r fun s => { s with ctx := none }
  | none => m

/-- What `eglMakeCurrent` does for the context that was current, when there is no new one. -/
def detach (m : Thread F) : Option ContextId → Thread F
  | none => m
  | some x => detachRead (detachDraw m x) x

variable [GLfloat F]

/-- The viewport and the scissor of a context that becomes current for the first time. -/
def firstPort (gl : OglesContext F) (w h : Nat) : OglesContext F :=
  oglesScissor (oglesViewport (oglesSurfaceport gl 0 0) ⟨0, 0, w, h⟩) ⟨0, 0, w, h⟩

def drawSize (m : Thread F) : Option SurfaceId → Nat × Nat
  | none => (0, 0)
  | some d => ((m.surfaces d).width, (m.surfaces d).height)

def assign (m : Thread F) (x : ContextId) (draw read : Option SurfaceId) : Thread F :=
  m.withContext x fun c =>
    { c with
      draw := draw, read := read, neverCurrent := false
      gl := if c.neverCurrent then firstPort c.gl (drawSize m draw).1 (drawSize m draw).2
            else c.gl }

/-- What `eglMakeCurrent` does with the surfaces, once the context is current. -/
def attach (m : Thread F) (x : ContextId) (draw read : Option SurfaceId) (o : Outcome) :
    Thread F × Bool :=
  let m := assign (release m x) x draw read
  match draw with
  | none => (attachRead m x read, true)
  | some d =>
    match (m.surfaces d).connect o with
    | (connected, true) =>
      let m := m.withSurface d fun _ => { connected with ctx := some x }
      (attachRead (bindDraw m d x o.coverage) x read, true)
    | (failed, false) => ((m.withSurface d fun _ => failed).setError EGL.badAlloc, false)

def eglMakeCurrent (m : Thread F) (dpy : Display) (draw read : Option SurfaceId)
    (ctx : Option ContextId) (o : Outcome) : Thread F × Bool :=
  match refusal m dpy draw read ctx with
  | some error => (m.setError error, false)
  | none =>
    match makeCurrent m ctx with
    | none => (m.setError EGL.badAccess, false)
    | some made =>
      match ctx with
      | some x => attach made x draw read o
      | none => (detach made m.current, true)

def surfaceRefusal (m : Thread F) (dpy : Display) (s : SurfaceId) : Option EGLint :=
  if validDisplay dpy = false then some EGL.badDisplay else surfaceError m dpy (some s)

/-- Post a surface, and bind its next buffer to the context it is bound to; the result of
`swapBuffers` is not looked at. -/
def post (m : Thread F) (d : SurfaceId) (o : Outcome) : Thread F :=
  let (surface, error) := (m.surfaces d).swapBuffers o
  let m := (m.withSurface d fun _ => surface).setError (error.getD m.error)
  match surface.ctx with
  | none => m
  | some x =>
    let m := bindDraw m d x o.coverage
    if (m.contexts x).read = some d then bindRead m d x else m

def eglSwapBuffers (m : Thread F) (dpy : Display) (draw : SurfaceId) (o : Outcome) : Thread F :=
  match surfaceRefusal m dpy draw with
  | some error => m.setError error
  | none => post m draw o

def destroySurface (m : Thread F) (s : SurfaceId) : Thread F :=
  m.withSurface s fun s =>
    let s := if s.ctx.isSome then { s.disconnect with ctx := none } else s
    { s with magic := false }

def eglDestroySurface (m : Thread F) (dpy : Display) : Option SurfaceId → Thread F
  | none => if validDisplay dpy = false then m.setError EGL.badDisplay else m
  | some s =>
    match surfaceRefusal m dpy s with
    | some error => m.setError error
    | none => destroySurface m s

def destroyContext (m : Thread F) (x : ContextId) : Thread F :=
  { m.withContext x fun c => { c with live := false } with
    current := if (m.contexts x).isCurrent then none else m.current }

def eglDestroyContext (m : Thread F) (dpy : Display) (x : ContextId) : Thread F :=
  if validDisplay dpy = false then m.setError EGL.badDisplay else destroyContext m x

/-- `eglCreateContext`; `made` is what `ogles_init` returns, at a place that is free. -/
def eglCreateContext (m : Thread F) (dpy : Display) (x : ContextId)
    (made : Option (Matrixf F → Matrixf F)) : Thread F :=
  if validDisplay dpy = false then m.setError EGL.badDisplay
  else if (m.contexts x).live then m
  else
    match made with
    | none => m.setError EGL.badAlloc
    | some inverse =>
      m.withContext x fun _ =>
        { live := true, isCurrent := false, neverCurrent := true, read := none, draw := none,
          gl := oglesInit inverse }

def place (m : Thread F) (s : SurfaceId) (surface : EglSurface) : Thread F :=
  if (m.surfaces s).magic then m else m.withSurface s fun _ => surface

def newDepth (format : Format) (width height : Nat) (data : Int) : GGLSurface :=
  if format = Format.none then {}
  else { width := width, height := height, stride := width, data := data, format := format }

/-- `createWindowSurface`, for a window of a size. -/
def createWindowSurface (m : Thread F) (dpy : Display) (config : Config) (s : SurfaceId)
    (width height : Nat) : Thread F :=
  if validDisplay dpy = false then m.setError EGL.badDisplay
  else
    match formatsFor config EGL.windowBit with
    | none => m.setError EGL.badMatch
    | some formats =>
      place m s
        { magic := true, dpy := dpy, ctx := none, depth := { format := formats.depth }
          native := .window { width := width, height := height } }

/-- `createPixmapSurface` -/
def newPixmapSurface (m : Thread F) (dpy : Display) (config : Config) (s : SurfaceId)
    (pixmap : GGLSurface) (depthData : Int) : Thread F :=
  if validDisplay dpy = false then m.setError EGL.badDisplay
  else
    match createPixmapSurface config pixmap.format true with
    | none => m.setError EGL.badMatch
    | some formats =>
      if formats.depth ≠ Format.none ∧ depthData = 0 then m.setError EGL.badAlloc
      else
        place m s
          { magic := true, dpy := dpy, ctx := none
            depth := newDepth formats.depth pixmap.width pixmap.height depthData
            native := .memory pixmap }

/-- `createPbufferSurface`. A pbuffer whose depth buffer could not be had is returned all the
same, since `initCheck` looks at the pixels alone. -/
def newPbufferSurface (m : Thread F) (dpy : Display) (config : Config) (s : SurfaceId)
    (width height : Nat) (data depthData : Int) : Thread F :=
  if validDisplay dpy = false then m.setError EGL.badDisplay
  else
    match formatsFor config EGL.pbufferBit with
    | none => m.setError EGL.badMatch
    | some formats =>
      let m :=
        if formats.depth ≠ Format.none ∧ depthData = 0 then m.setError EGL.badAlloc else m
      if data = 0 then m
      else
        place m s
          { magic := true, dpy := dpy, ctx := none
            depth := newDepth formats.depth width height depthData
            native := .memory
              { width := width, height := height, stride := width, data := data,
                format := formats.pixel } }

inductive Op (F : Type) where
  | createContext (dpy : Display) (x : ContextId) (made : Option (Matrixf F → Matrixf F))
  | createWindow (dpy : Display) (config : Config) (s : SurfaceId) (width height : Nat)
  | createPixmap (dpy : Display) (config : Config) (s : SurfaceId) (pixmap : GGLSurface)
      (depthData : Int)
  | createPbuffer (dpy : Display) (config : Config) (s : SurfaceId) (width height : Nat)
      (data depthData : Int)
  | makeCurrent (dpy : Display) (draw read : Option SurfaceId) (ctx : Option ContextId)
      (o : Outcome)
  | swapBuffers (dpy : Display) (draw : SurfaceId) (o : Outcome)
  | destroySurface (dpy : Display) (s : Option SurfaceId)
  | destroyContext (dpy : Display) (x : ContextId)

def step (m : Thread F) : Op F → Thread F
  | .createContext dpy x made => eglCreateContext m dpy x made
  | .createWindow dpy config s width height => createWindowSurface m dpy config s width height
  | .createPixmap dpy config s pixmap depthData => newPixmapSurface m dpy config s pixmap depthData
  | .createPbuffer dpy config s width height data depthData =>
    newPbufferSurface m dpy config s width height data depthData
  | .makeCurrent dpy draw read ctx o => (eglMakeCurrent m dpy draw read ctx o).1
  | .swapBuffers dpy draw o => eglSwapBuffers m dpy draw o
  | .destroySurface dpy s => eglDestroySurface m dpy s
  | .destroyContext dpy x => eglDestroyContext m dpy x

def init : Thread F where
  contexts := fun _ =>
    { live := false, isCurrent := false, neverCurrent := true, read := none, draw := none,
      gl := oglesInit id }
  surfaces := fun _ =>
    { magic := false, dpy := 0, ctx := none, depth := {}, native := .memory {} }
  current := none
  error := EGL.success
  nullDraw := false
  nullRead := false

end Calls

end RabbitRender.Egl.Machine
