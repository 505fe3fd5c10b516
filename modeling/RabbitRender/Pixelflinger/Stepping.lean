/- RabbitRender/Pixelflinger/Stepping
   layer: model
   source: include/ggl_context.h, libpixelflinger/scanline.cpp
   digest: The values iterated from row to row, the functions that start them and those that step
     them, and the choice of the rectangle blitter. -/

import RabbitRender.Pixelflinger.Fragment
import RabbitRender.Textures.TexelFetch

set_option autoImplicit false

namespace RabbitRender.Pixelflinger.Stepping

open Fixed Pixelflinger.State
open RabbitRender.GL (GLenum)
open Pixelflinger.Fragment (ofInt32)
open Textures.TexelFetch (rescale)

/-- A value of `shade_t` and its gradient, such as `z0`, `dzdx` and `dzdy`. -/
structure Gradient where
  v0 : Int
  dvdx : Int
  dvdy : Int
deriving DecidableEq, Repr

/-- `shade_t`. -/
structure Shade where
  a : Gradient
  r : Gradient
  g : Gradient
  b : Gradient
  z : Gradient
  w : Gradient
  f : Gradient
deriving DecidableEq, Repr

/-- An element of `st` in `texture_shade_t`. -/
structure CoordShade where
  v : Int
  dx : Int
  dy : Int
  scale : Int
deriving DecidableEq, Repr

/-- An element of `st` in `texture_iterators_t`. -/
structure CoordIterators where
  ydvdy : Int
  dvdx : Int
  dvdy : Int
  scale : Int
deriving DecidableEq, Repr

/-- The index of a texture coordinate: `s`, `t`. -/
abbrev Coord := Fin 2

/-- `iterators_t`. -/
structure Iterators where
  xl : Int
  xr : Int
  y : Int
  ydady : Int
  ydrdy : Int
  ydgdy : Int
  ydbdy : Int
  ydzdy : Int
  ydwdy : Int
  ydfdy : Int
deriving DecidableEq, Repr

/-- The functions `rect` can point to. -/
inductive Rect where
  | generic
  | memcpy
deriving DecidableEq, Repr

/-- `context_t`, with what the functions of this module read and write. -/
structure Rasterizer where
  context : Context
  shade : Shade
  texShade : Fin 2 → Coord → CoordShade
  iterators : Iterators
  texIterators : Fin 2 → Coord → CoordIterators
  packed : Nat
  packed8888 : Nat
  rect : Rect

def color (ci : Iterators) : Component → Int := ![ci.ydady, ci.ydrdy, ci.ydgdy, ci.ydbdy]

def shadeColor (s : Shade) : Component → Gradient := ![s.a, s.r, s.g, s.b]

def interpolate (y : Int) (d : Gradient) : Int :=
  Textures.TexelFetch.interpolate y d.v0 d.dvdx d.dvdy

/-- Depth, `w` and fog are started together. -/
def startsDepth (c : Context) : Bool := c.enables .depthTest || c.enables .w || c.enables .fog

/-- `ggl_pack_color` of the flat colour. -/
def packShade (s : Shade) (format : Format) : Nat :=
  Pixels.gglPackColor format (ofInt32 s.r.v0) (ofInt32 s.g.v0) (ofInt32 s.b.v0) (ofInt32 s.a.v0)

def initIterators (m : Rasterizer) (ys : Int) : Iterators :=
  let c := m.context
  let start (value : Gradient) (kept : Int) : Int :=
    if startsDepth c then interpolate ys value else kept
  let color (value : Gradient) : Int :=
    if c.enables .smooth then interpolate ys value else value.v0
  { m.iterators with
    y := ys
    ydzdy := start m.shade.z m.iterators.ydzdy
    ydwdy := start m.shade.w m.iterators.ydwdy
    ydfdy := start m.shade.f m.iterators.ydfdy
    ydrdy := color m.shade.r
    ydgdy := color m.shade.g
    ydbdy := color m.shade.b
    ydady := color m.shade.a }

def OneToOne (tx : Texture) : Prop := tx.sCoord = GGL.oneToOne ∧ tx.tCoord = GGL.oneToOne

instance (tx : Texture) : Decidable (OneToOne tx) := inferInstanceAs (Decidable (_ ∧ _))

def wrapMode (tx : Texture) (j : Coord) : GLenum := if j = 0 then tx.sWrap else tx.tWrap

/-- `sscale` or `tscale` of a coordinate that is iterated. -/
def adjustedScale (tx : Texture) (d : Coord → CoordShade) (j : Coord) : Int :=
  (d j).scale + if wrapMode tx j = GGL.clamp then 0 else 16

/-- One coordinate of an enabled unit; the scanline itself advances one that is mapped 1:1. -/
def initCoord (c : Context) (tx : Texture) (d : Coord → CoordShade) (ys : Int) (j : Coord)
    (kept : CoordIterators) : CoordIterators :=
  if OneToOne tx then { kept with ydvdy := (d j).v, dvdx := 0, dvdy := 0 }
  else
    let scale := adjustedScale tx d j
    if c.enables .w then { kept with scale }
    else
      { ydvdy := rescale (Textures.TexelFetch.interpolate ys (d j).v (d j).dx (d j).dy) scale
        dvdx := rescale (d j).dx scale
        dvdy := rescale (d j).dy scale
        scale }

def initUnits (m : Rasterizer) (ys : Int) (i : Fin 2) (j : Coord) : CoordIterators :=
  if m.context.enables .tmus && (m.context.texture i).enable then
    initCoord m.context (m.context.texture i) (m.texShade i) ys j (m.texIterators i j)
  else m.texIterators i j

def pickStepY (c : Context) : StepY :=
  if c.enables .fog then .generic
  else if c.enables .tmus then
    if c.enables .smooth then .generic else if c.enables .w then .w else .tmu
  else if c.enables .smooth then .smooth
  else .nop

/-- The choice of the rectangle blitter, after that of the `y`-stepper. -/
def pickRect (stepY : StepY) (picked : Scanline) : Rect :=
  if stepY = .nop ∧ picked = .memcpy then .memcpy else .generic

/-- `init_y`, without the mirrors for generated code. -/
def initY (m : Rasterizer) (ys : Int) : Rasterizer :=
  let c := m.context
  let flat := !c.enables .smooth
  { m with
    context := { c with stepY := pickStepY c }
    iterators := initIterators m ys
    texIterators := initUnits m ys
    packed := if flat then packShade m.shade c.color.format else m.packed
    packed8888 := if flat then packShade m.shade Format.rgba8888 else m.packed8888
    rect := pickRect (pickStepY c) c.scanline }

def initYNoop (m : Rasterizer) (y0 : Int) : Rasterizer :=
  { m with
    context := { m.context with stepY := .nop }
    iterators := { m.iterators with y := y0 }
    rect := pickRect .nop m.context.scanline }

def initYPacked (m : Rasterizer) (y0 : Int) : Rasterizer :=
  { initYNoop m y0 with
    packed := packShade m.shade m.context.color.format
    packed8888 := packShade m.shade Format.rgba8888 }

def initYError (m : Rasterizer) (y0 : Int) : Rasterizer := initYNoop m y0

/-- The call of `c->init_y`. -/
def start (m : Rasterizer) (ys : Int) : Rasterizer :=
  match m.context.initY with
  | .initY => initY m ys
  | .noop => initYNoop m ys
  | .packed => initYPacked m ys
  | .error => initYError m ys

/-- `+=` of an `int32_t`. -/
def advance (v dv : Int) : Int := wrap32 (v + dv)

def stepColors (s : Shade) (ci : Iterators) : Iterators :=
  { ci with
    ydrdy := advance ci.ydrdy s.r.dvdy
    ydgdy := advance ci.ydgdy s.g.dvdy
    ydbdy := advance ci.ydbdy s.b.dvdy
    ydady := advance ci.ydady s.a.dvdy }

def stepDepth (s : Shade) (ci : Iterators) : Iterators :=
  { ci with ydzdy := advance ci.ydzdy s.z.dvdy }

def stepW (s : Shade) (ci : Iterators) : Iterators :=
  { ci with ydwdy := advance ci.ydwdy s.w.dvdy }

def stepFog (s : Shade) (ci : Iterators) : Iterators :=
  { ci with ydfdy := advance ci.ydfdy s.f.dvdy }

def stepRow (ci : Iterators) : Iterators := { ci with y := advance ci.y 1 }

def stepUnits (m : Rasterizer) (i : Fin 2) (j : Coord) : CoordIterators :=
  let ti := m.texIterators i j
  if (m.context.texture i).enable then { ti with ydvdy := advance ti.ydvdy ti.dvdy } else ti

def stepYGeneric (m : Rasterizer) : Rasterizer :=
  let c := m.context
  let colors := if c.enables .smooth then stepColors m.shade (stepRow m.iterators)
    else stepRow m.iterators
  { m with
    iterators :=
      if startsDepth c then stepFog m.shade (stepW m.shade (stepDepth m.shade colors)) else colors
    texIterators := if c.enables .tmus && !c.enables .w then stepUnits m else m.texIterators }

def stepYNop (m : Rasterizer) : Rasterizer :=
  { m with iterators := stepDepth m.shade (stepRow m.iterators) }

def stepYSmooth (m : Rasterizer) : Rasterizer :=
  { m with iterators := stepDepth m.shade (stepColors m.shade (stepRow m.iterators)) }

def stepYW (m : Rasterizer) : Rasterizer :=
  { m with iterators := stepW m.shade (stepDepth m.shade (stepRow m.iterators)) }

def stepYTmu (m : Rasterizer) : Rasterizer :=
  { m with
    iterators := stepDepth m.shade (stepRow m.iterators)
    texIterators := stepUnits m }

/-- The call of `c->step_y`. -/
def stepY (m : Rasterizer) : Rasterizer :=
  match m.context.stepY with
  | .generic => stepYGeneric m
  | .nop => stepYNop m
  | .smooth => stepYSmooth m
  | .tmu => stepYTmu m
  | .w => stepYW m

/-- What is iterated after `k` more rows. -/
def rows (m : Rasterizer) (k : Nat) : Rasterizer := stepY^[k] m

end RabbitRender.Pixelflinger.Stepping
