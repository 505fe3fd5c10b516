/- RabbitRender/Pixelflinger/Fragment
   layer: model
   source: libpixelflinger/scanline.cpp
   digest: One fragment of the generic scanline: texels, texture environments, coverage, fog and
     blending. -/

import RabbitRender.Pixelflinger.Picker
import RabbitRender.Pixelflinger.Pixels

set_option autoImplicit false

namespace RabbitRender.Pixelflinger.Fragment

open RabbitRender.GL (GLenum)
open Pixelflinger.State Pixelflinger.Pixels

/-- `uint32_t` subtraction. -/
def sub32 (a b : Nat) : Nat := u32 (a + (2 ^ 32 - b))

/-- The `int32_t` with the bits of a `uint32_t`. -/
def toInt32 (x : Nat) : Int := Fixed.wrap32 x

/-- The `uint32_t` with the bits of an `int32_t`. -/
def ofInt32 (x : Int) : Nat := (x % 2 ^ 32).toNat

/-- The words a unit reads for a fragment, one or those of four texels with the fractions of the
texture coordinates between them. -/
inductive Sample where
  | nearest (word : Nat)
  | linear (word00 word01 word10 word11 : Nat) (u v : Fin 16)

structure TexUnit where
  env : GLenum
  format : Format
  sample : Sample
  /-- `env_color[i]`, where `i` is the number of the unit. -/
  envColor : Fin 256

def weights (u v : Nat) : Nat × Nat × Nat × Nat :=
  let u := u + u >>> 3
  let v := v + v >>> 3
  let m0 := (0x10 - u) * (0x10 - v)
  let m1 := (0x10 - u) * v
  let m2 := u * (0x10 - v)
  (m0, m1, m2, 0x100 - (m0 + m1 + m2))

/-- The texel a unit reads; the components its format lacks are those of the texel before. -/
def fetch (x : TexUnit) (texel : Pixel) : Pixel :=
  let read (word : Nat) : Pixel := readWord (Picker.pickReader x.format) x.format word texel
  match x.sample with
  | .nearest word => read word
  | .linear word00 word01 word10 word11 u v =>
    let (m0, m1, m2, m3) := weights u v
    { s := fun j => if (read word00).s j ≠ 0 then (read word00).s j + 8 else 0
      c := fun j =>
        if (read word00).s j ≠ 0 then
          u32 ((read word00).c j * m0 + (read word01).c j * m1 + (read word10).c j * m2 +
            (read word11).c j * m3)
        else texel.c j }

/-- `rescale`: both components are brought to the larger size. -/
def rescale (u su v sv : Nat) : (Nat × Nat) × (Nat × Nat) :=
  if su ≠ 0 ∧ sv ≠ 0 then
    if sv < su then ((u, su), (gglExpand v sv su, su))
    else if su < sv then ((gglExpand u su sv, sv), (v, sv))
    else ((u, su), (v, sv))
  else ((u, su), (v, sv))

/-- The factor a component of size `s` stands for, from 0 to `2 ^ s`. -/
def scaled (c s : Nat) : Nat := u32 (c + c >>> (s - 1))

def envConstant (envColor : Fin 256) (sf : Nat) : Nat :=
  if 8 < sf then u32 (envColor.val * (1 <<< sf - 1)) >>> 8
  else if sf < 8 then (envColor.val - envColor.val >>> (8 - sf)) >>> (8 - sf)
  else envColor.val

/-- One component through a texture environment: the fragment's and the texel's, with their sizes,
and the alpha of the texel. -/
def envComponent (env : GLenum) (envColor : Fin 256) (fragment texel alpha : Nat × Nat) :
    (Nat × Nat) × (Nat × Nat) :=
  let (cf, sf) := fragment
  let (ct, st) := texel
  let (ta, sat) := alpha
  if env = GGL.replace then (if st ≠ 0 then (ct, st) else (cf, sf), texel)
  else if env = GGL.modulate then
    (if st ≠ 0 then (u32 (cf * scaled ct st) >>> st, sf) else (cf, sf), texel)
  else if env = GGL.decal then
    if sat ≠ 0 then
      let ((cf, sf), (ct, st)) := rescale cf sf ct st
      ((u32 (cf + u32 (sub32 ct cf * scaled ta sat) >>> sat), sf), (ct, st))
    else (fragment, texel)
  else if env = GGL.blendEnv then
    (if st ≠ 0 then
      (u32 (sub32 (1 <<< st) (scaled ct st) * cf + ct * envConstant envColor sf) >>> st, sf)
    else (cf, sf), texel)
  else if env = GGL.add then
    if st ≠ 0 then
      let ((cf, sf), (ct, st)) := rescale cf sf ct st
      ((u32 (cf + ct), sf), (ct, st))
    else (fragment, texel)
  else (fragment, texel)

def Pixel.set (p : Pixel) (j : Component) (component : Nat × Nat) : Pixel where
  c := Function.update p.c j component.1
  s := Function.update p.s j component.2

def Pixel.get (p : Pixel) (j : Component) : Nat × Nat := (p.c j, p.s j)

/-- One turn of the loop over the components; rescaling changes the texel as well. -/
def envStep (x : TexUnit) (pixels : Pixel × Pixel) (j : Component) : Pixel × Pixel :=
  let (fragment, texel) := pixels
  let (f, t) := envComponent x.env x.envColor (Pixel.get fragment j) (Pixel.get texel j)
    (Pixel.get texel 0)
  (Pixel.set fragment j f, Pixel.set texel j t)

def applyUnit (pixels : Pixel × Pixel) (x : TexUnit) : Pixel × Pixel :=
  [0, 1, 2, 3].foldl (envStep x) (pixels.1, fetch x pixels.2)

def applyCoverage (coverage : Option (BitVec 16)) (fragment : Pixel) : Pixel :=
  match coverage with
  | none => fragment
  | some cf =>
    { fragment with
      c := Function.update fragment.c 0 (ofInt32 ((fragment.c 0 * cf.toInt) >>> (15 : Nat))) }

structure Fog where
  f : Int
  color : Component → Fin 256

def fogColor (fog : Fog) (i : Component) : Int := ((fog.color i).val * 0x10000 / 0xFF : Nat)

def fogScale (c s : Nat) : Nat := u32 (c * 0x10000) / (1 <<< s - 1)

def fogComponent (fog : Fog) (c s : Nat) (i : Component) : Nat :=
  ofInt32 (Fixed.gglMulAddx (toInt32 (fogScale c s)) fog.f
    (Fixed.gglMulx (fogColor fog i) (0x10000 - fog.f) 16) 16)

def applyFog (fog : Option Fog) (fragment : Pixel) : Pixel :=
  match fog with
  | none => fragment
  | some fog =>
    { c := fun i => if i = 0 then fragment.c 0 else fogComponent fog (fragment.c i) (fragment.s i) i
      s := fun i => if i = 0 then fragment.s 0 else 16 }

def blendfactor (x size default : Nat) : Nat :=
  if size = 0 then default
  else
    let x := if 16 < size then x >>> (size - 16) else gglExpand x size 16
    u32 (x + x >>> 15)

/-- `blend_factor`; `GGL_SRC_ALPHA_SATURATE` and unknown factors leave `r` as it was. -/
def blendFactor (r : Component → Nat) (factor : GLenum) (src dst : Pixel) : Component → Nat :=
  let one := 0x10000
  if factor = GGL.zero then fun _ => 0
  else if factor = GGL.one then fun _ => one
  else if factor = GGL.dstColor then fun i => blendfactor (dst.c i) (dst.s i) 0
  else if factor = GGL.srcColor then fun i => blendfactor (src.c i) (src.s i) 0
  else if factor = GGL.oneMinusDstColor then
    fun i => sub32 one (blendfactor (dst.c i) (dst.s i) 0)
  else if factor = GGL.oneMinusSrcColor then
    fun i => sub32 one (blendfactor (src.c i) (src.s i) 0)
  else if factor = GGL.srcAlpha then fun _ => blendfactor (src.c 0) (src.s 0) one
  else if factor = GGL.oneMinusSrcAlpha then
    fun _ => sub32 one (blendfactor (src.c 0) (src.s 0) one)
  else if factor = GGL.dstAlpha then fun _ => blendfactor (dst.c 0) (dst.s 0) one
  else if factor = GGL.oneMinusDstAlpha then
    fun _ => sub32 one (blendfactor (dst.c 0) (dst.s 0) one)
  else r

/-- The state and the memory `blending` reads: the blend state, the colour buffer's word and what
the two factors hold before they are set. -/
structure Blending where
  blend : Blend
  format : Format
  word : Nat
  sf : Component → Nat
  df : Component → Nat

def readDestination (b : Blending) : Pixel :=
  readWord (Picker.pickReader b.format) b.format b.word ⟨fun _ => 0, fun _ => 0⟩

def blendComponent (f sf d df : Nat) : Nat :=
  ofInt32 (Fixed.gglMulAddx (toInt32 f) (toInt32 sf)
    (Fixed.gglMulx (toInt32 d) (toInt32 df) 16) 16)

def clampComponent (c s : Nat) : Nat := if 1 <<< s ≤ c then 1 <<< s - 1 else c

def rescalePixels (fragment fb : Pixel) : Pixel × Pixel :=
  let both (i : Component) := rescale (fragment.c i) (fragment.s i) (fb.c i) (fb.s i)
  (⟨fun i => (both i).1.1, fun i => (both i).1.2⟩, ⟨fun i => (both i).2.1, fun i => (both i).2.2⟩)

/-- `blending`: the colours are replaced before the factors for alpha are computed. -/
def blending (b : Blending) (fragment : Pixel) : Pixel :=
  let (fragment, fb) := rescalePixels fragment (readDestination b)
  let sf := blendFactor b.sf b.blend.src fragment fb
  let df := blendFactor b.df b.blend.dst fragment fb
  let colours : Pixel :=
    { fragment with
      c := fun i =>
        if i = 0 then fragment.c 0 else blendComponent (fragment.c i) (sf i) (fb.c i) (df i) }
  let (sf, df) :=
    if b.blend.alphaSeparate then
      (blendFactor sf b.blend.srcAlpha colours fb, blendFactor df b.blend.dstAlpha colours fb)
    else (sf, df)
  let blended := Function.update colours.c 0
    (blendComponent (colours.c 0) (sf 0) (fb.c 0) (df 0))
  { s := colours.s, c := fun i => clampComponent (blended i) (colours.s i) }

def applyBlending (b : Option Blending) (fragment : Pixel) : Pixel :=
  match b with
  | none => fragment
  | some b => blending b fragment

/-- What the scanline has for one fragment: the iterated colour, the enabled units, and what the
enabled stages read. -/
structure Inputs where
  color : Component → Int
  units : List TexUnit
  texel : Pixel
  coverage : Option (BitVec 16)
  fog : Option Fog
  blending : Option Blending

def startFragment (color : Component → Int) : Pixel where
  c i := ofInt32 (color i >>> (16 : Nat))
  s _ := 8

/-- The pixel passed to the writer, when the alpha and the depth test let the fragment through. -/
def shade (x : Inputs) : Pixel :=
  let textured := (x.units.foldl applyUnit (startFragment x.color, x.texel)).1
  applyBlending x.blending (applyFog x.fog (applyCoverage x.coverage textured))

end RabbitRender.Pixelflinger.Fragment
