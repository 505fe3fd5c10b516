/- RabbitRender/Drawing/Machine
   layer: model
   source: swrender/state.cpp, swrender/texture.cpp, swrender/TextureObjectManager.cpp,
     swrender/array.cpp, swrender/primitives.cpp, swrender/egl.cpp
   digest: The enables, the storage of texture objects, and what drawing calls do to the rasterizer. -/

import RabbitRender.Pixelflinger.State
import RabbitRender.Textures.Coherence

set_option autoImplicit false

namespace RabbitRender.Drawing.Machine

open RabbitRender.GL (GLenum)
open Pixelflinger
open Pixelflinger.State (GGLSurface)
open Textures
open Textures.Units (ObjectId TextureObject unitIndex)

/-- The surfaces of an `EGLTextureObject`; `mipmaps` is the table of the levels above the first. -/
structure Image where
  surface : GGLSurface := {}
  mipmaps : List GGLSurface := []
  isComplete : Bool := false
deriving DecidableEq, Repr

namespace Image

/-- `mip`; without a table every level is the first one. -/
def mip (im : Image) (lod : Int) : GGLSurface :=
  if lod ≤ 0 then im.surface
  else im.mipmaps.getD (min (lod.toNat - 1) (im.mipmaps.length - 1)) im.surface

/-- Write through `editMip`. -/
def editMip (im : Image) (lod : Nat) (s : GGLSurface) : Image :=
  if lod = 0 ∨ im.mipmaps = [] then { im with surface := s }
  else { im with mipmaps := im.mipmaps.set (min (lod - 1) (im.mipmaps.length - 1)) s }

def numLods (im : Image) : Nat := Nat.log2 (max im.surface.width im.surface.height)

/-- `allocateMipmaps`, when there is no table; `table` tells whether it could be had. -/
def allocateMipmaps (im : Image) (table : Bool) : Option Image :=
  if im.mipmaps ≠ [] then some im
  else if im.surface.data = 0 then none
  else if im.numLods = 0 then some im
  else if table then some { im with mipmaps := List.replicate im.numLods {} }
  else none

/-- Each level has the format of the first one and half the size of the level before. -/
def chained (format : Format) : GGLSurface → List GGLSurface → Bool
  | _, [] => true
  | prev, curr :: rest =>
    curr.format = format && curr.width = max 1 (prev.width / 2) &&
      curr.height = max 1 (prev.height / 2) && chained format curr rest

/-- One call of `reallocate`: the level with its surface, and what the allocator answers. -/
structure Write where
  level : Nat
  surface : GGLSurface
  allocated : Bool
  table : Bool

def reallocate (im : Image) (w : Write) : Image :=
  if w.level = 0 then
    if w.allocated then { surface := w.surface, mipmaps := [], isComplete := true }
    else { im with surface := { im.surface with data := 0 }, isComplete := false }
  else
    match im.allocateMipmaps w.table with
    | none => im
    | some im =>
      if w.allocated then
        let im := im.editMip w.level w.surface
        { im with isComplete := chained im.surface.format im.surface im.mipmaps }
      else { im.editMip w.level {} with isComplete := false }

end Image

/-- The coordinates of one unit: `is0` and `it0`, the gradients, and the scales. -/
structure Coords where
  start : List Int := []
  gradient : List Int := []
  scale : List Int := []

structure Iterators where
  color : List Int := []
  z : List Int := []
  fog : List Int := []
  w : List Int := []
  coords : Fin 2 → Coords := fun _ => {}

/-- `ogles_context_t`, the part that enables, textures and the drawing calls share. `depth` is the
depth buffer of the surface that is drawn to. -/
structure Context where
  rasterizer : State.Context
  iterators : Iterators
  textures : Units.Context
  image : ObjectId → Image
  lights : Fin 8 → Bool
  pointSmooth : Bool
  lineSmooth : Bool
  polygonOffset : Bool
  cull : Bool
  cullFace : GLenum
  lighting : Bool
  colorMaterial : Bool
  rescaleNormals : GLenum
  clipPlanes : Fin 6 → Bool
  shadeModel : GLenum
  perspective : Bool
  vertexArray : Bool
  depth : GGLSurface

def oglesError (c : Context) (error : GLenum) : Context :=
  { c with textures := Units.oglesError c.textures error }

def object (c : Context) (i : Fin 2) : TextureObject :=
  ((c.textures.tmu i).texture.bind c.textures.heap).getD {}

def unitImage (c : Context) (i : Fin 2) : Image :=
  match (c.textures.tmu i).texture with
  | none => {}
  | some object => c.image object

def dirty (c : Context) (i : Fin 2) : Bool := (c.textures.tmu i).dirty ≠ 0

/-- What `glEnable` and `glDisable` can switch. -/
inductive Capability where
  | light (i : Fin 8)
  | pointSmooth
  | lineSmooth
  | polygonOffsetFill
  | cullFace
  | lighting
  | colorMaterial
  | normalize
  | rescaleNormal
  | clipPlane (i : Fin 6)
  | fog
  | depthTest
  | blend
  | scissorTest
  | alphaTest
  | colorLogicOp
  | dither
  | stencilTest
  | texture2D
  | textureExternalOes
  | unsupported
deriving DecidableEq, Repr

def indexFrom (n : Nat) (base cap : GLenum) : Option (Fin n) :=
  if h : base ≤ cap ∧ cap - base < n then some ⟨cap - base, h.2⟩ else none

/-- The cases of `enable_disable`. -/
def capability (cap : GLenum) : Option Capability :=
  match indexFrom 8 GL.light0 cap, indexFrom 6 GL.clipPlane0 cap with
  | some i, _ => some (.light i)
  | none, some i => some (.clipPlane i)
  | none, none =>
    if cap = GL.pointSmooth then some .pointSmooth
    else if cap = GL.lineSmooth then some .lineSmooth
    else if cap = GL.polygonOffsetFill then some .polygonOffsetFill
    else if cap = GL.cullFace then some .cullFace
    else if cap = GL.lighting then some .lighting
    else if cap = GL.colorMaterial then some .colorMaterial
    else if cap = GL.normalize then some .normalize
    else if cap = GL.rescaleNormal then some .rescaleNormal
    else if cap = GGL.fog then some .fog
    else if cap = GGL.depthTest then some .depthTest
    else if cap = GGL.blend then some .blend
    else if cap = GGL.scissorTest then some .scissorTest
    else if cap = GGL.alphaTest then some .alphaTest
    else if cap = GGL.colorLogicOp then some .colorLogicOp
    else if cap = GGL.dither then some .dither
    else if cap = GGL.stencilTest then some .stencilTest
    else if cap = GL.texture2D then some .texture2D
    else if cap = GL.textureExternalOes then some .textureExternalOes
    else if cap = GL.multisample ∨ cap = GL.sampleAlphaToCoverage ∨
        cap = GL.sampleAlphaToOne ∨ cap = GL.sampleCoverage then some .unsupported
    else none

/-- `procs.enableDisable` of the rasterizer. -/
def rasterEnable (c : Context) (name : GLenum) (enabled : Bool) : Context :=
  { c with rasterizer := State.enableDisable c.rasterizer name enabled }

def enableCapability (c : Context) (enabled : Bool) : Capability → Context
  | .light i => { c with lights := Function.update c.lights i enabled }
  | .pointSmooth => { c with pointSmooth := enabled }
  | .lineSmooth => { c with lineSmooth := enabled }
  | .polygonOffsetFill => { c with polygonOffset := enabled }
  | .cullFace => { c with cull := enabled }
  | .lighting => { c with lighting := enabled }
  | .colorMaterial => { c with colorMaterial := enabled }
  | .normalize => { c with rescaleNormals := if enabled then GL.normalize else 0 }
  | .rescaleNormal => { c with rescaleNormals := if enabled then GL.rescaleNormal else 0 }
  | .clipPlane i => { c with clipPlanes := Function.update c.clipPlanes i enabled }
  | .fog => rasterEnable c GGL.fog enabled
  | .depthTest => rasterEnable c GGL.depthTest enabled
  | .blend => rasterEnable c GGL.blend enabled
  | .scissorTest => rasterEnable c GGL.scissorTest enabled
  | .alphaTest => rasterEnable c GGL.alphaTest enabled
  | .colorLogicOp => rasterEnable c GGL.colorLogicOp enabled
  | .dither => rasterEnable c GGL.dither enabled
  | .stencilTest => rasterEnable c GGL.stencilTest enabled
  | .texture2D => rasterEnable c GGL.texture2D enabled
  | .textureExternalOes => rasterEnable c GGL.texture2D enabled
  | .unsupported => c

def enableDisable (c : Context) (cap : GLenum) (enabled : Bool) : Context :=
  match capability cap with
  | none => oglesError c GL.invalidEnum
  | some capability => enableCapability c enabled capability

def editObject (c : Context) (f : TextureObject → TextureObject) : Option Context :=
  (unitIndex c.textures.active).bind fun i =>
    (c.textures.tmu i).texture.map fun object =>
      let heap := Function.update c.textures.heap object ((c.textures.heap object).map f)
      { c with textures := { c.textures with heap := heap } }

def editImage (c : Context) (f : Image → Image) : Option Context :=
  (unitIndex c.textures.active).bind fun i =>
    (c.textures.tmu i).texture.map fun object =>
      { c with image := Function.update c.image object (f (c.image object)) }

/-- An upload: `writes` are its calls of `reallocate`, those of the mipmaps included. -/
def upload (c : Context) (writes : List Image.Write) : Option Context :=
  editImage c fun im => writes.foldl Image.reallocate im

def uploads : Coherence.Op → Bool
  | .texImage2D a _ => a.reject = GL.noError && Units.convertGLPixelFormat a.format a.type ≠ 0
  | .copyTexImage2D a _ => a.reject = GL.noError && Units.convertGLPixelFormat a.format a.type ≠ 0
  | .compressedTexImage2D a _ => a.reject = GL.noError && !decide a.empty
  | _ => false

def textureCall (c : Context) (op : Coherence.Op) (writes : List Image.Write) : Option Context :=
  (Coherence.call c.textures op).bind fun textures =>
    let called := { c with textures := textures }
    match op with
    | .activeTexture texture =>
      if Units.unitOffset texture > Units.textureUnitCount then some called
      else some { called with
        rasterizer := State.gglActiveTexture c.rasterizer (Units.unitOffset texture) }
    | op => if uploads op then upload called writes else some called

/-- `glEGLImageTargetTexture2DOES`, with the surface of a valid image. -/
def eglImage (c : Context) (surface : GGLSurface) : Option Context :=
  (Units.getAndBindActiveTextureObject c.textures).bind fun (textures, _) =>
    (editObject { c with textures := textures } fun o =>
      { o with internalformat := 0, cropRect := (0, 0, 0, 0), generateMipmap := 0, direct := 1 }).bind
      fun c => editImage c fun _ => { surface := surface, mipmaps := [], isComplete := true }

/-- The parameters `texParameterx` can set. -/
def setParameter (o : TextureObject) (pname param : GLenum) : Option TextureObject :=
  if pname = GL.textureWrapS then
    if param = GL.repeatWrap ∨ param = GL.clampToEdge then some { o with wraps := param } else none
  else if pname = GL.textureWrapT then
    if param = GL.repeatWrap ∨ param = GL.clampToEdge then some { o with wrapt := param } else none
  else if pname = GL.textureMinFilter then
    if param ∈ [GL.nearest, GL.linear, GL.nearestMipmapNearest, GL.linearMipmapNearest,
        GL.nearestMipmapLinear, GL.linearMipmapLinear] then some { o with minFilter := param }
    else none
  else if pname = GL.textureMagFilter then
    if param = GL.nearest ∨ param = GL.linear then some { o with magFilter := param } else none
  else if pname = GL.generateMipmap then some { o with generateMipmap := param }
  else none

def texParameterx (c : Context) (target pname param : GLenum) : Option Context :=
  if target ≠ GL.texture2D ∧ target ≠ GL.textureExternalOes then
    some (oglesError c GL.invalidEnum)
  else
    (unitIndex c.textures.active).bind fun i =>
      match setParameter (object c i) pname param with
      | none => some (oglesError c GL.invalidEnum)
      | some _ =>
        (editObject c fun o => (setParameter o pname param).getD o).map fun c =>
          { c with textures := Units.invalidateTexture c.textures i }

def setDirty (c : Context) (i : Fin 2) (flags : UInt8) : Context :=
  { c with
    textures := { c.textures with
      tmu := Function.update c.textures.tmu i { c.textures.tmu i with dirty := flags } } }

def loadFilters (r : State.Context) (o : TextureObject) : State.Context :=
  State.gglTexParameteri
    (State.gglTexParameteri r GGL.texture2D GGL.textureMinFilter o.minFilter)
    GGL.texture2D GGL.textureMagFilter o.magFilter

def loadWraps (r : State.Context) (wraps wrapt : GLenum) : State.Context :=
  State.gglTexParameteri
    (State.gglTexParameteri r GGL.texture2D GGL.textureWrapS wraps)
    GGL.texture2D GGL.textureWrapT wrapt

def loadCoords (r : State.Context) (mode : GLenum) : State.Context :=
  State.gglTexGeni (State.gglTexGeni r GGL.s GGL.textureGenMode mode) GGL.t GGL.textureGenMode mode

/-- The calls of `validate_tmu`. -/
def loadUnit (r : State.Context) (i : Fin 2) (o : TextureObject) (im : Image) : State.Context :=
  let r := State.gglBindTexture (State.gglActiveTexture r i.val) im.surface
  let r := loadFilters (loadWraps (loadCoords r GGL.automatic) o.wraps o.wrapt) o
  if im.isComplete then r else State.enableDisable r GGL.texture2D false

def validateTmu (c : Context) (i : Fin 2) : Context :=
  if dirty c i then
    { setDirty c i 0 with rasterizer := loadUnit c.rasterizer i (object c i) (unitImage c i) }
  else c

def validateEnabled (c : Context) (i : Fin 2) : Context :=
  if (c.rasterizer.texture i).enable then validateTmu c i else c

def selectActive (c : Context) : Context :=
  { c with rasterizer := State.gglActiveTexture c.rasterizer c.textures.active }

/-- `ogles_validate_texture` -/
def validateTexture (c : Context) : Context :=
  selectActive (validateEnabled (validateEnabled c 0) 1)

/-- The state `validate_arrays` sets, less the transforms and the fetchers. -/
def validateArrays (c : Context) (mode : GLenum) : Context :=
  let tmus := c.rasterizer.enables .tmus
  let perspective := c.perspective && mode ≠ GL.points && tmus
  let smooth :=
    if mode = GL.points then c.pointSmooth
    else if mode = GL.lines ∨ mode = GL.lineLoop ∨ mode = GL.lineStrip then c.lineSmooth
    else false
  let r := State.enableDisable c.rasterizer GGL.wLerp perspective
  -- the flag is compared as it was before
  let r := if c.rasterizer.enables .aa ≠ smooth then State.enableDisable r GGL.aa smooth else r
  let r := State.gglShadeModel r (if mode = GL.points then GL.flat else c.shadeModel)
  let c := { c with rasterizer := r }
  if tmus then validateTexture c else c

/-- How the rasterizer is invoked: for a point, for a line or a triangle with the level that is
computed for each unit, for a scaled rectangle, and for a rectangle that is copied. -/
inductive Kind where
  | point
  | lerp (lod : Fin 2 → Int)
  | scaled
  | copied

/-- A line or triangle of the draw call, or a point: the computed levels, and the iterators. -/
structure Prim where
  lod : Fin 2 → Int
  iterators : Iterators

def mipmapped (o : TextureObject) : Bool := GL.nearestMipmapNearest ≤ o.minFilter

def bindTextureLod (r : State.Context) (i : Fin 2) (s : GGLSurface) : State.Context :=
  let t := r.texture i
  { r with texture :=
    Function.update r.texture i { t with surface := State.setSurface t.surface s } }

/-- The turn of `lerp_texcoords` for one unit. -/
def chooseLevel (c : Context) (lod : Fin 2 → Int) (i : Fin 2) : Context :=
  if (c.rasterizer.texture i).enable && mipmapped (object c i) then
    { c with rasterizer := bindTextureLod c.rasterizer i ((unitImage c i).mip (lod i)) }
  else c

def setIterators (r : State.Context) (old new : Iterators) : Iterators where
  color := new.color
  z := if r.enables .depthTest then new.z else old.z
  fog := if r.enables .fog then new.fog else old.fog
  w := if r.enables .tmus && r.enables .w then new.w else old.w
  coords i := if r.enables .tmus && (r.texture i).enable then new.coords i else old.coords i

def setPrim (c : Context) (mode : GLenum) (p : Prim) : Context :=
  let c :=
    if mode ≠ GL.points ∧ c.rasterizer.enables .tmus then
      chooseLevel (chooseLevel c p.lod 0) p.lod 1
    else c
  { c with iterators := setIterators c.rasterizer c.iterators p.iterators }

def kind (mode : GLenum) (p : Prim) : Kind := if mode = GL.points then .point else .lerp p.lod

abbrev Invocation := Kind × Context

def drawPrims (mode : GLenum) : Context → List Prim → List Invocation × Context
  | c, [] => ([], c)
  | c, p :: prims =>
    let c := setPrim c mode p
    let r := drawPrims mode c prims
    ((kind mode p, c) :: r.1, r.2)

/-- `glDrawArrays` and `glDrawElements`; `prims` are the primitives that reach the rasterizer. -/
def draw (c : Context) (mode : GLenum) (count : Int) (prims : List Prim) :
    List Invocation × Context :=
  if count < 0 then ([], oglesError c GL.invalidValue)
  else if GL.triangleFan < mode then ([], oglesError c GL.invalidEnum)
  else if count = 0 ∨ c.vertexArray = false then ([], c)
  else if c.cull ∧ c.cullFace = GL.frontAndBack then ([], c)
  else drawPrims mode (validateArrays c mode) prims

/-- The turn of `drawTexxOESImp` for one unit. The coordinates are in the iterators. -/
def prepareUnit (c : Context) (i : Fin 2) : Context :=
  if (c.rasterizer.texture i).enable then
    let c := validateTmu c i
    setDirty { c with rasterizer := loadWraps c.rasterizer GGL.clamp GGL.clamp } i 0xFF
  else c

def setRect (r : State.Context) : State.Context :=
  let r := State.enableDisable r GGL.wLerp false
  State.gglShadeModel (State.enableDisable r GGL.aa false) GL.flat

/-- The iterators of a rectangle, but for the coordinates; `w` is not used. -/
def rectIterators (r : State.Context) (old new : Iterators) : Iterators :=
  { setIterators r old new with w := old.w, coords := old.coords }

/-- `drawTexxOESImp`; a unit that is disabled on the way has got its coordinates. -/
def drawTexxOESImp (c : Context) (new : Iterators) : List Invocation × Context :=
  let coords i := if (c.rasterizer.texture i).enable then new.coords i else c.iterators.coords i
  let c := prepareUnit (prepareUnit c 0) 1
  let iterators := { rectIterators c.rasterizer c.iterators new with coords := coords }
  let c := selectActive c
  let c := { c with rasterizer := setRect c.rasterizer, iterators := iterators }
  ([(.scaled, c)], c)

/-- `(w|h) <= 0` -/
def isEmpty (w h : Int) : Bool := w < 0 || h < 0 || w = 0 && h = 0

def drawTexxOES (c : Context) (w h : Int) (new : Iterators) : List Invocation × Context :=
  if isEmpty w h then ([], c) else drawTexxOESImp c new

/-- The unit of the 1:1 mapping, before the rectangle is known to lie inside the texture. -/
def prepareCopy (c : Context) : Context :=
  let o := object c 0
  let r := if dirty c 0 then
      loadFilters (State.gglBindTexture (State.gglActiveTexture c.rasterizer 0)
        (unitImage c 0).surface) o
    else c.rasterizer
  selectActive (setDirty { c with rasterizer := loadCoords r GGL.oneToOne } 0 0xFF)

/-- The rectangle of the texture is not inside it; the sums are taken as `uint32_t`. -/
def outsideTexture (o : TextureObject) (im : Image) (w h : Int) : Bool :=
  let (ucr, vcr, _, hcr) := o.cropRect
  im.surface.width < (ucr + w) % 2 ^ 32 || im.surface.height < (vcr + hcr + h) % 2 ^ 32

def copyTexture (c : Context) (new : Iterators) : List Invocation × Context :=
  let active := c.rasterizer.activeTMU
  -- `texCoord2i` acts on the active unit, and leaves the gradients
  let coords : Coords := { c.iterators.coords active with
    start := (new.coords 0).start
    scale := [0, 0] }
  let iterators := { rectIterators c.rasterizer c.iterators new with
    coords := Function.update c.iterators.coords active coords }
  let c := { c with rasterizer := setRect c.rasterizer, iterators := iterators }
  ([(.copied, c)], c)

def drawTexiOES (c : Context) (w h : Int) (new : Iterators) : List Invocation × Context :=
  let o := object c 0
  let (_, _, wcr, hcr) := o.cropRect
  if c.rasterizer.enabledTmu = 1 ∧ w = wcr ∧ h = -hcr then
    if isEmpty w h then ([], c)
    else if outsideTexture o (unitImage c 0) w h then drawTexxOESImp (prepareCopy c) new
    else copyTexture (prepareCopy c) new
  else drawTexxOESImp c new

/-- `bindDrawSurface`; the depth buffer is set when its data is not that of the last one. -/
def bindDrawSurface (c : Context) (color depth : GGLSurface) (allocated : Bool) : Context :=
  let r := State.gglColorBuffer c.rasterizer color allocated
  { c with
    rasterizer := if depth.data ≠ r.depth.data then State.gglDepthBuffer r depth else r
    depth := depth }

inductive FragmentCall where
  | scissor (x y width height : Int)
  | blendFunc (src dst : GLenum)
  | alphaFunc (func : GLenum) (ref : Int)
  | depthFunc (func : GLenum)
  | logicOp (opcode : GLenum)
  | colorMask (r g b a : Bool)
  | depthMask (flag : Nat)
  | stencilMask (mask : Nat)
  | pointSmoothHint (nicest : Bool)
  | texEnv (target pname param : GLenum)
  | texEnvColor (r g b a : Int)

def FragmentCall.apply (r : State.Context) : FragmentCall → State.Context
  | .scissor x y width height => State.gglScissor r x y width height
  | .blendFunc src dst => State.gglBlendFunc r src dst
  | .alphaFunc func ref => State.gglAlphaFuncx r func ref
  | .depthFunc func => State.gglDepthFunc r func
  | .logicOp opcode => State.gglLogicOp r opcode
  | .colorMask red green blue alpha => State.gglColorMask r red green blue alpha
  | .depthMask flag => State.gglDepthMask r flag
  | .stencilMask mask => State.gglStencilMask r mask
  | .pointSmoothHint nicest => State.enableDisable r GGL.pointSmoothNice nicest
  | .texEnv target pname param => State.gglTexEnvi r target pname param
  | .texEnvColor red green blue alpha => State.gglTexEnvColor r red green blue alpha

inductive Op where
  | enable (cap : GLenum)
  | disable (cap : GLenum)
  | texture (op : Coherence.Op) (writes : List Image.Write)
  /-- the mipmaps `glTexSubImage2D` makes: `reallocate` from level 1 on -/
  | subImage (writes : List Image.Write)
  | eglImage (surface : GGLSurface)
  | texParameter (target pname param : GLenum)
  | cropRect (target : GLenum) (rect : Int × Int × Int × Int)
  | fragment (f : FragmentCall)
  | shadeModel (mode : GLenum)
  | perspectiveHint (nicest : Bool)
  | cullFace (mode : GLenum)
  | vertexArray (enabled : Bool)
  | draw (mode : GLenum) (count : Int) (prims : List Prim)
  | drawTexx (w h : Int) (new : Iterators)
  | drawTexi (w h : Int) (new : Iterators)
  | bindDrawSurface (color depth : GGLSurface) (allocated : Bool)

def cropRect (c : Context) (target : GLenum) (rect : Int × Int × Int × Int) : Option Context :=
  if target ≠ GL.texture2D ∧ target ≠ GL.textureExternalOes then
    some (oglesError c GL.invalidEnum)
  else editObject c fun o => { o with cropRect := rect }

/-- `glShadeModel` -/
def shadeModel (c : Context) (mode : GLenum) : Context :=
  if mode ≠ GL.smooth ∧ mode ≠ GL.flat then oglesError c GL.invalidEnum
  else { c with shadeModel := mode }

/-- `glCullFace`; a mode it rejects is stored all the same. -/
def cullFace (c : Context) (mode : GLenum) : Context :=
  let rejected := mode ≠ GL.front ∧ mode ≠ GL.back ∧ mode ≠ GL.frontAndBack
  { (if rejected then oglesError c GL.invalidEnum else c) with cullFace := mode }

def quiet (c : Option Context) : Option (List Invocation × Context) := c.map fun c => ([], c)

/-- One call: the invocations of the rasterizer, and the context after it. There is none when the
call follows a null pointer or indexes outside the array of units. -/
def call (c : Context) : Op → Option (List Invocation × Context)
  | .enable cap => quiet (some (enableDisable c cap true))
  | .disable cap => quiet (some (enableDisable c cap false))
  | .texture op writes => quiet (textureCall c op writes)
  | .subImage writes => quiet (upload c (writes.map fun w => { w with level := w.level + 1 }))
  | .eglImage surface => quiet (Machine.eglImage c surface)
  | .texParameter target pname param => quiet (texParameterx c target pname param)
  | .cropRect target rect => quiet (Machine.cropRect c target rect)
  | .fragment f => quiet (some { c with rasterizer := f.apply c.rasterizer })
  | .shadeModel mode => quiet (some (Machine.shadeModel c mode))
  | .perspectiveHint nicest => quiet (some { c with perspective := nicest })
  | .cullFace mode => quiet (some (Machine.cullFace c mode))
  | .vertexArray enabled => quiet (some { c with vertexArray := enabled })
  | .draw mode count prims => some (Machine.draw c mode count prims)
  | .drawTexx w h new => some (drawTexxOES c w h new)
  | .drawTexi w h new => some (drawTexiOES c w h new)
  | .bindDrawSurface color depth allocated =>
    quiet (some (Machine.bindDrawSurface c color depth allocated))

def step (c : Option Context) (op : Op) : Option Context :=
  c.bind fun c => (call c op).map Prod.snd

/-- The context after `ogles_init`, and before a surface is bound. -/
def init : Option Context :=
  Units.oglesInitTexture.map fun textures =>
    { rasterizer :=
        State.gglEnableDither
          (State.gglDepthMask (State.gglShadeModel State.initContext GL.smooth) 1) true
      iterators := {}
      textures := textures
      image := fun _ => {}
      lights := fun _ => false
      pointSmooth := false
      lineSmooth := false
      polygonOffset := false
      cull := false
      cullFace := GL.back
      lighting := false
      colorMaterial := false
      rescaleNormals := 0
      clipPlanes := fun _ => false
      shadeModel := GL.smooth
      perspective := false
      vertexArray := false
      depth := {} }

end RabbitRender.Drawing.Machine
