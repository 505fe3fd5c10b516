/- RabbitRender/Textures/Uploads
   layer: model
   source: swrender/texture.cpp, swrender/mipmap.cpp
   digest: The calls that allocate and fill texture images, with the errors they record. -/

import RabbitRender.Pixelflinger.Formats
import RabbitRender.Textures.Levels

set_option autoImplicit false

namespace RabbitRender.Textures.Uploads

open Fixed (wrap32)
open RabbitRender.GL (GLenum)
open Pixelflinger (formats)
open Textures.Levels
open Textures.Units (ObjectId convertGLPixelFormat validFormatType paletteFormat)

abbrev Bytes := List UInt8

structure Image where
  storage : Storage := {}
  bytes : Pointer → Bytes := fun _ => []

/-- The context: the units and the objects' parameters, the objects' images, the unpack alignment
and the colour buffer. -/
structure Context where
  units : Units.Context
  images : ObjectId → Image
  unpackAlignment : Nat
  colorBuffer : GGLSurface

/-- What the allocator answers to one call, and what its pixel transfers write: `copy level` takes
the contents of the block behind a level to the new contents. -/
structure Outcome where
  table : Bool
  data : Nat → Bool
  /-- there is a rasterizer for transfers, or one could be made -/
  rasterizer : Bool
  copy : Nat → Bytes → Bytes

def Outcome.memory (out : Outcome) (level : Nat) : Memory := ⟨out.table, out.data level⟩

def Context.withUnits (c : Context) (units : Units.Context) : Context :=
  { c with
    units := units
    images := fun object => if object < c.units.nextObject then c.images object else {} }

def Context.setImage (c : Context) (object : ObjectId) (image : Image) : Context :=
  { c with images := Function.update c.images object image }

/-- `ogles_error`. -/
def Context.record (c : Context) (error : GLenum) : Context :=
  { c with units := Units.oglesError c.units error }

/-- `tmu[active].texture`, which is dereferenced. -/
def Context.boundObject (c : Context) : Option ObjectId :=
  (Units.unitIndex c.units.active).bind fun i => (c.units.tmu i).texture

/-- `tex->internalformat = format`. -/
def Context.setInternalformat (c : Context) (object : ObjectId) (format : GLenum) : Context :=
  let o := (c.units.heap object).map fun o => { o with internalformat := format }
  { c with units := { c.units with heap := Function.update c.units.heap object o } }

def Context.parameters (c : Context) (object : ObjectId) : Units.TextureObject :=
  (c.units.heap object).getD {}

def Image.paint (image : Image) (level : Nat) (copy : Bytes → Bytes) : Image :=
  match (image.storage.mip level).data with
  | none => image
  | some p => { image with bytes := Function.update image.bytes p (copy (image.bytes p)) }

/-- `c->rasterizer.formats[formatIdx].size`. -/
def pixelSize (formatIdx : Nat) : Nat :=
  if h : formatIdx < 34 then (formats ⟨formatIdx, h⟩).size else 0

/-- `((width * pixelFormat.size) + align) & ~align`, in 32 bits. -/
def rowBytes (width : Int) (size alignment : Nat) : Int :=
  alignment * (wrap32 (width * size + (alignment - 1 : Nat)) / alignment)

def imageRequest (alignment formatIdx : Nat) (width height : Int) : Request :=
  let bpr := rowBytes width (pixelSize formatIdx) alignment
  { width := width, height := height, stride := Int.tdiv bpr (pixelSize formatIdx),
    format := formatIdx, compressedFormat := 0, bpr := bpr }

/-- `createTextureSurface`: the context and the error it returns. -/
def createTextureSurface (c : Context) (level : Nat) (format type : GLenum) (width height : Int)
    (out : Outcome) : Option (Context × GLenum) :=
  let formatIdx := convertGLPixelFormat format type
  if formatIdx = 0 then some (c, GL.invalidOperation)
  else
    let r := imageRequest c.unpackAlignment formatIdx width height
    if 0 < level then
      c.boundObject.map fun object =>
        let image := c.images object
        let (storage, status) := reallocate image.storage level r (out.memory level)
        (c.setImage object { image with storage := storage },
          if status = .noError then GL.noError else GL.outOfMemory)
    else
      (Units.getAndBindActiveTextureObject c.units).map fun (units, object) =>
        let c := c.withUnits units
        let image := c.images object
        let (storage, status) := reallocate image.storage level r (out.memory level)
        let c := c.setImage object { image with storage := storage }
        if status = .noError then (c.setInternalformat object format, GL.noError)
        else (c, GL.outOfMemory)

/-- The case `copyPixels` handles without the rasterizer. -/
def samePixels (dst : GGLSurface) (xoffset yoffset : Int) (src : GGLSurface) (x y : Int) : Bool :=
  dst.format = src.format && dst.stride = src.stride && dst.width = src.width &&
    dst.height = src.height && decide (0 < dst.stride) && decide (x = 0 ∧ y = 0) &&
    decide (xoffset = 0 ∧ yoffset = 0)

/-- `copyPixels` into a level of the bound object. -/
def copyPixels (c : Context) (object : ObjectId) (level : Nat) (direct : Bool) (out : Outcome) :
    Context × GLenum :=
  if direct || out.rasterizer then
    (c.setImage object ((c.images object).paint level (out.copy level)), GL.noError)
  else (c, GL.outOfMemory)

/-- The formats `buildAPyramid` has a filter for. -/
def filtered (format : Nat) : Bool := format ∈ [4, 6, 1, 3, 0xA, 8, 9, 7]

/-- What a generated level takes, of `size` bytes a texel. -/
def levelRequest (size : Nat) (base : GGLSurface) (w h : Nat) : Request :=
  { width := w, height := h, stride := w, format := base.format,
    compressedFormat := base.compressedFormat, bpr := wrap32 (w * size) }

/-- The loop of `buildAPyramid`. Extents have 32 bits, so that 32 rounds reach one texel. -/
def buildLevels (size : Nat) (out : Outcome) (base : GGLSurface) :
    (rounds : Nat) → Image → (level w h : Nat) → Image × Status
  | 0, image, _, _, _ => (image, .noError)
  | rounds + 1, image, level, w, h =>
    match reallocate image.storage level (levelRequest size base w h) (out.memory level) with
    | (storage, .noError) =>
      let image := { image with storage := storage }
      if filtered base.format then
        let image := image.paint level (out.copy level)
        if w &&& h = 1 then (image, .noError)
        else
          buildLevels size out (storage.mip level) rounds image (level + 1) (halve w) (halve h)
      else (image, .badType)
    | (storage, _) => ({ image with storage := storage }, .noMemory)

def buildAPyramid (image : Image) (out : Outcome) : Image × Status :=
  let base := image.storage.surface
  if base.width &&& base.height = 1 then (image, .noError)
  else
    buildLevels (pixelSize base.format) out base 32 image 1 (halve base.width) (halve base.height)

/-- `generateMipmap`, on the bound object. -/
def generateMipmap (c : Context) (object : ObjectId) (level : Nat) (out : Outcome) :
    Context × GLenum :=
  if level = 0 ∧ (c.parameters object).generateMipmap ≠ 0 then
    let (image, status) := buildAPyramid (c.images object) out
    (c.setImage object image, if status = .noError then GL.noError else GL.outOfMemory)
  else (c, GL.noError)

def unlessError (r : Context × GLenum) (next : Context → Option (Context × GLenum)) :
    Option (Context × GLenum) :=
  if r.2 ≠ GL.noError then some r else next r.1

-- Each returns the context and the error that the call hands to `ogles_error`.
/-- The arguments of `glTexImage2D`. -/
structure TexImage extends Units.TexImage where
  hasPixels : Bool

def glTexImage2D (c : Context) (a : TexImage) (out : Outcome) : Option (Context × GLenum) :=
  if a.reject ≠ GL.noError then some (c, a.reject)
  else
    let level := a.level.toNat
    (createTextureSurface c level a.format a.type a.width a.height out).bind fun r =>
      unlessError r fun c =>
        if a.hasPixels then
          c.boundObject.bind fun object =>
            let formatIdx := convertGLPixelFormat a.format a.type
            let user := (imageRequest c.unpackAlignment formatIdx a.width a.height).surface none
            let dst := (c.images object).storage.mip level
            unlessError (copyPixels c object level (samePixels dst 0 0 user 0 0) out) fun c =>
              some (generateMipmap c object level out)
        else some (c, GL.noError)

/-- The arguments of `glCopyTexImage2D`. -/
structure CopyTexImage where
  target : GLenum
  level : Int
  internalformat : GLenum
  x : Int
  y : Int
  width : Int
  height : Int
  border : Int

def CopyTexImage.from (a : CopyTexImage) (cbFormat : Nat) : Units.CopyTexImage :=
  { target := a.target, level := a.level, internalformat := a.internalformat, width := a.width,
    height := a.height, border := a.border, cbFormat := cbFormat }

/-- Whether a copy from the colour buffer, whose bottom row is stored first, can do without the
rasterizer. -/
def matchesBuffer (c : Context) (object : ObjectId) (level : Nat)
    (xoffset yoffset x y height : Int) : Bool :=
  let surface := (c.images object).storage.mip level
  let txSurface := { surface with stride := -surface.stride }
  let y := wrap32 (c.colorBuffer.height - wrap32 (y + height))
  samePixels txSurface xoffset yoffset c.colorBuffer x y

def glCopyTexImage2D (c : Context) (a : CopyTexImage) (out : Outcome) :
    Option (Context × GLenum) :=
  let b := a.from c.colorBuffer.format
  if b.reject ≠ GL.noError then some (c, b.reject)
  else
    let level := a.level.toNat
    (createTextureSurface c level b.format b.type a.width a.height out).bind fun r =>
      unlessError r fun c =>
        c.boundObject.map fun object =>
          let direct := matchesBuffer c object level 0 0 a.x a.y a.height
          let (c, error) := copyPixels c object level direct out
          -- an error of the copy does not end the call
          let (c, later) := generateMipmap c object level out
          (c, if error ≠ GL.noError then error else later)

def lodExtent (extent level : Nat) : Nat := if extent / 2 ^ level = 0 then 1 else extent / 2 ^ level

/-- The loop of `glCompressedTexImage2D` over the levels. -/
def uploadLevels (c : Context) (format type : GLenum) (width height : Nat) (out : Outcome) :
    List Nat → Option (Context × GLenum)
  | [] => some (c, GL.noError)
  | level :: levels =>
    (createTextureSurface c level format type (lodExtent width level) (lodExtent height level)
      out).bind fun r =>
      unlessError r fun c =>
        c.boundObject.bind fun object =>
          let c := c.setImage object ((c.images object).paint level (out.copy level))
          uploadLevels c format type width height out levels

def glCompressedTexImage2D (c : Context) (a : Units.CompressedTexImage) (out : Outcome) :
    Option (Context × GLenum) :=
  if a.reject ≠ GL.noError then some (c, a.reject)
  else if a.empty then some (c, GL.noError)
  else
    match paletteFormat a.internalformat with
    | none => some (c, GL.noError)
    | some (format, type) =>
      uploadLevels c format type a.width.toNat a.height.toNat out (List.range a.numLevels)

/-- The arguments of `glTexSubImage2D`. -/
structure TexSubImage where
  target : GLenum
  level : Int
  xoffset : Int
  yoffset : Int
  width : Int
  height : Int
  format : GLenum
  type : GLenum

/-- The checks of `glTexSubImage2D` on its arguments. -/
def TexSubImage.reject (a : TexSubImage) : GLenum :=
  if a.target ≠ GL.texture2D then GL.invalidEnum
  else if a.xoffset < 0 ∨ a.yoffset < 0 ∨ a.width < 0 ∨ a.height < 0 ∨ a.level < 0 then
    GL.invalidValue
  else validFormatType a.format a.type

def TexSubImage.refuse (a : TexSubImage) (o : Units.TextureObject) (surface : GGLSurface) :
    GLenum :=
  if o.internalformat = 0 ∨ o.direct ≠ 0 then GL.invalidOperation
  else if a.format ≠ o.internalformat then GL.invalidOperation
  else if (surface.width : Int) < wrap32 (a.xoffset + a.width) ∨
      (surface.height : Int) < wrap32 (a.yoffset + a.height) then GL.invalidValue
  else GL.noError

def TexSubImage.matching (a : TexSubImage) (c : Context) (object : ObjectId) : Bool :=
  let formatIdx := convertGLPixelFormat a.format a.type
  let user := (imageRequest c.unpackAlignment formatIdx a.width a.height).surface none
  samePixels ((c.images object).storage.mip a.level.toNat) a.xoffset a.yoffset user 0 0

def glTexSubImage2D (c : Context) (a : TexSubImage) (out : Outcome) : Option (Context × GLenum) :=
  if a.reject ≠ GL.noError then some (c, a.reject)
  else
    let level := a.level.toNat
    c.boundObject.bind fun object =>
      let surface := (c.images object).storage.mip level
      let error := a.refuse (c.parameters object) surface
      if error ≠ GL.noError then some (c, error)
      else if a.width = 0 ∨ a.height = 0 then some (c, GL.noError)
      else if convertGLPixelFormat a.format a.type = 0 then some (c, GL.invalidOperation)
      else
        unlessError (copyPixels c object level (a.matching c object) out) fun c =>
          some (generateMipmap c object level out)

/-- The arguments of `glCopyTexSubImage2D`. -/
structure CopyTexSubImage where
  target : GLenum
  level : Int
  xoffset : Int
  yoffset : Int
  x : Int
  y : Int
  width : Int
  height : Int

/-- The checks of `glCopyTexSubImage2D` on its arguments. -/
def CopyTexSubImage.reject (a : CopyTexSubImage) : GLenum :=
  if a.target ≠ GL.texture2D then GL.invalidEnum
  else if a.xoffset < 0 ∨ a.yoffset < 0 ∨ a.width < 0 ∨ a.height < 0 ∨ a.level < 0 then
    GL.invalidValue
  else GL.noError

def CopyTexSubImage.refuse (a : CopyTexSubImage) (o : Units.TextureObject)
    (surface : GGLSurface) : GLenum :=
  if o.internalformat = 0 then GL.invalidOperation
  else if (surface.width : Int) < wrap32 (a.xoffset + a.width) ∨
      (surface.height : Int) < wrap32 (a.yoffset + a.height) then GL.invalidValue
  else GL.noError

def CopyTexSubImage.matching (a : CopyTexSubImage) (c : Context) (object : ObjectId) : Bool :=
  matchesBuffer c object a.level.toNat a.xoffset a.yoffset a.x a.y a.height

def glCopyTexSubImage2D (c : Context) (a : CopyTexSubImage) (out : Outcome) :
    Option (Context × GLenum) :=
  if a.reject ≠ GL.noError then some (c, a.reject)
  else if a.width = 0 ∨ a.height = 0 then some (c, GL.noError)
  else
    let level := a.level.toNat
    c.boundObject.bind fun object =>
      let error := a.refuse (c.parameters object) ((c.images object).storage.mip level)
      if error ≠ GL.noError then some (c, error)
      else
        unlessError (copyPixels c object level (a.matching c object) out) fun c =>
          some (generateMipmap c object level out)

/-- `glPixelStorei`. The pack alignment is only read by `glReadPixels`. -/
def glPixelStorei (c : Context) (pname : GLenum) (param : Int) : Context :=
  if pname ≠ GL.packAlignment ∧ pname ≠ GL.unpackAlignment then c.record GL.invalidEnum
  else if param ∉ [1, 2, 4, 8] then c.record GL.invalidValue
  else if pname = GL.unpackAlignment then { c with unpackAlignment := param.toNat }
  else c

/-- `texParameterx` with `GL_GENERATE_MIPMAP`. -/
def texParameterGenerateMipmap (c : Context) (target : GLenum) (param : Int) : Option Context :=
  if target ≠ GL.texture2D ∧ target ≠ GL.textureExternalOes then some (c.record GL.invalidEnum)
  else
    (Units.unitIndex c.units.active).bind fun i =>
      (c.units.tmu i).texture.map fun object =>
        let o := (c.units.heap object).map fun o => { o with generateMipmap := param }
        let units := { c.units with heap := Function.update c.units.heap object o }
        { c with units := Units.invalidateTexture units i }

def oglesInitTexture : Option Context :=
  Units.oglesInitTexture.map fun units =>
    { units := units, images := fun _ => {}, unpackAlignment := 4, colorBuffer := {} }

end RabbitRender.Textures.Uploads
