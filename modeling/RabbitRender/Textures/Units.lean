/- RabbitRender/Textures/Units
   layer: model
   source: swrender/texture.cpp, swrender/TextureObjectManager.cpp
   digest: Texture units, the objects registered under their names, and the calls that rebind them. -/

import RabbitRender.GL
import RabbitRender.Tokens.TokenManager

set_option autoImplicit false

namespace RabbitRender.Textures.Units

open RabbitRender.GL (GLenum)
open Tokens Tokens.Tokenizer

/-- `GGL_TEXTURE_UNIT_COUNT`. -/
def textureUnitCount : Nat := 2

abbrev ObjectId := Nat

/-- `EGLTextureObject`, without its storage. -/
structure TextureObject where
  mCount : Int := 0
  wraps : GLenum := GL.repeatWrap
  wrapt : GLenum := GL.repeatWrap
  minFilter : GLenum := GL.linear
  magFilter : GLenum := GL.linear
  internalformat : GLenum := 0
  cropRect : Int × Int × Int × Int := (0, 0, 0, 0)
  generateMipmap : Int := 0
  direct : Int := 0
deriving DecidableEq, Repr

/-- `texture_unit_t`. -/
structure TextureUnit where
  name : UInt32
  texture : Option ObjectId
  dirty : UInt8
deriving DecidableEq, Repr

/-- The part of the context the texture calls read and write, with the surface manager and the
heap its objects live on. -/
structure Context where
  active : Nat
  tmu : Fin 2 → TextureUnit
  defaultTexture : ObjectId
  tokenizer : Ranges
  textures : UInt32 → Option ObjectId
  heap : ObjectId → Option TextureObject
  nextObject : ObjectId
  error : GLenum

def oglesError (c : Context) (error : GLenum) : Context :=
  { c with error := GL.firstError c.error error }

/-- `android_atomic_inc`: `*addr++` advances the pointer, and the counter stays. -/
def androidAtomicInc (counter : Int) : Int := counter

/-- `android_atomic_dec`: the counter it leaves and the value it returns. -/
def androidAtomicDec (counter : Int) : Int × Int := (counter, counter)

/-- `incStrong`; there is no result when the object does not exist. -/
def incStrong (c : Context) (object : ObjectId) : Option Context :=
  match c.heap object with
  | none => none
  | some o =>
    let held := { o with mCount := androidAtomicInc o.mCount }
    some { c with heap := Function.update c.heap object (some held) }

/-- `decStrong`: the last reference deletes the object. -/
def decStrong (c : Context) (object : ObjectId) : Option Context :=
  match c.heap object with
  | none => none
  | some o =>
    let (count, before) := androidAtomicDec o.mCount
    let left := if before = 1 then none else some { o with mCount := count }
    some { c with heap := Function.update c.heap object left }

/-- `new EGLTextureObject()`, with the parameters it is given right after. -/
def newObject (c : Context) (o : TextureObject) : Context × ObjectId :=
  ({ c with heap := Function.update c.heap c.nextObject (some o), nextObject := c.nextObject + 1 },
    c.nextObject)

/-- `copyParameters` into a new object. -/
def copyParameters (old : TextureObject) : TextureObject :=
  { wraps := old.wraps, wrapt := old.wrapt, minFilter := old.minFilter,
    magFilter := old.magFilter, cropRect := old.cropRect,
    generateMipmap := old.generateMipmap, direct := old.direct }

/-- `createTexture`, called for a name that is not registered. -/
def createTexture (c : Context) (name : UInt32) : Context × Option ObjectId :=
  match c.textures name with
  | some _ => (c, none)
  | none =>
    let (c, object) := newObject c {}
    ({ c with textures := Function.update c.textures name (some object) }, some object)

/-- `replaceTexture`: the object is kept only when nobody else refers to it. -/
def replaceTexture (c : Context) (name : UInt32) : Option (Context × Option ObjectId) :=
  match c.textures name with
  | none => some (c, none)
  | some old =>
    match c.heap old with
    | none => none
    | some o =>
      if o.mCount = 1 then some (c, some old)
      else
        let (c, object) := newObject c (copyParameters o)
        some ({ c with textures := Function.update c.textures name (some object) }, some object)

/-- `deleteTextures`. -/
def removeTextures (c : Context) (names : List UInt32) : Context :=
  { c with textures := fun name => if name ≠ 0 ∧ name ∈ names then none else c.textures name }

def unitIndex (i : Nat) : Option (Fin 2) := if h : i < textureUnitCount then some ⟨i, h⟩ else none

def invalidateTexture (c : Context) (i : Fin 2) : Context :=
  { c with tmu := Function.update c.tmu i { c.tmu i with dirty := 0xFF } }

def releaseUnit (c : Context) (i : Fin 2) : Option Context :=
  match (c.tmu i).texture with
  | none => some c
  | some object => decStrong c object

/-- Point a unit at an object and add the reference. A null object is dereferenced. -/
def attachUnit (c : Context) (i : Fin 2) (name : UInt32) (tex : Option ObjectId) :
    Option Context :=
  match tex with
  | none => none
  | some object =>
    (incStrong c object).map fun c =>
      { c with tmu := Function.update c.tmu i ⟨name, some object, 0xFF⟩ }

def bindTextureTmu (c : Context) (i : Fin 2) (texture : UInt32) (tex : Option ObjectId) :
    Option Context :=
  if tex = (c.tmu i).texture then some c
  else (releaseUnit c i).bind fun c => attachUnit c i texture tex

def invalidateDefault (c : Context) : Context :=
  (List.finRange 2).foldl (fun c i =>
    if (c.tmu i).texture = some c.defaultTexture then invalidateTexture c i else c) c

/-- `getAndBindActiveTextureObject`, with the object it returns. -/
def getAndBindActiveTextureObject (c : Context) : Option (Context × ObjectId) :=
  (unitIndex c.active).bind fun i =>
    let name := (c.tmu i).name
    (releaseUnit c i).bind fun c =>
      (if name = 0 then some (invalidateDefault c, some c.defaultTexture)
        else replaceTexture c name).bind fun (c, tex) =>
        tex.bind fun object => (attachUnit c i name tex).map fun c => (c, object)

/-- The formats of `gl2format_table`, `0` where there is none. -/
def convertGLPixelFormat (format type : GLenum) : Nat :=
  if type = GL.unsignedByte then
    if format = GL.alpha then 8 else if format = GL.rgb then 3 else if format = GL.rgba then 1
    else if format = GL.luminance then 9 else if format = GL.luminanceAlpha then 0xA else 0
  else if type = GL.unsignedShort565 then if format = GL.rgb then 4 else 0
  else if type = GL.unsignedShort4444 then if format = GL.rgba then 7 else 0
  else if type = GL.unsignedShort5551 then if format = GL.rgba then 6 else 0
  else 0

/-- `validFormatType`: the last error found wins. -/
def validFormatType (format type : GLenum) : GLenum :=
  if (type = GL.unsignedShort4444 ∨ type = GL.unsignedShort5551) ∧ format ≠ GL.rgba then
    GL.invalidOperation
  else if type = GL.unsignedShort565 ∧ format ≠ GL.rgb then GL.invalidOperation
  else if type ≠ GL.unsignedByte ∧ type ≠ GL.unsignedShort4444 ∧
      type ≠ GL.unsignedShort5551 ∧ type ≠ GL.unsignedShort565 then GL.invalidEnum
  else if format < GL.alpha ∨ GL.luminanceAlpha < format then GL.invalidEnum
  else GL.noError

structure Memory where
  /-- whether the storage of a level could be allocated -/
  surface : Nat → Bool
  /-- whether copying the pixels and building the mipmaps succeeded -/
  transfer : Bool

/-- `createTextureSurface`: the context and the error it returns. -/
def createTextureSurface (c : Context) (level : Nat) (format type : GLenum) (mem : Memory) :
    Option (Context × GLenum) :=
  if convertGLPixelFormat format type = 0 then some (c, GL.invalidOperation)
  else if 0 < level then
    -- `tmu[active].texture` is dereferenced
    ((unitIndex c.active).bind fun i => (c.tmu i).texture).map fun _ =>
      (c, if mem.surface level then GL.noError else GL.outOfMemory)
  else
    (getAndBindActiveTextureObject c).map fun (c, object) =>
      if mem.surface level then
        let image := (c.heap object).map fun o => { o with internalformat := format }
        ({ c with heap := Function.update c.heap object image }, GL.noError)
      else (c, GL.outOfMemory)

/-- Record the error of `createTextureSurface`, or go on with the pixels. -/
def finishUpload (mem : Memory) (r : Context × GLenum) : Context :=
  if r.2 ≠ GL.noError then oglesError r.1 r.2
  else if mem.transfer then r.1 else oglesError r.1 GL.outOfMemory

/-- The arguments of `glTexImage2D` that decide what it does. -/
structure TexImage where
  target : GLenum
  level : Int
  internalformat : GLenum
  width : Int
  height : Int
  border : Int
  format : GLenum
  type : GLenum

def TexImage.reject (a : TexImage) : GLenum :=
  if a.target ≠ GL.texture2D then GL.invalidEnum
  else if a.width < 0 ∨ a.height < 0 ∨ a.border ≠ 0 ∨ a.level < 0 then GL.invalidValue
  else if a.format ≠ a.internalformat then GL.invalidOperation
  else validFormatType a.format a.type

def glTexImage2D (c : Context) (a : TexImage) (mem : Memory) : Option Context :=
  if a.reject ≠ GL.noError then some (oglesError c a.reject)
  else (createTextureSurface c a.level.toNat a.format a.type mem).map (finishUpload mem)

/-- The arguments of `glCopyTexImage2D` that decide what it does, and the format of the colour
buffer it copies from. -/
structure CopyTexImage where
  target : GLenum
  level : Int
  internalformat : GLenum
  width : Int
  height : Int
  border : Int
  cbFormat : Nat

def CopyTexImage.type (a : CopyTexImage) : GLenum :=
  if a.internalformat = GL.alpha ∨ a.internalformat = GL.luminanceAlpha ∨
      a.internalformat = GL.luminance then GL.unsignedByte
  else if a.cbFormat = 4 then GL.unsignedShort565
  else if a.cbFormat = 6 then GL.unsignedShort5551
  else if a.cbFormat = 7 then GL.unsignedShort4444
  else GL.unsignedByte

def CopyTexImage.format (a : CopyTexImage) : GLenum :=
  if a.cbFormat ∈ [1, 8, 6, 7] then a.internalformat
  else if a.cbFormat ∈ [2, 3, 4, 9] ∧
      (a.internalformat = GL.luminance ∨ a.internalformat = GL.rgb) then a.internalformat
  else 0

def CopyTexImage.reject (a : CopyTexImage) : GLenum :=
  if a.target ≠ GL.texture2D then GL.invalidEnum
  else if a.internalformat < GL.alpha ∨ GL.luminanceAlpha < a.internalformat then GL.invalidEnum
  else if a.width < 0 ∨ a.height < 0 ∨ a.border ≠ 0 ∨ a.level < 0 then GL.invalidValue
  else if a.format = 0 then GL.invalidEnum
  else GL.noError

def glCopyTexImage2D (c : Context) (a : CopyTexImage) (mem : Memory) : Option Context :=
  if a.reject ≠ GL.noError then some (oglesError c a.reject)
  else (createTextureSurface c a.level.toNat a.format a.type mem).map (finishUpload mem)

/-- The arguments of `glCompressedTexImage2D` that decide what it does. `fits` says whether
`dataSizePalette4` stays within `imageSize`. -/
structure CompressedTexImage where
  target : GLenum
  level : Int
  internalformat : GLenum
  width : Int
  height : Int
  border : Int
  hasData : Bool
  fits : Bool

def paletteFormat (internalformat : GLenum) : Option (GLenum × GLenum) :=
  if internalformat = 0x8B95 ∨ internalformat = 0x8B90 then some (GL.rgb, GL.unsignedByte)
  else if internalformat = 0x8B96 ∨ internalformat = 0x8B91 then some (GL.rgba, GL.unsignedByte)
  else if internalformat = 0x8B97 ∨ internalformat = 0x8B92 then
    some (GL.rgb, GL.unsignedShort565)
  else if internalformat = 0x8B98 ∨ internalformat = 0x8B93 then
    some (GL.rgba, GL.unsignedShort4444)
  else if internalformat = 0x8B99 ∨ internalformat = 0x8B94 then
    some (GL.rgba, GL.unsignedShort5551)
  else none

def CompressedTexImage.reject (a : CompressedTexImage) : GLenum :=
  if a.target ≠ GL.texture2D then GL.invalidEnum
  else if a.width < 0 ∨ a.height < 0 ∨ a.border ≠ 0 then GL.invalidValue
  else if paletteFormat a.internalformat = none then GL.invalidEnum
  else if a.hasData = false ∨ a.width = 0 ∨ a.height = 0 then GL.noError
  else if a.fits then GL.noError else GL.invalidValue

def CompressedTexImage.empty (a : CompressedTexImage) : Prop :=
  a.hasData = false ∨ a.width = 0 ∨ a.height = 0

instance (a : CompressedTexImage) : Decidable a.empty :=
  inferInstanceAs (Decidable (_ ∨ _))

def uploadLevels (c : Context) (format type : GLenum) (mem : Memory) : List Nat → Option Context
  | [] => some c
  | level :: levels =>
    (createTextureSurface c level format type mem).bind fun r =>
      if r.2 ≠ GL.noError then some (oglesError r.1 r.2)
      else uploadLevels r.1 format type mem levels

def CompressedTexImage.numLevels (a : CompressedTexImage) : Nat :=
  if a.level < 0 then a.level.natAbs else 1

def glCompressedTexImage2D (c : Context) (a : CompressedTexImage) (mem : Memory) :
    Option Context :=
  if a.reject ≠ GL.noError then some (oglesError c a.reject)
  else if a.empty then some c
  else
    match paletteFormat a.internalformat with
    | none => some c
    | some (format, type) => uploadLevels c format type mem (List.range a.numLevels)

/-- `ogles_init_texture`, on the zeroed context. -/
def oglesInitTexture : Option Context :=
  let zeroed : Context :=
    { active := 0, tmu := fun _ => ⟨0, none, 0⟩, defaultTexture := 0, tokenizer := TokenManager.init,
      textures := fun _ => none, heap := fun _ => none, nextObject := 0, error := GL.noError }
  let (c, object) := newObject zeroed {}
  (incStrong { c with defaultTexture := object } object).bind fun c =>
    (bindTextureTmu c 0 0 (some object)).bind fun c => bindTextureTmu c 1 0 (some object)

/-- `texture - GL_TEXTURE0`, in 32 bits. -/
def unitOffset (texture : GLenum) : Nat := (texture + 2 ^ 32 - GL.texture0) % 2 ^ 32

def glActiveTexture (c : Context) (texture : GLenum) : Context :=
  -- the unit right after the last one passes this test
  if unitOffset texture > textureUnitCount then oglesError c GL.invalidEnum
  else { c with active := unitOffset texture }

def glBindTexture (c : Context) (target : GLenum) (texture : UInt32) : Option Context :=
  if target ≠ GL.texture2D ∧ target ≠ GL.textureExternalOes then
    some (oglesError c GL.invalidEnum)
  else
    let (c, tex) :=
      if texture = 0 then (c, some c.defaultTexture)
      else
        match c.textures texture with
        | some object => (c, some object)
        | none => createTexture c texture
    match tex with
    | none => some (oglesError c GL.outOfMemory)
    | some object => (unitIndex c.active).bind fun i => bindTextureTmu c i texture (some object)

/-- `glGenTextures`: the context and the names written. -/
def glGenTextures (c : Context) (n : Int) : Context × List UInt32 :=
  if n < 0 then (oglesError c GL.invalidValue, [])
  else
    let (tokenizer, names) := TokenManager.getToken n.toNat c.tokenizer
    ({ c with tokenizer := tokenizer }, names)

/-- The inner loop of `glDeleteTextures`, for one unit. -/
def unbindDeleted (i : Fin 2) : Context → List UInt32 → Option Context
  | c, [] => some c
  | c, name :: names =>
    if name ≠ 0 ∧ name = (c.tmu i).name then
      (bindTextureTmu c i 0 (some c.defaultTexture)).bind fun c => unbindDeleted i c names
    else unbindDeleted i c names

def unbindUnit (names : List UInt32) (c : Context) (i : Fin 2) : Option Context :=
  if (c.tmu i).name = 0 then some c else unbindDeleted i c names

/-- `glDeleteTextures`, with the `n` names of the array. -/
def glDeleteTextures (c : Context) (n : Int) (textures : List UInt32) : Option Context :=
  if n < 0 then some (oglesError c GL.invalidValue)
  else
    let names := textures.take n.toNat
    (unbindUnit names c 0).bind fun c => (unbindUnit names c 1).map fun c =>
      let c := removeTextures c names
      { c with tokenizer := TokenManager.recycleTokens c.tokenizer names }

end RabbitRender.Textures.Units
