/- RabbitRender/Textures/ClientRows
   layer: model
   source: swrender/texture.cpp, libpixelflinger/buffer.cpp
   digest: The calls that move pixels from and to memory of the client, and the surface they take it for. -/

import RabbitRender.Textures.Uploads

set_option autoImplicit false

namespace RabbitRender.Textures.ClientRows

open RabbitRender.GL (GLenum)
open Textures.Levels Textures.Uploads
open Textures.Units (convertGLPixelFormat)

/-- The arguments of `glReadPixels`. -/
structure ReadPixels where
  x : Int
  y : Int
  width : Int
  height : Int
  format : GLenum
  type : GLenum

def ReadPixels.formatIdx (a : ReadPixels) : Nat :=
  if a.format = GL.rgba ∧ a.type = GL.unsignedByte then 1
  else if a.format = GL.rgb ∧ a.type = GL.unsignedShort565 then 4
  else 0

/-- The checks of `glReadPixels`. -/
def ReadPixels.reject (a : ReadPixels) (readSurface : GGLSurface) : GLenum :=
  if a.format ≠ GL.rgba ∧ a.format ≠ GL.rgb then GL.invalidEnum
  else if a.type ≠ GL.unsignedByte ∧ a.type ≠ GL.unsignedShort565 then GL.invalidEnum
  else if a.width < 0 ∨ a.height < 0 then GL.invalidValue
  else if a.x < 0 ∨ a.y < 0 then GL.invalidValue
  else if a.formatIdx = 0 then GL.invalidOperation
  else if (readSurface.width : Int) < a.x + a.width ∨ (readSurface.height : Int) < a.y + a.height then
    GL.invalidValue
  else GL.noError

def ReadPixels.userSurface (a : ReadPixels) (packAlignment : Nat) : GGLSurface :=
  let surface := (imageRequest packAlignment a.formatIdx a.width a.height).surface none
  { surface with stride := -surface.stride }

/-- `glReadPixels`: the error, or the surface that the pixels go to. -/
def glReadPixels (a : ReadPixels) (readSurface : GGLSurface) (packAlignment : Nat)
    (rasterizer : Bool) : Except GLenum GGLSurface :=
  if a.reject readSurface ≠ GL.noError then .error (a.reject readSurface)
  else if rasterizer then .ok (a.userSurface packAlignment)
  else .error GL.outOfMemory

inductive Transfer
  | texImage (a : TexImage)
  | texSubImage (a : TexSubImage) (texture : Units.TextureObject) (surface : GGLSurface)
  | readPixels (a : ReadPixels) (readSurface : GGLSurface)

namespace Transfer

def formatIdx : Transfer → Nat
  | texImage a => convertGLPixelFormat a.format a.type
  | texSubImage a _ _ => convertGLPixelFormat a.format a.type
  | readPixels a _ => a.formatIdx

def width : Transfer → Int
  | texImage a => a.width
  | texSubImage a _ _ => a.width
  | readPixels a _ => a.width

def height : Transfer → Int
  | texImage a => a.height
  | texSubImage a _ _ => a.height
  | readPixels a _ => a.height

def reject : Transfer → GLenum
  | texImage a =>
    if a.reject ≠ GL.noError then a.reject
    else if convertGLPixelFormat a.format a.type = 0 then GL.invalidOperation
    else GL.noError
  | texSubImage a texture surface =>
    if a.reject ≠ GL.noError then a.reject
    else if a.refuse texture surface ≠ GL.noError then a.refuse texture surface
    else if a.width = 0 ∨ a.height = 0 then GL.noError
    else if convertGLPixelFormat a.format a.type = 0 then GL.invalidOperation
    else GL.noError
  | readPixels a readSurface => a.reject readSurface

/-- `userSurface`, under the alignment that holds for the direction of the transfer. -/
def userSurface (t : Transfer) (alignment : Nat) : GGLSurface :=
  match t with
  | texImage a =>
    (imageRequest alignment (convertGLPixelFormat a.format a.type) a.width a.height).surface none
  | texSubImage a _ _ =>
    (imageRequest alignment (convertGLPixelFormat a.format a.type) a.width a.height).surface none
  | readPixels a _ => a.userSurface alignment

/-- `bpr / pixelFormat.size`. -/
def stride (t : Transfer) (alignment : Nat) : Int :=
  (imageRequest alignment t.formatIdx t.width t.height).stride

/-- The row of the user's surface that is row `y` of the client. -/
def surfaceRow (t : Transfer) (y : Int) : Int :=
  match t with
  | texImage _ => y
  | texSubImage _ _ _ => y
  | readPixels a _ => a.height - 1 - y

end Transfer

/-- Where a row of a surface begins, in memory without an end. With a negative stride the data of the
surface is moved to its last row, as `ggl_set_surface` does. -/
def rowStart (s : GGLSurface) (height row : Int) : Int :=
  let size : Int := pixelSize s.format
  (if s.stride < 0 then -s.stride * size * (height - 1) else 0) + row * (s.stride * size)

/-- The byte at which row `y` of the client is accessed. -/
def Transfer.clientRow (t : Transfer) (alignment : Nat) (y : Int) : Int :=
  rowStart (t.userSurface alignment) t.height (t.surfaceRow y)

end RabbitRender.Textures.ClientRows
