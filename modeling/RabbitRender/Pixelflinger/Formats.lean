/- RabbitRender/Pixelflinger/Formats
   layer: model
   source: include/pixelflinger.h, include/format.h, libpixelflinger/format.cpp
   digest: The enumeration values of the rasterizer and its table of pixel formats. -/

import RabbitRender.GL
import Mathlib.Data.Fin.VecNotation

set_option autoImplicit false

namespace RabbitRender.Pixelflinger

open RabbitRender.GL (GLenum)

namespace GGL

def scissorTest : GLenum := 0x0C11
def texture2D : GLenum := 0x0DE1
def alphaTest : GLenum := 0x0BC0
def blend : GLenum := 0x0BE2
def colorLogicOp : GLenum := 0x0BF2
def dither : GLenum := 0x0BD0
def stencilTest : GLenum := 0x0B90
def depthTest : GLenum := 0x0B71
def aa : GLenum := 0x80000001
def wLerp : GLenum := 0x80000004
def pointSmoothNice : GLenum := 0x80000005
def fog : GLenum := 0x0B60

def flat : GLenum := 0x1D00
def smooth : GLenum := 0x1D01

def textureMinFilter : GLenum := 0x2801
def textureMagFilter : GLenum := 0x2800
def textureWrapS : GLenum := 0x2802
def textureWrapT : GLenum := 0x2803
def nearest : GLenum := 0x2600
def linear : GLenum := 0x2601
def nearestMipmapNearest : GLenum := 0x2700
def linearMipmapNearest : GLenum := 0x2701
def nearestMipmapLinear : GLenum := 0x2702
def linearMipmapLinear : GLenum := 0x2703
def clamp : GLenum := 0x2900
def repeatWrap : GLenum := 0x2901
def clampToEdge : GLenum := 0x812F

def replace : GLenum := 0x1E01
def modulate : GLenum := 0x2100
def decal : GLenum := 0x2101
def blendEnv : GLenum := 0x0BE2
def add : GLenum := 0x0104
def textureEnvMode : GLenum := 0x2200
def textureEnvColor : GLenum := 0x2201
def textureEnv : GLenum := 0x2300

def textureGenMode : GLenum := 0x2500
def s : GLenum := 0x2000
def t : GLenum := 0x2001
def oneToOne : GLenum := 0x80000002
def automatic : GLenum := 0x80000003

def never : GLenum := 0x0200
def less : GLenum := 0x0201
def equal : GLenum := 0x0202
def lequal : GLenum := 0x0203
def greater : GLenum := 0x0204
def notequal : GLenum := 0x0205
def gequal : GLenum := 0x0206
def always : GLenum := 0x0207

def clear : GLenum := 0x1500
def and : GLenum := 0x1501
def andReverse : GLenum := 0x1502
def copy : GLenum := 0x1503
def andInverted : GLenum := 0x1504
def noop : GLenum := 0x1505
def xor : GLenum := 0x1506
def or : GLenum := 0x1507
def nor : GLenum := 0x1508
def equiv : GLenum := 0x1509
def invert : GLenum := 0x150A
def orReverse : GLenum := 0x150B
def copyInverted : GLenum := 0x150C
def orInverted : GLenum := 0x150D
def nand : GLenum := 0x150E
def set : GLenum := 0x150F

def zero : GLenum := 0
def one : GLenum := 1
def srcColor : GLenum := 0x0300
def oneMinusSrcColor : GLenum := 0x0301
def srcAlpha : GLenum := 0x0302
def oneMinusSrcAlpha : GLenum := 0x0303
def dstAlpha : GLenum := 0x0304
def oneMinusDstAlpha : GLenum := 0x0305
def dstColor : GLenum := 0x0306
def oneMinusDstColor : GLenum := 0x0307
def srcAlphaSaturate : GLenum := 0x0308

def stencilIndex : GLenum := 0x1901
def depthComponent : GLenum := 0x1902
def alpha : GLenum := 0x1906
def rgb : GLenum := 0x1907
def rgba : GLenum := 0x1908
def luminance : GLenum := 0x1909
def luminanceAlpha : GLenum := 0x190A

end GGL

abbrev Component := Fin 4

/-- A component occupies the bits from `l` up to `h`, not included. -/
structure BitRange where
  h : Nat
  l : Nat
deriving DecidableEq, Repr

structure GGLFormat where
  size : Nat
  bitsPerPixel : Nat
  c : Component → BitRange
  components : GLenum

abbrev Format := Fin 34

namespace Format

def none : Format := 0
def rgba8888 : Format := 1
def rgbx8888 : Format := 2
def rgb565 : Format := 4
def a8 : Format := 8
def l8 : Format := 9
def z16 : Format := 0x18
def sz24 : Format := 0x1A

end Format

private def entry (size bitsPerPixel : Nat) (alpha red green blue : BitRange)
    (components : GLenum) : GGLFormat :=
  ⟨size, bitsPerPixel, ![alpha, red, green, blue], components⟩

/-- `gPixelFormatInfos`. -/
def formats : Format → GGLFormat
  | 1 => entry 4 32 ⟨32, 24⟩ ⟨8, 0⟩ ⟨16, 8⟩ ⟨24, 16⟩ GGL.rgba
  | 2 => entry 4 24 ⟨0, 0⟩ ⟨8, 0⟩ ⟨16, 8⟩ ⟨24, 16⟩ GGL.rgb
  | 3 => entry 3 24 ⟨0, 0⟩ ⟨8, 0⟩ ⟨16, 8⟩ ⟨24, 16⟩ GGL.rgb
  | 4 => entry 2 16 ⟨0, 0⟩ ⟨16, 11⟩ ⟨11, 5⟩ ⟨5, 0⟩ GGL.rgb
  | 5 => entry 4 32 ⟨32, 24⟩ ⟨24, 16⟩ ⟨16, 8⟩ ⟨8, 0⟩ GGL.rgba
  | 6 => entry 2 16 ⟨1, 0⟩ ⟨16, 11⟩ ⟨11, 6⟩ ⟨6, 1⟩ GGL.rgba
  | 7 => entry 2 16 ⟨4, 0⟩ ⟨16, 12⟩ ⟨12, 8⟩ ⟨8, 4⟩ GGL.rgba
  | 8 => entry 1 8 ⟨8, 0⟩ ⟨0, 0⟩ ⟨0, 0⟩ ⟨0, 0⟩ GGL.alpha
  | 9 => entry 1 8 ⟨0, 0⟩ ⟨8, 0⟩ ⟨8, 0⟩ ⟨8, 0⟩ GGL.luminance
  | 10 => entry 2 16 ⟨16, 8⟩ ⟨8, 0⟩ ⟨8, 0⟩ ⟨8, 0⟩ GGL.luminanceAlpha
  | 11 => entry 1 8 ⟨0, 0⟩ ⟨8, 5⟩ ⟨5, 2⟩ ⟨2, 0⟩ GGL.rgb
  | 24 => entry 2 16 ⟨0, 0⟩ ⟨16, 0⟩ ⟨0, 0⟩ ⟨0, 0⟩ GGL.depthComponent
  | 25 => entry 1 8 ⟨8, 0⟩ ⟨0, 0⟩ ⟨0, 0⟩ ⟨0, 0⟩ GGL.stencilIndex
  | 26 => entry 4 24 ⟨0, 0⟩ ⟨24, 0⟩ ⟨0, 0⟩ ⟨0, 0⟩ GGL.depthComponent
  | 27 => entry 4 8 ⟨32, 24⟩ ⟨0, 0⟩ ⟨0, 0⟩ ⟨0, 0⟩ GGL.stencilIndex
  | _ => entry 0 0 ⟨0, 0⟩ ⟨0, 0⟩ ⟨0, 0⟩ ⟨0, 0⟩ 0

end RabbitRender.Pixelflinger
