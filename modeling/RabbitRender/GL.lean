/- RabbitRender/GL
   layer: model
   source: include/gles/GLES/gl.h, swrender/state.cpp
   digest: The enumeration values the modelled calls compare with or record. -/

import RabbitRender.Literals

set_option autoImplicit false

namespace RabbitRender.GL

abbrev GLenum := Nat

def noError : GLenum := 0
def invalidEnum : GLenum := 0x0500
def invalidValue : GLenum := 0x0501
def invalidOperation : GLenum := 0x0502
def stackOverflow : GLenum := 0x0503
def stackUnderflow : GLenum := 0x0504
def outOfMemory : GLenum := 0x0505

def texture2D : GLenum := 0x0DE1
def textureExternalOes : GLenum := 0x8D65
def texture0 : GLenum := 0x84C0
def linear : GLenum := 0x2601
def repeatWrap : GLenum := 0x2901

def byte : GLenum := 0x1400
def unsignedByte : GLenum := 0x1401
def short : GLenum := 0x1402
def float : GLenum := 0x1406
def fixed : GLenum := 0x140C
def unsignedShort4444 : GLenum := 0x8033
def unsignedShort5551 : GLenum := 0x8034
def unsignedShort565 : GLenum := 0x8363

def alpha : GLenum := 0x1906
def rgb : GLenum := 0x1907
def rgba : GLenum := 0x1908
def luminance : GLenum := 0x1909
def luminanceAlpha : GLenum := 0x190A

def arrayBuffer : GLenum := 0x8892
def elementArrayBuffer : GLenum := 0x8893
def staticDraw : GLenum := 0x88E4
def dynamicDraw : GLenum := 0x88E8

def front : GLenum := 0x0404
def back : GLenum := 0x0405
def frontAndBack : GLenum := 0x0408
def cw : GLenum := 0x0900
def ccw : GLenum := 0x0901

def modelview : GLenum := 0x1700
def projection : GLenum := 0x1701
def texture : GLenum := 0x1702

def lighting : GLenum := 0x0B50
def lightModelTwoSide : GLenum := 0x0B52
def lightModelAmbient : GLenum := 0x0B53
def colorMaterial : GLenum := 0x0B57
def ambient : GLenum := 0x1200
def diffuse : GLenum := 0x1201
def specular : GLenum := 0x1202
def position : GLenum := 0x1203
def spotDirection : GLenum := 0x1204
def spotExponent : GLenum := 0x1205
def spotCutoff : GLenum := 0x1206
def constantAttenuation : GLenum := 0x1207
def linearAttenuation : GLenum := 0x1208
def quadraticAttenuation : GLenum := 0x1209
def emission : GLenum := 0x1600
def shininess : GLenum := 0x1601
def ambientAndDiffuse : GLenum := 0x1602
def light0 : GLenum := 0x4000

def flat : GLenum := 0x1D00
def smooth : GLenum := 0x1D01
def exp : GLenum := 0x0800
def exp2 : GLenum := 0x0801
def fogDensity : GLenum := 0x0B62
def fogStart : GLenum := 0x0B63
def fogEnd : GLenum := 0x0B64
def fogMode : GLenum := 0x0B65
def fogColor : GLenum := 0x0B66

def clipPlane0 : GLenum := 0x3000

def points : GLenum := 0x0000
def lineLoop : GLenum := 0x0002
def lines : GLenum := 0x0001
def lineStrip : GLenum := 0x0003
def triangleFan : GLenum := 0x0006

def pointSmooth : GLenum := 0x0B10
def lineSmooth : GLenum := 0x0B20
def polygonOffsetFill : GLenum := 0x8037
def cullFace : GLenum := 0x0B44
def normalize : GLenum := 0x0BA1
def rescaleNormal : GLenum := 0x803A
def multisample : GLenum := 0x809D
def sampleAlphaToCoverage : GLenum := 0x809E
def sampleAlphaToOne : GLenum := 0x809F
def sampleCoverage : GLenum := 0x80A0

def nearest : GLenum := 0x2600
def nearestMipmapNearest : GLenum := 0x2700
def linearMipmapNearest : GLenum := 0x2701
def nearestMipmapLinear : GLenum := 0x2702
def linearMipmapLinear : GLenum := 0x2703
def textureMagFilter : GLenum := 0x2800
def textureMinFilter : GLenum := 0x2801
def textureWrapS : GLenum := 0x2802
def textureWrapT : GLenum := 0x2803
def clampToEdge : GLenum := 0x812F
def generateMipmap : GLenum := 0x8191
def textureCropRectOes : GLenum := 0x8B9D
def unpackAlignment : GLenum := 0x0CF5
def packAlignment : GLenum := 0x0D05

/-- `ogles_error`: the first error is kept. -/
def firstError (recorded error : GLenum) : GLenum :=
  if recorded = noError then error else recorded

end RabbitRender.GL
