/- RabbitRender/Arrays/VertexArrays
   layer: model
   source: swrender/array.cpp, include/gl_context.h, include/ggl_fixed.h
   digest: The vertex array in memory, its fetchers, and the two compilers of its elements. -/

import RabbitRender.Arrays.Compile
import RabbitRender.Lib.ByteMemory

set_option autoImplicit false

namespace RabbitRender.Arrays.VertexArrays

open Arrays.Compile
open Fixed (wrap32)
open Lib.ByteMemory (Memory load load_congr)
open Vertices

/-- `GL_BYTE`, `GL_SHORT`, `GL_FLOAT` and `GL_FIXED`, which `glVertexPointer` takes. -/
inductive ArrayType where
  | byte
  | short
  | float
  | fixed
deriving DecidableEq, Repr

def ArrayType.bytes : ArrayType → Nat
  | byte => 1
  | short => 2
  | float => 4
  | fixed => 4

def count : Components → Nat
  | .two => 2
  | .three => 3
  | .four => 4

/-- `array_t`; `bo` is the address of the data of the buffer object. -/
structure VertexArray where
  enable : Bool
  size : Components
  type : ArrayType
  stride : Nat
  pointer : Int
  bo : Option Int

namespace VertexArray

/-- `array_t::init`: a stride of 0 stands for packed elements. -/
def init (a : VertexArray) (size : Components) (type : ArrayType) (stride : Nat) (pointer : Int)
    (bo : Option Int) : VertexArray :=
  let stride := if stride = 0 then count size * type.bytes else stride
  { a with size := size, type := type, stride := stride, pointer := pointer, bo := bo }

/-- `resolve` -/
def physicalPointer (a : VertexArray) : Int :=
  match a.bo with
  | some data => data + a.pointer
  | none => a.pointer

/-- `element`: the product is an `int`. -/
def element (a : VertexArray) (i : Nat) : Int := a.physicalPointer + wrap32 (i * a.stride)

/-- The test of `validate_arrays`; without it the fetcher is `fetchNop`. -/
def Ready (a : VertexArray) : Prop := a.enable = true ∧ (a.bo.isSome ∨ a.pointer ≠ 0)

instance (a : VertexArray) : Decidable a.Ready := inferInstanceAs (Decidable (_ ∧ _))

end VertexArray

/-- `fetch2b` to `fetch4f`. -/
structure Fetcher where
  size : Components
  type : ArrayType
deriving DecidableEq, Repr

/-- `vertex_fct`: the entry of two fixed-point components is `fetch3x`. -/
def vertexFct : Components → ArrayType → Fetcher
  | .two, .byte => ⟨.two, .byte⟩
  | .two, .short => ⟨.two, .short⟩
  | .two, .float => ⟨.two, .float⟩
  | .two, .fixed => ⟨.three, .fixed⟩
  | .three, .byte => ⟨.three, .byte⟩
  | .three, .short => ⟨.three, .short⟩
  | .three, .float => ⟨.three, .float⟩
  | .three, .fixed => ⟨.three, .fixed⟩
  | .four, .byte => ⟨.four, .byte⟩
  | .four, .short => ⟨.four, .short⟩
  | .four, .float => ⟨.four, .float⟩
  | .four, .fixed => ⟨.four, .fixed⟩

/-- A word of `bytes` bytes as a signed number. -/
def signed (bytes word : Nat) : Int := Int.bmod word (2 ^ (8 * bytes))

def gglIntToFixed (i : Int) : Int := wrap32 (i * 2 ^ 16)

section Fetch

variable (gglFloatToFixed : Nat → Int) (memory : Memory)

/-- The component at an address. A float is its word to `gglFloatToFixed`. -/
def component (type : ArrayType) (p : Int) : Int :=
  match type with
  | .byte => gglIntToFixed (signed 1 (load memory p 1))
  | .short => gglIntToFixed (signed 2 (load memory p 2))
  | .float => gglFloatToFixed (load memory p 4)
  | .fixed => signed 4 (load memory p 4)

namespace Fetcher

/-- The fetcher writes its components over `v`. -/
def fetch (f : Fetcher) (v : Vec4) (p : Int) : Vec4 :=
  let c (i : Nat) := component gglFloatToFixed memory f.type (p + (i * f.type.bytes : Nat))
  match f.size with
  | .two => { v with x := c 0, y := c 1 }
  | .three => { v with x := c 0, y := c 1, z := c 2 }
  | .four => ⟨c 0, c 1, c 2, c 3⟩

def reads (f : Fetcher) (p : Int) : List Int :=
  (List.range (count f.size * f.type.bytes)).map fun i => p + (i : Nat)

end Fetcher

/-- What the compilation of an element computes: the mask for `arrays.cull`, the vertex, the
coordinates given to the transform, and the bytes of the array that were read. -/
structure Compiled where
  mask : Flags
  vertex : Vertex
  coords : Vec4
  reads : List Int

variable (a : VertexArray) (p : Pipeline)

/-- `arrays.vertex.fetch` as `validate_arrays` picks it. -/
def fetchVertex (v : Vec4) (vp : Int) : Vec4 :=
  if a.Ready then (vertexFct a.size a.type).fetch gglFloatToFixed memory v vp else v

def readsVertex (vp : Int) : List Int := if a.Ready then (vertexFct a.size a.type).reads vp else []

def pipeline : Pipeline :=
  { p with
    components := a.size
    fetched := (vertexFct a.size a.type).size
    vertex := fun e =>
      (vertexFct a.size a.type).fetch gglFloatToFixed memory ⟨0, 0, 0, 0⟩ (a.element e) }

/-- The body of both compilers for the element at `vp`. -/
def compileAt (draw : Nat) (v : Vertex) (vp : Int) (element : Nat) (index : Int) : Compiled :=
  let q := pipeline gglFloatToFixed memory a p
  let obj := fetchVertex gglFloatToFixed memory a { v.obj with z := 0, w := 0x10000 } vp
  let clip := point q.mvp q.components obj
  let (mask, v) := q.divide
    { v with flags := 0, index := index, obj := obj, clip := clip, source := ⟨draw, element⟩ }
  ⟨mask, v, obj, readsVertex a vp⟩

/-- `compileElement__generic` -/
def compileElement (draw : Nat) (v : Vertex) (first : Int) : Compiled :=
  compileAt gglFloatToFixed memory a p draw v (a.element (elementOf first)) (elementOf first) first

/-- The loop of `compileElements__generic`: the address moves on by the stride. -/
def compileRun (draw : Nat) : List Vertex → (vp : Int) → (element : Nat) → (index : Int) →
    List Compiled
  | [], _, _, _ => []
  | v :: slots, vp, element, index =>
    compileAt gglFloatToFixed memory a p draw v vp element index ::
      compileRun draw slots (vp + a.stride) (element + 1) (index + 1)

/-- `compileElements__generic` into `slots`. -/
def compileElements (draw : Nat) (slots : List Vertex) (first : Int) : List Compiled :=
  compileRun gglFloatToFixed memory a p draw slots (a.element (elementOf first)) (elementOf first)
    first

end Fetch

end RabbitRender.Arrays.VertexArrays
