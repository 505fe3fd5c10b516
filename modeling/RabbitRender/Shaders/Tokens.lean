/- RabbitRender/Shaders/Tokens
   layer: model
   source: compiler/shader/Shader.cpp, compiler/shader/VertexShader.cpp, compiler/shader/PixelShader.cpp
   digest: Shader token streams: how they are validated, and how they are parsed into instructions. -/

import Mathlib.Tactic.Common

set_option autoImplicit false

namespace RabbitRender.Shaders.Tokens

abbrev Token := BitVec 32

/-- The memory behind the token pointer; nothing is said about what stands after the END token. -/
abbrev Stream := Nat → Token

def opcodeLoop : Token := 27
def opcodeDcl : Token := 31
def opcodeRep : Token := 38
def opcodeIf : Token := 40
def opcodeIfc : Token := 41
def opcodeBreakc : Token := 45
def opcodeMova : Token := 46
def opcodeDefb : Token := 47
def opcodeDefi : Token := 48
def opcodeTexcoord : Token := 64
def opcodeTex : Token := 66
def opcodeReserved0 : Token := 75
def opcodeDef : Token := 81
def opcodeBreakp : Token := 96
def opcodePhase : Token := 0xFFFD
def opcodeComment : Token := 0xFFFE
def opcodeEnd : Token := 0xFFFF

/-- `OPCODE_PS_1_0` to `OPCODE_VS_3_sw`. -/
def versionTokens : List Token :=
  [0xFFFF0100, 0xFFFF0101, 0xFFFF0102, 0xFFFF0103, 0xFFFF0104, 0xFFFF0200, 0xFFFF0201, 0xFFFF0300,
    0xFFFE0100, 0xFFFE0101, 0xFFFE0200, 0xFFFE0201, 0xFFFE02FF, 0xFFFE0300, 0xFFFE03FF]

/-- The texture operations `VertexShader::validate` refuses, TEXCOORD to TEXLDD. -/
def vertexUnsupported : List Token :=
  [64, 65, 66, 67, 68, 69, 70, 71, 72, 73, 74, 75, 76, 77, 82, 83, 84, 85, 86, 87, 88, 89, 90, 91, 92,
    93]

def pixelUnsupported : List Token := [opcodeReserved0, opcodeMova]

/-- `token & 0x0000FFFF`. -/
def low (token : Token) : Token := token &&& 0x0000FFFF

def isComment (token : Token) : Bool := low token = opcodeComment

def commentLength (token : Token) : Nat := ((token &&& 0x7FFF0000) >>> 16).toNat

def majorVersion (version : Token) : Nat := ((version &&& 0x0000FF00) >>> 8).toNat
def shaderType (version : Token) : Nat := ((version &&& 0xFFFF0000) >>> 16).toNat

def shaderModel (version : Token) : Nat := (low version).toNat

def shaderPixel : Nat := 0xFFFF
def shaderVertex : Nat := 0xFFFE

/-- `ASSERT`: where assertions are compiled in, a false expression ends the program. -/
def ASSERT (asserts expression : Bool) : Option Unit :=
  if asserts && !expression then none else some ()

/-- The table of `Shader::size`. -/
def sizeTable : List Int :=
  [0, 2, 3, 3, 4, 3, 2, 2, 3, 3, 3, 3, 3, 3, 2, 2, 2, 3, 4, 2, 3, 3, 3, 3, 3, 1, 2, 2, 0, 0, 1, 2,
    3, 3, 4, 2, 2, 4, 1, 0, 1, 2, 0, 0, 0, 2, 2, 2, 5] ++ List.replicate 15 (-1) ++
  [1, 1, 1, 2, 2, 2, 2, 2, 2, 2, 2, -1, 3, 2, 2, 2, 4, 5, 2, 2, 2, 2, 2, 1, 4, 3, 4, 2, 2, 5, 3, 3,
    2] ++ List.replicate 16 (-1)

/-- `length` before the adjustment for shader model 1.4. -/
def tableSize (opcode : Token) (model : Nat) : Option Int :=
  if opcode ∈ versionTokens ∨ opcode = opcodePhase ∨ opcode = opcodeEnd then some 0
  else if 0x0200 ≤ model then some (((opcode &&& 0x0F000000) >>> 24).toNat : Int)
  -- a read past the end of the table has no value
  else sizeTable[(low opcode).toNat]?

/-- `Shader::size`. -/
def size (asserts : Bool) (opcode : Token) (model : Nat) : Option Int := do
  ASSERT asserts (model ≤ 0x0300)
  if isComment opcode then return commentLength opcode
  let length ← tableSize opcode model
  ASSERT asserts (0 ≤ length)
  if model = 0x0104 ∧ (low opcode = opcodeTex ∨ low opcode = opcodeTexcoord) then
    return length + 1
  return length

/-- The loop of both `validate` functions: `i` is the next token and `count` is
`instructionCount`. -/
def validateLoop (asserts : Bool) (unsupported : List Token) (token : Stream) :
    Nat → Nat → Nat → Option Nat
  | 0, _, _ => none
  | fuel + 1, i, count =>
    if token i = opcodeEnd then some count
    else if isComment (token i) then
      validateLoop asserts unsupported token fuel (i + commentLength (token i) + 1) count
    else if low (token i) ∈ unsupported then some 0
    else do
      let length ← size asserts (token i) (shaderModel (token 0))
      validateLoop asserts unsupported token fuel (i + length + 1).toNat (count + 1)

/-- `VertexShader::validate` and `PixelShader::validate` of a token pointer that is not null. -/
def validateAs (type : Nat) (unsupported : List Token) (asserts : Bool) (token : Stream)
    (fuel : Nat) : Option Nat :=
  if shaderType (token 0) ≠ type ∨ 3 < majorVersion (token 0) then some 0
  else validateLoop asserts unsupported token fuel 0 1

namespace VertexShader

def validate : Bool → Stream → Nat → Option Nat := validateAs shaderVertex vertexUnsupported

end VertexShader

namespace PixelShader

def validate : Bool → Stream → Nat → Option Nat := validateAs shaderPixel pixelUnsupported

end PixelShader

/-- The choice of `Shader::parse` between the two, by the version token. -/
def validate (asserts : Bool) (token : Stream) (fuel : Nat) : Option Nat :=
  if shaderType (token 0) = shaderVertex then VertexShader.validate asserts token fuel
  else if shaderType (token 0) = shaderPixel then PixelShader.validate asserts token fuel
  else do
    ASSERT asserts false
    return 0

/-- A `ParameterType`, as it is cast from the bits of a token. -/
abbrev ParameterType := Nat

def parameterAddr : ParameterType := 3
def parameterFloat4Literal : ParameterType := 20
def parameterBool1Literal : ParameterType := 21
def parameterInt4Literal : ParameterType := 22
def parameterVoid : ParameterType := 23

def modifierNot : Nat := 13

structure Relative where
  type : ParameterType
  swizzle : Nat
  scale : Nat

structure DestinationParameter where
  index : Nat
  type : ParameterType
  rel : Relative
  mask : Nat
  saturate : Bool
  partialPrecision : Bool
  centroid : Bool
  shift : Int

/-- One entry of `src`; `literal` holds the members `value`, `integer` and `boolean`. -/
structure SourceParameter where
  index : Nat
  type : ParameterType
  modifier : Nat
  swizzle : Nat
  rel : Relative
  literal : Nat → Token

structure Instruction where
  opcode : Token
  control : Nat
  predicate : Bool
  predicateNot : Bool
  predicateSwizzle : Nat
  coissue : Bool
  samplerType : Nat
  usage : Nat
  usageIndex : Nat
  dst : DestinationParameter
  /-- The array of five, and what stands after it. -/
  src : Nat → SourceParameter

/-- Where a source operand is stored: an entry of `src`, or a literal component of `src[0]`. -/
inductive Place where
  | source (i : Nat)
  | literal (component : Nat)
deriving DecidableEq, Repr

/-- The place is one of `src[0]` to `src[4]`, or one of the four literal components. -/
def Place.Inside : Place → Prop
  | .source i => i ≤ 4
  | .literal component => component ≤ 3

instance : DecidablePred Place.Inside
  | .source _ => inferInstanceAs (Decidable (_ ≤ _))
  | .literal _ => inferInstanceAs (Decidable (_ ≤ _))

/-- The constructor at work: `token` and `size` as it moves them, and a record of the tokens it has
read and of the places it has filled. -/
structure Parsing where
  inst : Instruction
  token : Nat
  size : Int
  reads : List Nat
  fills : List Place

def noRelative : Relative := ⟨parameterVoid, 0, 1⟩
def noDestination : DestinationParameter := ⟨0, parameterVoid, noRelative, 0xF, false, false, false, 0⟩
def noSource : SourceParameter := ⟨0, parameterVoid, 0, 0xE4, noRelative, fun _ => 0⟩
def blank : Instruction :=
  ⟨0, 0, false, false, 0, false, 0, 0, 0, noDestination, fun _ => noSource⟩

def parameterType (token : Token) : ParameterType :=
  (((token &&& 0x00001800) >>> 8) ||| ((token &&& 0x70000000) >>> 28)).toNat

def field (token mask : Token) (shift : Nat) : Nat := ((token &&& mask) >>> shift).toNat

def flag (token mask : Token) : Bool := token &&& mask ≠ 0

def isVersion (token : Token) : Bool :=
  token &&& 0xFFFF0000 = 0xFFFF0000 ∨ token &&& 0xFFFF0000 = 0xFFFE0000

section Constructor

variable (asserts : Bool) (token : Stream) (major : Nat)

/-- What `parseOperationToken` asserts of the token. -/
def operationAllowed (word : Token) : Bool :=
  isVersion word ∨
    (major < 2 → field word 0x0F000000 24 = 0) ∧ (major < 2 → ¬ flag word 0x10000000) ∧
      ¬ flag word 0x20000000 ∧ (2 ≤ major → ¬ flag word 0x40000000) ∧ ¬ flag word 0x80000000

def parseOperationToken (word : Token) (inst : Instruction) : Option Instruction := do
  ASSERT asserts (operationAllowed major word)
  if isVersion word then
    return { inst with opcode := word, control := 0, predicate := false, coissue := false }
  else
    return { inst with opcode := low word, control := field word 0x00FF0000 16,
                       predicate := flag word 0x10000000, coissue := flag word 0x40000000 }

def parseDeclarationToken (word : Token) (inst : Instruction) : Instruction :=
  { inst with samplerType := field word 0x78000000 27, usage := field word 0x0000001F 0,
              usageIndex := field word 0x000F0000 16 }

def relative (word : Token) : Bool := flag word 0x00002000

/-- What `parseDestinationToken` asserts of the token. -/
def destinationAllowed (word : Token) : Bool :=
  (relative word → 3 ≤ major) ∧ ¬ flag word 0x0000C000 ∧
    (2 ≤ major → field word 0x0F000000 24 = 0) ∧ flag word 0x80000000

def parseDestinationToken (position : Nat) (p : Parsing) : Option Parsing := do
  let word := token position
  ASSERT asserts (destinationAllowed major word)
  let next := relative word ∧ 3 ≤ major
  let rel : Relative :=
    if next then ⟨parameterType (token (position + 1)), field (token (position + 1)) 0x00FF0000 16, 1⟩
    else ⟨if relative word then parameterAddr else parameterVoid, 0, 1⟩
  return { p with
    inst.dst := {
      index := field word 0x000007FF 0, type := parameterType word, rel := rel,
      mask := field word 0x000F0000 16, saturate := flag word 0x00100000,
      partialPrecision := flag word 0x00200000, centroid := flag word 0x00400000,
      shift := (word.extractLsb' 24 4).toInt }
    reads := if next then (position + 1) :: position :: p.reads else position :: p.reads }

/-- What `parseSourceToken` asserts of a token that is not a literal. -/
def sourceAllowed (word : Token) : Bool := ¬ flag word 0x0000C000 ∧ flag word 0x80000000

/-- A literal operand: its type, and the component of `src[0]` it goes to. -/
def literalOf (opcode : Token) (i : Nat) : Option (ParameterType × Nat) :=
  if opcode = opcodeDef then some (parameterFloat4Literal, i)
  else if opcode = opcodeDefb then some (parameterBool1Literal, 0)
  else if opcode = opcodeDefi then some (parameterInt4Literal, i)
  else none

def parseSourceToken (i : Nat) (position : Nat) (p : Parsing) : Option Parsing :=
  let word := token position
  let src := Function.update p.inst.src i { noSource with literal := (p.inst.src i).literal }
  match literalOf p.inst.opcode i with
  | some (type, component) =>
    -- the literal shares its memory with the index and the relative fields of `src[0]` only
    some { p with
      inst.src := Function.update src 0 { src 0 with
        type := type, literal := Function.update (src 0).literal component word }
      reads := position :: p.reads
      fills := .literal component :: .source i :: p.fills }
  | none => do
    ASSERT asserts (sourceAllowed word)
    let next := relative word ∧ 2 ≤ major
    let rel : Relative :=
      if next then ⟨parameterType (token (position + 1)), field (token (position + 1)) 0x00FF0000 16, 1⟩
      else ⟨if relative word then parameterAddr else parameterVoid, 0, 1⟩
    return { p with
      inst.src := Function.update src i { src i with
        index := field word 0x000007FF 0, type := parameterType word, rel := rel,
        swizzle := field word 0x00FF0000 16, modifier := field word 0x0F000000 24 }
      reads := if next then (position + 1) :: position :: p.reads else position :: p.reads
      fills := .source i :: p.fills }

/-- `token++` and `size--`, `n` times. -/
def Parsing.advance (p : Parsing) (n : Nat) : Parsing :=
  { p with token := p.token + n, size := p.size - n }

/-- The loop over the source operands; it ends, since every turn takes a token off `size`. -/
def parseSources : Nat → Nat → Parsing → Option Parsing
  | 0, _, p => some p
  | fuel + 1, i, p =>
    if 0 < p.size then do
      let q ← parseSourceToken asserts token major i p.token p
      let skip := (q.inst.src i).rel.type ≠ parameterVoid ∧ 2 ≤ major
      parseSources fuel (i + 1) (q.advance (if skip then 2 else 1))
    else some p

/-- `if(size > i) parseSourceToken(i, token++, majorVersion)`, after `i` such lines. -/
def parseBareSource (i : Nat) (p : Parsing) : Option Parsing :=
  if (i : Int) < p.size then parseSourceToken asserts token major i (p.token + i) p else some p

/-- The operands of the opcodes without a destination: at most three sources. -/
def parseBare (p : Parsing) : Option Parsing := do
  let p ← parseBareSource asserts token major 0 p
  let p ← parseBareSource asserts token major 1 p
  let p ← parseBareSource asserts token major 2 p
  ASSERT asserts (p.size ≤ 3)
  return p

def parseDeclaration (p : Parsing) : Option Parsing :=
  parseDestinationToken asserts token major (p.token + 1)
    { p with inst := parseDeclarationToken (token p.token) p.inst, reads := p.token :: p.reads }

def parseDestination (p : Parsing) : Option Parsing :=
  if 0 < p.size then do
    let q ← parseDestinationToken asserts token major p.token p
    let skip := q.inst.dst.rel.type ≠ parameterVoid ∧ 3 ≤ major
    return q.advance (if skip then 2 else 1)
  else some p

def parsePredicate (p : Parsing) : Option Parsing :=
  if p.inst.predicate then do
    ASSERT asserts (p.size ≠ 0)
    return { p with
      inst.predicateNot := field (token p.token) 0x0F000000 24 = modifierNot
      inst.predicateSwizzle := field (token p.token) 0x00FF0000 16
      reads := p.token :: p.reads }.advance 1
  else some p

def noDestinationOpcodes : List Token :=
  [opcodeIf, opcodeIfc, opcodeLoop, opcodeRep, opcodeBreakc, opcodeBreakp]

/-- `Instruction::Instruction` of the token at `start`, with `size` operand tokens. -/
def construct (start : Nat) (size : Int) : Option Parsing := do
  let inst ← parseOperationToken asserts major (token start) blank
  let p : Parsing := ⟨{ inst with samplerType := 0, usage := 0, usageIndex := 0 }, start + 1, size,
    [start], []⟩
  if inst.opcode ∈ noDestinationOpcodes then parseBare asserts token major p
  else if inst.opcode = opcodeDcl then parseDeclaration asserts token major p
  else do
    let p ← parseDestination asserts token major p
    let p ← parsePredicate asserts token p
    parseSources asserts token major p.size.toNat 0 p

end Constructor

/-- An instruction of the parsed shader: where its token stands, `tokenCount`, and what its
constructor did. -/
structure Built where
  start : Nat
  tokenCount : Int
  parsing : Parsing

def skipComments (token : Stream) : Nat → Nat → Option Nat
  | 0, _ => none
  | fuel + 1, i =>
    if isComment (token i) then skipComments token fuel (i + commentLength (token i) + 1) else some i

/-- The loop of `Shader::parse`: the instructions still to be built, from the token `i` on. -/
def parseLoop (asserts : Bool) (token : Stream) (fuel : Nat) : Nat → Nat → Option (List Built)
  | 0, _ => some []
  | length + 1, i => do
    let start ← skipComments token fuel i
    let tokenCount ← size asserts (token start) (shaderModel (token 0))
    let parsing ← construct asserts token (majorVersion (token 0)) start tokenCount
    let rest ← parseLoop asserts token fuel length (start + 1 + tokenCount).toNat
    return ⟨start, tokenCount, parsing⟩ :: rest

/-- `Shader::parse`. -/
def parse (asserts : Bool) (token : Stream) (fuel : Nat) : Option (List Built) := do
  let length ← validate asserts token fuel
  ASSERT asserts (length ≠ 0)
  parseLoop asserts token fuel length 0

end RabbitRender.Shaders.Tokens
