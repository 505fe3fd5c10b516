/- RabbitRender/Shaders/TokenBounds
   layer: result
   source: compiler/shader/Shader.cpp, compiler/shader/VertexShader.cpp, compiler/shader/PixelShader.cpp
   digest: Parsing follows the token boundaries of validation; which instructions stay within their tokens. -/

import RabbitRender.Shaders.Tokens

set_option autoImplicit false

namespace RabbitRender.Shaders.TokenBounds

open Shaders.Tokens

variable {asserts : Bool} {token : Stream} {major : Nat}

@[simp] theorem ASSERT_bind {α : Type} (asserts expression : Bool) (f : Unit → Option α) :
    (ASSERT asserts expression >>= f) =
      if asserts = true → expression = true then f () else none := by
  cases asserts <;> cases expression <;> rfl

/-- The operand token is followed by an address token: its relative bit is set, and the shader's
major version is at least `floor`. -/
def Addressed (major floor : Nat) (word : Token) : Prop := relative word = true ∧ floor ≤ major

instance (major floor : Nat) (word : Token) : Decidable (Addressed major floor word) :=
  inferInstanceAs (Decidable (_ ∧ _))

def operandLength (token : Stream) (major floor position : Nat) : Nat :=
  if Addressed major floor (token position) ∧ parameterType (token (position + 1)) ≠ parameterVoid
  then 2 else 1

def operandReads (token : Stream) (major floor position : Nat) : List Nat :=
  if Addressed major floor (token position) then [position + 1, position] else [position]

private theorem operandLength_cases (token : Stream) (major floor position : Nat) :
    operandLength token major floor position = 1 ∨ operandLength token major floor position = 2 := by
  unfold operandLength
  split_ifs <;> simp

private theorem rel_skips (floor position : Nat) :
    ((if relative (token position) = true ∧ floor ≤ major then
        (⟨parameterType (token (position + 1)), field (token (position + 1)) 0x00FF0000 16, 1⟩ :
          Relative)
      else ⟨if relative (token position) = true then parameterAddr else parameterVoid, 0, 1⟩).type ≠
        parameterVoid ∧ floor ≤ major) ↔ operandLength token major floor position = 2 := by
  unfold operandLength Addressed
  by_cases bit : relative (token position) = true <;> by_cases newer : floor ≤ major <;>
    by_cases void : parameterType (token (position + 1)) = parameterVoid <;>
    simp [bit, newer, void, parameterAddr, parameterVoid]

/-- The tokens stepped over for the source operand `i`: a literal has no address token. -/
def sourceLength (token : Stream) (major : Nat) (opcode : Token) (i position : Nat) : Nat :=
  if (literalOf opcode i).isSome then 1 else operandLength token major 2 position

def sourceReads (token : Stream) (major : Nat) (opcode : Token) (i position : Nat) : List Nat :=
  if (literalOf opcode i).isSome then [position] else operandReads token major 2 position

/-- Where the source operand `i` goes. -/
def sourcePlaces (opcode : Token) (i : Nat) : List Place :=
  match literalOf opcode i with
  | some (_, component) => [.literal component, .source i]
  | none => [.source i]

/-- What is asserted of the token of the source operand `i`. -/
def SourceAllowed (asserts : Bool) (opcode : Token) (i : Nat) (word : Token) : Prop :=
  literalOf opcode i = none → asserts = true → sourceAllowed word = true

private theorem sourceLength_cases (token : Stream) (major : Nat) (opcode : Token)
    (i position : Nat) : sourceLength token major opcode i position = 1 ∨
      sourceLength token major opcode i position = 2 := by
  unfold sourceLength
  split_ifs
  · exact .inl rfl
  · exact operandLength_cases token major 2 position

/-- What parsing the source operand `i` does. -/
structure SourceParsed (token : Stream) (major i position : Nat) (p q : Parsing) : Prop where
  opcode : q.inst.opcode = p.inst.opcode
  cursor : q.token = p.token
  size : q.size = p.size
  reads : q.reads = sourceReads token major p.inst.opcode i position ++ p.reads
  fills : q.fills = sourcePlaces p.inst.opcode i ++ p.fills
  skip : ((q.inst.src i).rel.type ≠ parameterVoid ∧ 2 ≤ major) ↔
    sourceLength token major p.inst.opcode i position = 2

variable (asserts token major) in
theorem parseSourceToken_spec (i position : Nat) (p : Parsing) :
    (SourceAllowed asserts p.inst.opcode i (token position) ∧
      ∃ q, parseSourceToken asserts token major i position p = some q ∧
        SourceParsed token major i position p q) ∨
    (¬ SourceAllowed asserts p.inst.opcode i (token position) ∧
      parseSourceToken asserts token major i position p = none) := by
  unfold parseSourceToken SourceAllowed
  cases found : literalOf p.inst.opcode i with
  | some target =>
    obtain ⟨type, component⟩ := target
    refine .inl ⟨by simp, _, rfl, rfl, rfl, rfl, by simp [sourceReads, found],
      by simp [sourcePlaces, found], ?_⟩
    simp only [sourceLength, found, Option.isSome_some, if_true]
    by_cases first : i = 0
    · subst first
      simp [noSource, noRelative]
    · simp [Function.update_of_ne first, noSource, noRelative]
  | none =>
    by_cases allowed : asserts = true → sourceAllowed (token position) = true
    · simp only [ASSERT_bind, if_pos allowed]
      refine .inl ⟨fun _ => allowed, _, rfl, rfl, rfl, rfl, ?_, by simp [sourcePlaces, found], ?_⟩
      · by_cases next : relative (token position) = true ∧ 2 ≤ major <;>
          simp [sourceReads, operandReads, Addressed, found, next]
      · simpa [sourceLength, found] using rel_skips 2 position
    · exact .inr ⟨by simpa using allowed, by simp only [ASSERT_bind, if_neg allowed]⟩

/-- What has been read and filled stays within the tokens `start` to `stop` and the operands. -/
structure Within (start stop : Nat) (p : Parsing) : Prop where
  reads : ∀ r ∈ p.reads, start ≤ r ∧ r ≤ stop
  fills : ∀ f ∈ p.fills, f.Inside

/-- `q` has read and filled all that `p` has. -/
def Grows (p q : Parsing) : Prop := p.reads ⊆ q.reads ∧ p.fills ⊆ q.fills

private theorem Grows.refl (p : Parsing) : Grows p p := ⟨List.Subset.refl _, List.Subset.refl _⟩

private theorem Grows.trans {p q r : Parsing} (first : Grows p q) (second : Grows q r) :
    Grows p r :=
  ⟨List.Subset.trans first.1 second.1, List.Subset.trans first.2 second.2⟩

private theorem Within.shrink {start stop : Nat} {p q : Parsing} (grows : Grows p q)
    (within : Within start stop q) : Within start stop p :=
  ⟨fun r hr => within.reads r (grows.1 hr), fun f hf => within.fills f (grows.2 hf)⟩

private theorem SourceParsed.grows {i position : Nat} {p q : Parsing}
    (parsed : SourceParsed token major i position p q) : Grows p q := by
  refine ⟨?_, ?_⟩
  · rw [parsed.reads]
    exact List.subset_append_right _ _
  · rw [parsed.fills]
    exact List.subset_append_right _ _

private theorem Within.advance {start stop : Nat} {p : Parsing} (within : Within start stop p)
    (n : Nat) : Within start stop (p.advance n) := ⟨within.reads, within.fills⟩

private theorem grows_advance (p : Parsing) (n : Nat) : Grows p (p.advance n) := Grows.refl p

private theorem parseSources_grows (fuel : Nat) : ∀ (i : Nat) (p q : Parsing),
    parseSources asserts token major fuel i p = some q → Grows p q := by
  induction fuel with
  | zero =>
    intro i p q done
    cases done
    exact Grows.refl p
  | succ fuel ih =>
    intro i p q done
    rw [parseSources] at done
    split_ifs at done
    · obtain ⟨-, r, found, parsed⟩ | ⟨-, none⟩ :=
        parseSourceToken_spec asserts token major i p.token p
      · rw [found] at done
        exact (parsed.grows.trans (grows_advance r _)).trans (ih _ _ _ done)
      · rw [none] at done
        cases done
    · cases done
      exact Grows.refl p

/-- The source operand `i` at `position` stays within an instruction that has `room` tokens from
there on: its place exists, and its address token is one of them. -/
structure SourceFits (asserts : Bool) (token : Stream) (major : Nat) (opcode : Token)
    (room position i : Nat) : Prop where
  allowed : SourceAllowed asserts opcode i (token position)
  place : i ≤ 4 ∧ ∀ type component, literalOf opcode i = some (type, component) → component ≤ 3
  address : literalOf opcode i = none → Addressed major 2 (token position) → 2 ≤ room

/-- The source operands from `i` on fit in the `room` tokens from `position` on. -/
inductive SourcesFit (asserts : Bool) (token : Stream) (major : Nat) (opcode : Token) :
    Nat → Nat → Nat → Prop where
  | done (position i : Nat) : SourcesFit asserts token major opcode 0 position i
  | operand {room position i : Nat}
      (first : SourceFits asserts token major opcode (room + 1) position i)
      (others : SourcesFit asserts token major opcode
        (room + 1 - sourceLength token major opcode i position)
        (position + sourceLength token major opcode i position) (i + 1)) :
      SourcesFit asserts token major opcode (room + 1) position i

private theorem sourcePlaces_inside (opcode : Token) (i : Nat) :
    (∀ f ∈ sourcePlaces opcode i, f.Inside) ↔
      i ≤ 4 ∧ ∀ type component, literalOf opcode i = some (type, component) → component ≤ 3 := by
  unfold sourcePlaces
  cases literalOf opcode i with
  | none => simp [Place.Inside]
  | some target =>
    obtain ⟨type, component⟩ := target
    simp [Place.Inside, and_comm]

variable (token major) in
private theorem sourceReads_within {start stop position : Nat} (above : start ≤ position)
    (opcode : Token) (i room : Nat) (end_ : position + room = stop) :
    (∀ r ∈ sourceReads token major opcode i position, start ≤ r ∧ r ≤ stop) ↔
      (literalOf opcode i = none → Addressed major 2 (token position) → 2 ≤ room + 1) := by
  unfold sourceReads operandReads
  cases literalOf opcode i with
  | some target => simpa using ⟨above, by omega⟩
  | none =>
    by_cases addressed : Addressed major 2 (token position)
    · simp only [Option.isSome_none, addressed]
      constructor
      · intro all
        have := all (position + 1) (by simp)
        omega
      · intro enough r member
        have := enough trivial trivial
        simp at member
        omega
    · simp [addressed]
      omega

private theorem sourceFits_iff {start stop i position : Nat} {p q : Parsing} (room : Nat)
    (parsed : SourceParsed token major i position p q)
    (allowed : SourceAllowed asserts p.inst.opcode i (token position))
    (within : Within start stop p) (above : start ≤ position) (end_ : position + room = stop) :
    Within start stop q ↔ SourceFits asserts token major p.inst.opcode (room + 1) position i := by
  have reads := sourceReads_within token major above p.inst.opcode i room end_
  have places := sourcePlaces_inside p.inst.opcode i
  constructor
  · intro inside
    refine ⟨allowed, places.mp fun f member => ?_, reads.mp fun r member => ?_⟩
    · exact inside.fills f (by rw [parsed.fills]; exact List.mem_append_left _ member)
    · exact inside.reads r (by rw [parsed.reads]; exact List.mem_append_left _ member)
  · intro fits
    refine ⟨?_, ?_⟩
    · intro r member
      rw [parsed.reads] at member
      exact (List.mem_append.mp member).elim (reads.mpr fits.address r) (within.reads r)
    · intro f member
      rw [parsed.fills] at member
      exact (List.mem_append.mp member).elim (places.mpr fits.place f) (within.fills f)

private theorem sourceLength_le {opcode : Token} {room position i : Nat}
    (fits : SourceFits asserts token major opcode (room + 1) position i) :
    sourceLength token major opcode i position ≤ room + 1 := by
  obtain short | long := sourceLength_cases token major opcode i position
  · omega
  · have none : literalOf opcode i = none := by
      by_contra literal
      rw [sourceLength, if_pos (by simpa [Option.isSome_iff_ne_none] using literal)] at long
      omega
    have addressed : Addressed major 2 (token position) := by
      by_contra plain
      rw [sourceLength, none, operandLength, if_neg (by simp), if_neg (by simp [plain])] at long
      omega
    have := fits.address none addressed
    omega

private theorem parseSources_fit {start stop : Nat} {opcode : Token} (fuel : Nat) :
    ∀ (room i : Nat) (p : Parsing), p.size = (room : Int) → room ≤ fuel →
      p.token + room = stop + 1 → start ≤ p.token → p.inst.opcode = opcode → Within start stop p →
      ((∃ q, parseSources asserts token major fuel i p = some q ∧ Within start stop q) ↔
        SourcesFit asserts token major opcode room p.token i) := by
  induction fuel with
  | zero =>
    intro room i p size enough end_ above code within
    obtain rfl : room = 0 := by omega
    exact ⟨fun _ => .done _ _, fun _ => ⟨p, rfl, within⟩⟩
  | succ fuel ih =>
    intro room i p size enough end_ above code within
    subst code
    rw [parseSources]
    cases room with
    | zero =>
      rw [if_neg (by omega)]
      exact ⟨fun _ => .done _ _, fun _ => ⟨p, rfl, within⟩⟩
    | succ room =>
      rw [if_pos (by omega)]
      obtain ⟨allowed, q, found, parsed⟩ | ⟨refused, none⟩ :=
        parseSourceToken_spec asserts token major i p.token p
      · rw [found]
        have one := sourceFits_iff room parsed allowed within above (by omega)
        by_cases fits : SourceFits asserts token major p.inst.opcode (room + 1) p.token i
        · have length : (if (q.inst.src i).rel.type ≠ parameterVoid ∧ 2 ≤ major then 2 else 1) =
              sourceLength token major p.inst.opcode i p.token := by
            obtain short | long := sourceLength_cases token major p.inst.opcode i p.token
            · rw [if_neg (by rw [parsed.skip]; omega), short]
            · rw [if_pos (parsed.skip.mpr long), long]
          have inRoom := sourceLength_le fits
          have positive := sourceLength_cases token major p.inst.opcode i p.token
          have rest := ih (room + 1 - sourceLength token major p.inst.opcode i p.token) (i + 1)
            (q.advance (sourceLength token major p.inst.opcode i p.token))
            (by simp only [Parsing.advance, parsed.size, size]; omega) (by omega)
            (by simp only [Parsing.advance, parsed.cursor]; omega)
            (by simp only [Parsing.advance, parsed.cursor]; omega) parsed.opcode
            ((one.mpr fits).advance _)
          simp only [Option.bind_eq_bind, Option.bind_some, length]
          rw [rest, Parsing.advance, parsed.cursor]
          constructor
          · exact fun others => .operand fits others
          · rintro (_ | ⟨-, others⟩)
            exact others
        · constructor
          · rintro ⟨r, done, inside⟩
            exact absurd (one.mp ((inside.shrink (parseSources_grows _ _ _ _ done)).shrink
              (grows_advance q _))) fits
          · rintro (_ | ⟨first, -⟩)
            exact absurd first fits
      · rw [none]
        constructor
        · rintro ⟨q, done, -⟩
          cases done
        · rintro (_ | ⟨first, -⟩)
          exact absurd first.allowed refused

structure DestinationParsed (token : Stream) (major position : Nat) (p q : Parsing) : Prop where
  opcode : q.inst.opcode = p.inst.opcode
  predicate : q.inst.predicate = p.inst.predicate
  cursor : q.token = p.token
  size : q.size = p.size
  reads : q.reads = operandReads token major 3 position ++ p.reads
  fills : q.fills = p.fills
  skip : (q.inst.dst.rel.type ≠ parameterVoid ∧ 3 ≤ major) ↔
    operandLength token major 3 position = 2

variable (asserts token major) in
theorem parseDestinationToken_spec (position : Nat) (p : Parsing) :
    ((asserts = true → destinationAllowed major (token position) = true) ∧
      ∃ q, parseDestinationToken asserts token major position p = some q ∧
        DestinationParsed token major position p q) ∨
    (¬ (asserts = true → destinationAllowed major (token position) = true) ∧
      parseDestinationToken asserts token major position p = none) := by
  unfold parseDestinationToken
  by_cases allowed : asserts = true → destinationAllowed major (token position) = true
  · simp only [ASSERT_bind, if_pos allowed]
    refine .inl ⟨allowed, _, rfl, rfl, rfl, rfl, rfl, ?_, rfl, ?_⟩
    · by_cases next : relative (token position) = true ∧ 3 ≤ major <;>
        simp [operandReads, Addressed, next]
    · simpa using rel_skips 3 position
  · exact .inr ⟨allowed, by simp only [ASSERT_bind, if_neg allowed]⟩

/-- The destination operand at `position` stays within the `room` tokens from there on. -/
structure DestinationFits (asserts : Bool) (token : Stream) (major room position : Nat) : Prop where
  allowed : asserts = true → destinationAllowed major (token position) = true
  present : 1 ≤ room
  address : Addressed major 3 (token position) → 2 ≤ room

private theorem DestinationParsed.grows {position : Nat} {p q : Parsing}
    (parsed : DestinationParsed token major position p q) : Grows p q := by
  refine ⟨?_, by rw [parsed.fills]; exact List.Subset.refl _⟩
  rw [parsed.reads]
  exact List.subset_append_right _ _

private theorem destinationFits_iff {start stop position : Nat} (room : Nat) {p q : Parsing}
    (parsed : DestinationParsed token major position p q)
    (allowed : asserts = true → destinationAllowed major (token position) = true)
    (within : Within start stop p) (above : start ≤ position) (end_ : position + room = stop + 1) :
    Within start stop q ↔ DestinationFits asserts token major room position := by
  constructor
  · intro inside
    have reads := inside.reads
    rw [parsed.reads] at reads
    have here := reads position (List.mem_append_left _ (by unfold operandReads; split_ifs <;> simp))
    refine ⟨allowed, by omega, fun addressed => ?_⟩
    have next := reads (position + 1)
      (List.mem_append_left _ (by rw [operandReads, if_pos addressed]; simp))
    omega
  · intro fits
    refine ⟨fun r member => ?_, by rw [parsed.fills]; exact within.fills⟩
    have present := fits.present
    rw [parsed.reads, List.mem_append] at member
    rcases member with new | old
    · unfold operandReads at new
      split_ifs at new with addressed
      · have := fits.address addressed
        simp at new
        omega
      · simp at new
        omega
    · exact within.reads r old

/-- A step of the constructor from `p`, which meets `fits` when what it leaves is within bounds. -/
def Meets (start stop : Nat) (step : Option Parsing) (fits : Prop) (left : Parsing → Prop) : Prop :=
  (fits ∧ ∃ q, step = some q ∧ Within start stop q ∧ left q) ∨
    (¬ fits ∧ ∀ q, step = some q → ¬ Within start stop q)

private theorem Meets.bind {start stop : Nat} {step : Option Parsing} {fits : Prop}
    {left : Parsing → Prop} (meets : Meets start stop step fits left)
    {f : Parsing → Option Parsing} (grows : ∀ p q, f p = some q → Grows p q) (rest : Prop)
    (next : ∀ q, fits → left q → Within start stop q →
      ((∃ r, f q = some r ∧ Within start stop r) ↔ rest)) :
    (∃ r, (step >>= f) = some r ∧ Within start stop r) ↔ fits ∧ rest := by
  obtain ⟨holds, q, rfl, within, leaves⟩ | ⟨fails, outside⟩ := meets
  · rw [Option.bind_eq_bind, Option.bind_some, next q holds leaves within]
    exact (and_iff_right holds).symm
  · refine ⟨?_, fun both => absurd both.1 fails⟩
    rintro ⟨r, done, within⟩
    rw [Option.bind_eq_bind, Option.bind_eq_some_iff] at done
    obtain ⟨q, found, done⟩ := done
    exact absurd (within.shrink (grows q r done)) (outside q found)

private theorem operandLength_le {room position : Nat}
    (fits : DestinationFits asserts token major room position) :
    operandLength token major 3 position ≤ room := by
  have present := fits.present
  unfold operandLength
  split_ifs with skips
  · exact fits.address skips.1
  · exact present

/-- The operand tokens the destination takes of `size`. -/
def destinationLength (token : Stream) (major size position : Nat) : Nat :=
  if size = 0 then 0 else operandLength token major 3 position

variable (asserts token major) in
private theorem parseDestination_meets {start stop size : Nat} {p : Parsing}
    (sized : p.size = (size : Int)) (end_ : p.token + size = stop + 1) (above : start ≤ p.token)
    (within : Within start stop p) :
    Meets start stop (parseDestination asserts token major p)
      (0 < size → DestinationFits asserts token major size p.token)
      (fun q => q.inst.opcode = p.inst.opcode ∧ q.inst.predicate = p.inst.predicate ∧
        q.token = p.token + destinationLength token major size p.token ∧
        q.size = size - destinationLength token major size p.token ∧
        destinationLength token major size p.token ≤ size) := by
  unfold parseDestination destinationLength
  obtain rfl | positive := Nat.eq_zero_or_pos size
  · rw [if_neg (by omega)]
    exact .inl ⟨by omega, p, rfl, within, rfl, rfl, by simp, by simpa using sized, by simp⟩
  rw [if_pos (by omega), if_neg (by omega)]
  obtain ⟨allowed, q, found, parsed⟩ | ⟨refused, none⟩ :=
    parseDestinationToken_spec asserts token major p.token p
  · rw [found, Option.bind_eq_bind, Option.bind_some]
    have one := destinationFits_iff size parsed allowed within above end_
    by_cases fits : DestinationFits asserts token major size p.token
    · refine .inl ⟨fun _ => fits, _, rfl, (one.mpr fits).advance _, parsed.opcode, parsed.predicate,
        ?_, ?_, operandLength_le fits⟩
      all_goals
        simp only [Parsing.advance, parsed.cursor, parsed.size, sized, parsed.skip]
        obtain short | long := operandLength_cases token major 3 p.token
        · simp [short]
        · simp [long]
    · refine .inr ⟨fun both => fits (both positive), ?_⟩
      rintro r done inside
      cases done
      exact fits (one.mp (inside.shrink (grows_advance q _)))
  · rw [none]
    exact .inr ⟨fun both => refused (both positive).allowed, fun q done => by cases done⟩

variable (asserts token) in
private theorem parsePredicate_meets {start stop : Nat} (room : Nat) {p : Parsing}
    (sized : p.size = (room : Int)) (end_ : p.token + room = stop + 1) (above : start ≤ p.token)
    (within : Within start stop p) :
    Meets start stop (parsePredicate asserts token p) (p.inst.predicate = true → 0 < room)
      (fun q => q.inst.opcode = p.inst.opcode ∧
        q.token = p.token + (if p.inst.predicate = true then 1 else 0) ∧
        q.size = (room - (if p.inst.predicate = true then 1 else 0) : Nat)) := by
  unfold parsePredicate
  by_cases predicated : p.inst.predicate = true
  · simp only [if_pos predicated, ASSERT_bind]
    obtain rfl | positive := Nat.eq_zero_or_pos room
    · refine .inr ⟨by simp [predicated], ?_⟩
      intro q done inside
      split_ifs at done
      cases done
      have := inside.reads p.token (by simp [Parsing.advance])
      omega
    · rw [if_pos (by simp; omega)]
      refine .inl ⟨fun _ => positive, _, rfl, ⟨?_, within.fills⟩, rfl, rfl, ?_⟩
      · intro r member
        rcases List.mem_cons.mp member with rfl | old
        · omega
        · exact within.reads r old
      · simp only [Parsing.advance, sized]
        omega
  · simp only [if_neg predicated]
    exact .inl ⟨fun both => absurd both predicated, p, rfl, within, rfl, rfl, sized⟩

private theorem parsePredicate_grows (p q : Parsing)
    (done : parsePredicate asserts token p = some q) : Grows p q := by
  unfold parsePredicate at done
  split_ifs at done
  · simp only [ASSERT_bind] at done
    split_ifs at done
    cases done
    exact ⟨List.subset_cons_self _ _, List.Subset.refl _⟩
  · cases done
    exact Grows.refl p

private theorem parseBare_source {start stop size : Nat} (k : Nat) {p : Parsing}
    (sized : p.size = (size : Int)) (end_ : p.token + size = stop + 1) (above : start ≤ p.token)
    (within : Within start stop p) :
    Meets start stop (parseBareSource asserts token major k p)
      (k < size → SourceFits asserts token major p.inst.opcode (size - k) (p.token + k) k)
      (fun q => q.inst.opcode = p.inst.opcode ∧ q.token = p.token ∧ q.size = p.size) := by
  unfold parseBareSource
  by_cases present : k < size
  · rw [if_pos (by omega)]
    obtain ⟨room, rfl⟩ : ∃ room, size = k + (room + 1) := ⟨size - k - 1, by omega⟩
    obtain ⟨allowed, q, found, parsed⟩ | ⟨refused, none⟩ := parseSourceToken_spec
      asserts token major k (p.token + k) p
    · have one := sourceFits_iff room parsed allowed within (by omega) (by omega)
      rw [show k + (room + 1) - k = room + 1 by omega]
      by_cases fits : SourceFits asserts token major p.inst.opcode (room + 1) (p.token + k) k
      · exact .inl ⟨fun _ => fits, q, found, one.mpr fits, parsed.opcode, parsed.cursor, parsed.size⟩
      · refine .inr ⟨fun all => fits (all present), fun r done inside => ?_⟩
        rw [found] at done
        cases done
        exact fits (one.mp inside)
    · rw [none]
      exact .inr ⟨fun all => refused (all present).allowed, fun q done => by cases done⟩
  · rw [if_neg (by omega)]
    exact .inl ⟨fun less => absurd less present, p, rfl, within, rfl, rfl, rfl⟩

private theorem parseBare_source_grows (k : Nat) (p q : Parsing)
    (done : parseBareSource asserts token major k p = some q) : Grows p q := by
  unfold parseBareSource at done
  split_ifs at done
  · obtain ⟨-, r, found, parsed⟩ | ⟨-, none⟩ := parseSourceToken_spec
      asserts token major k (p.token + k) p
    · rw [found] at done
      cases done
      exact parsed.grows
    · rw [none] at done
      cases done
  · cases done
    exact Grows.refl p

private theorem bind_grows {f g : Parsing → Option Parsing}
    (first : ∀ p q, f p = some q → Grows p q) (second : ∀ p q, g p = some q → Grows p q)
    (p q : Parsing) (done : (f p >>= g) = some q) : Grows p q := by
  rw [Option.bind_eq_bind, Option.bind_eq_some_iff] at done
  obtain ⟨r, found, done⟩ := done
  exact (first p r found).trans (second r q done)

private theorem assert_grows (condition : Parsing → Bool) (p q : Parsing)
    (done : (ASSERT asserts (condition p) >>= fun _ => some p) = some q) : Grows p q := by
  rw [ASSERT_bind] at done
  split_ifs at done
  cases done
  exact Grows.refl p

/-- The operands of an opcode without destination fit in its `size` tokens. -/
structure BareFits (asserts : Bool) (token : Stream) (major : Nat) (opcode : Token)
    (size position : Nat) : Prop where
  sources : ∀ k < 3, k < size →
    SourceFits asserts token major opcode (size - k) (position + k) k
  allowed : asserts = true → size ≤ 3

private theorem parseBare_fit {start stop size : Nat} {p : Parsing}
    (sized : p.size = (size : Int)) (end_ : p.token + size = stop + 1) (above : start ≤ p.token)
    (within : Within start stop p) :
    (∃ q, parseBare asserts token major p = some q ∧ Within start stop q) ↔
      BareFits asserts token major p.inst.opcode size p.token := by
  have steps : (∃ q, parseBare asserts token major p = some q ∧ Within start stop q) ↔
      (0 < size → SourceFits asserts token major p.inst.opcode (size - 0) (p.token + 0) 0) ∧
      (1 < size → SourceFits asserts token major p.inst.opcode (size - 1) (p.token + 1) 1) ∧
      (2 < size → SourceFits asserts token major p.inst.opcode (size - 2) (p.token + 2) 2) ∧
      (asserts = true → size ≤ 3) := by
    refine (parseBare_source 0 sized end_ above within).bind
      (bind_grows (parseBare_source_grows 1) (bind_grows (parseBare_source_grows 2)
        (assert_grows fun q => q.size ≤ 3))) _ ?_
    rintro q - ⟨code, cursor, same⟩ inside
    rw [← code, ← cursor]
    refine (parseBare_source 1 (same.trans sized) (by omega) (by omega) inside).bind
      (bind_grows (parseBare_source_grows 2) (assert_grows fun q => q.size ≤ 3)) _ ?_
    rintro r - ⟨code', cursor', same'⟩ inside'
    rw [← code', ← cursor']
    refine (parseBare_source 2 (same'.trans (same.trans sized)) (by omega) (by omega) inside').bind
      (assert_grows fun q => q.size ≤ 3) _ ?_
    rintro t - ⟨-, -, same''⟩ inside''
    have sized'' : t.size = (size : Int) := same''.trans (same'.trans (same.trans sized))
    simp only [ASSERT_bind]
    constructor
    · rintro ⟨u, done, -⟩
      split_ifs at done with allowed
      intro on
      have := allowed on
      simp only [decide_eq_true_eq] at this
      omega
    · intro allowed
      refine ⟨t, by rw [if_pos]; intro on; have := allowed on; simp; omega, inside''⟩
  rw [steps]
  constructor
  · rintro ⟨first, second, third, allowed⟩
    refine ⟨fun k less present => ?_, allowed⟩
    obtain rfl | rfl | rfl : k = 0 ∨ k = 1 ∨ k = 2 := by omega
    · exact first present
    · exact second present
    · exact third present
  · rintro ⟨sources, allowed⟩
    exact ⟨sources 0 (by omega), sources 1 (by omega), sources 2 (by omega), allowed⟩

def DeclarationFits (asserts : Bool) (token : Stream) (major size position : Nat) : Prop :=
  2 ≤ size ∧ DestinationFits asserts token major (size - 1) (position + 1)

private theorem parseDeclaration_fit {start stop size : Nat} {p : Parsing}
    (end_ : p.token + size = stop + 1) (above : start ≤ p.token) (within : Within start stop p) :
    (∃ q, parseDeclaration asserts token major p = some q ∧ Within start stop q) ↔
      DeclarationFits asserts token major size p.token := by
  unfold parseDeclaration DeclarationFits
  set declared : Parsing := { p with
    inst := parseDeclarationToken (token p.token) p.inst, reads := p.token :: p.reads }
  obtain ⟨allowed, q, found, parsed⟩ | ⟨refused, none⟩ := parseDestinationToken_spec
    asserts token major (p.token + 1) declared
  · rw [found]
    by_cases enough : 2 ≤ size
    · have inside : Within start stop declared := by
        refine ⟨fun r member => ?_, within.fills⟩
        rcases List.mem_cons.mp member with rfl | old
        · omega
        · exact within.reads r old
      have one := destinationFits_iff (size - 1) parsed allowed inside (by omega) (by omega)
      constructor
      · rintro ⟨r, done, bounds⟩
        cases done
        exact ⟨enough, one.mp bounds⟩
      · rintro ⟨-, fits⟩
        exact ⟨q, rfl, one.mpr fits⟩
    · refine ⟨?_, fun both => absurd both.1 enough⟩
      rintro ⟨r, done, bounds⟩
      cases done
      have := bounds.reads (p.token + 1) (by
        rw [parsed.reads]
        exact List.mem_append_left _ (by unfold operandReads; split_ifs <;> simp))
      omega
  · rw [none]
    exact ⟨fun ⟨_, done, _⟩ => by simp at done, fun both => absurd both.2.allowed refused⟩

/-- The opcode, as `parseOperationToken` takes it from the token. -/
def opcodeOf (word : Token) : Token := if isVersion word then word else low word

def predicated (word : Token) : Bool := !isVersion word && flag word 0x10000000

/-- The operands of the other opcodes: a destination, a predicate and sources. -/
structure PlainFits (asserts : Bool) (token : Stream) (major : Nat) (word : Token)
    (size position : Nat) : Prop where
  destination : 0 < size → DestinationFits asserts token major size position
  predicate : predicated word = true → destinationLength token major size position < size
  sources : SourcesFit asserts token major (opcodeOf word)
    (size - destinationLength token major size position - if predicated word = true then 1 else 0)
    (position + destinationLength token major size position +
      if predicated word = true then 1 else 0) 0

/-- The instruction at `start`, of `size` operand tokens, is made of its own tokens: every operand,
address and predicate token its bits call for is among them, no more than five source operands and
four literal components are there, and (where assertions are compiled in) no reserved bit is set. -/
structure InstructionFits (asserts : Bool) (token : Stream) (major start size : Nat) : Prop where
  operation : asserts = true → operationAllowed major (token start) = true
  bare : opcodeOf (token start) ∈ noDestinationOpcodes →
    BareFits asserts token major (opcodeOf (token start)) size (start + 1)
  declaration : opcodeOf (token start) = opcodeDcl →
    DeclarationFits asserts token major size (start + 1)
  plain : opcodeOf (token start) ∉ noDestinationOpcodes → opcodeOf (token start) ≠ opcodeDcl →
    PlainFits asserts token major (token start) size (start + 1)

private theorem parsePlain_fit {start stop size : Nat} (word : Token) {p : Parsing}
    (code : p.inst.opcode = opcodeOf word) (flagged : p.inst.predicate = predicated word)
    (sized : p.size = (size : Int)) (end_ : p.token + size = stop + 1) (above : start ≤ p.token)
    (within : Within start stop p) :
    (∃ q, (parseDestination asserts token major p >>= fun p =>
        parsePredicate asserts token p >>= fun p =>
        parseSources asserts token major p.size.toNat 0 p) = some q ∧ Within start stop q) ↔
      PlainFits asserts token major word size p.token := by
  have steps := (parseDestination_meets asserts token major sized end_ above within).bind
    (f := fun p => parsePredicate asserts token p >>= fun p =>
      parseSources asserts token major p.size.toNat 0 p)
    (bind_grows parsePredicate_grows fun p q done => parseSources_grows _ _ _ _ done)
    ((predicated word = true → 0 < size - destinationLength token major size p.token) ∧
      SourcesFit asserts token major (opcodeOf word)
        (size - destinationLength token major size p.token -
          if predicated word = true then 1 else 0)
        (p.token + destinationLength token major size p.token +
          if predicated word = true then 1 else 0) 0) ?_
  · rw [steps]
    constructor
    all_goals
      rintro ⟨destination, predicate, sources⟩
      exact ⟨destination, fun on => by have := predicate on; omega, sources⟩
  rintro q - ⟨code', flagged', cursor, rest, short⟩ inside
  have taken := (parsePredicate_meets asserts token (size - destinationLength token major size p.token)
    (by omega) (by omega) (by omega) inside).bind
    (f := fun p => parseSources asserts token major p.size.toNat 0 p)
    (fun p q done => parseSources_grows _ _ _ _ done)
    (SourcesFit asserts token major (opcodeOf word)
      (size - destinationLength token major size p.token - if predicated word = true then 1 else 0)
      (p.token + destinationLength token major size p.token +
        if predicated word = true then 1 else 0) 0) ?_
  · rw [taken, flagged', flagged]
  · rintro r room ⟨code'', cursor', rest'⟩ inside'
    rw [flagged', flagged] at cursor' rest' room
    rw [rest', Int.toNat_natCast, ← cursor, ← cursor']
    refine parseSources_fit _ _ 0 r rest' (Nat.le_refl _) ?_ ?_ (code''.trans (code'.trans code)) inside'
    · split_ifs at cursor' ⊢ with on
      · have := room on
        omega
      · omega
    · omega

variable (asserts major) in
theorem parseOperationToken_spec (word : Token) (inst : Instruction) :
    ((asserts = true → operationAllowed major word = true) ∧
      ∃ inst', parseOperationToken asserts major word inst = some inst' ∧
        inst'.opcode = opcodeOf word ∧ inst'.predicate = predicated word) ∨
    (¬ (asserts = true → operationAllowed major word = true) ∧
      parseOperationToken asserts major word inst = none) := by
  unfold parseOperationToken
  by_cases allowed : asserts = true → operationAllowed major word = true
  · simp only [ASSERT_bind, if_pos allowed]
    by_cases version : isVersion word = true
    · exact .inl ⟨allowed, _, by rw [if_pos version]; rfl, by simp [opcodeOf, version],
        by simp [predicated, version]⟩
    · exact .inl ⟨allowed, _, by rw [if_neg version]; rfl, by simp [opcodeOf, version],
        by simp [predicated, version]⟩
  · exact .inr ⟨allowed, by simp only [ASSERT_bind, if_neg allowed]⟩

theorem construct_fit (asserts : Bool) (token : Stream) (major start size : Nat) :
    (∃ q, construct asserts token major start size = some q ∧ Within start (start + size) q) ↔
      InstructionFits asserts token major start size := by
  unfold construct
  obtain ⟨allowed, inst, found, code, flagged⟩ | ⟨refused, none⟩ := parseOperationToken_spec
    asserts major (token start) blank
  · rw [found, Option.bind_eq_bind, Option.bind_some]
    set p : Parsing := ⟨{ inst with samplerType := 0, usage := 0, usageIndex := 0 }, start + 1, size,
      [start], []⟩ with entry
    have within : Within start (start + size) p :=
      ⟨fun r member => by rw [List.mem_singleton.mp member]; omega, fun f member => by cases member⟩
    have end_ : p.token + size = start + size + 1 := Nat.succ_add start size
    have above : start ≤ p.token := Nat.le_succ start
    by_cases bare : inst.opcode ∈ noDestinationOpcodes
    · simp only [if_pos bare]
      rw [parseBare_fit (p := p) rfl end_ above within]
      rw [code] at bare
      exact ⟨fun fits => ⟨allowed, fun _ => code ▸ fits,
        fun declares => absurd (declares ▸ bare) (by decide), fun no => absurd bare no⟩,
        fun fits => code ▸ fits.bare bare⟩
    simp only [if_neg bare]
    by_cases declares : inst.opcode = opcodeDcl
    · simp only [if_pos declares]
      rw [parseDeclaration_fit (p := p) end_ above within]
      rw [code] at bare declares
      exact ⟨fun fits => ⟨allowed, fun yes => absurd yes bare, fun _ => fits,
        fun _ no => absurd declares no⟩, fun fits => fits.declaration declares⟩
    · simp only [if_neg declares]
      refine (parsePlain_fit (token start) (p := p) code flagged rfl end_ above within).trans ?_
      rw [code] at bare declares
      exact ⟨fun fits => ⟨allowed, fun yes => absurd yes bare, fun yes => absurd yes declares,
        fun _ _ => fits⟩, fun fits => fits.plain bare declares⟩
  · rw [none]
    exact ⟨fun ⟨_, done, _⟩ => by simp at done, fun fits => absurd fits.operation refused⟩

/-- `validate` walks from the token `i` over the instructions that start at the listed tokens, the
last of which is the END token. -/
inductive Walked (asserts : Bool) (token : Stream) : Nat → List Nat → Prop where
  | stop {i : Nat} (ends : token i = opcodeEnd) : Walked asserts token i [i]
  | comment {i : Nat} {starts : List Nat} (goes : token i ≠ opcodeEnd)
      (comment : isComment (token i) = true)
      (rest : Walked asserts token (i + commentLength (token i) + 1) starts) :
      Walked asserts token i starts
  | instruction {i : Nat} {length : Int} {starts : List Nat} (goes : token i ≠ opcodeEnd)
      (plain : isComment (token i) ≠ true)
      (sized : size asserts (token i) (shaderModel (token 0)) = some length)
      (rest : Walked asserts token (i + length + 1).toNat starts) :
      Walked asserts token i (i :: starts)

private theorem validateLoop_walked {unsupported : List Token} {n : Nat} (fuel : Nat) :
    ∀ i count, validateLoop asserts unsupported token fuel i count = some n → 0 < n →
      ∃ starts, Walked asserts token i starts ∧ starts.length + count = n + 1 := by
  induction fuel with
  | zero =>
    intro i count done
    cases done
  | succ fuel ih =>
    intro i count done positive
    rw [validateLoop] at done
    by_cases ends : token i = opcodeEnd
    · rw [if_pos ends] at done
      cases done
      exact ⟨[i], .stop ends, Nat.add_comm _ _⟩
    rw [if_neg ends] at done
    by_cases comment : isComment (token i) = true
    · rw [if_pos comment] at done
      obtain ⟨starts, walked, counted⟩ := ih _ _ done positive
      exact ⟨starts, .comment ends comment walked, counted⟩
    rw [if_neg comment] at done
    split_ifs at done
    · cases done
      omega
    · obtain ⟨length, sized, done⟩ := Option.bind_eq_some_iff.mp done
      obtain ⟨starts, walked, counted⟩ := ih _ _ done positive
      exact ⟨i :: starts, .instruction ends comment sized walked, by simp only [List.length_cons]; omega⟩

private theorem Walked.unique {i : Nat} {starts others : List Nat}
    (walked : Walked asserts token i starts) (again : Walked asserts token i others) :
    starts = others := by
  induction walked generalizing others with
  | stop ends =>
    cases again with
    | stop _ => rfl
    | comment goes _ _ => exact absurd ends goes
    | instruction goes _ _ _ => exact absurd ends goes
  | comment goes comment _ ih =>
    cases again with
    | stop ends => exact absurd ends goes
    | comment _ _ rest => exact ih rest
    | instruction _ plain _ _ => exact absurd comment plain
  | instruction goes plain sized _ ih =>
    cases again with
    | stop ends => exact absurd ends goes
    | comment _ comment _ => exact absurd comment plain
    | instruction _ _ sized' rest =>
      rw [sized] at sized'
      cases sized'
      rw [ih rest]

private theorem tableSize_ge {opcode : Token} {model : Nat} {length : Int}
    (sized : tableSize opcode model = some length) : -1 ≤ length := by
  have table : ∀ entry ∈ sizeTable, -1 ≤ entry := by decide
  unfold tableSize at sized
  split_ifs at sized
  · cases sized
    decide
  · cases sized
    omega
  · exact table length (List.mem_of_getElem? sized)

private theorem size_ge {opcode : Token} {model : Nat} {length : Int}
    (sized : size asserts opcode model = some length) : -1 ≤ length := by
  simp only [size, ASSERT_bind] at sized
  split_ifs at sized
  · cases sized
    omega
  all_goals
    obtain ⟨entry, found, checked⟩ := Option.bind_eq_some_iff.mp sized
    have bound := tableSize_ge found
    split_ifs at checked
    cases checked
    omega

private theorem Walked.length_nonneg {i : Nat} {length : Int} {starts : List Nat}
    (goes : token i ≠ opcodeEnd) (plain : isComment (token i) ≠ true)
    (sized : size asserts (token i) (shaderModel (token 0)) = some length)
    (rest : Walked asserts token (i + length + 1).toNat starts) : 0 ≤ length := by
  by_contra negative
  have back : (i + length + 1 : Int).toNat = i := by
    have := size_ge sized
    omega
  -- the walk would stand still
  have again : Walked asserts token i (i :: starts) := .instruction goes plain sized rest
  rw [back] at rest
  have same := congrArg List.length (rest.unique again)
  simp at same

private theorem size_end {opcode : Token} {model : Nat} {length : Int}
    (sized : size asserts opcode model = some length) : size asserts opcodeEnd model = some 0 := by
  have known : asserts = true → decide (model ≤ 0x0300) = true := by
    by_contra unknown
    rw [size, ASSERT_bind, if_neg unknown] at sized
    cases sized
  have comment : ¬ isComment opcodeEnd = true := by decide
  have texture : ¬ (model = 0x0104 ∧ (low opcodeEnd = opcodeTex ∨ low opcodeEnd = opcodeTexcoord)) := by
    rintro ⟨-, same | same⟩ <;> revert same <;> decide
  have table : tableSize opcodeEnd model = some 0 := by simp [tableSize]
  rw [size, ASSERT_bind, if_pos known, if_neg comment, table]
  simp only [Option.bind_eq_bind, Option.bind_some, ASSERT_bind, if_neg texture]
  simp

private theorem skipComments_stop {i : Nat} (fuel : Nat) (plain : isComment (token i) ≠ true) :
    skipComments token (fuel + 1) i = some i := by
  rw [skipComments, if_neg plain]

private theorem skipComments_comment {i : Nat} (fuel : Nat) (comment : isComment (token i) = true) :
    skipComments token (fuel + 1) i =
      skipComments token fuel (i + commentLength (token i) + 1) := by
  rw [skipComments, if_pos comment]

private theorem parseLoop_succ (fuel n i : Nat) : parseLoop asserts token fuel (n + 1) i =
    (skipComments token fuel i).bind fun start =>
      (size asserts (token start) (shaderModel (token 0))).bind fun tokenCount =>
        (construct asserts token (majorVersion (token 0)) start tokenCount).bind fun parsing =>
          (parseLoop asserts token fuel n (start + 1 + tokenCount).toNat).bind fun rest =>
            some (⟨start, tokenCount, parsing⟩ :: rest) := rfl

def Constructed (asserts : Bool) (token : Stream) (b : Built) : Prop :=
  size asserts (token b.start) (shaderModel (token 0)) = some b.tokenCount ∧
    construct asserts token (majorVersion (token 0)) b.start b.tokenCount = some b.parsing

private theorem skipComments_spec (fuel : Nat) : ∀ {i start : Nat} {starts : List Nat},
    skipComments token fuel i = some start → Walked asserts token i starts →
      isComment (token start) ≠ true ∧ Walked asserts token start starts := by
  induction fuel with
  | zero =>
    intro i start starts done
    cases done
  | succ fuel ih =>
    intro i start starts done walked
    by_cases comment : isComment (token i) = true
    · rw [skipComments_comment fuel comment] at done
      cases walked with
      | stop ends =>
        rw [ends] at comment
        exact absurd comment (by decide)
      | comment _ _ rest => exact ih done rest
      | instruction _ plain _ _ => exact absurd comment plain
    · rw [skipComments_stop fuel comment] at done
      cases done
      exact ⟨comment, walked⟩

theorem parseLoop_boundaries (fuel : Nat) (starts : List Nat) : ∀ {i : Nat} {built : List Built},
    Walked asserts token i starts → parseLoop asserts token fuel starts.length i = some built →
      built.map Built.start = starts ∧ ∀ b ∈ built, Constructed asserts token b := by
  induction starts with
  | nil =>
    intro i built walked
    exfalso
    generalize none : ([] : List Nat) = starts at walked
    induction walked with
    | stop _ => cases none
    | comment _ _ _ ih => exact ih none
    | instruction _ _ _ _ => cases none
  | cons first starts ih =>
    intro i built walked done
    rw [List.length_cons, parseLoop_succ] at done
    obtain ⟨start, skipped, done⟩ := Option.bind_eq_some_iff.mp done
    obtain ⟨tokenCount, sized, done⟩ := Option.bind_eq_some_iff.mp done
    obtain ⟨parsing, constructed, done⟩ := Option.bind_eq_some_iff.mp done
    obtain ⟨rest, parsed, done⟩ := Option.bind_eq_some_iff.mp done
    cases done
    obtain ⟨plain, walked⟩ := skipComments_spec fuel skipped walked
    generalize same : first :: starts = all at walked
    cases walked with
    | stop ends =>
      cases same
      cases parsed
      exact ⟨rfl, by simpa using ⟨sized, constructed⟩⟩
    | comment _ comment _ => exact absurd comment plain
    | instruction goes _ sized' walked =>
      cases same
      rw [sized] at sized'
      cases sized'
      rw [show (first + 1 + tokenCount : Int).toNat = (first + tokenCount + 1).toNat by omega] at parsed
      obtain ⟨boundaries, each⟩ := ih walked parsed
      refine ⟨by rw [List.map_cons, boundaries], ?_⟩
      intro b member
      rcases List.mem_cons.mp member with rfl | member
      · exact ⟨sized, constructed⟩
      · exact each b member

private theorem Walked.skips {i : Nat} {starts : List Nat} (walked : Walked asserts token i starts) :
    ∃ start enough, isComment (token start) ≠ true ∧ Walked asserts token start starts ∧
      ∀ fuel, enough ≤ fuel → skipComments token fuel i = some start := by
  induction walked with
  | @stop i ends =>
    have plain : isComment (token i) ≠ true := by
      rw [ends]
      decide
    refine ⟨i, 1, plain, .stop ends, fun fuel enough => ?_⟩
    obtain ⟨fuel, rfl⟩ := Nat.exists_eq_add_of_le' enough
    exact skipComments_stop fuel plain
  | comment goes comment _ ih =>
    obtain ⟨start, enough, plain, walked, skips⟩ := ih
    refine ⟨start, enough + 1, plain, walked, fun fuel more => ?_⟩
    obtain ⟨fuel, rfl⟩ := Nat.exists_eq_add_of_le' (Nat.le_of_add_left_le more)
    rw [skipComments_comment fuel comment]
    exact skips fuel (by omega)
  | @instruction i length starts goes plain sized rest ih =>
    refine ⟨i, 1, plain, .instruction goes plain sized rest, fun fuel enough => ?_⟩
    obtain ⟨fuel, rfl⟩ := Nat.exists_eq_add_of_le' enough
    exact skipComments_stop fuel plain

def Constructible (asserts : Bool) (token : Stream) (start : Nat) : Prop :=
  ∃ length parsing, size asserts (token start) (shaderModel (token 0)) = some length ∧
    construct asserts token (majorVersion (token 0)) start length = some parsing

theorem parseLoop_builds (starts : List Nat) : ∀ {i : Nat}, Walked asserts token i starts →
    (∀ start ∈ starts, Constructible asserts token start) →
      ∃ enough, ∀ fuel, enough ≤ fuel →
        ∃ built, parseLoop asserts token fuel starts.length i = some built := by
  induction starts with
  | nil => exact fun _ _ => ⟨0, fun _ _ => ⟨[], rfl⟩⟩
  | cons first starts ih =>
    intro i walked each
    obtain ⟨start, enough, plain, walked, skips⟩ := walked.skips
    generalize same : first :: starts = all at walked
    cases walked with
    | stop ends =>
      cases same
      obtain ⟨length, parsing, sized, constructed⟩ := each _ List.mem_cons_self
      refine ⟨enough, fun fuel more => ⟨[⟨first, length, parsing⟩], ?_⟩⟩
      rw [List.length_cons, parseLoop_succ, skips fuel more, Option.bind_some, sized,
        Option.bind_some, constructed]
      rfl
    | comment _ comment _ => exact absurd comment plain
    | @instruction _ length _ goes _ sized' rest =>
      cases same
      obtain ⟨length', parsing, sized, constructed⟩ := each _ List.mem_cons_self
      rw [sized'] at sized
      cases sized
      obtain ⟨enough', builds⟩ := ih rest fun start member => each start (List.mem_cons_of_mem _ member)
      refine ⟨enough + enough', fun fuel more => ?_⟩
      obtain ⟨built, parsed⟩ := builds fuel (by omega)
      refine ⟨⟨first, length, parsing⟩ :: built, ?_⟩
      rw [List.length_cons, parseLoop_succ, skips fuel (by omega), Option.bind_some, sized',
        Option.bind_some, constructed, Option.bind_some,
        show (first + 1 + length : Int).toNat = (first + length + 1).toNat by omega, parsed]
      rfl

private theorem Walked.bounds {i : Nat} {starts : List Nat} (walked : Walked asserts token i starts) :
    ∃ e, starts.getLast? = some e ∧ token e = opcodeEnd ∧ i ≤ e ∧
      ∀ start ∈ starts, ∀ length,
        size asserts (token start) (shaderModel (token 0)) = some length →
          0 ≤ length ∧ start + length ≤ (e : Int) := by
  induction walked with
  | @stop i ends =>
    refine ⟨i, rfl, ends, Nat.le_refl i, fun start member length sized => ?_⟩
    rw [List.mem_singleton.mp member, ends] at sized
    rw [List.mem_singleton.mp member]
    have zero := size_end sized
    rw [sized] at zero
    cases zero
    omega
  | comment goes comment _ ih =>
    obtain ⟨e, last, ends, forward, each⟩ := ih
    exact ⟨e, last, ends, by omega, each⟩
  | @instruction i length starts goes plain sized rest ih =>
    obtain ⟨e, last, ends, forward, each⟩ := ih
    have positive := Walked.length_nonneg goes plain sized rest
    refine ⟨e, by rw [List.getLast?_cons, last]; rfl, ends, by omega, ?_⟩
    intro start member length' sized'
    rcases List.mem_cons.mp member with rfl | member
    · rw [sized] at sized'
      cases sized'
      omega
    · exact each start member length' sized'

/-- `validate` returns `n` for the stream. -/
def Validates (asserts : Bool) (token : Stream) (n : Nat) : Prop :=
  ∃ fuel, validate asserts token fuel = some n

/-- Parsing agrees with validation: it builds `n` instructions with the boundaries `validate` walks,
the version token first and the END token last, every one reads tokens of its own only and fills
`src[0]` to `src[4]` only, and nothing after the END token is read. -/
structure Agrees (asserts : Bool) (token : Stream) (n : Nat) (built : List Built) : Prop where
  count : built.length = n
  walked : Walked asserts token 0 (built.map Built.start)
  version : (built.map Built.start).head? = some 0
  own : ∀ b ∈ built, size asserts (token b.start) (shaderModel (token 0)) = some b.tokenCount ∧
    0 ≤ b.tokenCount ∧ Within b.start (b.start + b.tokenCount.toNat) b.parsing
  last : ∃ e, (built.map Built.start).getLast? = some e ∧ token e = opcodeEnd ∧
    ∀ b ∈ built, ∀ r ∈ b.parsing.reads, r ≤ e

/-- `parse` returns, and the instructions it leaves agree with validation. -/
def ParsesSoundly (asserts : Bool) (token : Stream) (n : Nat) : Prop :=
  ∃ fuel built, parse asserts token fuel = some built ∧ Agrees asserts token n built

/-- Every instruction that `validate` walks over is made of its own tokens. -/
def AllFit (asserts : Bool) (token : Stream) : Prop :=
  ∀ starts, Walked asserts token 0 starts → ∀ start ∈ starts, ∀ length : Nat,
    size asserts (token start) (shaderModel (token 0)) = some (length : Int) →
      InstructionFits asserts token (majorVersion (token 0)) start length

private theorem validateLoop_more {unsupported : List Token} {n : Nat} (fuel : Nat) :
    ∀ i count, validateLoop asserts unsupported token fuel i count = some n →
      validateLoop asserts unsupported token (fuel + 1) i count = some n := by
  induction fuel with
  | zero =>
    intro i count done
    cases done
  | succ fuel ih =>
    intro i count done
    rw [validateLoop] at done ⊢
    split_ifs at done ⊢ with ends comment refused
    · exact done
    · exact ih _ _ done
    · exact done
    · obtain ⟨length, sized, done⟩ := Option.bind_eq_some_iff.mp done
      exact Option.bind_eq_some_iff.mpr ⟨length, sized, ih _ _ done⟩

private theorem validate_loop {n fuel : Nat} (done : validate asserts token fuel = some n)
    (positive : 0 < n) : majorVersion (token 0) ≤ 3 ∧
      (shaderType (token 0) = shaderVertex ∨ shaderType (token 0) = shaderPixel) ∧
      ∃ unsupported, ∀ fuel, validate asserts token fuel =
        validateLoop asserts unsupported token fuel 0 1 := by
  have either : shaderType (token 0) = shaderVertex ∨ shaderType (token 0) = shaderPixel := by
    by_contra neither
    rw [not_or] at neither
    rw [validate, if_neg neither.1, if_neg neither.2, ASSERT_bind] at done
    split_ifs at done <;> cases done <;> omega
  have major : majorVersion (token 0) ≤ 3 := by
    by_contra newer
    rcases either with vertex | pixel
    · rw [validate, if_pos vertex, VertexShader.validate, validateAs, if_pos (.inr (by omega))] at done
      cases done
      omega
    · rw [validate, if_neg (by rw [pixel]; decide), if_pos pixel, PixelShader.validate, validateAs,
        if_pos (.inr (by omega))] at done
      cases done
      omega
  refine ⟨major, either, ?_⟩
  rcases either with vertex | pixel
  · refine ⟨vertexUnsupported, fun fuel => ?_⟩
    rw [validate, if_pos vertex, VertexShader.validate, validateAs,
      if_neg (by rw [vertex]; omega)]
  · refine ⟨pixelUnsupported, fun fuel => ?_⟩
    rw [validate, if_neg (by rw [pixel]; decide), if_pos pixel, PixelShader.validate, validateAs,
      if_neg (by rw [pixel]; omega)]

private theorem validate_more {n : Nat} (positive : 0 < n) {fuel : Nat}
    (done : validate asserts token fuel = some n) (k : Nat) :
    validate asserts token (fuel + k) = some n := by
  obtain ⟨-, -, unsupported, loop⟩ := validate_loop done positive
  induction k with
  | zero => exact done
  | succ k ih =>
    rw [loop] at ih ⊢
    exact validateLoop_more _ _ _ ih

private theorem version_plain (major : majorVersion (token 0) ≤ 3)
    (either : shaderType (token 0) = shaderVertex ∨ shaderType (token 0) = shaderPixel) :
    token 0 ≠ opcodeEnd ∧ isComment (token 0) ≠ true := by
  constructor
  · intro ends
    rw [ends] at either
    revert either
    decide
  · intro comment
    have lows : token 0 &&& 0x0000FFFF = opcodeComment := of_decide_eq_true comment
    have high : token 0 &&& 0x0000FF00 = 0x0000FF00 := by
      rw [show (0x0000FF00 : Token) = 0x0000FFFF &&& 0x0000FF00 by decide, ← BitVec.and_assoc, lows]
      decide
    rw [majorVersion, high] at major
    revert major
    decide

private theorem parseLoop_length (fuel n : Nat) : ∀ {i : Nat} {built : List Built},
    parseLoop asserts token fuel n i = some built → built.length = n := by
  induction n with
  | zero =>
    intro i built done
    cases done
    rfl
  | succ n ih =>
    intro i built done
    rw [parseLoop_succ] at done
    obtain ⟨start, -, done⟩ := Option.bind_eq_some_iff.mp done
    obtain ⟨tokenCount, -, done⟩ := Option.bind_eq_some_iff.mp done
    obtain ⟨parsing, -, done⟩ := Option.bind_eq_some_iff.mp done
    obtain ⟨rest, parsed, done⟩ := Option.bind_eq_some_iff.mp done
    cases done
    rw [List.length_cons, ih parsed]

private theorem Walked.sized {i : Nat} {starts : List Nat} (walked : Walked asserts token i starts)
    (known : size asserts opcodeEnd (shaderModel (token 0)) = some 0) : ∀ start ∈ starts,
      ∃ length, size asserts (token start) (shaderModel (token 0)) = some length := by
  induction walked with
  | stop ends =>
    intro start member
    rw [List.mem_singleton.mp member, ends]
    exact ⟨0, known⟩
  | comment _ _ _ ih => exact ih
  | instruction _ _ sized _ ih =>
    intro start member
    rcases List.mem_cons.mp member with rfl | member
    · exact ⟨_, sized⟩
    · exact ih start member

private theorem parse_loop {n fuel : Nat} (done : validate asserts token fuel = some n)
    (positive : 0 < n) : parse asserts token fuel = parseLoop asserts token fuel n 0 := by
  rw [parse, done, Option.bind_eq_bind, Option.bind_some, ASSERT_bind,
    if_pos (fun _ => decide_eq_true (by omega))]

private theorem validates_walked {n fuel : Nat} (done : validate asserts token fuel = some n)
    (positive : 0 < n) : ∃ rest, Walked asserts token 0 (0 :: rest) ∧ (0 :: rest).length = n ∧
      size asserts opcodeEnd (shaderModel (token 0)) = some 0 := by
  obtain ⟨major, either, unsupported, loop⟩ := validate_loop done positive
  rw [loop] at done
  obtain ⟨starts, walked, counted⟩ := validateLoop_walked fuel 0 1 done positive
  obtain ⟨goes, plain⟩ := version_plain major either
  have whole := walked
  cases walked with
  | stop ends => exact absurd ends goes
  | comment _ comment _ => exact absurd comment plain
  | instruction _ _ sized _ => exact ⟨_, whole, by omega, size_end sized⟩

private theorem fits_of_parses {n : Nat} (validated : Validates asserts token n) (positive : 0 < n)
    (sound : ParsesSoundly asserts token n) : AllFit asserts token := by
  obtain ⟨enough, done⟩ := validated
  obtain ⟨rest, walked, counted, known⟩ := validates_walked done positive
  obtain ⟨fuel, built, parsed, agrees⟩ := sound
  intro starts walked' start member length sized
  rw [← agrees.walked.unique walked'] at member
  obtain ⟨b, built_b, rfl⟩ := List.mem_map.mp member
  -- parsing ran along the walk, so its constructors are known
  have constructed : Constructed asserts token b := by
    obtain ⟨m, found, parsed⟩ := Option.bind_eq_some_iff.mp parsed
    have m_eq : m = n := by
      rw [ASSERT_bind] at parsed
      split_ifs at parsed
      rw [← agrees.count, parseLoop_length _ _ parsed]
    subst m_eq
    rw [ASSERT_bind, if_pos (fun _ => decide_eq_true (by omega)), ← counted] at parsed
    exact (parseLoop_boundaries fuel _ walked parsed).2 b built_b
  obtain ⟨sized', nonneg, within⟩ := agrees.own b built_b
  have count : b.tokenCount = length := Option.some_inj.mp (sized'.symm.trans sized)
  rw [count, Int.toNat_natCast] at within
  refine (construct_fit asserts token _ _ length).mp ⟨b.parsing, ?_, within⟩
  rw [← count]
  exact constructed.2

private theorem parses_of_fits {n : Nat} (validated : Validates asserts token n) (positive : 0 < n)
    (fits : AllFit asserts token) : ParsesSoundly asserts token n := by
  obtain ⟨enough, done⟩ := validated
  obtain ⟨rest, walked, counted, known⟩ := validates_walked done positive
  obtain ⟨e, last, ends, -, bounds⟩ := walked.bounds
  have lengths : ∀ start ∈ 0 :: rest, ∃ length : Nat,
      size asserts (token start) (shaderModel (token 0)) = some (length : Int) ∧
      start + length ≤ e := by
    intro start member
    obtain ⟨length, sized⟩ := walked.sized known start member
    obtain ⟨nonneg, inside⟩ := bounds start member length sized
    exact ⟨length.toNat, by rw [sized, Int.toNat_of_nonneg nonneg], by omega⟩
  obtain ⟨more, builds⟩ := parseLoop_builds (0 :: rest) walked fun start member => by
    obtain ⟨length, sized, -⟩ := lengths start member
    obtain ⟨q, constructed, -⟩ := (construct_fit asserts token _ start length).mpr
      (fits _ walked start member length sized)
    exact ⟨length, q, sized, constructed⟩
  obtain ⟨built, parsed⟩ := builds (enough + more) (Nat.le_add_left more enough)
  obtain ⟨boundaries, each⟩ := parseLoop_boundaries _ _ walked parsed
  have own : ∀ b ∈ built, ∃ length : Nat, b.tokenCount = length ∧ b.start + length ≤ e ∧
      size asserts (token b.start) (shaderModel (token 0)) = some b.tokenCount ∧
      Within b.start (b.start + length) b.parsing := by
    intro b member
    have start : b.start ∈ 0 :: rest := boundaries ▸ List.mem_map_of_mem member
    obtain ⟨sized, constructed⟩ := each b member
    obtain ⟨length, sized', inside⟩ := lengths b.start start
    have same : b.tokenCount = length := Option.some_inj.mp (sized.symm.trans sized')
    obtain ⟨q, constructed', within⟩ := (construct_fit asserts token _ b.start length).mpr
      (fits _ walked _ start length sized')
    rw [same, constructed', Option.some_inj] at constructed
    exact ⟨length, same, inside, sized, constructed ▸ within⟩
  refine ⟨enough + more, built, ?_, ?_, boundaries ▸ walked, by rw [boundaries]; rfl, ?_, ?_⟩
  · rw [parse_loop (validate_more positive done more) positive, ← counted]
    exact parsed
  · rw [← counted, ← boundaries, List.length_map]
  · intro b member
    obtain ⟨length, same, -, sized, within⟩ := own b member
    exact ⟨sized, by omega, by rw [same, Int.toNat_natCast]; exact within⟩
  · refine ⟨e, by rw [boundaries]; exact last, ends, fun b member r read => ?_⟩
    obtain ⟨length, -, inside, -, within⟩ := own b member
    have := within.reads r read
    omega

/-- For every stream that validation finds `n` instructions in, parsing agrees with validation
exactly when every instruction is made of its own tokens. -/
theorem parses_soundly (asserts : Bool) (token : Stream) (n : Nat)
    (validated : Validates asserts token n) (positive : 0 < n) :
    ParsesSoundly asserts token n ↔ AllFit asserts token :=
  ⟨fits_of_parses validated positive, parses_of_fits validated positive⟩

def streamOf (tokens : List Token) : Stream := fun i => tokens.getD i 0

/-- `vs_2_0` and a move from one register to another. -/
def moveStream : Stream := streamOf [0xFFFE0200, 0x02000001, 0x800F0000, 0x80E40000, 0x0000FFFF]

private theorem moveStream_walked : Walked true moveStream 0 [0, 1, 4] :=
  .instruction (by decide) (by decide) (show _ = some 0 by decide)
    (.instruction (by decide) (by decide) (show _ = some 2 by decide) (.stop (by decide)))

private theorem moveStream_plain (start length : Nat)
    (bare : opcodeOf (moveStream start) ∉ noDestinationOpcodes)
    (other : opcodeOf (moveStream start) ≠ opcodeDcl)
    (allowed : operationAllowed (majorVersion (moveStream 0)) (moveStream start) = true)
    (fits : PlainFits true moveStream (majorVersion (moveStream 0)) (moveStream start) length
      (start + 1)) :
    InstructionFits true moveStream (majorVersion (moveStream 0)) start length :=
  ⟨fun _ => allowed, fun yes => absurd yes bare, fun yes => absurd yes other, fun _ _ => fits⟩

private theorem moveStream_fits : AllFit true moveStream := by
  intro starts walked start member length sized
  rw [← moveStream_walked.unique walked] at member
  have none : ∀ word : Token, predicated word = false → ∀ position,
      PlainFits true moveStream (majorVersion (moveStream 0)) word 0 position := by
    intro word off position
    exact ⟨by omega, by simp [off], by simpa [destinationLength, off] using .done _ _⟩
  have lengths : ∀ known : Nat, size true (moveStream start) (shaderModel (moveStream 0)) =
      some (known : Int) → length = known := by
    intro known found
    exact Int.ofNat_inj.mp (Option.some_inj.mp (sized.symm.trans found))
  rcases List.mem_cons.mp member with rfl | member
  · obtain rfl := lengths 0 (by decide)
    exact moveStream_plain 0 0 (by decide) (by decide) (by decide) (none _ (by decide) _)
  rcases List.mem_cons.mp member with rfl | member
  · obtain rfl := lengths 2 (by decide)
    refine moveStream_plain 1 2 (by decide) (by decide) (by decide)
      ⟨fun _ => ⟨by decide, by decide, fun yes => absurd yes (by decide)⟩,
        fun yes => absurd yes (by decide), ?_⟩
    have register : literalOf (opcodeOf (moveStream 1)) 0 = Option.none := by decide
    exact .operand ⟨fun _ _ => by decide, ⟨by decide, fun _ _ yes => by simp [register] at yes⟩,
      fun _ yes => absurd yes (by decide)⟩ (.done _ _)
  · obtain rfl := List.mem_singleton.mp member
    obtain rfl := lengths 0 (by decide)
    exact moveStream_plain 4 0 (by decide) (by decide) (by decide) (none _ (by decide) _)

theorem parses_soundly_move : ParsesSoundly true moveStream 3 :=
  (parses_soundly true moveStream 3 ⟨4, by decide⟩ (by decide)).mpr moveStream_fits

/-- `vs_2_0` and a declaration whose length field is zero. -/
def shortDeclaration : Stream := streamOf [0xFFFE0200, 0x0000001F, 0x0000FFFF]

private theorem shortDeclaration_walked (asserts : Bool) :
    Walked asserts shortDeclaration 0 [0, 1, 2] :=
  .instruction (by decide) (by decide) (show _ = some 0 by cases asserts <;> decide)
    (.instruction (by decide) (by decide) (show _ = some 0 by cases asserts <;> decide)
      (.stop (by decide)))

private theorem shortDeclaration_unsound (asserts : Bool) :
    Validates asserts shortDeclaration 3 ∧ ¬ ParsesSoundly asserts shortDeclaration 3 := by
  have validated : Validates asserts shortDeclaration 3 := ⟨4, by cases asserts <;> decide⟩
  refine ⟨validated, fun sound => ?_⟩
  have fits := fits_of_parses validated (by decide) sound _ (shortDeclaration_walked asserts) 1
    (by decide) 0 (by cases asserts <;> decide)
  have enough := (fits.declaration (by decide)).1
  omega

/-- The declaration is validated, and its constructor reads the END token and the one after it. -/
theorem declaration_reads_past_end :
    (Validates true shortDeclaration 3 ∧ ¬ ParsesSoundly true shortDeclaration 3) ∧
      (Validates false shortDeclaration 3 ∧ ¬ ParsesSoundly false shortDeclaration 3) :=
  ⟨shortDeclaration_unsound true, shortDeclaration_unsound false⟩

end RabbitRender.Shaders.TokenBounds
