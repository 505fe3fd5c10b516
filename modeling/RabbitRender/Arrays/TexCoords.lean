/- RabbitRender/Arrays/TexCoords
   layer: theorem
   source: swrender/primitives.cpp, swrender/array.cpp, swrender/matrix.cpp
   digest: The texture coordinates of a vertex are those of its unit exactly if the unit's array
     gives two or three components, or its own current coordinate is used whole. -/

import RabbitRender.Arrays.VertexArrays
import RabbitRender.Primitives
import RabbitRender.Reciprocals

set_option autoImplicit false

namespace RabbitRender.Arrays.TexCoords

open Fixed Vertices
open Lib.ByteMemory (Memory load load_eq byteOf)
open RabbitRender.Matrix.Transforms (Matrixx Transform gIdentityx index is2D)
open Arrays.Compile Arrays.VertexArrays Primitives
open Reciprocals (gglRecip28_near)

/-- How the units are set up; `identity` is `OP_IDENTITY` of the texture transform, `tmu` what
`arrays.tmu` was before the call. -/
structure Units where
  enable : Fin 2 → Bool
  array : Fin 2 → VertexArray
  identity : Fin 2 → Bool
  tmu : Fin 2

structure Data where
  memory : Memory
  current : Fin 2 → Vec4
  matrix : Fin 2 → Matrixx

namespace Units

variable (gglFloatToFixed : Nat → Int) (u : Units) (d : Data)

/-- `arrays.tmu` after the loop of `validate_arrays`, which ends with the last enabled unit. -/
def shared : Fin 2 :=
  (List.finRange 2).foldl (fun tmu i => if u.enable i then i else tmu) u.tmu

/-- `transforms.texture[i].transform`; a stack that is validated picks the generic functions. -/
def transform (i : Fin 2) : Transform :=
  if u.identity i then .identity else ⟨d.matrix i, is2D (d.matrix i), .generic⟩

/-- `texture[i].fetch`: `currentTexCoord`, or the entry of `texture_fct`. -/
def fetchTexture (i : Fin 2) (element : Nat) (v : Vec4) : Vec4 :=
  let a := u.array i
  if a.Ready then Fetcher.fetch gglFloatToFixed d.memory ⟨a.size, a.type⟩ v (a.element element)
  else d.current u.shared

/-- The transform is skipped when `tr.ops` is 0, else it is that for the size of the array. -/
def texTransform (i : Fin 2) (v : Vec4) : Vec4 :=
  let tr := u.transform d i
  if tr.points = .nop then v else point tr (u.array i).size v

def pipeline (p : Pipeline) : Pipeline :=
  { p with
    textureEnable := u.enable
    fetchTexture := u.fetchTexture gglFloatToFixed d
    texTransform := u.texTransform d }

/-- The unit's own coordinate: the element of its array, completed with `r = 0` and `q = 1`, or
its current coordinate. -/
def own (i : Fin 2) (element : Nat) : Vec4 :=
  let a := u.array i
  if a.Ready then
    Fetcher.fetch gglFloatToFixed d.memory ⟨a.size, a.type⟩ ⟨0, 0, 0, 0x10000⟩ (a.element element)
  else d.current i

def texMatrix (i : Fin 2) : Matrixx := (u.transform d i).matrix

end Units

/-- Row `j` of a matrix applied to a coordinate, with 32 binary digits after the point. -/
def exact (m : Matrixx) (o : Vec4) (j : Fin 4) : Int :=
  o.x * m (index 0 j) + o.y * m (index 1 j) + o.z * m (index 2 j) + o.w * m (index 3 j)

def Rounded (e n : Int) : Prop := |2 ^ 16 * n - e| < 2 ^ 16

def InRange (e : Int) : Prop := -2 ^ 47 ≤ e ∧ e ≤ 2 ^ 47 - 2 ^ 16

/-- The word of `s / q`: half a unit off, and by 13 parts of 2 ^ 16 for the reciprocal. -/
def Quotient (S s q : Int) : Prop :=
  ∃ n, 2 * |n * q - s * 2 ^ 16| ≤ |q| + 26 * |s| ∧ S = wrap32 n

/-- How many of its components a coordinate needs: the others are `r = 0` and `q = 1`. -/
def Kind (k : Components) (o : Vec4) : Prop :=
  match k with
  | .two => o.z = 0 ∧ o.w = 0x10000
  | .three => o.w = 0x10000
  | .four => True

/-- A coordinate of the kind whose `s`, `t` and `q` are words, with one half at least for `q`. -/
structure Admissible (k : Components) (m : Matrixx) (o : Vec4) : Prop where
  kind : Kind k o
  s : InRange (exact m o 0)
  t : InRange (exact m o 1)
  q : InRange (exact m o 3)
  half : 2 ^ 31 ≤ |exact m o 3|

section Property

variable (gglFloatToFixed : Nat → Int) (u : Units)

/-- `S` and `T` of the vertex are those of the unit's own coordinate under its matrix. -/
def Generated (d : Data) (i : Fin 2) (v : Vertex) : Prop :=
  let o := u.own gglFloatToFixed d i (elementOf v.index)
  let m := u.texMatrix d i
  ∃ s t q, Rounded (exact m o 0) s ∧ Rounded (exact m o 1) t ∧ Rounded (exact m o 3) q ∧
    Quotient (v.texture i).x s q ∧ Quotient (v.texture i).y t q

def Prepared (d : Data) (i : Fin 2) (k : Components) (v : Vertex) : Prop :=
  Admissible k (u.texMatrix d i) (u.own gglFloatToFixed d i (elementOf v.index)) ∧
    (v.flags &&& tt ≠ 0 → Generated gglFloatToFixed u d i v)

/-- `fetch_texcoord` gives each of its vertices the coordinates of unit `i`, whatever the arrays,
the current coordinates, the matrices and the vertices hold. -/
def Generates (i : Fin 2) (k : Components) : Prop :=
  ∀ (d : Data) (p : Pipeline) (m : Machine) (v0 v1 v2 : Nat), p.tmus = true →
    (∀ slot ∈ [v0, v1, v2], Prepared gglFloatToFixed u d i k (m.verts slot)) →
    ∀ slot ∈ [v0, v1, v2], Generated gglFloatToFixed u d i
      ((fetchTexcoord (u.pipeline gglFloatToFixed d p) m v0 v1 v2).verts slot)

/-- An array of two or three components, or no use of a fourth one; for a current coordinate the
unit is the last one enabled, and the transform takes all the components that are needed. -/
def Sound (i : Fin 2) (k : Components) : Prop :=
  if (u.array i).Ready then (u.array i).size ≠ .four ∨ k ≠ .four
  else k ≠ .four ∧ u.shared = i ∧ (u.identity i = true ∨ (u.array i).size ≠ .two ∨ k = .two)

end Property

theorem quotient_one {s : Int} (low : -2 ^ 31 ≤ s) (high : s < 2 ^ 31) : Quotient s s 0x10000 := by
  refine ⟨s, ?_, (wrap32_of_bounds low high).symm⟩
  have zero : s * 0x10000 - s * 2 ^ 16 = 0 := by ring
  rw [zero, abs_zero, mul_zero]
  positivity

theorem quotient_gglMulx (s : Int) {q : Int} (large : 2 ^ 15 ≤ q.natAbs)
    (word : q.natAbs ≤ 2 ^ 31) : Quotient (gglMulx s (gglRecip28 q) 28) s q := by
  obtain ⟨upper, lower⟩ := gglRecip28_near large (by omega)
  set r := gglRecip28 q
  set n := (s * r + 2 ^ (28 - 1)) >>> (28 : Nat) with rounded
  refine ⟨n, ?_, rfl⟩
  rw [Int.shiftRight_eq_div_pow] at rounded
  have product : |2 ^ 28 * n - s * r| ≤ 2 ^ 27 := by
    rw [abs_le]
    constructor <;> omega
  have inverse : |q * r - 2 ^ 44| ≤ 2 ^ 31 + 2 ^ 30 + 2 ^ 15 := by
    rw [abs_le]
    constructor <;> omega
  have parts : 2 ^ 28 * (n * q - s * 2 ^ 16) =
      (2 ^ 28 * n - s * r) * q + s * (q * r - 2 ^ 44) := by ring
  have bound : 2 ^ 28 * |n * q - s * 2 ^ 16| ≤ 2 ^ 27 * |q| + |s| * (2 ^ 31 + 2 ^ 30 + 2 ^ 15) := by
    calc 2 ^ 28 * |n * q - s * 2 ^ 16| = |2 ^ 28 * (n * q - s * 2 ^ 16)| := by
          rw [abs_mul, abs_of_pos (by positivity : (0 : Int) < 2 ^ 28)]
      _ ≤ |(2 ^ 28 * n - s * r) * q| + |s * (q * r - 2 ^ 44)| := parts ▸ abs_add_le _ _
      _ = |2 ^ 28 * n - s * r| * |q| + |s| * |q * r - 2 ^ 44| := by rw [abs_mul, abs_mul]
      _ ≤ 2 ^ 27 * |q| + |s| * (2 ^ 31 + 2 ^ 30 + 2 ^ 15) :=
          add_le_add (mul_le_mul_of_nonneg_right product (abs_nonneg q))
            (mul_le_mul_of_nonneg_left inverse (abs_nonneg s))
  have sign := abs_nonneg s
  omega

section Rounding

variable {e : Int}

theorem Rounded.word {n : Int} (rounded : Rounded e n) (range : InRange e) :
    -2 ^ 31 ≤ n ∧ n < 2 ^ 31 := by
  have bounds := abs_lt.mp rounded
  obtain ⟨low, high⟩ := range
  omega

theorem Rounded.divisor {n : Int} (rounded : Rounded e n) (range : InRange e)
    (half : 2 ^ 31 ≤ |e|) : 2 ^ 15 ≤ n.natAbs ∧ n.natAbs ≤ 2 ^ 31 := by
  have word := rounded.word range
  have bounds := abs_lt.mp rounded
  rcases le_abs'.mp half with negative | positive
  · omega
  · omega

theorem rounded_floor (range : InRange e) : Rounded e (wrap32 (e >>> (16 : Nat))) := by
  obtain ⟨low, high⟩ := range
  rw [Int.shiftRight_eq_div_pow, wrap32_of_bounds (by omega) (by omega)]
  apply abs_lt.mpr
  constructor <;> omega

theorem rounded_nearest (range : InRange e) :
    Rounded e (wrap32 ((e + 0x8000) >>> (16 : Nat))) := by
  obtain ⟨low, high⟩ := range
  rw [Int.shiftRight_eq_div_pow, wrap32_of_bounds (by omega) (by omega)]
  apply abs_lt.mpr
  constructor <;> omega

end Rounding

theorem shift_add (x c : Int) : x >>> (16 : Nat) + c = (x + 0x10000 * c) >>> (16 : Nat) := by
  rw [Int.shiftRight_eq_div_pow, Int.shiftRight_eq_div_pow]
  omega

theorem rounded_point (m : Matrixx) (flat : Bool) (size : Components) (v : Vec4) {o : Vec4}
    (x : v.x = o.x) (y : v.y = o.y) (z : size ≠ .two → v.z = o.z) (cut : size = .two → o.z = 0)
    (w : v.w = 0x10000) (one : o.w = 0x10000) :
    let r := point ⟨m, flat, .generic⟩ size v
    (InRange (exact m o 0) → Rounded (exact m o 0) r.x) ∧
      (InRange (exact m o 1) → Rounded (exact m o 1) r.y) ∧
      (InRange (exact m o 3) → Rounded (exact m o 3) r.w) := by
  cases size with
  | two =>
    have row (j : Fin 4) : exact m o j =
        o.x * m (index 0 j) + o.y * m (index 1 j) + 0x10000 * m (index 3 j) := by
      rw [exact, cut rfl, one]
      ring
    have round (j : Fin 4) (range : InRange (exact m o j)) : Rounded (exact m o j)
        (mla2a v.x (m (index 0 j)) v.y (m (index 1 j)) (m (index 3 j))) := by
      rw [mla2a, shift_add, x, y, ← row]
      exact rounded_floor range
    exact ⟨round 0, round 1, round 3⟩
  | three =>
    have row (j : Fin 4) : exact m o j = o.x * m (index 0 j) + o.y * m (index 1 j) +
        o.z * m (index 2 j) + 0x10000 * m (index 3 j) := by
      rw [exact, one]
    have round (j : Fin 4) (range : InRange (exact m o j)) : Rounded (exact m o j)
        (mla3a v.x (m (index 0 j)) v.y (m (index 1 j)) v.z (m (index 2 j)) (m (index 3 j))) := by
      rw [mla3a, shift_add, x, y, z (by decide), ← row]
      exact rounded_floor range
    exact ⟨round 0, round 1, round 3⟩
  | four =>
    have same : v = o := by
      obtain ⟨vx, vy, vz, vw⟩ := v
      obtain ⟨ox, oy, oz, ow⟩ := o
      simp only [Vec4.mk.injEq]
      exact ⟨x, y, z (by decide), w.trans one.symm⟩
    have round (j : Fin 4) (range : InRange (exact m o j)) : Rounded (exact m o j)
        (mla4 v.x (m (index 0 j)) v.y (m (index 1 j)) v.z (m (index 2 j)) v.w (m (index 3 j))) := by
      rw [same]
      exact rounded_nearest range
    exact ⟨round 0, round 1, round 3⟩

section Coordinates

variable {gglFloatToFixed : Nat → Int} {u : Units} {d : Data} {i : Fin 2} {k : Components}

theorem fetchTexture_own (sound : Sound u i k) {element : Nat}
    (kind : Kind k (u.own gglFloatToFixed d i element)) (v : Vec4) :
    let c := u.fetchTexture gglFloatToFixed d i element v
    let o := u.own gglFloatToFixed d i element
    c.x = o.x ∧ c.y = o.y ∧ ((u.array i).size ≠ .two → c.z = o.z) ∧
      (u.identity i = false → (u.array i).size = .two → o.z = 0) ∧ o.w = 0x10000 := by
  unfold Sound at sound
  unfold Units.own at kind
  unfold Units.fetchTexture Units.own
  by_cases ready : (u.array i).Ready
  · simp only [if_pos ready] at sound kind ⊢
    unfold Fetcher.fetch at kind ⊢
    cases size : (u.array i).size with
    | two => exact ⟨rfl, rfl, fun h => absurd rfl h, fun _ _ => rfl, rfl⟩
    | three => exact ⟨rfl, rfl, fun _ => rfl, fun _ h => absurd h (by decide), rfl⟩
    | four =>
      rw [size] at kind sound
      refine ⟨rfl, rfl, fun _ => rfl, fun _ h => absurd h (by decide), ?_⟩
      cases k with
      | two => exact kind.2
      | three => exact kind
      | four => exact absurd sound (by simp)
  · simp only [if_neg ready] at sound kind ⊢
    obtain ⟨three, last, covered⟩ := sound
    rw [last]
    have one : (d.current i).w = 0x10000 := by
      cases k with
      | two => exact kind.2
      | three => exact kind
      | four => exact absurd rfl three
    refine ⟨rfl, rfl, fun _ => rfl, fun generic two => ?_, one⟩
    have flat : k = .two := by
      rcases covered with nop | size | flat
      · exact absurd (generic.symm.trans nop) (by decide)
      · exact absurd two size
      · exact flat
    rw [flat] at kind
    exact kind.1

theorem rounded_texTransform (sound : Sound u i k) {element : Nat}
    (due : Admissible k (u.texMatrix d i) (u.own gglFloatToFixed d i element)) (v : Vec4) :
    let c := u.texTransform d i { u.fetchTexture gglFloatToFixed d i element v with w := 0x10000 }
    let o := u.own gglFloatToFixed d i element
    let m := u.texMatrix d i
    Rounded (exact m o 0) c.x ∧ Rounded (exact m o 1) c.y ∧ Rounded (exact m o 3) c.w := by
  obtain ⟨x, y, z, cut, one⟩ := fetchTexture_own sound due.kind v
  obtain ⟨-, rangeS, rangeT, rangeQ, -⟩ := due
  unfold Units.texMatrix Units.transform at rangeS rangeT rangeQ ⊢
  unfold Units.texTransform Units.transform
  cases nop : u.identity i with
  | true =>
    simp only [if_true, Transform.identity]
    have row (j : Fin 4) (n : Int) (value : n * 2 ^ 16 = exact gIdentityx
        (u.own gglFloatToFixed d i element) j) :
        Rounded (exact gIdentityx (u.own gglFloatToFixed d i element) j) n := by
      rw [Rounded, ← value, mul_comm, sub_self, abs_zero]
      decide
    refine ⟨row 0 _ ?_, row 1 _ ?_, row 3 _ ?_⟩
    · rw [x]
      simp [exact, gIdentityx, index]
    · rw [y]
      simp [exact, gIdentityx, index]
    · simp [exact, gIdentityx, index, one]
  | false =>
    rw [nop] at rangeS rangeT rangeQ
    simp only [Bool.false_eq_true, if_false, reduceCtorEq] at rangeS rangeT rangeQ ⊢
    obtain ⟨s, t, q⟩ := rounded_point (d.matrix i) (is2D (d.matrix i)) (u.array i).size
      { u.fetchTexture gglFloatToFixed d i element v with w := 0x10000 } x y z (cut nop) rfl one
    exact ⟨s rangeS, t rangeT, q rangeQ⟩

theorem generated_texCoord (sound : Sound u i k) (p : Pipeline) {v : Vertex}
    (due : Admissible k (u.texMatrix d i) (u.own gglFloatToFixed d i (elementOf v.index))) :
    let c := texCoord (u.pipeline gglFloatToFixed d p) i v
    let o := u.own gglFloatToFixed d i (elementOf v.index)
    let m := u.texMatrix d i
    ∃ s t q, Rounded (exact m o 0) s ∧ Rounded (exact m o 1) t ∧ Rounded (exact m o 3) q ∧
      Quotient c.x s q ∧ Quotient c.y t q := by
  obtain ⟨s, t, q⟩ := rounded_texTransform sound due (v.texture i)
  refine ⟨_, _, _, s, t, q, ?_⟩
  unfold texCoord Units.pipeline
  dsimp only
  split_ifs with divided
  · obtain ⟨large, word⟩ := q.divisor due.q due.half
    exact ⟨quotient_gglMulx _ large word, quotient_gglMulx _ large word⟩
  · rw [not_not.mp divided]
    obtain ⟨lowS, highS⟩ := s.word due.s
    obtain ⟨lowT, highT⟩ := t.word due.t
    exact ⟨quotient_one lowS highS, quotient_one lowT highT⟩

end Coordinates

theorem shade_foldl {Q R : Vertex → Prop} {f : Vertex → Vertex} (step : ∀ v, Q v → R (f v))
    (keep : ∀ v, R v → Q v) (slot : Nat) (slots : List Nat) (m : Machine) :
    let r := slots.foldl (fun m slot => shade m slot f) m
    (R (m.verts slot) → R (r.verts slot)) ∧
      (slot ∈ slots → Q (m.verts slot) → R (r.verts slot)) := by
  induction slots generalizing m with
  | nil => exact ⟨id, fun h => absurd h List.not_mem_nil⟩
  | cons first slots ih =>
    obtain ⟨kept, reached⟩ := ih (shade m first f)
    by_cases here : slot = first
    · have shaded : (shade m first f).verts slot = f (m.verts slot) := by
        rw [here]
        exact m.set_same first _
      have gives (q : Q (m.verts slot)) : R ((shade m first f).verts slot) := by
        rw [shaded]
        exact step _ q
      exact ⟨fun r => kept (gives (keep _ r)), fun _ q => kept (gives q)⟩
    · rw [shade_other m f here] at kept reached
      exact ⟨kept, fun h => reached ((List.mem_cons.mp h).resolve_left here)⟩

theorem tt_of_all {a b c : Flags} (all : a &&& b &&& c &&& tt ≠ 0) :
    a &&& tt ≠ 0 ∧ b &&& tt ≠ 0 ∧ c &&& tt ≠ 0 := by
  have first : a &&& b &&& c &&& tt = a &&& tt &&& (b &&& c) := by ac_rfl
  have second : a &&& b &&& c &&& tt = b &&& tt &&& (a &&& c) := by ac_rfl
  have third : a &&& b &&& c &&& tt = c &&& tt &&& (a &&& b) := by ac_rfl
  refine ⟨fun clear => all ?_, fun clear => all ?_, fun clear => all ?_⟩
  · rw [first, clear]
    exact BitVec.zero_and
  · rw [second, clear]
    exact BitVec.zero_and
  · rw [third, clear]
    exact BitVec.zero_and

/-- A property of the index and the coordinates of one unit that `texCoord` establishes holds of
every vertex that `fetch_texcoord` is given. -/
theorem fetchTexcoord_texture {p : Pipeline} {i : Fin 2} {A : Int → Prop} {G : Int → Vec4 → Prop}
    (coord : ∀ v : Vertex, A v.index → G v.index (texCoord p i v))
    (enabled : p.textureEnable i = true) (tmus : p.tmus = true) (m : Machine) {v0 v1 v2 slot : Nat}
    (given : slot ∈ [v0, v1, v2]) (index : A (m.verts slot).index)
    (textured : (m.verts slot).flags &&& tt ≠ 0 →
      G (m.verts slot).index ((m.verts slot).texture i)) :
    G ((fetchTexcoord p m v0 v1 v2).verts slot).index
      (((fetchTexcoord p m v0 v1 v2).verts slot).texture i) := by
  let Q (v : Vertex) : Prop := A v.index ∧ (v.flags &&& tt ≠ 0 → G v.index (v.texture i))
  let R (v : Vertex) : Prop := A v.index ∧ G v.index (v.texture i)
  have keep (v : Vertex) (r : R v) : Q v := ⟨r.1, fun _ => r.2⟩
  have unit (v : Vertex) (q : Q v) : R (texturize p i v) := by
    unfold texturize
    split_ifs with done
    · exact ⟨q.1, q.2 done⟩
    · refine ⟨q.1, ?_⟩
      dsimp only
      rw [Function.update_self]
      exact coord v q.1
  have other {j : Fin 2} (different : i ≠ j) (v : Vertex) :
      (Q v → Q (texturize p j v)) ∧ (R v → R (texturize p j v)) := by
    have same : (texturize p j v).index = v.index ∧ (texturize p j v).flags = v.flags ∧
        (texturize p j v).texture i = v.texture i := by
      unfold texturize
      split_ifs
      · exact ⟨rfl, rfl, rfl⟩
      · exact ⟨rfl, rfl, Function.update_of_ne different _ _⟩
    obtain ⟨sameIndex, sameFlags, sameTexture⟩ := same
    simp only [Q, R, sameIndex, sameFlags, sameTexture]
    exact ⟨id, id⟩
  have run {P S : Vertex → Prop} {f : Vertex → Vertex} (step : ∀ v, P v → S (f v))
      (kept : ∀ v, S v → P v) {m : Machine} (start : P (m.verts slot)) :
      S ((shade (shade (shade m v0 f) v1 f) v2 f).verts slot) :=
    (shade_foldl step kept slot [v0, v1, v2] m).2 given start
  let pass (m : Machine) (j : Fin 2) : Machine :=
    if p.textureEnable j then
      shade (shade (shade m v0 (texturize p j)) v1 (texturize p j)) v2 (texturize p j)
    else m
  have own {m : Machine} (start : Q (m.verts slot)) : R ((pass m i).verts slot) := by
    simp only [pass, enabled, if_true]
    exact run unit keep start
  have others {j : Fin 2} (different : i ≠ j) {m : Machine} :
      (Q (m.verts slot) → Q ((pass m j).verts slot)) ∧
        (R (m.verts slot) → R ((pass m j).verts slot)) := by
    simp only [pass]
    split_ifs
    · exact ⟨run (fun v => (other different v).1) fun _ q => q,
        run (fun v => (other different v).2) fun _ r => r⟩
    · exact ⟨id, id⟩
  have first_or_second : i = 0 ∨ i = 1 := by omega
  have both {m : Machine} (start : Q (m.verts slot)) : R ((pass (pass m 0) 1).verts slot) := by
    rcases first_or_second with rfl | rfl
    · exact (others (by decide)).2 (own start)
    · exact own ((others (by decide)).1 start)
  have start : Q (m.verts slot) := ⟨index, textured⟩
  suffices R ((fetchTexcoord p m v0 v1 v2).verts slot) from this.2
  unfold fetchTexcoord
  rw [tmus]
  simp only [Bool.not_true, Bool.false_eq_true, if_false]
  by_cases done :
      (m.verts v0).flags &&& (m.verts v1).flags &&& (m.verts v2).flags &&& tt ≠ 0
  · rw [if_pos done]
    refine ⟨index, textured ?_⟩
    obtain ⟨first, second, third⟩ := tt_of_all done
    simp only [List.mem_cons, List.not_mem_nil, or_false] at given
    rcases given with rfl | rfl | rfl
    · exact first
    · exact second
    · exact third
  · rw [if_neg done]
    exact run (S := R) (f := markTT) (fun _ r => r) (fun _ r => r) (both start)

section Sufficient

variable {gglFloatToFixed : Nat → Int} {u : Units} {i : Fin 2} {k : Components}

theorem generates_of_sound (enabled : u.enable i = true) (sound : Sound u i k) :
    Generates gglFloatToFixed u i k := by
  intro d p m v0 v1 v2 tmus prepared slot given
  obtain ⟨due, done⟩ := prepared slot given
  let o (index : Int) : Vec4 := u.own gglFloatToFixed d i (elementOf index)
  let M := u.texMatrix d i
  exact fetchTexcoord_texture (A := fun index => Admissible k M (o index))
    (G := fun index c => ∃ s t q, Rounded (exact M (o index) 0) s ∧
      Rounded (exact M (o index) 1) t ∧ Rounded (exact M (o index) 3) q ∧
      Quotient c.x s q ∧ Quotient c.y t q)
    (fun _ => generated_texCoord sound p) enabled tmus m given due done

end Sufficient

theorem rounded_whole {a n : Int} (rounded : Rounded (2 ^ 16 * a) n) : n = a := by
  have bounds := abs_lt.mp rounded
  omega

theorem inRange_whole {a : Int} (low : -2 ^ 31 ≤ a) (high : a < 2 ^ 31) : InRange (2 ^ 16 * a) := by
  constructor <;> omega

theorem exact_identity (o : Vec4) : exact gIdentityx o 0 = 2 ^ 16 * o.x ∧
    exact gIdentityx o 1 = 2 ^ 16 * o.y ∧ exact gIdentityx o 3 = 2 ^ 16 * o.w := by
  simp [exact, gIdentityx, index, mul_comm]

theorem not_quotient_two {s q : Int} (roundedS : Rounded (2 ^ 16 * 0x20000) s)
    (roundedQ : Rounded (2 ^ 16 * 0x20000) q) : ¬Quotient 0x20000 s q := by
  rintro ⟨n, near, same⟩
  rw [rounded_whole roundedS, rounded_whole roundedQ] at near
  have size : |n * 0x20000 - 0x20000 * 2 ^ 16| ≤ 27 * 2 ^ 16 := by
    have one : |(0x20000 : Int)| = 2 ^ 17 := by decide
    rw [one] at near
    omega
  have bounds := abs_le.mp size
  rw [wrap32_of_bounds (by omega) (by omega)] at same
  omega

/-- A memory of equal words from `p` on. -/
def pattern (p : Int) (bytes v : Nat) : Memory := fun b => byteOf v ((b - p) % bytes).toNat

theorem load_pattern (p : Int) (bytes v i : Nat) :
    load (pattern p bytes v) (p + (i * bytes : Nat)) bytes = v % 2 ^ (bytes * 8) := by
  apply load_eq
  intro k small
  have offset : (p + (i * bytes : Nat) + k - p : Int) = k + bytes * i := by
    push_cast
    ring
  rw [pattern, offset, Int.add_mul_emod_self_left, ← Int.natCast_mod, Int.toNat_natCast,
    Nat.mod_eq_of_lt small]

def two : ArrayType → Nat
  | .byte => 2
  | .short => 2
  | .float => 0x40000000
  | .fixed => 0x20000

section Failing

variable {gglFloatToFixed : Nat → Int} {u : Units} {d : Data} {i : Fin 2} {k : Components}

theorem component_two (float : gglFloatToFixed 0x40000000 = 0x20000) (type : ArrayType) (p : Int)
    (n : Nat) : component gglFloatToFixed (pattern p type.bytes (two type)) type
      (p + (n * type.bytes : Nat)) = 0x20000 := by
  have word := load_pattern p type.bytes (two type) n
  cases type with
  | byte =>
    show gglIntToFixed (signed 1 (load _ _ 1)) = _
    rw [show load _ _ 1 = _ from word]
    decide
  | short =>
    show gglIntToFixed (signed 2 (load _ _ 2)) = _
    rw [show load _ _ 2 = _ from word]
    decide
  | float =>
    show gglFloatToFixed (load _ _ 4) = _
    rw [show load _ _ 4 = _ from word]
    exact float
  | fixed =>
    show signed 4 (load _ _ 4) = _
    rw [show load _ _ 4 = _ from word]
    decide

theorem texTransform_identity (matrix : d.matrix i = gIdentityx) {x y z : Int}
    (low : -2 ^ 31 ≤ x) (high : x < 2 ^ 31) :
    (u.texTransform d i ⟨x, y, z, 0x10000⟩).x = x ∧
      (u.texTransform d i ⟨x, y, z, 0x10000⟩).w = 0x10000 := by
  have floor : (x * 0x10000) >>> (16 : Nat) = x := by
    rw [Int.shiftRight_eq_div_pow]
    omega
  have nearest : (x * 0x10000 + 0x8000) >>> (16 : Nat) = x := by
    rw [Int.shiftRight_eq_div_pow]
    omega
  have word := wrap32_of_bounds low high
  have one : wrap32 0x10000 = 0x10000 := by decide
  unfold Units.texTransform Units.transform
  rw [matrix]
  cases nop : u.identity i with
  | true => exact ⟨rfl, rfl⟩
  | false =>
    simp only [Bool.false_eq_true, if_false, reduceCtorEq]
    cases (u.array i).size with
    | two => simp [point, mla2a, gIdentityx, floor, word, one]
    | three => simp [point, mla3a, gIdentityx, floor, word, one]
    | four =>
      constructor
      · simp [point, mla4, gIdentityx, nearest, word]
      · show wrap32 ((x * 0 + y * 0 + z * 0 + 0x10000 * 0x10000 + 0x8000) >>> (16 : Nat)) = _
        rw [Int.mul_zero, Int.mul_zero, Int.mul_zero]
        decide

theorem texMatrix_identity (matrix : d.matrix i = gIdentityx) : u.texMatrix d i = gIdentityx := by
  unfold Units.texMatrix Units.transform
  split_ifs
  · rfl
  · exact matrix

/-- Where a vertex gets one `S` for element 0, and no quotient of its coordinate has that word,
the unit does not generate its coordinates. -/
theorem not_generates {X : Int} (enabled : u.enable i = true)
    (x : ∀ v, (u.texTransform d i
      { u.fetchTexture gglFloatToFixed d i 0 v with w := 0x10000 }).x = X)
    (w : ∀ v, (u.texTransform d i
      { u.fetchTexture gglFloatToFixed d i 0 v with w := 0x10000 }).w = 0x10000)
    (due : Admissible k (u.texMatrix d i) (u.own gglFloatToFixed d i 0))
    (far : ∀ s q, Rounded (exact (u.texMatrix d i) (u.own gglFloatToFixed d i 0) 0) s →
      Rounded (exact (u.texMatrix d i) (u.own gglFloatToFixed d i 0) 3) q → ¬Quotient X s q) :
    ¬Generates gglFloatToFixed u i k := by
  intro generates
  let p : Pipeline := { Pipeline.flat fun _ => ⟨0, 0, 0, 0⟩ with tmus := true }
  have clear : ¬((Machine.init.verts 0).flags &&& tt ≠ 0) := by decide
  have given : 0 ∈ [0, 0, 0] := List.mem_cons_self
  obtain ⟨s, t, q, roundedS, -, roundedQ, quotient, -⟩ := generates d p Machine.init 0 0 0 rfl
    (fun slot _ => ⟨due, fun done => absurd done clear⟩) 0 given
  have coord (v : Vertex) (first : v.index = 0) :
      v.index = 0 ∧ (texCoord (u.pipeline gglFloatToFixed d p) i v).x = X := by
    refine ⟨first, ?_⟩
    have element : elementOf v.index = 0 := by
      rw [first]
      rfl
    unfold texCoord Units.pipeline
    dsimp only
    rw [element, w, if_neg (not_not.mpr rfl)]
    exact x _
  obtain ⟨first, value⟩ := fetchTexcoord_texture (A := fun index => index = 0)
    (G := fun index c => index = 0 ∧ c.x = X) coord enabled rfl Machine.init
    given rfl (fun done => absurd done clear)
  rw [first] at roundedS roundedQ
  rw [value] at quotient
  exact far s q roundedS roundedQ quotient

theorem not_generates_projective (enabled : u.enable i = true) {r : Int}
    (fetched : ∀ v, ∃ z, { u.fetchTexture gglFloatToFixed d i 0 v with w := 0x10000 } =
      (⟨0x20000, 0x20000, z, 0x10000⟩ : Vec4))
    (own : u.own gglFloatToFixed d i 0 = ⟨0x20000, 0x20000, r, 0x20000⟩)
    (matrix : d.matrix i = gIdentityx) : ¬Generates gglFloatToFixed u i .four := by
  have identity := texMatrix_identity (u := u) matrix
  have rows := exact_identity ⟨0x20000, 0x20000, r, 0x20000⟩
  have unchanged (z : Int) := texTransform_identity (u := u) matrix (x := 0x20000) (y := 0x20000)
    (z := z) (by decide) (by decide)
  have code (v : Vec4) := Exists.elim (fetched v) fun z same => same ▸ unchanged z
  refine not_generates enabled (fun v => (code v).1) (fun v => (code v).2) ?_ ?_
  · rw [identity, own]
    have whole : InRange (2 ^ 16 * 0x20000) := inRange_whole (by decide) (by decide)
    refine ⟨trivial, ?_, ?_, ?_, ?_⟩
    · exact rows.1 ▸ whole
    · exact rows.2.1 ▸ whole
    · exact rows.2.2 ▸ whole
    · rw [rows.2.2]
      exact (by decide : (2 ^ 31 : Int) ≤ |2 ^ 16 * 0x20000|)
  · rw [identity, own, rows.1, rows.2.2]
    exact fun s q => not_quotient_two

theorem not_generates_affine (enabled : u.enable i = true) {a b : Int} (apart : |a - b| = 0x10000)
    (small : |a| ≤ 0x10000)
    (x : ∀ v, (u.texTransform d i
      { u.fetchTexture gglFloatToFixed d i 0 v with w := 0x10000 }).x = a)
    (w : ∀ v, (u.texTransform d i
      { u.fetchTexture gglFloatToFixed d i 0 v with w := 0x10000 }).w = 0x10000)
    (kind : Kind k (u.own gglFloatToFixed d i 0))
    (s : exact (u.texMatrix d i) (u.own gglFloatToFixed d i 0) 0 = 2 ^ 16 * b)
    (t : exact (u.texMatrix d i) (u.own gglFloatToFixed d i 0) 1 = 2 ^ 16 * 0)
    (q : exact (u.texMatrix d i) (u.own gglFloatToFixed d i 0) 3 = 2 ^ 16 * 0x10000) :
    ¬Generates gglFloatToFixed u i k := by
  have sides := abs_le.mp small
  have distance := abs_le.mp apart.le
  refine not_generates enabled x w ⟨kind, ?_, ?_, ?_, ?_⟩ ?_
  · rw [s]
    exact inRange_whole (by omega) (by omega)
  · rw [t]
    exact inRange_whole (by decide) (by decide)
  · rw [q]
    exact inRange_whole (by decide) (by decide)
  · rw [q]
    decide
  · rw [s, q]
    rintro s q roundedS roundedQ ⟨n, near, same⟩
    rw [rounded_whole roundedS, rounded_whole roundedQ] at near
    have one : |(0x10000 : Int)| = 2 ^ 16 := by decide
    have size : |n * 0x10000 - b * 2 ^ 16| ≤ 27 * 2 ^ 16 := by
      rw [one] at near
      have large : |b| ≤ 2 ^ 17 := by
        rw [abs_le]
        omega
      omega
    have bounds := abs_le.mp size
    rw [wrap32_of_bounds (by omega) (by omega)] at same
    rcases abs_cases (a - b) with ⟨value, -⟩ | ⟨value, -⟩ <;> omega

end Failing

section Necessary

variable {gglFloatToFixed : Nat → Int} {u : Units} {i : Fin 2}

private theorem not_generates_array (float : gglFloatToFixed 0x40000000 = 0x20000)
    (enabled : u.enable i = true) (ready : (u.array i).Ready) (four : (u.array i).size = .four) :
    ¬Generates gglFloatToFixed u i .four := by
  let base := (u.array i).element 0
  let d : Data := ⟨pattern base (u.array i).type.bytes (two (u.array i).type),
    fun _ => ⟨0, 0, 0, 0⟩, fun _ => gIdentityx⟩
  have element (v : Vec4) :
      Fetcher.fetch gglFloatToFixed d.memory ⟨.four, (u.array i).type⟩ v base =
        ⟨0x20000, 0x20000, 0x20000, 0x20000⟩ := by
    have all (n : Nat) := component_two float (u.array i).type base n
    simp only [Fetcher.fetch, d, all]
  have own : u.own gglFloatToFixed d i 0 = ⟨0x20000, 0x20000, 0x20000, 0x20000⟩ := by
    simp only [Units.own, if_pos ready, four]
    exact element _
  refine not_generates_projective enabled (fun v => ⟨0x20000, ?_⟩) own rfl
  simp only [Units.fetchTexture, if_pos ready, four]
  rw [element]

private theorem not_generates_current (enabled : u.enable i = true)
    (disabled : ¬(u.array i).Ready) : ¬Generates gglFloatToFixed u i .four := by
  let d : Data := ⟨fun _ => 0, fun _ => ⟨0x20000, 0x20000, 0, 0x20000⟩, fun _ => gIdentityx⟩
  have own : u.own gglFloatToFixed d i 0 = ⟨0x20000, 0x20000, 0, 0x20000⟩ := by
    simp only [Units.own, if_neg disabled, d]
  refine not_generates_projective enabled (fun v => ⟨0, ?_⟩) own rfl
  simp only [Units.fetchTexture, if_neg disabled, d]

private theorem not_generates_shared {k : Components} (enabled : u.enable i = true)
    (disabled : ¬(u.array i).Ready) (other : u.shared ≠ i) : ¬Generates gglFloatToFixed u i k := by
  let d : Data := ⟨fun _ => 0,
    fun j => if j = i then ⟨0, 0, 0, 0x10000⟩ else ⟨0x10000, 0, 0, 0x10000⟩, fun _ => gIdentityx⟩
  have own : u.own gglFloatToFixed d i 0 = ⟨0, 0, 0, 0x10000⟩ := by
    simp only [Units.own, if_neg disabled, d, if_true]
  have code (v : Vec4) : { u.fetchTexture gglFloatToFixed d i 0 v with w := 0x10000 } =
      (⟨0x10000, 0, 0, 0x10000⟩ : Vec4) := by
    simp only [Units.fetchTexture, if_neg disabled, d, if_neg other]
  have identity : u.texMatrix d i = gIdentityx := texMatrix_identity rfl
  have unchanged := texTransform_identity (u := u) (d := d) (i := i) (x := 0x10000) (y := 0)
    (z := 0) rfl (by decide) (by decide)
  have rows := exact_identity ⟨0, 0, 0, 0x10000⟩
  refine not_generates_affine enabled (a := 0x10000) (b := 0) (by decide) (by decide)
    (fun v => (code v) ▸ unchanged.1) (fun v => (code v) ▸ unchanged.2) ?_ ?_ ?_ ?_
  · rw [own]
    cases k with
    | two => exact ⟨rfl, rfl⟩
    | three => rfl
    | four => trivial
  · rw [identity, own]
    exact rows.1
  · rw [identity, own]
    exact rows.2.1
  · rw [identity, own]
    exact rows.2.2

private theorem not_generates_cut {k : Components} (enabled : u.enable i = true)
    (disabled : ¬(u.array i).Ready) (generic : u.identity i = false)
    (size : (u.array i).size = .two) (deep : k ≠ .two) : ¬Generates gglFloatToFixed u i k := by
  let m : Matrixx := Function.update gIdentityx (index 2 0) 0x10000
  let d : Data := ⟨fun _ => 0, fun _ => ⟨0, 0, 0x10000, 0x10000⟩, fun _ => m⟩
  have own : u.own gglFloatToFixed d i 0 = ⟨0, 0, 0x10000, 0x10000⟩ := by
    simp only [Units.own, if_neg disabled, d]
  have code (v : Vec4) : { u.fetchTexture gglFloatToFixed d i 0 v with w := 0x10000 } =
      (⟨0, 0, 0x10000, 0x10000⟩ : Vec4) := by
    simp only [Units.fetchTexture, if_neg disabled, d]
  have matrix : u.texMatrix d i = m := by
    simp only [Units.texMatrix, Units.transform, generic, Bool.false_eq_true, if_false, d]
  have cut : (u.texTransform d i ⟨0, 0, 0x10000, 0x10000⟩).x = 0 ∧
      (u.texTransform d i ⟨0, 0, 0x10000, 0x10000⟩).w = 0x10000 := by
    simp only [Units.texTransform, Units.transform, generic, size, Bool.false_eq_true, if_false,
      reduceCtorEq, d]
    decide
  refine not_generates_affine enabled (a := 0) (b := 0x10000) (by decide) (by decide)
    (fun v => (code v) ▸ cut.1) (fun v => (code v) ▸ cut.2) ?_ ?_ ?_ ?_
  · rw [own]
    cases k with
    | two => exact absurd rfl deep
    | three => rfl
    | four => trivial
  all_goals
    rw [matrix, own]
    decide

end Necessary

/-- The coordinates are those of the unit, for every content of the arrays, the current
coordinates, the matrices and the vertices, exactly if the coordinate is used whole. -/
theorem generates_iff (gglFloatToFixed : Nat → Int) (u : Units) (i : Fin 2) (k : Components)
    (float : gglFloatToFixed 0x40000000 = 0x20000) (enabled : u.enable i = true) :
    Generates gglFloatToFixed u i k ↔ Sound u i k := by
  refine ⟨fun generates => ?_, generates_of_sound enabled⟩
  unfold Sound
  split_ifs with ready
  · by_contra whole
    simp only [ne_eq, not_or, not_not] at whole
    obtain ⟨size, rfl⟩ := whole
    exact not_generates_array float enabled ready size generates
  · refine ⟨?_, ?_, ?_⟩
    · rintro rfl
      exact not_generates_current enabled ready generates
    · by_contra other
      exact not_generates_shared enabled ready other generates
    · by_contra cut
      simp only [ne_eq, not_or, not_not, Bool.not_eq_true] at cut
      obtain ⟨generic, size, deep⟩ := cut
      exact not_generates_cut enabled ready generic size deep generates

def floatToFixed (bits : Nat) : Int :=
  let exponent := bits / 2 ^ 23 % 2 ^ 8
  let digits := 2 ^ 23 + bits % 2 ^ 23
  let size : Nat := if exponent < 134 then digits / 2 ^ (134 - exponent)
    else digits * 2 ^ (exponent - 134)
  if bits < 2 ^ 31 then size else -size

def oneUnit (a : VertexArray) : Units := ⟨![true, false], fun _ => a, fun _ => true, 0⟩

theorem generates_array :
    Generates floatToFixed (oneUnit ⟨true, .two, .float, 8, 0x1000, none⟩) 0 .four :=
  (generates_iff floatToFixed _ 0 .four (by decide) rfl).mpr (.inl (by decide))

/-- The current coordinate (2, 2, 0, 2) of an only unit: `S` is 2. -/
theorem current_undivided :
    let u := oneUnit ⟨false, .four, .float, 0, 0, none⟩
    let d : Data := ⟨fun _ => 0, fun _ => ⟨0x20000, 0x20000, 0, 0x20000⟩, fun _ => gIdentityx⟩
    let p := { Pipeline.flat fun _ => ⟨0, 0, 0, 0⟩ with tmus := true }
    let v := (fetchTexcoord (u.pipeline floatToFixed d p) Machine.init 0 0 0).verts 0
    u.own floatToFixed d 0 (elementOf v.index) = ⟨0x20000, 0x20000, 0, 0x20000⟩ ∧
      u.texMatrix d 0 = gIdentityx ∧ (v.texture 0).x = 0x20000 ∧
      ¬Generated floatToFixed u d 0 v := by
  intro u d p v
  have s : (v.texture 0).x = 0x20000 := by decide +kernel
  refine ⟨rfl, rfl, s, ?_⟩
  rintro ⟨x, y, q, roundedX, -, roundedQ, quotient, -⟩
  rw [s] at quotient
  exact not_quotient_two roundedX roundedQ quotient

end RabbitRender.Arrays.TexCoords
