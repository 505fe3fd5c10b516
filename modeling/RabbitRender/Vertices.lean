/- RabbitRender/Vertices
   layer: model
   source: include/gl_context.h
   digest: Vertices with their flags, and the part of a vertex that its array element determines. -/

import Mathlib.Data.Fin.VecNotation
import RabbitRender.Fixed

set_option autoImplicit false

namespace RabbitRender.Vertices

/-- `vec4_t`. -/
structure Vec4 where
  x : Int
  y : Int
  z : Int
  w : Int
deriving DecidableEq, Repr

/-- Component `i` of `v.v`. -/
def Vec4.get (v : Vec4) : Nat → Int
  | 0 => v.x
  | 1 => v.y
  | 2 => v.z
  | _ => v.w

def dot4 (a b : Vec4) : Int := Fixed.mla4 a.x b.x a.y b.y a.z b.z a.w b.w

abbrev Flags := BitVec 32

def clipL : Flags := 0x0001
def clipR : Flags := 0x0002
def clipB : Flags := 0x0004
def clipT : Flags := 0x0008
def clipN : Flags := 0x0010
def clipF : Flags := 0x0020
def eye : Flags := 0x0040
def lit : Flags := 0x4000
def tt : Flags := 0x8000
def userClipAll : Flags := 0x3F00
def clipAll : Flags := 0x3F3F

def Vec4.frustumClip (c : Vec4) : Flags :=
  (if c.x < -c.w then clipL else 0) ||| (if c.x > c.w then clipR else 0) |||
    (if c.y < -c.w then clipB else 0) ||| (if c.y > c.w then clipT else 0) |||
    (if c.z < -c.w then clipN else 0) ||| (if c.z > c.w then clipF else 0)

theorem Vec4.frustumClip_and (c : Vec4) : c.frustumClip &&& clipAll = c.frustumClip := by
  unfold Vec4.frustumClip
  split_ifs <;> rfl

/-- Where the contents of a vertex come from: the draw call that compiled it, and the array
element. The code has no such field. -/
structure Source where
  draw : Nat
  element : Nat
deriving DecidableEq, Repr

/-- `vertex_t`. `obj` and `eye` share their storage; `index` is the cache tag as compared, so
an index that does not fit 31 bits equals no tag of the cache. -/
structure Vertex where
  obj : Vec4
  clip : Vec4
  flags : Flags
  index : Int
  fog : Int
  locked : Bool
  window : Vec4
  color : Vec4
  texture : Fin 2 → Vec4
  source : Source

namespace Vertex

/-- The contents after `vertex_cache_t::init`. -/
def zero : Vertex :=
  { obj := ⟨0, 0, 0, 0⟩, clip := ⟨0, 0, 0, 0⟩, flags := 0, index := 0, fog := 0, locked := false,
    window := ⟨0, 0, 0, 0⟩, color := ⟨0, 0, 0, 0⟩, texture := fun _ => ⟨0, 0, 0, 0⟩,
    source := ⟨0, 0⟩ }

/-- `vertex_t::clear`. -/
def clear (v : Vertex) : Vertex := { v with flags := 0, index := 0, locked := false }

def outside (v : Vertex) : Flags := v.flags &&& clipAll

theorem clipAll_and_outside (v : Vertex) : clipAll &&& v.outside = v.outside := by
  rw [outside, BitVec.and_comm, BitVec.and_assoc, BitVec.and_self]

end Vertex

/-- Two vertices that differ at most in what shading and texturing leave in them. -/
structure SameGeometry (v w : Vertex) : Prop where
  obj : v.obj = w.obj
  clip : v.clip = w.clip
  flags : v.flags ||| (lit ||| tt) = w.flags ||| (lit ||| tt)
  index : v.index = w.index
  locked : v.locked = w.locked
  window : v.window = w.window
  source : v.source = w.source

theorem SameGeometry.refl (v : Vertex) : SameGeometry v v := ⟨rfl, rfl, rfl, rfl, rfl, rfl, rfl⟩

variable {v w : Vertex}

theorem SameGeometry.trans {u : Vertex} (h : SameGeometry u v) (h' : SameGeometry v w) :
    SameGeometry u w :=
  ⟨h.obj.trans h'.obj, h.clip.trans h'.clip, h.flags.trans h'.flags, h.index.trans h'.index,
    h.locked.trans h'.locked, h.window.trans h'.window, h.source.trans h'.source⟩

def geometryFlags : Flags := clipAll ||| eye

private theorem and_geometryFlags (f : Flags) :
    f &&& geometryFlags = (f ||| (lit ||| tt)) &&& geometryFlags := by
  have disjoint : (lit ||| tt) &&& geometryFlags = 0 := by decide
  rw [BitVec.and_comm (f ||| _), BitVec.and_or_distrib_left, BitVec.and_comm geometryFlags (lit ||| tt),
    disjoint, BitVec.and_comm]
  simp

theorem SameGeometry.geometryFlags (h : SameGeometry v w) :
    v.flags &&& geometryFlags = w.flags &&& Vertices.geometryFlags := by
  rw [and_geometryFlags, h.flags, ← and_geometryFlags]

theorem outside_eq (v : Vertex) : v.outside = v.flags &&& geometryFlags &&& clipAll := by
  have sub : geometryFlags &&& clipAll = clipAll := by decide
  rw [Vertex.outside, BitVec.and_assoc, sub]

theorem SameGeometry.outside (h : SameGeometry v w) : v.outside = w.outside := by
  rw [outside_eq, h.geometryFlags, ← outside_eq]

/-- The geometry of a vertex, with window coordinates only where the vertex is projected. -/
structure Shape where
  obj : Vec4
  clip : Vec4
  flags : Flags
  index : Int
  window : Option Vec4
deriving DecidableEq, Repr

/-- The geometry of `v`; `depth` says that the vertices get a window depth. -/
def seen (depth : Bool) (v : Vertex) : Shape :=
  { obj := v.obj, clip := v.clip, flags := v.flags &&& geometryFlags, index := v.index,
    window := if v.outside = 0 then
      some (if depth then v.window else { v.window with z := 0 }) else none }

def Shape.outside (s : Shape) : Flags := s.flags &&& clipAll

@[simp] theorem outside_seen (depth : Bool) (v : Vertex) : (seen depth v).outside = v.outside :=
  (outside_eq v).symm

theorem SameGeometry.seen (h : SameGeometry v w) (depth : Bool) :
    seen depth v = Vertices.seen depth w := by
  simp only [Vertices.seen, h.obj, h.clip, h.geometryFlags, h.index, h.outside, h.window]

theorem seen_eq_iff {depth : Bool} : seen depth v = seen depth w ↔
    v.obj = w.obj ∧ v.clip = w.clip ∧ v.flags &&& geometryFlags = w.flags &&& geometryFlags ∧
      v.index = w.index ∧ (v.outside = 0 → v.window.x = w.window.x ∧ v.window.y = w.window.y ∧
        v.window.w = w.window.w ∧ (depth = true → v.window.z = w.window.z)) := by
  constructor
  · intro same
    have planes : v.outside = w.outside := by
      rw [← outside_seen depth v, same, outside_seen]
    simp only [seen, Shape.mk.injEq, planes] at same
    obtain ⟨obj, clip, flags, index, window⟩ := same
    refine ⟨obj, clip, flags, index, ?_⟩
    intro inside
    rw [planes] at inside
    rw [if_pos inside, if_pos inside, Option.some.injEq] at window
    cases depth with
    | false =>
      simp only [Bool.false_eq_true, if_false, Vec4.mk.injEq] at window
      exact ⟨window.1, window.2.1, window.2.2.2, by simp⟩
    | true =>
      simp only [if_true] at window
      simp [window]
  · rintro ⟨obj, clip, flags, index, window⟩
    have planes : v.outside = w.outside := by rw [outside_eq, flags, ← outside_eq]
    simp only [seen, Shape.mk.injEq]
    refine ⟨obj, clip, flags, index, ?_⟩
    by_cases inside : v.outside = 0
    · obtain ⟨x, y, w', z⟩ := window inside
      rw [if_pos inside, if_pos (planes.symm.trans inside), Option.some.injEq]
      cases depth with
      | false => simp [x, y, w']
      | true =>
        simp only [if_true]
        cases hv : v.window
        cases hw : w.window
        simp_all
    · rw [if_neg inside, if_neg fun h => inside (planes.trans h)]

end RabbitRender.Vertices
