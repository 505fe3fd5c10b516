/- RabbitRender/Textures/FlatLevels
   layer: result
   source: swrender/mipmap.cpp
   digest: A texture of one colour keeps it in its generated levels. -/

import RabbitRender.Textures.ByteMeans
import RabbitRender.Textures.PackedMeans

set_option autoImplicit false

namespace RabbitRender.Textures.FlatLevels

open Lib.ByteMemory Lib.Lanes Textures.Mipmaps Textures.MipmapLoops
open Textures.PackedMeans (box565_toNat box8888_toNat box4444_toNat box5551_toNat halve_eq)
open Textures.ByteMeans (boxByte_toNat)
open Textures.Uploads (Bytes Image)
open Textures.Levels (GGLSurface Pointer Storage halve)

variable {f : Filter} {format t : Nat}

theorem box_same (found : filter format = some f) (single : f.skip = 1) {p : BitVec 32}
    (fits : p.toNat < 2 ^ (f.bytes * 8)) : f.box p p p p = p := by
  apply BitVec.eq_of_toNat_eq
  unfold filter at found
  split_ifs at found
  · obtain rfl := Option.some_inj.mp found
    rw [box565_toNat fits fits fits fits]
    simp only [pack_cons, pack_nil]
    omega
  · obtain rfl := Option.some_inj.mp found
    have red : (p.toNat / 2048 + p.toNat / 2048 + p.toNat / 2048 + p.toNat / 2048 + 2) / 4 % 2 =
        (p.toNat / 64 + p.toNat / 64 + p.toNat / 64 + p.toNat / 64 + 2) / 4 % 64 / 32 := by
      omega
    rw [box5551_toNat fits fits fits fits]
    simp only [pack_cons, pack_nil, red, Nat.or_self]
    omega
  · obtain rfl := Option.some_inj.mp found
    rw [box8888_toNat]
    simp only [pack_cons, pack_nil]
    omega
  · exact absurd (Option.some_inj.mp found ▸ single) (by decide)
  · exact absurd (Option.some_inj.mp found ▸ single) (by decide)
  · obtain rfl := Option.some_inj.mp found
    rw [boxByte_toNat fits fits fits fits]
    omega
  · obtain rfl := Option.some_inj.mp found
    rw [box4444_toNat fits fits fits fits]
    simp only [pack_cons, pack_nil]
    omega

structure Level where
  block : Memory
  stride : Nat
  w : Nat
  h : Nat

/-- The next level, in a block of `size` bytes. -/
def Level.next (f : Filter) (l : Level) (size : Nat) (old : Bytes) : Level where
  block := memory (f.copy l.block size l.stride (halve l.w) (halve l.h) old)
  stride := halve l.w
  w := halve l.w
  h := halve l.h

/-- Every texel is `t`. -/
def Level.Flat (f : Filter) (t : Nat) (l : Level) : Prop :=
  ∀ y < l.h, ∀ x < l.w, load l.block (element 1 l.stride x y 0 * f.bytes : Nat) f.bytes = t

/-- There are two texels in each direction, and the block holds the next level. -/
structure Level.Fits (f : Filter) (l : Level) (size : Nat) : Prop where
  wide : 2 ≤ l.w
  high : 2 ≤ l.h
  room : halve l.h * halve l.w * f.bytes ≤ size

theorem memory_contents (m : Memory) {size i : Nat} (inside : i < size) :
    memory (contents m size) i = m i := by
  simp [memory, contents, ← List.map_eq_flatMap, inside]

theorem Level.Flat.next {l : Level} (found : filter format = some f) (single : f.skip = 1)
    (small : f.bytes ≤ 4) (flat : l.Flat f t) {size : Nat} (fits : l.Fits f size) (old : Bytes) :
    (l.next f size old).Flat f t := by
  intro y hy x hx
  obtain ⟨wide, high, room⟩ := fits
  have hy' : y < l.h / 2 := by rwa [← halve_eq high]
  have hx' : x < l.w / 2 := by rwa [← halve_eq wide]
  have kept : load (memory (contents (f.produce l.block (memory old) l.stride (halve l.w)
      (halve l.h)) size)) (element 1 (halve l.w) x y 0 * f.bytes : Nat) f.bytes =
      load (f.produce l.block (memory old) l.stride (halve l.w) (halve l.h))
        (element 1 (halve l.w) x y 0 * f.bytes : Nat) f.bytes := by
    apply load_congr
    intro i hi
    have inside : element 1 (halve l.w) x y 0 * f.bytes + i < size := by
      have row : (y + 1) * halve l.w ≤ halve l.h * halve l.w := Nat.mul_le_mul_right _ hy
      have texel : element 1 (halve l.w) x y 0 + 1 ≤ halve l.h * halve l.w := by
        simp only [element]
        change x < halve l.w at hx
        linarith
      have bytes := Nat.mul_le_mul_right f.bytes texel
      linarith
    exact_mod_cast memory_contents _ inside
  have read (x y : Nat) (hx : x < l.w) (hy : y < l.h) :
      (f.read l.block (element 1 l.stride x y 0)).toNat = t :=
    (read_toNat small _ _).trans (flat y hy x hx)
  have corner := read (2 * x) (2 * y) (by omega) (by omega)
  have same (u v : Nat) (hu : u < l.w) (hv : v < l.h) :
      f.read l.block (element 1 l.stride u v 0) =
        f.read l.block (element 1 l.stride (2 * x) (2 * y) 0) :=
    BitVec.eq_of_toNat_eq ((read u v hu hv).trans corner.symm)
  have fits : t < 2 ^ (f.bytes * 8) := by
    rw [← corner, read_toNat small]
    exact load_lt _ _ _
  have written := load_produce (.inl single) l.block (memory old) l.stride hx hy (c := 0) (by omega)
  rw [single] at written
  refine kept.trans (written.trans ?_)
  simp only [value, stepAt]
  rw [same (2 * x + 1) (2 * y) (by omega) (by omega), same (2 * x) (2 * y + 1) (by omega) (by omega),
    same (2 * x + 1) (2 * y + 1) (by omega) (by omega), box_same found single (corner ▸ fits),
    corner, Nat.mod_eq_of_lt fits]

def Level.ofSurface (image : Image) (s : GGLSurface) : Level :=
  ⟨surfaceMemory image s, s.stride.toNat, s.width, s.height⟩

/-- What a round of `buildAPyramid` paints is the next level of its base. -/
theorem Level.ofSurface_paint (f : Filter) (image : Image) (base : GGLSurface) {storage : Storage}
    {level format compressed : Nat} {p : Pointer} (mip : storage.mip level =
      ⟨halve base.width, halve base.height, halve base.width, format, compressed, some p⟩) :
    Level.ofSurface (Image.paint { image with storage := storage } level
        (f.copy (surfaceMemory image base) (blockSize (storage.mip level)) base.stride.toNat
          (halve base.width) (halve base.height))) (storage.mip level) =
      (Level.ofSurface image base).next f p.size (image.bytes p) := by
  simp [Level.ofSurface, Level.next, Image.paint, surfaceMemory, blockSize, mip]

/-- The levels that the loop of `buildAPyramid` makes below `l`, in blocks of these sizes. -/
def levels (f : Filter) (l : Level) : List (Nat × Bytes) → List Level
  | [] => []
  | (size, old) :: blocks => l.next f size old :: levels f (l.next f size old) blocks

def AllFit (f : Filter) (l : Level) : List (Nat × Bytes) → Prop
  | [] => True
  | (size, old) :: blocks => l.Fits f size ∧ AllFit f (l.next f size old) blocks

theorem filter_small (found : filter format = some f) : f.bytes ≤ 4 := by
  unfold filter at found
  split_ifs at found
  all_goals
    obtain rfl := Option.some_inj.mp found
    decide

/-- In the formats with one element a texel, a texture of one colour has that colour in every level
that is generated, as far as all levels above have two texels in each direction. -/
theorem flat_levels (found : filter format = some f) (single : f.skip = 1) {l : Level}
    (flat : l.Flat f t) (blocks : List (Nat × Bytes)) (fits : AllFit f l blocks) :
    ∀ made ∈ levels f l blocks, made.Flat f t := by
  induction blocks generalizing l with
  | nil => exact fun _ member => absurd member List.not_mem_nil
  | cons block blocks ih =>
    have first := flat.next found single (filter_small found) fits.1 block.2
    exact List.forall_mem_cons.mpr ⟨first, ih first fits.2⟩

/-- Four by four texels in `L_8`, down to one. -/
theorem flat_levels_luminance :
    (((⟨fun _ => 7, 4, 4, 4⟩ : Level).next ⟨1, 1, boxByte⟩ 4 []).next ⟨1, 1, boxByte⟩ 1 []).Flat
      ⟨1, 1, boxByte⟩ 7 :=
  flat_levels (show filter 9 = some ⟨1, 1, boxByte⟩ from rfl) rfl (fun _ _ _ _ => rfl)
    [(4, []), (1, [])]
    ⟨⟨by decide, by decide, by decide⟩, ⟨by decide, by decide, by decide⟩, trivial⟩ _
    (List.mem_cons_of_mem _ List.mem_cons_self)

end RabbitRender.Textures.FlatLevels
