/- RabbitRender/Textures/ByteMeans
   layer: results
   source: swrender/mipmap.cpp
   digest: The bytes of a generated texel, for the formats with one byte a channel. -/

import RabbitRender.Textures.MipmapLoops

set_option autoImplicit false

namespace RabbitRender.Textures.ByteMeans

open Lib.ByteMemory
open Textures.Levels (halve)
open Textures.Mipmaps Textures.MipmapLoops

/-- Byte `c` of texel `(x, y)` of a level whose rows are `stride` texels apart. -/
def byteAt (skip : Nat) (m : Memory) (stride x y c : Nat) : Nat :=
  (m (element skip stride x y c : Nat)).toNat

/-- Whatever the two blocks contain, every byte of the new level is the mean, rounded down, of the
bytes of the four texels it covers. -/
def WritesMeans (f : Filter) (stride w h : Nat) : Prop :=
  ∀ (src dst : Memory), ∀ y < h, ∀ x < w, ∀ c < f.skip,
    byteAt f.skip (f.produce src dst stride w h) w x y c =
      (byteAt f.skip src stride (2 * x) (2 * y) c +
        byteAt f.skip src stride (2 * x + 1) (2 * y) c +
        byteAt f.skip src stride (2 * x) (2 * y + 1) c +
        byteAt f.skip src stride (2 * x + 1) (2 * y + 1) c) / 4

theorem boxByte_toNat {p00 p10 p01 p11 : BitVec 32} (h00 : p00.toNat < 256)
    (h10 : p10.toNat < 256) (h01 : p01.toNat < 256) (h11 : p11.toNat < 256) :
    (boxByte p00 p10 p01 p11).toNat = (p00.toNat + p10.toNat + p01.toNat + p11.toNat) / 4 := by
  have sum : (p00 + p10 + p01 + p11).toNat = p00.toNat + p10.toNat + p01.toNat + p11.toNat := by
    simp only [BitVec.toNat_add]
    omega
  rw [boxByte, BitVec.toNat_ushiftRight, Nat.shiftRight_eq_div_pow, sum]

private theorem load_byte (m : Memory) (a : Int) : load m a 1 = (m a).toNat := by
  simp [load]

private theorem read_byte (skip : Nat) (src : Memory) (i : Nat) :
    (Filter.read ⟨1, skip, boxByte⟩ src i).toNat = (src (i : Nat)).toNat := by
  rw [read_toNat (show 1 ≤ 4 by decide), load_byte, Nat.mul_one]

private theorem value_byte (skip : Nat) (src : Memory) (s : Step) :
    value ⟨1, skip, boxByte⟩ src s % 2 ^ (1 * 8) = ((src (s.p00 : Nat)).toNat + (src (s.p10 : Nat)).toNat +
      (src (s.p01 : Nat)).toNat + (src (s.p11 : Nat)).toNat) / 4 := by
  have byte (i : Nat) : (Filter.read ⟨1, skip, boxByte⟩ src i).toNat < 256 := by
    rw [read_byte]
    exact (src i).toNat_lt
  rw [value, boxByte_toNat (byte _) (byte _) (byte _) (byte _)]
  simp only [read_byte]
  have p00 := (src s.p00).toNat_lt
  have p10 := (src s.p10).toNat_lt
  have p01 := (src s.p01).toNat_lt
  have p11 := (src s.p11).toNat_lt
  apply Nat.mod_eq_of_lt
  omega

variable {skip w : Nat}

theorem writesMeans (fits : skip = 1 ∨ w = 1) (stride h : Nat) :
    WritesMeans ⟨1, skip, boxByte⟩ stride w h := by
  intro src dst y hy x hx c hc
  have written : load (Filter.produce ⟨1, skip, boxByte⟩ src dst stride w h)
      (element skip w x y c * 1 : Nat) 1 =
        value ⟨1, skip, boxByte⟩ src (stepAt skip stride w x y c) % 2 ^ (1 * 8) :=
    load_produce (f := ⟨1, skip, boxByte⟩) fits src dst stride hx hy hc
  rw [load_byte, Nat.mul_one, value_byte] at written
  exact written

/-- With several bytes a texel and several texels a row, nothing is written as far as the last byte
of the first row. -/
theorem last_unwritten {h stride : Nat} (bytes : 2 ≤ skip) (texels : 2 ≤ w) {s : Step}
    (member : s ∈ levelSteps skip stride w h) : s.dst ≠ element skip w (w - 1) 0 (skip - 1) := by
  obtain ⟨y, -, x, hx, c, hc, rfl⟩ := mem_levelSteps.mp member
  obtain ⟨k, rfl⟩ := Nat.exists_eq_add_of_le bytes
  obtain ⟨n, rfl⟩ := Nat.exists_eq_add_of_le texels
  have last : element (2 + k) (2 + n) (2 + n - 1) 0 (2 + k - 1) + 1 = (2 + n) * (2 + k) := by
    have first : 2 + n - 1 = 1 + n := by omega
    have second : 2 + k - 1 = 1 + k := by omega
    rw [element, first, second]
    ring
  have room : 2 + n + (2 + k) ≤ (2 + n) * (2 + k) := by
    calc 2 + n + (2 + k) ≤ 4 + 2 * n + 2 * k + n * k := by omega
      _ = (2 + n) * (2 + k) := by ring
  simp only [stepAt]
  rcases Nat.eq_zero_or_pos y with rfl | positive
  · omega
  · have below : (2 + n) * (2 + k) ≤ y * ((2 + n) * (2 + k)) := Nat.le_mul_of_pos_left _ positive
    omega

theorem not_writesMeans {h : Nat} (bytes : 2 ≤ skip) (texels : 2 ≤ w) (rows : 0 < h) (stride : Nat) :
    ¬WritesMeans ⟨1, skip, boxByte⟩ stride w h := by
  intro means
  have mean := means (fun _ => 0) (fun _ => 1) 0 rows (w - 1) (by omega) (skip - 1)
    (show skip - 1 < skip by omega)
  have kept : Filter.produce ⟨1, skip, boxByte⟩ (fun _ => 0) (fun _ => 1) stride w h
      (element skip w (w - 1) 0 (skip - 1) : Nat) = 1 := by
    apply steps_outside (f := ⟨1, skip, boxByte⟩)
    intro s member
    have other := last_unwritten bytes texels member
    show _ < ((s.dst * 1 : Nat) : Int) ∨ ((s.dst * 1 : Nat) : Int) + ((1 : Nat) : Int) ≤ _
    omega
  rw [byteAt, kept] at mean
  exact absurd mean (by simp [byteAt])

/-- For `RGB_888`, `LA_88`, `A_8` and `L_8`, the bytes are the means exactly if texels have one byte or
the new level is one texel wide: the column is not multiplied by the bytes of a texel. -/
theorem writesMeans_iff {format : Nat} (byteFormat : format ∈ [3, 0xA, 8, 9]) {f : Filter}
    (found : filter format = some f) (stride : Nat) {width height : Nat} (wide : 2 ≤ width)
    (high : 2 ≤ height) :
    WritesMeans f stride (halve width) (halve height) ↔ format ∈ [8, 9] ∨ width < 4 := by
  have columns : halve width = width / 2 := if_neg (by omega)
  have rows : 0 < halve height := by
    rw [halve, if_neg (by omega)]
    omega
  have several (skip : Nat) (bytes : 2 ≤ skip) :
      WritesMeans ⟨1, skip, boxByte⟩ stride (halve width) (halve height) ↔ width < 4 := by
    constructor
    · intro means
      by_contra broad
      exact not_writesMeans bytes (by omega) rows stride means
    · intro narrow
      exact writesMeans (.inr (by omega)) stride _
  have single : WritesMeans ⟨1, 1, boxByte⟩ stride (halve width) (halve height) :=
    writesMeans (.inl rfl) stride _
  simp only [List.mem_cons, List.not_mem_nil, or_false] at byteFormat
  rcases byteFormat with rfl | rfl | rfl | rfl
  · obtain rfl := Option.some_inj.mp found
    simpa using several 3 (by decide)
  · obtain rfl := Option.some_inj.mp found
    simpa using several 2 (by decide)
  · obtain rfl := Option.some_inj.mp found
    simpa using single
  · obtain rfl := Option.some_inj.mp found
    simpa using single

/-- `L_8`, two by two texels. -/
theorem writesMeans_iff_luminance :
    WritesMeans ⟨1, 1, boxByte⟩ 2 (halve 2) (halve 2) ↔ (9 : Nat) ∈ [8, 9] ∨ 2 < 4 :=
  writesMeans_iff (by decide) rfl 2 (Nat.le_refl 2) (Nat.le_refl 2)

/-- Opaque black in `LA_88`. -/
def opaqueBlack : Memory := fun a => if a % 2 = 1 then 255 else 0

/-- The first of two texels of opaque black becomes transparent. -/
theorem opaqueBlack_transparent : ¬WritesMeans ⟨1, 2, boxByte⟩ 4 (halve 4) (halve 2) := by
  intro means
  exact absurd (means opaqueBlack (fun _ => 0) 0 (by decide) 0 (by decide) 1 (by decide)) (by decide)

end RabbitRender.Textures.ByteMeans
