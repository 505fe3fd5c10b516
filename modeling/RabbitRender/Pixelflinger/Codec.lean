/- RabbitRender/Pixelflinger/Codec
   layer: proof
   source: libpixelflinger/buffer.cpp, libpixelflinger/format.cpp
   digest: A pixel that is written to a surface is read back, at the depth of the format. -/

import RabbitRender.Pixelflinger.ClearBounds
import RabbitRender.Pixelflinger.Packing

set_option autoImplicit false

namespace RabbitRender.Pixelflinger.Codec

open RabbitRender.GL (GLenum)
open Lib.ByteMemory Pixelflinger.State Pixelflinger.Pixels Pixelflinger.Widths Pixelflinger.Packing
open Pixelflinger.ClearBounds (address)

/-- `read_pixel`; `pixel` is what was in the pixel before. -/
def readPixelAt (m : Memory) (s : Surface) (x y : Nat) (pixel : Pixel) : Pixel :=
  readPixel (formats s.format) (load m (address s x y) (formats s.format).size) pixel

/-- What `write_pixel` finds at a pixel, without dithering. -/
def target (m : Memory) (s : Surface) (x y maskColor : Nat) (logicOp : Option GLenum) : Target where
  format := s.format
  maskColor := maskColor
  logicOp := logicOp
  dither := none
  word := load m (address s x y) (formats s.format).size

/-- `write_pixel`. -/
def writePixelAt (m : Memory) (s : Surface) (x y maskColor : Nat) (logicOp : Option GLenum)
    (pixel : Pixel) : Memory :=
  store m (address s x y) (formats s.format).size
    (writePixel (target m s x y maskColor logicOp) pixel)

/-- The bits of a component of `size` bits, repeated from the top. -/
def repeated (c size : Nat) : Nat → Nat
  | 0 => 0
  | bits + 1 => 2 * repeated c size bits + c >>> (size - 1 - bits % size) % 2

/-- A component of `size` bits, shifted down or expanded to `bits` bits. -/
def converted (c size bits : Nat) : Nat :=
  if bits ≤ size then c >>> (size - bits) else repeated c size bits

def Colour (f : Format) : Prop :=
  (formats f).components ∈ [GGL.rgba, GGL.rgb, GGL.alpha, GGL.luminance, GGL.luminanceAlpha]

instance (f : Format) : Decidable (Colour f) := inferInstanceAs (Decidable (_ ∈ _))

theorem gglExpand_repeated : ∀ bits ≤ 8, ∀ size < bits, 0 < size → ∀ c < 2 ^ size,
    gglExpand c size bits = repeated c size bits := by
  decide +kernel

theorem repeated_lt (c size bits : Nat) : repeated c size bits < 2 ^ bits := by
  induction bits with
  | zero => exact Nat.zero_lt_one
  | succ bits ih =>
    have bit := Nat.mod_lt (c >>> (size - 1 - bits % size)) Nat.two_pos
    rw [repeated, Nat.pow_succ]
    omega

/-- A pixel whose components are in range; `expand` asserts that they have a size. -/
structure Declared (t : Target) (p : Pixel) : Prop where
  size : ∀ i, p.s i ≤ 24
  range : ∀ i, p.c i < 2 ^ p.s i
  asserted : ∀ i, Written t i → p.s i ≠ 0

private theorem colour_bits : ∀ f, Colour f → ∀ i, formatBits f i ≤ 8 := by decide

private theorem colour_places : ∀ f, Colour f → ∀ i,
    ((formats f).c i).l ≤ ((formats f).c i).h ∧ ((formats f).c i).h ≤ (formats f).size * 8 ∧
      (formats f).size * 8 ≤ 32 := by decide

theorem converted_lt {c size : Nat} (range : c < 2 ^ size) (bits : Nat) :
    converted c size bits < 2 ^ bits := by
  unfold converted
  split
  · rename_i wide
    apply shiftRight_lt
    rwa [← Nat.pow_add, Nat.add_sub_cancel' wide]
  · exact repeated_lt c size bits

variable {t : Target} {i : Component} {k v : Nat}

theorem widened_converted {p : Pixel} (h : Declared t p) (colour : Colour t.format)
    (written : Written t i) :
    ∃ u n, widened p ((formats t.format).c i) i = (u, n) ∧ formatBits t.format i ≤ n ∧ n ≤ 24 ∧
      u >>> (n - formatBits t.format i) = converted (p.c i) (p.s i) (formatBits t.format i) := by
  have bits := colour_bits t.format colour i
  by_cases narrower : p.s i < formatBits t.format i
  · have expands : widened p ((formats t.format).c i) i =
        (gglExpand (p.c i) (p.s i) (formatBits t.format i), formatBits t.format i) := if_pos narrower
    refine ⟨_, _, expands, le_rfl, by omega, ?_⟩
    rw [Nat.sub_self, Nat.shiftRight_zero, converted, if_neg (Nat.not_le.mpr narrower)]
    exact gglExpand_repeated _ bits _ narrower (Nat.pos_of_ne_zero (h.asserted i written)) _
      (h.range i)
  · have wide := Nat.le_of_not_lt narrower
    have stays : widened p ((formats t.format).c i) i = (p.c i, p.s i) := if_neg narrower
    refine ⟨_, _, stays, wide, h.size i, ?_⟩
    rw [converted, if_pos wide]

theorem downshift_top {u n low high : Nat} (ordered : low ≤ high) (narrow : high - low ≤ n)
    (word : high ≤ 32) (range : u >>> (n - (high - low)) < 2 ^ (high - low)) :
    downshiftComponent 0 u n 0 high low 0 0 none = (u >>> (n - (high - low))) <<< low := by
  have whole : (u >>> (n - (high - low))) <<< low < 2 ^ 32 := by
    rw [Nat.shiftLeft_eq]
    calc u >>> (n - (high - low)) * 2 ^ low < 2 ^ (high - low) * 2 ^ low :=
          Nat.mul_lt_mul_of_pos_right range (Nat.two_pow_pos low)
      _ = 2 ^ high := by rw [← Nat.pow_add, Nat.sub_add_cancel ordered]
      _ ≤ 2 ^ 32 := Nat.pow_le_pow_right (by decide) word
  rw [downshiftComponent_eq, Nat.zero_or]
  simp only [dithered]
  split_ifs with inner wide wide
  · exact u32_eq whole
  · have same : n = high - low := by omega
    have place : high - n = low := by omega
    rw [place]
    rw [same, Nat.sub_self, Nat.shiftRight_zero] at whole ⊢
    exact u32_eq whole
  · obtain rfl : low = 0 := not_not.mp inner
    rw [Nat.shiftLeft_zero, Nat.sub_zero]
  · obtain rfl : low = 0 := not_not.mp inner
    have same : n = high := by omega
    rw [same, Nat.sub_zero, Nat.sub_self, Nat.shiftRight_zero] at whole ⊢
    exact u32_eq whole

theorem placed_converted {p : Pixel} (h : Declared t p) (colour : Colour t.format)
    (plain : t.dither = none) (written : Written t i) :
    placed t p i =
      converted (p.c i) (p.s i) (formatBits t.format i) <<< ((formats t.format).c i).l := by
  obtain ⟨u, n, widens, narrow, _, top⟩ := widened_converted h colour written
  obtain ⟨ordered, inside, word⟩ := colour_places t.format colour i
  have range := converted_lt (h.range i) (formatBits t.format i)
  rw [← top] at range ⊢
  rw [placed, widens, plain]
  exact downshift_top ordered narrow (by omega) range

theorem placed_stays {p : Pixel} (h : Declared t p) (colour : Colour t.format)
    (plain : t.dither = none) (written : Written t i) (bit : (placed t p i).testBit k = true) :
    Inside t.format i k := by
  have range := converted_lt (h.range i) (formatBits t.format i)
  obtain ⟨ordered, _⟩ := colour_places t.format colour i
  rw [placed_converted h colour plain written, Nat.testBit_shiftLeft, Bool.and_eq_true,
    decide_eq_true_iff] at bit
  have index := lt_of_testBit range bit.2
  unfold formatBits at index
  exact ⟨bit.1, by omega⟩

def Covered (t : Target) (k : Nat) : Prop := ∃ i, Written t i ∧ Inside t.format i k

theorem testBit_mask (colour : Colour t.format) (p : Pixel) (is : List Component)
    (packed : Nat × Nat) (k : Nat) :
    (is.foldl (writeComponent t p) packed).2.testBit k = true ↔
      packed.2.testBit k = true ∨ ∃ i ∈ is, Written t i ∧ Inside t.format i k := by
  induction is generalizing packed with
  | nil => simp
  | cons i is ih =>
    obtain ⟨ordered, inside, word⟩ := colour_places t.format colour i
    rw [List.foldl_cons, ih]
    by_cases written : Written t i
    · have field : (writeComponent t p packed i).2.testBit k = true ↔
          packed.2.testBit k = true ∨ Inside t.format i k := by
        simp only [writeComponent, if_pos written, Nat.testBit_or, Bool.or_eq_true, u32,
          Nat.testBit_mod_two_pow, Nat.testBit_shiftLeft, Nat.one_shiftLeft,
          Nat.testBit_two_pow_sub_one, Bool.and_eq_true, decide_eq_true_iff, Inside]
        refine or_congr_right ?_
        omega
      rw [field, List.exists_mem_cons_iff, or_assoc]
      simp only [written, true_and]
    · have field : (writeComponent t p packed i).2 = packed.2 := by
        simp only [writeComponent, if_neg written]
      rw [field, List.exists_mem_cons_iff]
      simp only [written, false_and, false_or]

theorem testBit_not32_lt (word : k < 32) : (not32 v).testBit k = !v.testBit k := by
  rw [not32, Nat.testBit_xor, Nat.testBit_two_pow_sub_one]
  simp [word]

theorem writePixel_kept {p : Pixel} (h : Declared t p) (colour : Colour t.format)
    (plain : t.dither = none) (merges : t.maskColor ≠ 0xF ∨ t.logicOp.isSome = true)
    (inside : k < (formats t.format).size * 8) (apart : ¬Covered t k) :
    (writePixel t p).testBit k = t.word.testBit k := by
  have word : k < 32 := lt_of_lt_of_le inside (colour_places t.format colour 0).2.2
  have mask : (([0, 1, 2, 3] : List Component).foldl (writeComponent t p) (0, 0)).2.testBit k =
      false := by
    apply Bool.eq_false_iff.mpr
    rw [ne_eq, testBit_mask colour]
    rintro (bit | ⟨i, -, written, place⟩)
    · rw [Nat.zero_testBit] at bit
      exact Bool.false_ne_true bit
    · exact apart ⟨i, written, place⟩
  have packed : (([0, 1, 2, 3] : List Component).foldl (writeComponent t p) (0, 0)).1.testBit k =
      false := by
    apply Bool.eq_false_iff.mpr
    rw [ne_eq, testBit_foldl, Nat.zero_testBit, Bool.false_or, List.any_eq_true]
    rintro ⟨i, -, bit⟩
    rw [Bool.and_eq_true, decide_eq_true_iff] at bit
    exact apart ⟨i, bit.1, placed_stays h colour plain bit.1 bit.2⟩
  unfold writePixel
  dsimp only
  generalize ([0, 1, 2, 3] : List Component).foldl (writeComponent t p) (0, 0) = written
    at mask packed ⊢
  rw [if_pos merges, Nat.testBit_mod_two_pow, Nat.testBit_or, Nat.testBit_and,
    testBit_not32_lt word, mask, Nat.testBit_mod_two_pow]
  cases t.logicOp with
  | none => simp [packed, inside]
  | some op => simp [mask, inside]

private theorem testBit_ite_at {c : Prop} [Decidable c] {a b a' b' j : Nat}
    (ha : a.testBit j = a'.testBit k) (hb : b.testBit j = b'.testBit k) :
    (if c then a else b).testBit j = (if c then a' else b').testBit k := by
  split
  · exact ha
  · exact hb

theorem testBit_logicOp_at (op : GLenum) {s s' d d' j : Nat} (hj : j < 32) (hk : k < 32)
    (source : s.testBit j = s'.testBit k) (destination : d.testBit j = d'.testBit k) :
    (logicOp op s d).testBit j = (logicOp op s' d').testBit k := by
  unfold logicOp
  repeat' apply testBit_ite_at
  all_goals
    simp only [Nat.testBit_and, Nat.testBit_or, Nat.testBit_xor, testBit_not32_lt hj,
      testBit_not32_lt hk, source, destination, Nat.zero_testBit, Nat.testBit_two_pow_sub_one,
      hj, hk]

/-- What is stored for a component: its value at the depth of the format, or what the logic
operation makes of it and of the old value. -/
def combined (op : Option GLenum) (value old bits : Nat) : Nat :=
  match op with
  | none => value
  | some op => logicOp op value old % 2 ^ bits

theorem writePixel_stored {p : Pixel} (h : Declared t p) (colour : Colour t.format)
    (plain : t.dither = none) (written : Written t i) {old : Nat} (bit : k < formatBits t.format i)
    (before : t.word.testBit (((formats t.format).c i).l + k) = old.testBit k) :
    (writePixel t p).testBit (((formats t.format).c i).l + k) =
      (combined t.logicOp (converted (p.c i) (p.s i) (formatBits t.format i)) old
        (formatBits t.format i)).testBit k := by
  obtain ⟨ordered, inside, word⟩ := colour_places t.format colour i
  have low := bit
  unfold formatBits at low
  have place : Inside t.format i (((formats t.format).c i).l + k) :=
    ⟨Nat.le_add_right _ _, by omega⟩
  have packed := testBit_packed_of (fun j k written bit => placed_stays h colour plain written bit)
    ⟨written.1, written.2.1⟩ place
  rw [placed_converted h colour plain written, Nat.testBit_shiftLeft, Nat.add_sub_cancel_left,
    decide_eq_true written, Bool.true_and, decide_eq_true (Nat.le_add_right _ _),
    Bool.true_and] at packed
  have mask : (([0, 1, 2, 3] : List Component).foldl (writeComponent t p) (0, 0)).2.testBit
      (((formats t.format).c i).l + k) = true :=
    (testBit_mask colour p _ _ _).mpr (.inr ⟨i, by fin_cases i <;> simp, written, place⟩)
  unfold writePixel combined
  dsimp only
  generalize ([0, 1, 2, 3] : List Component).foldl (writeComponent t p) (0, 0) = fields
    at mask packed ⊢
  rw [Nat.testBit_mod_two_pow, decide_eq_true (by omega), Bool.true_and]
  cases t.logicOp with
  | none =>
    dsimp only
    split
    · rw [Nat.testBit_or, Nat.testBit_and, testBit_not32_lt (by omega), mask, packed,
        Bool.not_true, Bool.and_false, Bool.or_false]
    · exact packed
  | some op =>
    have word : (t.word % 2 ^ ((formats t.format).size * 8)).testBit
        (((formats t.format).c i).l + k) = old.testBit k := by
      rwa [Nat.testBit_mod_two_pow, decide_eq_true (by omega), Bool.true_and]
    have merged := testBit_logicOp_at op (by omega) (by omega) packed word
    dsimp only
    rw [if_pos (.inr rfl), Nat.testBit_or, Nat.testBit_and, Nat.testBit_and,
      testBit_not32_lt (by omega), mask, merged, Nat.testBit_mod_two_pow, Bool.not_true,
      Bool.and_false, Bool.or_false, Bool.and_true, Nat.testBit_mod_two_pow, decide_eq_true bit,
      Bool.true_and]

theorem testBit_extract {h l bits : Nat} (range : v < 2 ^ bits) (ordered : l ≤ h) (k : Nat) :
    (extract v h l bits).testBit k = (decide (k < h - l) && v.testBit (l + k)) := by
  unfold extract
  dsimp only
  split
  · rw [Nat.one_shiftLeft, Nat.testBit_and, Nat.testBit_shiftRight, Nat.testBit_two_pow_sub_one,
      Bool.and_comm]
  · rename_i whole
    have whole : h = bits := not_not.mp whole
    rw [Nat.testBit_shiftRight]
    by_cases low : k < h - l
    · rw [decide_eq_true low, Bool.true_and]
    · have high : (2 : Nat) ^ bits ≤ 2 ^ (l + k) := Nat.pow_le_pow_right (by decide) (by omega)
      rw [Nat.testBit_lt_two_pow (range.trans_le high), Bool.and_false]

theorem present_bits : ∀ f i, Present f i → formatBits f i ≠ 0 := by decide +kernel

def component (f : Format) (v : Nat) (i : Component) : Nat :=
  extract v ((formats f).c i).h ((formats f).c i).l ((formats f).size * 8)

theorem readPixelAt_component {m : Memory} {s : Surface} {x y : Nat} {q : Pixel}
    (present : Present s.format i) :
    (readPixelAt m s x y q).c i =
      component s.format (load m (address s x y) (formats s.format).size) i := by
  unfold readPixelAt readPixel component
  exact if_pos (present_bits s.format i present)

theorem testBit_component {f : Format} (colour : Colour f) (range : v < 2 ^ ((formats f).size * 8))
    (i : Component) (k : Nat) :
    (component f v i).testBit k =
      (decide (k < formatBits f i) && v.testBit (((formats f).c i).l + k)) := by
  obtain ⟨ordered, _⟩ := colour_places f colour i
  exact testBit_extract range ordered k

theorem load_writePixelAt {m : Memory} {s : Surface} {x y maskColor : Nat}
    {op : Option GLenum} {p : Pixel} :
    load (writePixelAt m s x y maskColor op p) (address s x y) (formats s.format).size =
      writePixel (target m s x y maskColor op) p := by
  unfold writePixelAt
  rw [load_store]
  exact Nat.mod_mod _ _

structure RoundTrip (m : Memory) (s : Surface) (x y maskColor : Nat) (op : Option GLenum)
    (p : Pixel) : Prop where
  stored : ∀ i, Present s.format i → maskColor.testBit i = true → ∀ q,
    (readPixelAt (writePixelAt m s x y maskColor op p) s x y q).s i = formatBits s.format i ∧
    (readPixelAt (writePixelAt m s x y maskColor op p) s x y q).c i =
      combined op (converted (p.c i) (p.s i) (formatBits s.format i))
        ((readPixelAt m s x y q).c i) (formatBits s.format i)
  masked : ∀ i, Present s.format i → maskColor.testBit i = false → ∀ q,
    (readPixelAt (writePixelAt m s x y maskColor op p) s x y q).c i = (readPixelAt m s x y q).c i
  rest : maskColor ≠ 0xF ∨ op.isSome = true → ∀ k < (formats s.format).size * 8,
    (∀ i, ¬Inside s.format i k) →
    (load (writePixelAt m s x y maskColor op p) (address s x y)
      (formats s.format).size).testBit k =
      (load m (address s x y) (formats s.format).size).testBit k
  beside : ∀ b, (b < address s x y ∨ address s x y + (formats s.format).size ≤ b) →
    writePixelAt m s x y maskColor op p b = m b
  neighbours : ∀ (x' y' : Nat) q, (x' : Int) + y' * s.stride ≠ x + y * s.stride →
    readPixelAt (writePixelAt m s x y maskColor op p) s x' y' q = readPixelAt m s x' y' q

theorem address_apart {s : Surface} {x y x' y' : Nat}
    (other : (x' : Int) + y' * s.stride ≠ x + y * s.stride) :
    address s x' y' + (formats s.format).size ≤ address s x y ∨
      address s x y + (formats s.format).size ≤ address s x' y' := by
  unfold address
  have size : (0 : Int) ≤ (formats s.format).size := Int.natCast_nonneg _
  rcases lt_or_gt_of_ne other with before | after
  · have next := mul_le_mul_of_nonneg_right (Int.add_one_le_of_lt before) size
    rw [add_mul, one_mul] at next
    omega
  · have next := mul_le_mul_of_nonneg_right (Int.add_one_le_of_lt after) size
    rw [add_mul, one_mul] at next
    omega

theorem combined_lt (op : Option GLenum) {value bits : Nat} (old : Nat) (range : value < 2 ^ bits) :
    combined op value old bits < 2 ^ bits := by
  cases op with
  | none => exact range
  | some op => exact Nat.mod_lt _ (Nat.two_pow_pos bits)

theorem writePixel_lt (t : Target) (p : Pixel) :
    writePixel t p < 2 ^ ((formats t.format).size * 8) := Nat.mod_lt _ (Nat.two_pow_pos _)

section Written

variable {m : Memory} {s : Surface} {x y maskColor : Nat} {op : Option GLenum} {p : Pixel}

variable {i : Component}

theorem component_stored (colour : Colour s.format) (h : Declared (target m s x y maskColor op) p)
    (present : Present s.format i) (through : maskColor.testBit i = true) :
    component s.format (writePixel (target m s x y maskColor op) p) i =
      combined op (converted (p.c i) (p.s i) (formatBits s.format i))
        (component s.format (load m (address s x y) (formats s.format).size) i)
        (formatBits s.format i) := by
  have written : Written (target m s x y maskColor op) i := ⟨present.1, present.2, through⟩
  apply Nat.eq_of_testBit_eq
  intro k
  have new := testBit_component colour (writePixel_lt (target m s x y maskColor op) p) i k
  have old := testBit_component colour (load_lt m (address s x y) _) i k
  by_cases bit : k < formatBits s.format i
  · rw [decide_eq_true bit, Bool.true_and] at new old
    exact new.trans (writePixel_stored h colour rfl written bit old.symm)
  · have range := combined_lt op
      (component s.format (load m (address s x y) (formats s.format).size) i)
      (converted_lt (h.range i) (formatBits s.format i))
    have high := Nat.pow_le_pow_right Nat.two_pos (Nat.le_of_not_lt bit)
    rw [new, decide_eq_false bit, Bool.false_and, Nat.testBit_lt_two_pow (range.trans_le high)]

theorem masked_apart (present : Present s.format i) (out : maskColor.testBit i = false) {k : Nat}
    (inside : Inside s.format i k) : ¬Covered (target m s x y maskColor op) k := by
  rintro ⟨j, ⟨luminance, place, through⟩, low, high⟩
  have distinct : i ≠ j := by
    rintro rfl
    exact Bool.false_ne_true (out.symm.trans through)
  obtain ⟨first, last⟩ := inside
  rcases places_apart s.format i j present ⟨luminance, place⟩ distinct with before | after
  · exact absurd (last.trans_le (before.trans low)) (lt_irrefl k)
  · exact absurd (high.trans_le (after.trans first)) (lt_irrefl k)

theorem merges_of_masked (out : maskColor.testBit i = false) : maskColor ≠ 0xF := by
  rintro rfl
  revert i
  decide

theorem component_masked (colour : Colour s.format) (h : Declared (target m s x y maskColor op) p)
    (present : Present s.format i) (out : maskColor.testBit i = false) :
    component s.format (writePixel (target m s x y maskColor op) p) i =
      component s.format (load m (address s x y) (formats s.format).size) i := by
  apply Nat.eq_of_testBit_eq
  intro k
  rw [testBit_component colour (writePixel_lt (target m s x y maskColor op) p),
    testBit_component colour (load_lt m (address s x y) _)]
  by_cases bit : k < formatBits s.format i
  · obtain ⟨ordered, within, _⟩ := colour_places s.format colour i
    have low := bit
    unfold formatBits at low
    have inside : Inside s.format i (((formats s.format).c i).l + k) :=
      ⟨Nat.le_add_right _ _, by omega⟩
    rw [writePixel_kept h colour rfl (.inl (merges_of_masked out))
      (lt_of_lt_of_le inside.2 within) (masked_apart present out inside)]
    rfl
  · rw [decide_eq_false bit, Bool.false_and, Bool.false_and]

/-- A pixel that is written is read back, and nothing else changes. -/
theorem read_write_pixel (m : Memory) (s : Surface) (x y maskColor : Nat) (op : Option GLenum)
    (p : Pixel) (colour : Colour s.format) (h : Declared (target m s x y maskColor op) p) :
    RoundTrip m s x y maskColor op p where
  stored i present through q := by
    refine ⟨rfl, ?_⟩
    rw [readPixelAt_component present, readPixelAt_component present, load_writePixelAt]
    exact component_stored colour h present through
  masked i present out q := by
    rw [readPixelAt_component present, readPixelAt_component present, load_writePixelAt]
    exact component_masked colour h present out
  rest merges k inside apart := by
    rw [load_writePixelAt]
    exact writePixel_kept h colour rfl merges inside fun ⟨i, _, place⟩ => apart i place
  beside b apart := store_outside apart
  neighbours x' y' q other := by
    unfold readPixelAt writePixelAt
    rw [load_store_apart (address_apart other)]

end Written

/-- Half of the red of eight bits and white alpha, on a surface of 16 bits without alpha, with blue
masked out. -/
theorem read_write_pixel_masked :
    RoundTrip (fun _ => 0xFF) { width := 2, height := 1, stride := 2, format := Format.rgb565 } 1 0
      0b0111 none ⟨![0xFF, 0x80, 0, 0x40], fun _ => 8⟩ :=
  read_write_pixel _ _ _ _ _ _ _ (by decide) ⟨by decide, by decide, fun _ _ => (by decide : 8 ≠ 0)⟩

end RabbitRender.Pixelflinger.Codec
