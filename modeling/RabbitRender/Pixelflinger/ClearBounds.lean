/- RabbitRender/Pixelflinger/ClearBounds
   layer: proof
   source: libpixelflinger/clear.cpp, libpixelflinger/pixelflinger.cpp
   digest: Clearing writes the pixels of the scissor inside a surface, unless the scissor lies beyond
     the colour buffer and its width or height wraps. -/

import RabbitRender.Lib.GuardedRun
import RabbitRender.Pixelflinger.Clear
import RabbitRender.Pixelflinger.Widths
import RabbitRender.Raster.Division

set_option autoImplicit false

namespace RabbitRender.Pixelflinger.ClearBounds

open Lib.ByteMemory Lib.GuardedRun Pixelflinger.State Pixelflinger.Pixels
open Pixelflinger.Picker (gglPick pickSurface)
open Pixelflinger.PickCoherence (Op call)
open Pixelflinger.Clear
open Pixelflinger.Widths (u32_eq)

def Target (c : Context) (s : Surface) (x y : Int) : Prop :=
  (0 ≤ x ∧ x < s.width ∧ 0 ≤ y ∧ y < s.height) ∧
    (c.enables .scissorTest = true →
      c.scissor.userLeft ≤ x ∧ x < c.scissor.userRight ∧ c.scissor.userTop ≤ y ∧
        y < c.scissor.userBottom)

def address (s : Surface) (x y : Int) : Int := s.data + (x + y * s.stride) * (formats s.format).size

/-- A byte of one of the pixels `region` holds of. -/
def InPixels (s : Surface) (region : Int → Int → Prop) (b : Int) : Prop :=
  ∃ x y k, region x y ∧ k < (formats s.format).size ∧ b = address s x y + (k : Nat)

/-- The pixels `region` holds of are set to `v`, and no other byte changes. -/
structure Painted (s : Surface) (region : Int → Int → Prop) (v : Nat) (m m' : Memory) : Prop where
  inside : ∀ x y (k : Nat), region x y → k < (formats s.format).size →
    m' (address s x y + k) = byteOf v k
  outside : ∀ b, ¬InPixels s region b → m' b = m b

/-- A clear paints the pixels of its buffers inside the scissor, whatever they held. -/
def Cleared (x : Rasterizer) (mask : Nat) : Prop :=
  ∃ v w, ∀ memory, ∃ m,
    (if clearsColor x.context mask then
      Painted x.context.color (Target x.context x.context.color) v memory m
    else m = memory) ∧
    (if clearsDepth x.context mask then
      Painted x.context.depth (Target x.context x.context.depth) w m
        (gglClear { x with memory } mask).memory
    else (gglClear { x with memory } mask).memory = m)

structure Sound (s : Surface) : Prop where
  row : s.width ≤ s.stride.natAbs
  line : s.stride.natAbs * (formats s.format).size < 2 ^ 31
  bytes : s.stride.natAbs * s.height * (formats s.format).size < 2 ^ 31
  width : s.width < 2 ^ 31
  height : s.height < 2 ^ 31

/-- The rectangle of the scissor is the one `ggl_set_scissor` computes. -/
def InSync (c : Context) : Prop := (setScissor c).scissor = c.scissor

theorem inSync_setScissor (c : Context) : InSync (setScissor c) := by
  unfold InSync setScissor
  dsimp only
  split_ifs <;> rfl

structure Kept (c d : Context) : Prop where
  scissor : d.scissor = c.scissor
  enable : d.enables .scissorTest = c.enables .scissorTest
  width : d.color.width = c.color.width
  height : d.color.height = c.color.height

theorem Kept.refl (c : Context) : Kept c c := ⟨rfl, rfl, rfl, rfl⟩

theorem Kept.inSync {c d : Context} (h : Kept c d) (sync : InSync c) : InSync d := by
  unfold InSync setScissor at sync ⊢
  rw [h.scissor, h.enable, h.width, h.height]
  exact sync

theorem kept_ite {c a b : Context} {p : Prop} [Decidable p] (ha : Kept c a) (hb : Kept c b) :
    Kept c (if p then a else b) := by
  split
  · exact ha
  · exact hb

theorem inSync_ite {a b : Context} {p : Prop} [Decidable p] (ha : InSync a) (hb : InSync b) :
    InSync (if p then a else b) := by
  split
  · exact ha
  · exact hb

theorem kept_enableFlag (c : Context) (flag : Enable) (enable : Bool)
    (other : flag ≠ .scissorTest) : Kept c (enableFlag c flag enable) :=
  kept_ite ⟨rfl, Function.update_of_ne other.symm _ _, rfl, rfl⟩ (Kept.refl c)

theorem kept_setField (c : Context) (differs : Bool) (t : Texture) : Kept c (setField c differs t) :=
  kept_ite ⟨rfl, rfl, rfl, rfl⟩ (Kept.refl c)

theorem kept_gglError (c : Context) (error : GL.GLenum) : Kept c (gglError c error) :=
  ⟨rfl, rfl, rfl, rfl⟩

theorem kept_enableTexture2d (c : Context) (en : Bool) : Kept c (gglEnableTexture2d c en) :=
  kept_ite ⟨rfl, Function.update_of_ne (by decide : Enable.scissorTest ≠ .tmus)
    (decide (tmuMask c en ≠ 0)) c.enables, rfl, rfl⟩ (Kept.refl c)

theorem inSync_enableDisable {c : Context} (sync : InSync c) (name : GL.GLenum) (en : Bool) :
    InSync (enableDisable c name en) := by
  have flag (flag : Enable) (en : Bool) (other : flag ≠ .scissorTest) :
      Kept c (enableFlag c flag en) := kept_enableFlag c flag en other
  have scissor : InSync (gglEnableScissorTest c en) := inSync_ite (inSync_setScissor _) sync
  apply inSync_ite ((flag .blending en nofun).inSync sync)
  apply inSync_ite scissor
  refine Kept.inSync ?_ sync
  apply kept_ite (flag .alphaTest en nofun)
  apply kept_ite (flag .logicOp en nofun)
  apply kept_ite (flag .dither en nofun)
  apply kept_ite (Kept.refl c)
  apply kept_ite (flag .depthTest _ nofun)
  apply kept_ite (flag .aa en nofun)
  apply kept_ite (kept_enableTexture2d c en)
  apply kept_ite (flag .w en nofun)
  apply kept_ite (flag .fog en nofun)
  exact kept_ite (flag .pointAaNice en nofun) (Kept.refl c)

theorem kept_texParameteri (c : Context) (target pname param : GL.GLenum) :
    Kept c (gglTexParameteri c target pname param) := by
  unfold gglTexParameteri
  extract_lets u param
  have error := kept_gglError c GL.invalidEnum
  apply kept_ite error
  apply kept_ite (kept_setField c _ _)
  apply kept_ite (kept_setField c _ _)
  apply kept_ite (kept_setField c _ _)
  apply kept_ite (kept_setField c _ _)
  exact kept_ite (kept_setField c _ _) error

theorem kept_depthBuffer (c : Context) (surface : GGLSurface) :
    Kept c (gglDepthBuffer c surface) := by
  unfold gglDepthBuffer
  split
  · exact ⟨rfl, rfl, rfl, rfl⟩
  · have enabled := kept_enableFlag { c with depth := { c.depth with format := Format.none } }
      .depthTest false nofun
    exact ⟨enabled.scissor, enabled.enable, enabled.width, enabled.height⟩

theorem kept_pick (c : Context) : Kept c (gglPick c) := by
  have surface (s : Surface) : (pickSurface s).toGGLSurface = s.toGGLSurface := by
    unfold pickSurface
    split <;> rfl
  unfold gglPick
  apply kept_ite (Kept.refl c)
  refine kept_ite ?_ ?_
  · exact ⟨rfl, rfl, rfl, rfl⟩
  exact ⟨rfl, rfl, congrArg GGLSurface.width (surface c.color),
    congrArg GGLSurface.height (surface c.color)⟩

theorem call_inSync {c : Context} (sync : InSync c) (op : Op) : InSync (call c op) := by
  have error := kept_gglError c GL.invalidEnum
  have same := Kept.refl c
  cases op with
  | enableDisable name en => exact inSync_enableDisable sync name en
  | colorBuffer surface allocated => exact inSync_setScissor _
  | scissor x y width height => exact inSync_setScissor _
  | activeTexture tmu =>
    refine Kept.inSync ?_ sync
    simp only [call, gglActiveTexture]
    split
    · exact ⟨rfl, rfl, rfl, rfl⟩
    · exact error
  | bindTexture surface =>
    refine Kept.inSync ?_ sync
    simp only [call, gglBindTexture]
    split <;> exact ⟨rfl, rfl, rfl, rfl⟩
  | readBuffer surface | texEnvColor r g b a => exact Kept.inSync ⟨rfl, rfl, rfl, rfl⟩ sync
  | depthBuffer surface => exact (kept_depthBuffer c surface).inSync sync
  | shadeModel mode =>
    exact Kept.inSync (kept_ite (kept_enableFlag c .smooth false nofun)
      (kept_ite (kept_enableFlag c .smooth true nofun) error)) sync
  | blendFunc src dst | blendFuncSeparate src dst srcAlpha dstAlpha =>
    refine Kept.inSync (kept_ite ?_ ?_) sync <;> exact ⟨rfl, rfl, rfl, rfl⟩
  | colorMask r g b a | depthMask flag | stencilMask mask =>
    refine Kept.inSync (kept_ite ?_ same) sync
    exact ⟨rfl, rfl, rfl, rfl⟩
  | alphaFuncx func ref =>
    refine Kept.inSync (kept_ite error (kept_ite ?_ ?_)) sync <;> exact ⟨rfl, rfl, rfl, rfl⟩
  | depthFunc func | logicOp opcode =>
    refine Kept.inSync (kept_ite error (kept_ite ?_ same)) sync
    exact ⟨rfl, rfl, rfl, rfl⟩
  | texEnvi target pname param =>
    exact Kept.inSync (kept_ite error (kept_ite (kept_setField c _ _) error)) sync
  | texParameteri target pname param => exact (kept_texParameteri c target pname param).inSync sync
  | texGeni coord pname param =>
    exact Kept.inSync (kept_ite error (kept_ite (kept_setField c _ _)
      (kept_ite (kept_setField c _ _) error))) sync
  | pick => exact (kept_pick c).inSync sync

theorem size_cases (f : Format) : (formats f).size = 0 ∨ (formats f).size = 3 ∨
    (formats f).size = 1 ∨ (formats f).size = 2 ∨ (formats f).size = 4 := by
  revert f
  decide

/-- Where `memset2d` begins. -/
def beginning (s : Surface) (l t : Nat) : Int :=
  s.data + (l + t * s.stride) * (formats s.format).size % 2 ^ 32

theorem memset2d_eq {m : Memory} {s : Surface} {packed l t w h : Nat}
    (size : (formats s.format).size = 1 ∨ (formats s.format).size = 2 ∨
      (formats s.format).size = 4) :
    memset2d m s packed l t w h =
      fillRows m (beginning s l t) (Fixed.wrap32 (s.stride * (formats s.format).size))
        (formats s.format).size packed (clearedBytes s w h / (formats s.format).size)
        (clearedRows s w h) := by
  rw [memset2d, beginning]
  generalize clearedBytes s w h = bytes
  generalize clearedRows s w h = rows
  generalize (formats s.format).size = size at size ⊢
  obtain rfl | rfl | rfl := size
  · rw [if_pos rfl, Nat.div_one]
  · rw [if_neg (by decide), if_pos rfl, Nat.shiftRight_eq_div_pow, Nat.pow_one]
  · rw [if_neg (by decide), if_neg (by decide), if_pos rfl, Nat.shiftRight_eq_div_pow]

theorem memset2d_none {m : Memory} {s : Surface} {packed l t w h : Nat}
    (size : (formats s.format).size = 0 ∨ (formats s.format).size = 3) :
    memset2d m s packed l t w h = m := by
  rw [memset2d]
  generalize clearedBytes s w h = bytes
  generalize clearedRows s w h = rows
  generalize (formats s.format).size = size at size ⊢
  obtain rfl | rfl := size
  all_goals rw [if_neg (by decide), if_neg (by decide), if_neg (by decide)]

def Rect (l t w h : Nat) (x y : Int) : Prop := (l ≤ x ∧ x < l + w) ∧ t ≤ y ∧ y < t + h

theorem inRows_pixels {s : Surface} {l t w h : Nat} {b : Int}
    (positive : 0 < (formats s.format).size) :
    InRows (address s l t) (s.stride * (formats s.format).size) (formats s.format).size w h b ↔
      InPixels s (Rect l t w h) b := by
  unfold address InPixels Rect address
  generalize (formats s.format).size = size at positive ⊢
  constructor
  · rintro ⟨row, bound, low, high⟩
    have division := Int.mul_ediv_add_emod
      (b - (s.data + (l + t * s.stride) * size + s.stride * size * row)) size
    have word : (0 : Int) < size := by exact_mod_cast positive
    have remainder := Int.emod_nonneg
      (b - (s.data + (l + t * s.stride) * size + s.stride * size * row)) word.ne'
    have below := Int.emod_lt_of_pos
      (b - (s.data + (l + t * s.stride) * size + s.stride * size * row)) word
    generalize hk : (b - (s.data + (l + t * s.stride) * size + s.stride * size * row)) % size = k
      at division remainder below
    generalize hq : (b - (s.data + (l + t * s.stride) * size + s.stride * size * row)) / size = q
      at division
    have first : 0 ≤ q := by
      rw [← hq]
      exact Int.ediv_nonneg (by linarith) word.le
    have last : q < w := by
      rw [← hq, Int.ediv_lt_iff_lt_mul word]
      linarith
    refine ⟨l + q, t + row, k.toNat, ⟨⟨by omega, by omega⟩, by omega, by omega⟩, by omega, ?_⟩
    rw [Int.toNat_of_nonneg remainder]
    linarith
  · rintro ⟨x, y, k, ⟨⟨left, right⟩, top, bottom⟩, inside, rfl⟩
    obtain ⟨q, rfl⟩ := Int.le.dest left
    obtain ⟨row, rfl⟩ := Int.le.dest top
    refine ⟨row, by omega, ?_, ?_⟩
    · have column : (0 : Int) ≤ size * q := by positivity
      linarith
    · have column : (size : Int) * q + size ≤ size * w := by
        have : (size : Int) * (q + 1) ≤ size * w := by
          gcongr
          omega
        linarith
      have byte : (k : Int) < size := by exact_mod_cast inside
      linarith

section Inside

variable {s : Surface} {l t w h : Nat}

theorem stride_eq (sound : Sound s) :
    Fixed.wrap32 (s.stride * (formats s.format).size) = s.stride * (formats s.format).size := by
  have line := sound.line
  have abs : (s.stride * (formats s.format).size).natAbs =
      s.stride.natAbs * (formats s.format).size := by
    rw [Int.natAbs_mul, Int.natAbs_natCast]
  exact Fixed.wrap32_of_bounds (by omega) (by omega)

theorem line_lt (sound : Sound s) (right : l + w ≤ s.width) :
    w * (formats s.format).size < 2 ^ 31 := by
  refine lt_of_le_of_lt (Nat.mul_le_mul_right _ ?_) sound.line
  exact le_trans (le_trans (Nat.le_add_left w l) right) sound.row

theorem fillsStride_iff (sound : Sound s) (right : l + w ≤ s.width)
    (positive : 0 < (formats s.format).size) : FillsStride s w ↔ (w : Int) = s.stride := by
  have line := line_lt sound right
  have word : (formats s.format).size ≠ 0 := positive.ne'
  rw [FillsStride, stride_eq sound, u32_eq (by omega),
    Fixed.wrap32_of_bounds (by omega) (by omega), Nat.cast_mul,
    mul_left_inj' (by exact_mod_cast word)]

theorem offset_lt (sound : Sound s) (left : l < s.width) (top : t < s.height) :
    ((l : Int) + 1 + t * s.stride) * (formats s.format).size < 2 ^ 31 := by
  have row : (l : Int) + 1 ≤ s.stride.natAbs := by exact_mod_cast le_trans left sound.row
  have bytes : (s.stride.natAbs : Int) * s.height * (formats s.format).size < 2 ^ 31 := by
    exact_mod_cast sound.bytes
  have above : (t : Int) * s.stride ≤ t * s.stride.natAbs := by
    gcongr
    exact Int.le_natAbs
  have rows : ((t : Int) + 1) * s.stride.natAbs ≤ s.height * s.stride.natAbs := by
    gcongr
    exact_mod_cast top
  refine lt_of_le_of_lt ?_ bytes
  gcongr
  linarith

theorem lt_offset (sound : Sound s) (top : t < s.height) :
    -2 ^ 31 < ((l : Int) + t * s.stride) * (formats s.format).size := by
  have bytes : (s.stride.natAbs : Int) * s.height * (formats s.format).size < 2 ^ 31 := by
    exact_mod_cast sound.bytes
  have below : -(s.stride.natAbs : Int) ≤ s.stride := by omega
  have row : (t : Int) * -s.stride.natAbs ≤ t * s.stride := by gcongr
  have rows : (t : Int) * s.stride.natAbs ≤ s.height * s.stride.natAbs := by
    gcongr
  have offset : -((s.stride.natAbs : Int) * s.height) * (formats s.format).size ≤
      (l + t * s.stride) * (formats s.format).size := by
    gcongr
    linarith
  linarith

theorem beginning_eq (sound : Sound s) (left : l < s.width) (top : t < s.height)
    (start : 0 ≤ (l : Int) + t * s.stride) : beginning s l t = address s l t := by
  have above : 0 ≤ ((l : Int) + t * s.stride) * (formats s.format).size := by positivity
  have below : ((l : Int) + t * s.stride) * (formats s.format).size < 2 ^ 31 := by
    linarith [offset_lt sound left top]
  rw [beginning, address, Int.emod_eq_of_lt above (by omega)]

theorem inRows_cleared (sound : Sound s) (right : l + w ≤ s.width) (bottom : t + h ≤ s.height)
    (positive : 0 < (formats s.format).size) (b : Int) :
    InRows (address s l t) (s.stride * (formats s.format).size) (formats s.format).size
        (clearedBytes s w h / (formats s.format).size) (clearedRows s w h) b ↔
      InPixels s (Rect l t w h) b := by
  have line := line_lt sound right
  rw [← inRows_pixels positive, clearedBytes, clearedRows]
  by_cases fills : FillsStride s w
  · have whole := (fillsStride_iff sound right positive).mp fills
    have bytes : w * (formats s.format).size * h < 2 ^ 31 := by
      refine lt_of_le_of_lt ?_ sound.bytes
      rw [← whole, Int.natAbs_natCast, Nat.mul_right_comm]
      gcongr
      omega
    have stride : s.stride * (formats s.format).size = ((formats s.format).size * w : Nat) := by
      rw [← whole]
      push_cast
      ring
    rw [if_pos fills, if_pos fills, u32_eq (x := w * (formats s.format).size) (by omega),
      u32_eq (by omega), Nat.mul_right_comm, Nat.mul_div_cancel _ positive, stride]
    exact inRows_contiguous.symm
  · rw [if_neg fills, if_neg fills, u32_eq (by omega), Nat.mul_div_cancel _ positive]

theorem words_pos (sound : Sound s) (right : l + w ≤ s.width) (bottom : t + h ≤ s.height)
    (positive : 0 < (formats s.format).size) (wide : 0 < w) (high : 0 < h) :
    0 < clearedBytes s w h / (formats s.format).size := by
  have corner : Rect l t w h l t := by
    unfold Rect
    omega
  obtain ⟨_, _, low, above⟩ := (inRows_cleared sound right bottom positive _).mpr
    ⟨l, t, 0, corner, positive, rfl⟩
  by_contra none
  rw [Nat.eq_zero_of_not_pos none, Nat.cast_zero, mul_zero] at above
  omega

theorem memset2d_painted {m : Memory} {packed : Nat} (sound : Sound s)
    (size : (formats s.format).size = 1 ∨ (formats s.format).size = 2 ∨
      (formats s.format).size = 4)
    (right : l + w ≤ s.width) (bottom : t + h ≤ s.height) (wide : 0 < w) (high : 0 < h)
    (start : 0 ≤ (l : Int) + t * s.stride) :
    Painted s (Rect l t w h) packed m (memset2d m s packed l t w h) := by
  have positive : 0 < (formats s.format).size := by omega
  have covered := inRows_cleared sound right bottom positive
  rw [memset2d_eq size, stride_eq sound, beginning_eq sound (by omega) (by omega) start]
  refine ⟨fun x y k region inside => ?_, fun b outside => ?_⟩
  · have place : address s x y + k - address s l t =
        k + (x - l + (y - t) * s.stride) * (formats s.format).size := by
      unfold address
      ring
    have word : (k : Int) < (formats s.format).size := by exact_mod_cast inside
    rw [fillRows_inside positive (Dvd.intro_left _ rfl)
      ((covered _).mpr ⟨x, y, k, region, inside, rfl⟩), place, Int.add_mul_emod_self_right,
      Int.emod_eq_of_lt (Int.natCast_nonneg k) word, Int.toNat_natCast]
  · exact fillRows_outside positive fun inside => outside ((covered b).mp inside)

end Inside

def clipRight (c : Context) (s : Surface) : Int :=
  if c.enables .scissorTest then min s.width c.scissor.userRight else s.width

def clipBottom (c : Context) (s : Surface) : Int :=
  if c.enables .scissorTest then min s.height c.scissor.userBottom else s.height

def clipEmpty (c : Context) (s : Surface) : Prop :=
  clipRight c s ≤ c.scissor.left ∨ clipBottom c s ≤ c.scissor.top

instance (c : Context) (s : Surface) : Decidable (clipEmpty c s) :=
  inferInstanceAs (Decidable (_ ∨ _))

section InStep

variable {c : Context}

theorem scissor_on (sync : InSync c) (enabled : c.enables .scissorTest = true) :
    c.scissor = { c.scissor with
      left := max 0 c.scissor.userLeft
      right := min c.color.width c.scissor.userRight
      top := max 0 c.scissor.userTop
      bottom := min c.color.height c.scissor.userBottom } := by
  have step : (setScissor c).scissor = c.scissor := sync
  rw [setScissor, if_pos enabled] at step
  exact step.symm

theorem scissor_off (sync : InSync c) (disabled : ¬c.enables .scissorTest = true) :
    c.scissor = { c.scissor with
      left := 0, top := 0, right := c.color.width, bottom := c.color.height } := by
  have step : (setScissor c).scissor = c.scissor := sync
  rw [setScissor, if_neg disabled] at step
  exact step.symm

theorem inSync_cases (sync : InSync c) :
    (c.enables .scissorTest = true ∧ c.scissor.left = max 0 c.scissor.userLeft ∧
      c.scissor.top = max 0 c.scissor.userTop) ∨
    (c.enables .scissorTest = false ∧ c.scissor.left = 0 ∧ c.scissor.top = 0) := by
  cases enabled : c.enables .scissorTest with
  | true =>
    have fields := scissor_on sync enabled
    exact .inl ⟨rfl, congrArg Scissor.left fields, congrArg Scissor.top fields⟩
  | false =>
    have fields := scissor_off sync (by rw [enabled]; decide)
    exact .inr ⟨rfl, congrArg Scissor.left fields, congrArg Scissor.top fields⟩

theorem clip_color {s : Surface} (sync : InSync c) (width : s.width = c.color.width)
    (height : s.height = c.color.height) :
    clipRight c s = c.scissor.right ∧ clipBottom c s = c.scissor.bottom := by
  unfold clipRight clipBottom
  rw [width, height]
  split_ifs with enabled
  · have fields := scissor_on sync enabled
    exact ⟨(congrArg Scissor.right fields).symm, (congrArg Scissor.bottom fields).symm⟩
  · have fields := scissor_off sync enabled
    exact ⟨(congrArg Scissor.right fields).symm, (congrArg Scissor.bottom fields).symm⟩

end InStep

theorem origin_nonneg {c : Context} (sync : InSync c) :
    0 ≤ c.scissor.left ∧ 0 ≤ c.scissor.top := by
  rcases inSync_cases sync with ⟨_, left, top⟩ | ⟨_, left, top⟩ <;> omega

theorem clip_le (c : Context) (s : Surface) :
    clipRight c s ≤ s.width ∧ clipBottom c s ≤ s.height := by
  unfold clipRight clipBottom
  split <;> omega

theorem target_iff {c : Context} (sync : InSync c) (s : Surface) (x y : Int) :
    Target c s x y ↔
      (c.scissor.left ≤ x ∧ x < clipRight c s) ∧ c.scissor.top ≤ y ∧ y < clipBottom c s := by
  unfold Target clipRight clipBottom
  rcases inSync_cases sync with ⟨enabled, left, top⟩ | ⟨enabled, left, top⟩
  · rw [enabled, left, top]
    simp only [forall_const, if_true]
    omega
  · rw [enabled, left, top]
    simp only [Bool.false_eq_true, IsEmpty.forall_iff, and_true, if_false]
    omega

theorem target_none {c : Context} {s : Surface} (sync : InSync c) (empty : clipEmpty c s)
    (x y : Int) : ¬Target c s x y := by
  rw [target_iff sync]
  rcases empty with empty | empty <;> omega

variable {region : Int → Int → Prop} {v : Nat} {m : Memory} {x : Rasterizer}

theorem painted_none {s : Surface} (none : ∀ x y, ¬region x y) : Painted s region v m m :=
  ⟨fun x y _ inside => absurd inside (none x y), fun _ _ => rfl⟩

def cleared (c : Context) (s : Surface) (packed : Nat) (m : Memory) : Memory :=
  if clearWidth c = 0 ∨ clearHeight c = 0 then m
  else
    memset2d m s packed (c.scissor.left % 2 ^ 32).toNat (c.scissor.top % 2 ^ 32).toNat
      (clearWidth c) (clearHeight c)

/-- When a clear fills the clip of a surface and nothing else. Pixels of three bytes are not
cleared, and a scissor whose right or bottom edge comes first wraps. -/
def Clears (c : Context) (s : Surface) : Prop :=
  if clearWidth c = 0 ∨ clearHeight c = 0 then clipEmpty c s
  else if c.scissor.left < c.scissor.right ∧ c.scissor.top < c.scissor.bottom then
    (formats s.format).size = 0 ∨
      ((formats s.format).size ≠ 3 ∧
        (clipRight c s = c.scissor.right ∧ clipBottom c s = c.scissor.bottom) ∧
        0 ≤ c.scissor.left + c.scissor.top * s.stride)
  else
    (formats s.format).size = 0 ∨
      (clipEmpty c s ∧
        ((formats s.format).size = 3 ∨ clearedBytes s (clearWidth c) (clearHeight c) = 0))

instance (c : Context) (s : Surface) : Decidable (Clears c s) :=
  inferInstanceAs (Decidable (ite _ _ _))

theorem painted_nothing {s : Surface} (size : (formats s.format).size = 0) :
    Painted s region v m m :=
  ⟨fun _ _ k _ inside => absurd (size ▸ inside) (Nat.not_lt_zero k), fun _ _ => rfl⟩

structure Corners (c : Context) (l t w h : Nat) : Prop where
  left : c.scissor.left = l
  top : c.scissor.top = t
  right : c.scissor.right = l + w
  bottom : c.scissor.bottom = t + h

theorem exists_corners {c : Context} (sync : InSync c)
    (wide : c.scissor.left < c.scissor.right) (high : c.scissor.top < c.scissor.bottom) :
    ∃ l t w h, Corners c l t w h ∧ 0 < w ∧ 0 < h := by
  obtain ⟨left, top⟩ := origin_nonneg sync
  refine ⟨c.scissor.left.toNat, c.scissor.top.toNat, (c.scissor.right - c.scissor.left).toNat,
    (c.scissor.bottom - c.scissor.top).toNat, ⟨?_, ?_, ?_, ?_⟩, ?_, ?_⟩ <;> omega

theorem Corners.arguments {c : Context} {l t w h : Nat} (corners : Corners c l t w h)
    (right : l + w < 2 ^ 32) (bottom : t + h < 2 ^ 32) :
    (c.scissor.left % 2 ^ 32).toNat = l ∧ (c.scissor.top % 2 ^ 32).toNat = t ∧
      clearWidth c = w ∧ clearHeight c = h := by
  rw [clearWidth, clearHeight, corners.left, corners.top, corners.right, corners.bottom,
    add_sub_cancel_left, add_sub_cancel_left]
  refine ⟨?_, ?_, ?_, ?_⟩ <;> omega

theorem clears_painted {c : Context} {s : Surface} (sync : InSync c) (sound : Sound s)
    (clears : Clears c s) (packed : Nat) (m : Memory) :
    Painted s (Target c s) packed m (cleared c s packed m) := by
  unfold Clears at clears
  unfold cleared
  split_ifs at clears ⊢ with skipped ordered
  · exact painted_none (target_none sync clears)
  · rcases clears with none | ⟨three, ⟨right, bottom⟩, start⟩
    · rw [memset2d_none (.inl none)]
      exact painted_nothing none
    rcases size_cases s.format with none | none | size
    · rw [memset2d_none (.inl none)]
      exact painted_nothing none
    · exact absurd none three
    have positive : 0 < (formats s.format).size := by omega
    obtain ⟨l, t, w, h, corners, wide, high⟩ := exists_corners sync ordered.1 ordered.2
    obtain ⟨inWidth, inHeight⟩ := clip_le c s
    rw [right, corners.right] at inWidth
    rw [bottom, corners.bottom] at inHeight
    have width := sound.width
    have height := sound.height
    obtain ⟨hl, ht, hw, hh⟩ := corners.arguments (by omega) (by omega)
    rw [corners.left, corners.top] at start
    have region : Target c s = Rect l t w h := by
      ext x y
      rw [target_iff sync, right, bottom, corners.left, corners.top, corners.right, corners.bottom]
      rfl
    rw [hl, ht, hw, hh, region]
    exact memset2d_painted sound size (by omega) (by omega) wide high start
  · rcases clears with none | ⟨empty, none⟩
    · rw [memset2d_none (.inl none)]
      exact painted_nothing none
    have same : memset2d m s packed (c.scissor.left % 2 ^ 32).toNat
        (c.scissor.top % 2 ^ 32).toNat (clearWidth c) (clearHeight c) = m := by
      rcases size_cases s.format with zero | three | size
      · exact memset2d_none (.inl zero)
      · exact memset2d_none (.inr three)
      rcases none with three | none
      · exact memset2d_none (.inr three)
      rw [memset2d_eq size, none, Nat.zero_div]
      exact fillRows_none
    rw [same]
    exact painted_none (target_none sync empty)

theorem first_written {s : Surface} {packed l t w h : Nat} (sound : Sound s)
    (size : (formats s.format).size = 1 ∨ (formats s.format).size = 2 ∨
      (formats s.format).size = 4) (some : 0 < clearedBytes s w h / (formats s.format).size)
    (rows : 0 < clearedRows s w h) :
    memset2d m s packed l t w h (beginning s l t) = byteOf packed 0 := by
  have positive : 0 < (formats s.format).size := by omega
  have inside : InRows (beginning s l t) (s.stride * (formats s.format).size)
      (formats s.format).size (clearedBytes s w h / (formats s.format).size)
      (clearedRows s w h) (beginning s l t) := by
    have bytes : 0 < (formats s.format).size *
        (clearedBytes s w h / (formats s.format).size) := Nat.mul_pos positive some
    have begins : (0 : Int) < (formats s.format).size *
        (clearedBytes s w h / (formats s.format).size : Nat) := by exact_mod_cast bytes
    refine ⟨0, rows, ?_, ?_⟩
    · rw [Nat.cast_zero, mul_zero, add_zero]
    · rw [Nat.cast_zero, mul_zero, add_zero]
      exact lt_add_of_pos_right _ begins
  rw [memset2d_eq size, stride_eq sound, fillRows_inside positive (Dvd.intro_left _ rfl) inside,
    sub_self, Int.zero_emod, Int.toNat_zero]

theorem inPixels_of_written {s : Surface} {b : Int} {byte : UInt8} {result : Memory → Memory}
    (painted : ∀ m, Painted s region v m (result m)) (written : ∀ m, result m b = byte) :
    InPixels s region b := by
  by_contra outside
  have kept (old : UInt8) : byte = old := by
    rw [← written fun _ => old]
    exact (painted fun _ => old).outside b outside
  exact absurd ((kept 0).symm.trans (kept 1)) (by decide)

theorem words_of_bytes {s : Surface} {w h : Nat}
    (size : (formats s.format).size = 1 ∨ (formats s.format).size = 2 ∨
      (formats s.format).size = 4)
    (some : clearedBytes s w h ≠ 0) : 0 < clearedBytes s w h / (formats s.format).size := by
  have power : (formats s.format).size ∣ 2 ^ 32 := by
    rcases size with size | size | size <;> rw [size]
    · exact one_dvd _
    · exact Dvd.intro (2 ^ 31) rfl
    · exact Dvd.intro (2 ^ 30) rfl
  have line : (formats s.format).size ∣ u32 (w * (formats s.format).size) :=
    (Nat.dvd_mod_iff power).mpr (Nat.dvd_mul_left _ _)
  have bytes : (formats s.format).size ∣ clearedBytes s w h := by
    rw [clearedBytes]
    split
    · exact (Nat.dvd_mod_iff power).mpr (Dvd.dvd.mul_right line h)
    · exact line
  have positive : 0 < (formats s.format).size := by omega
  exact Nat.div_pos (Nat.le_of_dvd (Nat.pos_of_ne_zero some) bytes) positive

theorem beginning_apart {c : Context} {s : Surface} {l t : Nat} (sound : Sound s)
    (top : t < s.height) (start : (l : Int) + t * s.stride < 0)
    (positive : 0 < (formats s.format).size) :
    ¬InPixels s (Target c s) (beginning s l t) := by
  rintro ⟨x, y, k, region, inside, place⟩
  obtain ⟨⟨left, right, upper, lower⟩, _⟩ := region
  obtain ⟨x, rfl⟩ := Int.eq_ofNat_of_zero_le left
  obtain ⟨y, rfl⟩ := Int.eq_ofNat_of_zero_le upper
  have low := lt_offset (l := l) sound top
  have high := offset_lt (l := x) (t := y) sound (by omega) (by omega)
  have word : (k : Int) < (formats s.format).size := by exact_mod_cast inside
  have negative : ((l : Int) + t * s.stride) * (formats s.format).size < 0 :=
    mul_neg_of_neg_of_pos start (by exact_mod_cast positive)
  have wrapped : ((l : Int) + t * s.stride) * (formats s.format).size % 2 ^ 32 =
      (l + t * s.stride) * (formats s.format).size + 2 ^ 32 := by omega
  rw [beginning, wrapped, address] at place
  linarith

theorem clears_of_painted {c : Context} {s : Surface} {packed : Nat} (sync : InSync c)
    (sound : Sound s) (width : s.width = c.color.width) (height : s.height = c.color.height)
    (painted : ∀ m, Painted s (Target c s) v m (cleared c s packed m)) : Clears c s := by
  obtain ⟨right, bottom⟩ := clip_color sync width height
  obtain ⟨inWidth, inHeight⟩ := clip_le c s
  obtain ⟨left, top⟩ := origin_nonneg sync
  have wide := sound.width
  have tall := sound.height
  unfold Clears
  unfold cleared at painted
  split_ifs at painted ⊢ with skipped ordered
  · unfold clearWidth clearHeight at skipped
    unfold clipEmpty
    omega
  · rcases size_cases s.format with zero | three | size
    · exact .inl zero
    · have corner : Target c s c.scissor.left c.scissor.top := by
        rw [target_iff sync]
        omega
      have kept (old : UInt8) : old = byteOf v 0 := by
        have inside := (painted fun _ => old).inside _ _ 0 corner (by omega)
        rwa [memset2d_none (.inr three)] at inside
      exact absurd ((kept 0).trans (kept 1).symm) (by decide)
    have positive : 0 < (formats s.format).size := by omega
    obtain ⟨l, t, w, h, corners, nonzero, rows⟩ := exists_corners sync ordered.1 ordered.2
    rw [right, corners.right] at inWidth
    rw [bottom, corners.bottom] at inHeight
    obtain ⟨hl, ht, hw, hh⟩ := corners.arguments (by omega) (by omega)
    refine .inr ⟨by omega, ⟨right, bottom⟩, ?_⟩
    rw [hl, ht, hw, hh] at painted
    rw [corners.left, corners.top]
    by_contra start
    refine beginning_apart sound (by omega) (not_le.mp start) positive
      (inPixels_of_written painted fun m => first_written sound size ?_ ?_)
    · exact words_pos (l := l) (t := t) sound (by omega) (by omega) positive nonzero rows
    · rw [clearedRows]
      split <;> omega
  · rcases size_cases s.format with zero | three | size
    · exact .inl zero
    all_goals
      refine .inr ⟨by unfold clipEmpty; omega, ?_⟩
    · exact .inl three
    refine .inr ?_
    by_contra some
    have rows : 0 < clearedRows s (clearWidth c) (clearHeight c) := by
      rw [clearedRows]
      split <;> omega
    obtain ⟨x, y, _, region, _⟩ := inPixels_of_written painted fun m =>
      first_written sound size (words_of_bytes size some) rows
    exact target_none sync (by unfold clipEmpty; omega) x y region

def Present (c : Context) (s : Surface) : Prop :=
  (s = c.color ∨ s = c.depth) ∧ s.format ≠ Format.none

def ClearsWhen (c : Context) : Prop := ∀ s, Present c s → Clears c s

def usedColor (clear : ClearState) (format : Format) : Nat :=
  if clear.colorDirty then packedColor clear format else clear.colorPacked

def usedDepth (clear : ClearState) : Nat :=
  if clear.depthDirty then packedDepth clear else clear.depthPacked

theorem clearColorBuffer_memory (x : Rasterizer) :
    (clearColorBuffer x).memory =
      fillSurface x x.context.color (usedColor x.clear x.context.color.format) := by
  unfold clearColorBuffer usedColor
  cases x.clear.colorDirty <;> rfl

theorem clearColorBuffer_frame (x : Rasterizer) :
    (clearColorBuffer x).context = x.context ∧
      usedDepth (clearColorBuffer x).clear = usedDepth x.clear := by
  unfold clearColorBuffer
  cases x.clear.colorDirty <;> exact ⟨rfl, rfl⟩

theorem clearDepthBuffer_memory (x : Rasterizer) :
    (clearDepthBuffer x).memory = fillSurface x x.context.depth (usedDepth x.clear) := by
  unfold clearDepthBuffer usedDepth
  cases x.clear.depthDirty <;> rfl

theorem gglClear_memory (x : Rasterizer) (mask : Nat) :
    (gglClear x mask).memory =
      let m :=
        if clearsColor x.context mask then
          cleared x.context x.context.color (usedColor x.clear x.context.color.format) x.memory
        else x.memory
      if clearsDepth x.context mask then
        cleared x.context x.context.depth (usedDepth x.clear) m
      else m := by
  unfold gglClear cleared
  dsimp only
  by_cases skipped : clearWidth x.context = 0 ∨ clearHeight x.context = 0
  · rw [if_pos skipped]
    simp only [if_pos skipped, ite_self]
  rw [if_neg skipped]
  simp only [if_neg skipped]
  by_cases color : clearsColor x.context mask
  · obtain ⟨context, depth⟩ := clearColorBuffer_frame x
    simp only [if_pos color, context]
    split
    · rw [clearDepthBuffer_memory, depth]
      unfold fillSurface
      rw [context, clearColorBuffer_memory]
      rfl
    · exact clearColorBuffer_memory x
  · simp only [if_neg color]
    split
    · exact clearDepthBuffer_memory x
    · rfl

theorem cleared_of_clears (sync : InSync x.context) (sound : ∀ s, Present x.context s → Sound s)
    (clears : ClearsWhen x.context) (mask : Nat) : Cleared x mask := by
  refine ⟨usedColor x.clear x.context.color.format, usedDepth x.clear, fun memory => ?_⟩
  have whole := gglClear_memory { x with memory } mask
  dsimp only at whole
  rw [whole]
  refine ⟨if clearsColor x.context mask then
    cleared x.context x.context.color (usedColor x.clear x.context.color.format) memory
    else memory, ?_, ?_⟩
  · by_cases color : clearsColor x.context mask
    · have present : Present x.context x.context.color := ⟨.inl rfl, color.2⟩
      rw [if_pos color, if_pos color]
      exact clears_painted sync (sound _ present) (clears _ present) _ _
    · rw [if_neg color, if_neg color]
  · by_cases depth : clearsDepth x.context mask
    · have present : Present x.context x.context.depth := ⟨.inr rfl, depth.2⟩
      rw [if_pos depth, if_pos depth]
      exact clears_painted sync (sound _ present) (clears _ present) _ _
    · rw [if_neg depth, if_neg depth]

theorem clears_of_cleared (sync : InSync x.context) (sound : ∀ s, Present x.context s → Sound s)
    (size : ∀ s, Present x.context s →
      s.width = x.context.color.width ∧ s.height = x.context.color.height)
    (all : ∀ mask, Cleared x mask) : ClearsWhen x.context := by
  rintro s ⟨rfl | rfl, format⟩
  · have present : Present x.context x.context.color := ⟨.inl rfl, format⟩
    have only : clearsColor x.context (1 <<< 14) := ⟨by decide, format⟩
    have other : ¬clearsDepth x.context (1 <<< 14) := fun h => absurd h.1 (by decide)
    obtain ⟨v, _, both⟩ := all (1 <<< 14)
    have painted : ∀ m, Painted x.context.color (Target x.context x.context.color) v m
        (cleared x.context x.context.color (usedColor x.clear x.context.color.format) m) := by
      intro memory
      obtain ⟨m, color, depth⟩ := both memory
      have whole := gglClear_memory { x with memory } (1 <<< 14)
      dsimp only at whole
      rw [if_pos only] at color whole
      rw [if_neg other] at depth whole
      rwa [← whole, depth]
    exact clears_of_painted sync (sound _ present) rfl rfl painted
  · have present : Present x.context x.context.depth := ⟨.inr rfl, format⟩
    have only : clearsDepth x.context (1 <<< 8) := ⟨by decide, format⟩
    have other : ¬clearsColor x.context (1 <<< 8) := fun h => absurd h.1 (by decide)
    obtain ⟨width, height⟩ := size _ present
    obtain ⟨_, w, both⟩ := all (1 <<< 8)
    have painted : ∀ m, Painted x.context.depth (Target x.context x.context.depth) w m
        (cleared x.context x.context.depth (usedDepth x.clear) m) := by
      intro memory
      obtain ⟨m, color, depth⟩ := both memory
      have whole := gglClear_memory { x with memory } (1 <<< 8)
      dsimp only at whole
      rw [if_neg other] at color whole
      rw [if_pos only] at depth whole
      rw [color] at depth
      rwa [← whole]
    exact clears_of_painted sync (sound _ present) width height painted

theorem gglClear_context (x : Rasterizer) (mask : Nat) : (gglClear x mask).context = x.context := by
  have depth (x : Rasterizer) : (clearDepthBuffer x).context = x.context := by
    unfold clearDepthBuffer
    split <;> rfl
  unfold gglClear
  split
  · rfl
  dsimp only
  split
  · rw [apply_ite Rasterizer.context, depth, ite_self, (clearColorBuffer_frame x).1]
  · rw [apply_ite Rasterizer.context, depth, ite_self]

theorem step_inSync (sync : InSync x.context) (op : ClearOp) : InSync (step x op).context := by
  cases op with
  | state op => exact call_inSync sync op
  | clearColorx r g b a => exact sync
  | clearDepthx depth => exact sync
  | clearStencil s => exact sync
  | clear mask => rwa [step, gglClear_context]

theorem run_inSync (sync : InSync x.context) (ops : List ClearOp) :
    InSync (run step x ops).context := by
  induction ops generalizing x with
  | nil => exact sync
  | cons op ops ih => exact ih (step_inSync sync op)

def square : GGLSurface := { width := 64, height := 64, stride := 64, format := Format.rgba8888 }

/-- The colour buffer `square`, with the scissor at `(x, y)`. -/
def scissored (x y : Int) : List ClearOp :=
  [.state (.colorBuffer square true),
    .state (.enableDisable GGL.scissorTest true), .state (.scissor x y 10 10)]

theorem scissored_sound (memory : Memory) (x y : Int) (s : Surface)
    (present : Present (run step (init memory) (scissored x y)).context s) : Sound s := by
  obtain ⟨rfl | rfl, format⟩ := present
  · have color : (run step (init memory) (scissored x y)).context.color = setSurface {} square := rfl
    rw [color]
    exact ⟨by decide, by decide, by decide, by decide, by decide⟩
  · exact absurd rfl format

end RabbitRender.Pixelflinger.ClearBounds
