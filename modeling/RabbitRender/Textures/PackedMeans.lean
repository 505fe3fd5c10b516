/- RabbitRender/Textures/PackedMeans
   layer: results
   source: swrender/mipmap.cpp
   digest: The channels of a generated texel, for the formats that pack them into one word. -/

import Mathlib.Tactic.FinCases
import RabbitRender.Lib.Lanes
import RabbitRender.Pixelflinger.Pixels
import RabbitRender.Textures.MipmapLoops

set_option autoImplicit false

namespace RabbitRender.Textures.PackedMeans

open Lib.Lanes Lib.ByteMemory
open Pixelflinger (Component Format formats)
open Pixelflinger.Pixels (extract)
open Textures.Levels (halve)
open Textures.Mipmaps Textures.MipmapLoops

def channel (format : Format) (i : Component) (v : Nat) : Nat :=
  extract v ((formats format).c i).h ((formats format).c i).l ((formats format).size * 8)

/-- Texel `(x, y)` of a level whose rows are `stride` texels apart. -/
def texel (format : Format) (m : Memory) (stride x y : Nat) : Nat :=
  load m (element 1 stride x y 0 * (formats format).size : Nat) (formats format).size

/-- A channel of the four texels that texel `(x, y)` of the next level covers, summed up. -/
def coveredSum (format : Format) (i : Component) (src : Memory) (stride x y : Nat) : Nat :=
  channel format i (texel format src stride (2 * x) (2 * y)) +
    channel format i (texel format src stride (2 * x + 1) (2 * y)) +
    channel format i (texel format src stride (2 * x) (2 * y + 1)) +
    channel format i (texel format src stride (2 * x + 1) (2 * y + 1))

section Box565

private theorem merged565 {n : Nat} (h : n < 2 ^ 16) : n ||| n * 2 ^ 16 =
    pack [5, 6, 5, 5, 6, 5]
      [n % 32, n / 32 % 64, n / 2048, n % 32, n / 32 % 64, n / 2048] := by
  have low : n = pack [5, 6, 5, 5, 6, 5] [n % 32, n / 32 % 64, n / 2048, 0, 0, 0] := by
    simp only [pack_cons, pack_nil]
    omega
  have high : n * 2 ^ 16 = pack [5, 6, 5, 5, 6, 5] [0, 0, 0, n % 32, n / 32 % 64, n / 2048] := by
    simp only [pack_cons, pack_nil]
    omega
  calc n ||| n * 2 ^ 16
      = pack [5, 6, 5, 5, 6, 5] [n % 32, n / 32 % 64, n / 2048, 0, 0, 0] |||
          pack [5, 6, 5, 5, 6, 5] [0, 0, 0, n % 32, n / 32 % 64, n / 2048] := by rw [← low, ← high]
    _ = _ := pack_or (by simp; omega) (by simp; omega)
    _ = _ := by simp

private theorem spread565_toNat {p : BitVec 32} (h : p.toNat < 2 ^ 16) : (spread565 p).toNat =
    pack [11, 10, 11] [p.toNat % 32, p.toNat / 2048, p.toNat / 32 % 64] := by
  generalize hn : p.toNat = n at h
  have kept : (n ||| n * 2 ^ 16) &&& mask [5, 6, 5, 5, 6, 5] [true, false, true, false, true, false] =
      pack [5, 6, 5, 5, 6, 5] [n % 32, 0, n / 2048, 0, n / 32 % 64, 0] := by
    rw [merged565 h, pack_and_mask (by simp; omega) rfl]
    simp
  simp only [spread565, BitVec.toNat_and, BitVec.toNat_or, BitVec.toNat_shiftLeft, hn]
  rw [Nat.shiftLeft_eq, Nat.mod_eq_of_lt (by omega)]
  refine kept.trans ?_
  simp only [pack_cons, pack_nil]
  omega

private theorem quarter565 {b g r : Nat} (hb : b < 128) (hg : g < 256) (hr : r < 128) :
    ((pack [11, 10, 11] [b, r, g] >>> 2 &&& 0x07E0F81F) &&& 0xFFFF) |||
        (pack [11, 10, 11] [b, r, g] >>> 2 &&& 0x07E0F81F) >>> 16 =
      pack [5, 6, 5] [b / 4, g / 4, r / 4] := by
  have shifted : pack [11, 10, 11] [b, r, g] >>> 2 =
      pack [5, 4, 2, 5, 3, 2, 6, 3] [b / 4, 0, r % 4, r / 4, 0, g % 4, g / 4, 0] := by
    rw [Nat.shiftRight_eq_div_pow]
    simp only [pack_cons, pack_nil]
    omega
  have kept : pack [11, 10, 11] [b, r, g] >>> 2 &&&
      mask [5, 4, 2, 5, 3, 2, 6, 3] [true, false, false, true, false, false, true, false] =
        pack [5, 4, 2, 5, 3, 2, 6, 3] [b / 4, 0, 0, r / 4, 0, 0, g / 4, 0] := by
    rw [shifted, pack_and_mask (by simp; omega) rfl]
    simp
  have low : pack [5, 4, 2, 5, 3, 2, 6, 3] [b / 4, 0, 0, r / 4, 0, 0, g / 4, 0] &&& 0xFFFF =
      pack [5, 6, 5] [b / 4, 0, r / 4] := by
    rw [show 0xFFFF = 2 ^ 16 - 1 from rfl, Nat.and_two_pow_sub_one_eq_mod]
    simp only [pack_cons, pack_nil]
    omega
  have high : pack [5, 4, 2, 5, 3, 2, 6, 3] [b / 4, 0, 0, r / 4, 0, 0, g / 4, 0] >>> 16 =
      pack [5, 6, 5] [0, g / 4, 0] := by
    rw [Nat.shiftRight_eq_div_pow]
    simp only [pack_cons, pack_nil]
    omega
  have same : 0x07E0F81F =
      mask [5, 4, 2, 5, 3, 2, 6, 3] [true, false, false, true, false, false, true, false] := by
    decide
  rw [same, kept, low, high, pack_or (by simp; omega) (by simp; omega)]
  simp

theorem box565_toNat {p00 p10 p01 p11 : BitVec 32} (h00 : p00.toNat < 2 ^ 16)
    (h10 : p10.toNat < 2 ^ 16) (h01 : p01.toNat < 2 ^ 16) (h11 : p11.toNat < 2 ^ 16) :
    (box565 p00 p10 p01 p11).toNat = pack [5, 6, 5]
      [(p00.toNat % 32 + p10.toNat % 32 + p01.toNat % 32 + p11.toNat % 32) / 4,
        (p00.toNat / 32 % 64 + p10.toNat / 32 % 64 + p01.toNat / 32 % 64 + p11.toNat / 32 % 64) / 4,
        (p00.toNat / 2048 + p10.toNat / 2048 + p01.toNat / 2048 + p11.toNat / 2048) / 4] := by
  have first := toNat_add_pack (spread565_toNat h00) (spread565_toNat h10) rfl rfl
    (by simp; omega) (by decide)
  have second := toNat_add_pack first (spread565_toNat h01) rfl rfl (by simp; omega) (by decide)
  have sum := toNat_add_pack second (spread565_toNat h11) rfl rfl (by simp; omega) (by decide)
  simp only [List.zipWith_cons_cons, List.zipWith_nil_left] at sum
  simp only [box565, BitVec.toNat_or, BitVec.toNat_and, BitVec.toNat_ushiftRight, sum]
  exact quarter565 (by omega) (by omega) (by omega)

end Box565

section Box8888

private theorem lanes8888_toNat (p : BitVec 32) : (p &&& 0x00FF00FF#32).toNat =
    pack [16, 16] [p.toNat % 256, p.toNat / 65536 % 256] := by
  have word := p.isLt
  generalize hn : p.toNat = n at word
  have whole : n = pack [8, 8, 8, 8] [n % 256, n / 256 % 256, n / 65536 % 256, n / 2 ^ 24] := by
    simp only [pack_cons, pack_nil]
    omega
  have kept : n &&& mask [8, 8, 8, 8] [true, false, true, false] =
      pack [8, 8, 8, 8] [n % 256, 0, n / 65536 % 256, 0] := by
    calc n &&& mask [8, 8, 8, 8] [true, false, true, false]
        = pack [8, 8, 8, 8] [n % 256, n / 256 % 256, n / 65536 % 256, n / 2 ^ 24] &&&
            mask [8, 8, 8, 8] [true, false, true, false] := by rw [← whole]
      _ = _ := pack_and_mask (by simp; omega) rfl
      _ = _ := by simp
  rw [BitVec.toNat_and, hn]
  refine kept.trans ?_
  simp only [pack_cons, pack_nil]
  omega

private theorem quarter8888 {x y : Nat} (hx : x < 1024) (hy : y < 1024) :
    pack [16, 16] [x, y] >>> 2 &&& 0x00FF00FF = pack [8, 8, 8, 8] [x / 4, 0, y / 4, 0] := by
  have shifted : pack [16, 16] [x, y] >>> 2 = pack [8, 6, 2, 8, 8] [x / 4, 0, y % 4, y / 4, 0] := by
    rw [Nat.shiftRight_eq_div_pow]
    simp only [pack_cons, pack_nil]
    omega
  have same : 0x00FF00FF = mask [8, 6, 2, 8, 8] [true, false, false, true, false] := by decide
  have kept : pack [8, 6, 2, 8, 8] [x / 4, 0, y % 4, y / 4, 0] &&&
      mask [8, 6, 2, 8, 8] [true, false, false, true, false] =
        pack [8, 6, 2, 8, 8] [x / 4, 0, 0, y / 4, 0] := by
    rw [pack_and_mask (by simp; omega) rfl]
    simp
  rw [same, shifted, kept]
  simp only [pack_cons, pack_nil]
  omega

private theorem sum8888_toNat (p00 p10 p01 p11 : BitVec 32) :
    ((p00 &&& 0x00FF00FF#32) + (p01 &&& 0x00FF00FF#32) + (p10 &&& 0x00FF00FF#32) +
        (p11 &&& 0x00FF00FF#32)).toNat = pack [16, 16]
      [p00.toNat % 256 + p10.toNat % 256 + p01.toNat % 256 + p11.toNat % 256,
        p00.toNat / 65536 % 256 + p10.toNat / 65536 % 256 + p01.toNat / 65536 % 256 +
          p11.toNat / 65536 % 256] := by
  have first := toNat_add_pack (lanes8888_toNat p00) (lanes8888_toNat p10) rfl rfl
    (by simp; omega) (by decide)
  have second := toNat_add_pack first (lanes8888_toNat p01) rfl rfl (by simp; omega) (by decide)
  rw [BitVec.add_assoc (p00 &&& 0x00FF00FF#32), BitVec.add_comm (p01 &&& 0x00FF00FF#32),
    ← BitVec.add_assoc]
  exact toNat_add_pack second (lanes8888_toNat p11) rfl rfl (by simp; omega) (by decide)

private theorem joined8888 {r g b a : Nat} (hr : r < 256) (hg : g < 256) (hb : b < 256)
    (ha : a < 256) :
    (pack [8, 8, 8, 8] [r, 0, b, 0] ||| pack [8, 8, 8, 8] [g, 0, a, 0] <<< 8 % 2 ^ 32) =
      pack [8, 8, 8, 8] [r, g, b, a] := by
  have moved : pack [8, 8, 8, 8] [g, 0, a, 0] <<< 8 % 2 ^ 32 = pack [8, 8, 8, 8] [0, g, 0, a] := by
    rw [Nat.shiftLeft_eq]
    simp only [pack_cons, pack_nil]
    omega
  rw [moved, pack_or (by simp; omega) (by simp; omega)]
  simp

theorem box8888_toNat (p00 p10 p01 p11 : BitVec 32) : (box8888 p00 p10 p01 p11).toNat =
    pack [8, 8, 8, 8]
      [(p00.toNat % 256 + p10.toNat % 256 + p01.toNat % 256 + p11.toNat % 256) / 4,
        (p00.toNat / 256 % 256 + p10.toNat / 256 % 256 + p01.toNat / 256 % 256 +
          p11.toNat / 256 % 256) / 4,
        (p00.toNat / 65536 % 256 + p10.toNat / 65536 % 256 + p01.toNat / 65536 % 256 +
          p11.toNat / 65536 % 256) / 4,
        (p00.toNat / 2 ^ 24 + p10.toNat / 2 ^ 24 + p01.toNat / 2 ^ 24 + p11.toNat / 2 ^ 24) / 4] := by
  have low (p : BitVec 32) : (p >>> 8).toNat % 256 = p.toNat / 256 % 256 := by
    rw [BitVec.toNat_ushiftRight, Nat.shiftRight_eq_div_pow]
  have high (p : BitVec 32) : (p >>> 8).toNat / 65536 % 256 = p.toNat / 2 ^ 24 := by
    rw [BitVec.toNat_ushiftRight, Nat.shiftRight_eq_div_pow]
    omega
  have rb := sum8888_toNat p00 p10 p01 p11
  have ga := sum8888_toNat (p00 >>> 8) (p10 >>> 8) (p01 >>> 8) (p11 >>> 8)
  simp only [low, high] at ga
  have top (p : BitVec 32) : p.toNat / 2 ^ 24 < 256 := by omega
  have t00 := top p00
  have t10 := top p10
  have t01 := top p01
  have t11 := top p11
  simp only [box8888, BitVec.toNat_or, BitVec.toNat_and, BitVec.toNat_ushiftRight,
    BitVec.toNat_shiftLeft, rb, ga]
  rw [show (0x00FF00FF#32).toNat = 0x00FF00FF from rfl, quarter8888 (by omega) (by omega),
    quarter8888 (by omega) (by omega)]
  exact joined8888 (by omega) (by omega) (by omega) (by omega)

end Box8888

section Box4444

private theorem spread4444_toNat {p : BitVec 32} (h : p.toNat < 2 ^ 16) : (spread4444 p).toNat =
    pack [8, 8, 8, 8]
      [p.toNat % 16, p.toNat / 256 % 16, p.toNat / 16 % 16, p.toNat / 4096] := by
  generalize hn : p.toNat = n at h
  have whole : n = pack [4, 4, 4, 4] [n % 16, n / 16 % 16, n / 256 % 16, n / 4096] := by
    simp only [pack_cons, pack_nil]
    omega
  have low : n &&& mask [4, 4, 4, 4] [true, false, true, false] =
      pack [8, 8, 8, 8] [n % 16, n / 256 % 16, 0, 0] := by
    calc n &&& mask [4, 4, 4, 4] [true, false, true, false]
        = pack [4, 4, 4, 4] [n % 16, n / 16 % 16, n / 256 % 16, n / 4096] &&&
            mask [4, 4, 4, 4] [true, false, true, false] := by rw [← whole]
      _ = _ := pack_and_mask (by simp; omega) rfl
      _ = pack [4, 4, 4, 4] [n % 16, 0, n / 256 % 16, 0] := by simp
      _ = _ := by
        simp only [pack_cons, pack_nil]
        omega
  have shifted : n * 2 ^ 12 = pack [12, 4, 4, 4, 4, 4]
      [0, n % 16, n / 16 % 16, n / 256 % 16, n / 4096, 0] := by
    simp only [pack_cons, pack_nil]
    omega
  have high : n * 2 ^ 12 &&& mask [12, 4, 4, 4, 4, 4] [false, false, true, false, true, false] =
      pack [8, 8, 8, 8] [0, 0, n / 16 % 16, n / 4096] := by
    calc n * 2 ^ 12 &&& mask [12, 4, 4, 4, 4, 4] [false, false, true, false, true, false]
        = pack [12, 4, 4, 4, 4, 4] [0, n % 16, n / 16 % 16, n / 256 % 16, n / 4096, 0] &&&
            mask [12, 4, 4, 4, 4, 4] [false, false, true, false, true, false] := by rw [← shifted]
      _ = _ := pack_and_mask (by simp; omega) rfl
      _ = pack [12, 4, 4, 4, 4, 4] [0, 0, n / 16 % 16, 0, n / 4096, 0] := by simp
      _ = _ := by
        simp only [pack_cons, pack_nil]
        omega
  simp only [spread4444, BitVec.toNat_and, BitVec.toNat_or, BitVec.toNat_shiftLeft, hn]
  rw [Nat.shiftLeft_eq, Nat.mod_eq_of_lt (by omega)]
  refine (congrArg₂ (· ||| ·) high low).trans ?_
  rw [pack_or (by simp; omega) (by simp; omega)]
  simp

private theorem quarter4444 {a g b r : Nat} (ha : a < 64) (hg : g < 64) (hb : b < 64) (hr : r < 64) :
    (pack [8, 8, 8, 8] [a, g, b, r] >>> 2 &&& 0x0F0F) |||
        (pack [8, 8, 8, 8] [a, g, b, r] >>> 2 >>> 12 &&& 0xF0F0) =
      pack [4, 4, 4, 4] [a / 4, b / 4, g / 4, r / 4] := by
  have shifted : pack [8, 8, 8, 8] [a, g, b, r] >>> 2 = pack [4, 2, 2, 4, 2, 2, 4, 2, 2, 4, 4]
      [a / 4, 0, g % 4, g / 4, 0, b % 4, b / 4, 0, r % 4, r / 4, 0] := by
    rw [Nat.shiftRight_eq_div_pow]
    simp only [pack_cons, pack_nil]
    omega
  have upper : pack [8, 8, 8, 8] [a, g, b, r] >>> 2 >>> 12 = pack [2, 2, 4, 2, 2, 4, 4]
      [0, b % 4, b / 4, 0, r % 4, r / 4, 0] := by
    rw [shifted, Nat.shiftRight_eq_div_pow]
    simp only [pack_cons, pack_nil]
    omega
  have low : pack [8, 8, 8, 8] [a, g, b, r] >>> 2 &&& mask [4, 2, 2, 4, 2, 2, 4, 2, 2, 4, 4]
      [true, false, false, true, false, false, false, false, false, false, false] =
        pack [4, 4, 4, 4] [a / 4, 0, g / 4, 0] := by
    rw [shifted, pack_and_mask (by simp; omega) rfl]
    calc _ = pack [4, 2, 2, 4, 2, 2, 4, 2, 2, 4, 4] [a / 4, 0, 0, g / 4, 0, 0, 0, 0, 0, 0, 0] := by
          simp
      _ = _ := by
        simp only [pack_cons, pack_nil]
        omega
  have high : pack [8, 8, 8, 8] [a, g, b, r] >>> 2 >>> 12 &&& mask [2, 2, 4, 2, 2, 4, 4]
      [false, false, true, false, false, true, false] = pack [4, 4, 4, 4] [0, b / 4, 0, r / 4] := by
    rw [upper, pack_and_mask (by simp; omega) rfl]
    calc _ = pack [2, 2, 4, 2, 2, 4, 4] [0, 0, b / 4, 0, 0, r / 4, 0] := by simp
      _ = _ := by
        simp only [pack_cons, pack_nil]
        omega
  refine (congrArg₂ (· ||| ·) low high).trans ?_
  rw [pack_or (by simp; omega) (by simp; omega)]
  simp

theorem box4444_toNat {p00 p10 p01 p11 : BitVec 32} (h00 : p00.toNat < 2 ^ 16)
    (h10 : p10.toNat < 2 ^ 16) (h01 : p01.toNat < 2 ^ 16) (h11 : p11.toNat < 2 ^ 16) :
    (box4444 p00 p10 p01 p11).toNat = pack [4, 4, 4, 4]
      [(p00.toNat % 16 + p10.toNat % 16 + p01.toNat % 16 + p11.toNat % 16) / 4,
        (p00.toNat / 16 % 16 + p10.toNat / 16 % 16 + p01.toNat / 16 % 16 + p11.toNat / 16 % 16) / 4,
        (p00.toNat / 256 % 16 + p10.toNat / 256 % 16 + p01.toNat / 256 % 16 +
          p11.toNat / 256 % 16) / 4,
        (p00.toNat / 4096 + p10.toNat / 4096 + p01.toNat / 4096 + p11.toNat / 4096) / 4] := by
  have first := toNat_add_pack (spread4444_toNat h00) (spread4444_toNat h10) rfl rfl
    (by simp; omega) (by decide)
  have second := toNat_add_pack first (spread4444_toNat h01) rfl rfl (by simp; omega) (by decide)
  have sum := toNat_add_pack second (spread4444_toNat h11) rfl rfl (by simp; omega) (by decide)
  simp only [List.zipWith_cons_cons, List.zipWith_nil_left] at sum
  simp only [box4444, BitVec.toNat_or, BitVec.toNat_and, BitVec.toNat_ushiftRight, sum]
  exact quarter4444 (by omega) (by omega) (by omega) (by omega)

end Box4444

section Box5551

private theorem rounded_toNat {p q r s : BitVec 32} {half bits : Nat}
    (small : p.toNat + q.toNat + r.toNat + s.toNat + half < 2 ^ 32) :
    ((p + q + r + s + BitVec.ofNat 32 half) >>> bits).toNat =
      (p.toNat + q.toNat + r.toNat + s.toNat + half) / 2 ^ bits := by
  have sum : (p + q + r + s + BitVec.ofNat 32 half).toNat =
      p.toNat + q.toNat + r.toNat + s.toNat + half := by
    simp only [BitVec.toNat_add, BitVec.toNat_ofNat]
    omega
  rw [BitVec.toNat_ushiftRight, Nat.shiftRight_eq_div_pow, sum]

private theorem halved (a b c d : Nat) :
    (2 * a + 2 * b + 2 * c + 2 * d + 4) / 2 ^ 3 = (a + b + c + d + 2) / 4 := by
  omega

private theorem rounded_lt {a b c d n : Nat} (ha : a < n) (hb : b < n) (hc : c < n) (hd : d < n) :
    (a + b + c + d + 2) / 4 < n := by
  omega

private theorem blue5551_toNat (p : BitVec 32) :
    (p &&& 0x3E#32).toNat = 2 * (p.toNat / 2 % 32) := by
  have whole : p.toNat = pack [1, 5, 26] [p.toNat % 2, p.toNat / 2 % 32, p.toNat / 64] := by
    simp only [pack_cons, pack_nil]
    omega
  have word := p.isLt
  calc p.toNat &&& mask [1, 5, 26] [false, true, false]
      = pack [1, 5, 26] [p.toNat % 2, p.toNat / 2 % 32, p.toNat / 64] &&&
          mask [1, 5, 26] [false, true, false] := by rw [← whole]
    _ = _ := pack_and_mask (by simp; omega) rfl
    _ = pack [1, 5, 26] [0, p.toNat / 2 % 32, 0] := by simp
    _ = _ := by simp

private theorem joined5551 {a b g r : Nat} (ha : a < 2) (hb : b < 32) (hg : g < 64) (hr : r < 32) :
    (r <<< 11 % 2 ^ 32 ||| g <<< 6 % 2 ^ 32 ||| b <<< 1 % 2 ^ 32 ||| a) =
      pack [1, 5, 5, 1, 4] [a, b, g % 32, r % 2 ||| g / 32, r / 2] := by
  have red : r <<< 11 % 2 ^ 32 = pack [1, 5, 5, 1, 4] [0, 0, 0, r % 2, r / 2] := by
    rw [Nat.shiftLeft_eq]
    simp only [pack_cons, pack_nil]
    omega
  have green : g <<< 6 % 2 ^ 32 = pack [1, 5, 5, 1, 4] [0, 0, g % 32, g / 32, 0] := by
    rw [Nat.shiftLeft_eq]
    simp only [pack_cons, pack_nil]
    omega
  have blue : b <<< 1 % 2 ^ 32 = pack [1, 5, 5, 1, 4] [0, b, 0, 0, 0] := by
    rw [Nat.shiftLeft_eq]
    simp only [pack_cons, pack_nil]
    omega
  have alpha : a = pack [1, 5, 5, 1, 4] [a, 0, 0, 0, 0] := by simp
  have overlap : r % 2 ||| g / 32 < 2 ^ 1 := Nat.or_lt_two_pow (by omega) (by omega)
  rw [red, green, blue, pack_or (by simp; omega) (by simp; omega)]
  simp only [List.zipWith_cons_cons, List.zipWith_nil_left, Nat.or_zero, Nat.zero_or]
  rw [pack_or (by simp; omega) (by simp; omega)]
  simp only [List.zipWith_cons_cons, List.zipWith_nil_left, Nat.or_zero, Nat.zero_or]
  conv_lhs => rw [alpha]
  rw [pack_or (by simp; omega) (by simp; omega)]
  simp

theorem box5551_toNat {p00 p10 p01 p11 : BitVec 32} (h00 : p00.toNat < 2 ^ 16)
    (h10 : p10.toNat < 2 ^ 16) (h01 : p01.toNat < 2 ^ 16) (h11 : p11.toNat < 2 ^ 16) :
    let r := (p00.toNat / 2048 + p10.toNat / 2048 + p01.toNat / 2048 + p11.toNat / 2048 + 2) / 4
    let g := (p00.toNat / 64 + p10.toNat / 64 + p01.toNat / 64 + p11.toNat / 64 + 2) / 4 % 64
    let b := (p00.toNat / 2 % 32 + p10.toNat / 2 % 32 + p01.toNat / 2 % 32 +
      p11.toNat / 2 % 32 + 2) / 4
    let a := (p00.toNat % 2 + p10.toNat % 2 + p01.toNat % 2 + p11.toNat % 2 + 2) / 4
    (box5551 p00 p10 p01 p11).toNat = pack [1, 5, 5, 1, 4] [a, b, g % 32, r % 2 ||| g / 32, r / 2] := by
  intro r g b a
  have shifted (p : BitVec 32) (bits : Nat) : (p >>> bits).toNat = p.toNat / 2 ^ bits := by
    rw [BitVec.toNat_ushiftRight, Nat.shiftRight_eq_div_pow]
  have bit (p : BitVec 32) : (p &&& 1#32).toNat = p.toNat % 2 := Nat.and_one_is_mod p.toNat
  have red : ((p00 >>> 11 + p10 >>> 11 + p01 >>> 11 + p11 >>> 11 + 2#32) >>> 2).toNat = r := by
    rw [rounded_toNat (by simp only [shifted]; omega)]
    simp only [shifted]
    rfl
  have green : ((p00 >>> 6 + p10 >>> 6 + p01 >>> 6 + p11 >>> 6 + 2#32) >>> 2).toNat % 64 = g := by
    rw [rounded_toNat (by simp only [shifted]; omega)]
    simp only [shifted]
    rfl
  have blue : (((p00 &&& 0x3E#32) + (p10 &&& 0x3E#32) + (p01 &&& 0x3E#32) + (p11 &&& 0x3E#32) +
      4#32) >>> 3).toNat = b := by
    rw [rounded_toNat (by simp only [blue5551_toNat]; omega)]
    simp only [blue5551_toNat]
    exact halved _ _ _ _
  have alpha : (((p00 &&& 1#32) + (p10 &&& 1#32) + (p01 &&& 1#32) + (p11 &&& 1#32) +
      2#32) >>> 2).toNat = a := by
    rw [rounded_toNat (by simp only [bit]; omega)]
    simp only [bit]
    rfl
  have six (n : Nat) : n &&& (0x3F#32).toNat = n % 64 := Nat.and_two_pow_sub_one_eq_mod n 6
  simp only [box5551, BitVec.toNat_or, BitVec.toNat_shiftLeft, BitVec.toNat_and, six, red, green, blue,
    alpha]
  have two (n : Nat) : n % 2 < 2 := Nat.mod_lt n (by decide)
  have blues (n : Nat) : n / 2 % 32 < 32 := Nat.mod_lt (n / 2) (by decide)
  have reds {n : Nat} (h : n < 2 ^ 16) : n / 2048 < 32 := by omega
  exact joined5551 (rounded_lt (two _) (two _) (two _) (two _))
    (rounded_lt (blues _) (blues _) (blues _) (blues _)) (Nat.mod_lt _ (by decide))
    (rounded_lt (reds h00) (reds h10) (reds h01) (reds h11))

end Box5551

theorem texel_produce {format : Format} {f : Filter} (one : f.skip = 1)
    (size : f.bytes = (formats format).size) (src dst : Memory) {bs w h x y : Nat} (hx : x < w)
    (hy : y < h) : texel format (f.produce src dst bs w h) w x y =
      value f src (stepAt 1 bs w x y 0) % 2 ^ ((formats format).size * 8) := by
  rw [texel, ← size]
  have written := load_produce (.inl one) src dst bs hx hy (c := 0) (by omega)
  rwa [one] at written

theorem halve_eq {extent : Nat} (h : 2 ≤ extent) : halve extent = extent / 2 := by
  rw [halve, if_neg (by omega)]

private theorem texel_lt (format : Format) (m : Memory) (stride x y : Nat) :
    texel format m stride x y < 2 ^ ((formats format).size * 8) :=
  load_lt _ _ _

private theorem bits_eq (v l n : Nat) : v >>> l &&& (2 ^ n - 1) = v / 2 ^ l % 2 ^ n := by
  rw [Nat.shiftRight_eq_div_pow, Nat.and_two_pow_sub_one_eq_mod]

private theorem low_bits_eq (v n : Nat) : v >>> 0 &&& (2 ^ n - 1) = v % 2 ^ n :=
  Nat.and_two_pow_sub_one_eq_mod v n

private theorem channel565 (v : Nat) (i : Component) :
    channel 4 i v = ![0, v / 2048, v / 32 % 64, v % 32] i := by
  fin_cases i
  · exact Nat.and_zero _
  · exact Nat.shiftRight_eq_div_pow v 11
  · exact bits_eq v 5 6
  · exact low_bits_eq v 5

private theorem channel8888 (v : Nat) (i : Component) :
    channel 1 i v = ![v / 2 ^ 24, v % 256, v / 256 % 256, v / 65536 % 256] i := by
  fin_cases i
  · exact Nat.shiftRight_eq_div_pow v 24
  · exact low_bits_eq v 8
  · exact bits_eq v 8 8
  · exact bits_eq v 16 8

private theorem channel4444 (v : Nat) (i : Component) :
    channel 7 i v = ![v % 16, v / 4096, v / 256 % 16, v / 16 % 16] i := by
  fin_cases i
  · exact low_bits_eq v 4
  · exact Nat.shiftRight_eq_div_pow v 12
  · exact bits_eq v 8 4
  · exact bits_eq v 4 4

private theorem channel5551 (v : Nat) (i : Component) :
    channel 6 i v = ![v % 2, v / 2048, v / 64 % 32, v / 2 % 32] i := by
  fin_cases i
  · exact low_bits_eq v 1
  · exact Nat.shiftRight_eq_div_pow v 11
  · exact bits_eq v 6 5
  · exact bits_eq v 1 5

theorem texel_covered (format : Format) {f : Filter} (one : f.skip = 1)
    (size : f.bytes = (formats format).size) (small : f.bytes ≤ 4) (src dst : Memory)
    {stride w h x y : Nat} (hx : x < w) (hy : y < h) :
    ∃ p00 p10 p01 p11 : BitVec 32,
      p00.toNat = texel format src stride (2 * x) (2 * y) ∧
      p10.toNat = texel format src stride (2 * x + 1) (2 * y) ∧
      p01.toNat = texel format src stride (2 * x) (2 * y + 1) ∧
      p11.toNat = texel format src stride (2 * x + 1) (2 * y + 1) ∧
      texel format (f.produce src dst stride w h) w x y =
        (f.box p00 p10 p01 p11).toNat % 2 ^ ((formats format).size * 8) := by
  have read (x y : Nat) :
      (f.read src (element 1 stride x y 0)).toNat = texel format src stride x y := by
    rw [read_toNat small, size]
    rfl
  exact ⟨_, _, _, _, read _ _, read _ _, read _ _, read _ _,
    texel_produce one size src dst hx hy⟩

variable {a b g r : Nat} {p00 p10 p01 p11 : BitVec 32}

private theorem mean_lt {c d n : Nat} (ha : a < n) (hb : b < n) (hc : c < n) (hd : d < n) :
    (a + b + c + d) / 4 < n := by
  omega

private theorem channel565_pack (hb : b < 32) (hg : g < 64) (hr : r < 32) (i : Component) :
    channel 4 i (pack [5, 6, 5] [b, g, r] % 2 ^ 16) = ![0, r, g, b] i := by
  rw [channel565]
  simp only [pack_cons, pack_nil]
  fin_cases i
  · rfl
  · show (b + 2 ^ 5 * (g + 2 ^ 6 * (r + 2 ^ 5 * 0))) % 2 ^ 16 / 2048 = r
    omega
  · show (b + 2 ^ 5 * (g + 2 ^ 6 * (r + 2 ^ 5 * 0))) % 2 ^ 16 / 32 % 64 = g
    omega
  · show (b + 2 ^ 5 * (g + 2 ^ 6 * (r + 2 ^ 5 * 0))) % 2 ^ 16 % 32 = b
    omega

theorem box565_channel (h00 : p00.toNat < 2 ^ 16) (h10 : p10.toNat < 2 ^ 16)
    (h01 : p01.toNat < 2 ^ 16) (h11 : p11.toNat < 2 ^ 16) (i : Component) :
    channel 4 i ((box565 p00 p10 p01 p11).toNat % 2 ^ 16) =
      (channel 4 i p00.toNat + channel 4 i p10.toNat + channel 4 i p01.toNat +
        channel 4 i p11.toNat) / 4 := by
  have blue (n : Nat) : n % 32 < 32 := Nat.mod_lt n (by decide)
  have green (n : Nat) : n / 32 % 64 < 64 := Nat.mod_lt (n / 32) (by decide)
  have red {n : Nat} (h : n < 2 ^ 16) : n / 2048 < 32 := by omega
  rw [box565_toNat h00 h10 h01 h11, channel565_pack (mean_lt (blue _) (blue _) (blue _) (blue _))
    (mean_lt (green _) (green _) (green _) (green _))
    (mean_lt (red h00) (red h10) (red h01) (red h11))]
  simp only [channel565]
  fin_cases i
  · exact (Nat.zero_div 4).symm
  · rfl
  · rfl
  · rfl

private theorem channel8888_pack (hr : r < 256) (hg : g < 256) (hb : b < 256) (ha : a < 256)
    (i : Component) : channel 1 i (pack [8, 8, 8, 8] [r, g, b, a] % 2 ^ 32) = ![a, r, g, b] i := by
  rw [channel8888]
  simp only [pack_cons, pack_nil]
  fin_cases i
  · show (r + 2 ^ 8 * (g + 2 ^ 8 * (b + 2 ^ 8 * (a + 2 ^ 8 * 0)))) % 2 ^ 32 / 2 ^ 24 = a
    omega
  · show (r + 2 ^ 8 * (g + 2 ^ 8 * (b + 2 ^ 8 * (a + 2 ^ 8 * 0)))) % 2 ^ 32 % 256 = r
    omega
  · show (r + 2 ^ 8 * (g + 2 ^ 8 * (b + 2 ^ 8 * (a + 2 ^ 8 * 0)))) % 2 ^ 32 / 256 % 256 = g
    omega
  · show (r + 2 ^ 8 * (g + 2 ^ 8 * (b + 2 ^ 8 * (a + 2 ^ 8 * 0)))) % 2 ^ 32 / 65536 % 256 = b
    omega

theorem box8888_channel (p00 p10 p01 p11 : BitVec 32) (i : Component) :
    channel 1 i ((box8888 p00 p10 p01 p11).toNat % 2 ^ 32) =
      (channel 1 i p00.toNat + channel 1 i p10.toNat + channel 1 i p01.toNat +
        channel 1 i p11.toNat) / 4 := by
  have low (n : Nat) : n % 256 < 256 := Nat.mod_lt n (by decide)
  have top (p : BitVec 32) : p.toNat / 2 ^ 24 < 256 := by omega
  rw [box8888_toNat, channel8888_pack (mean_lt (low _) (low _) (low _) (low _))
    (mean_lt (low _) (low _) (low _) (low _)) (mean_lt (low _) (low _) (low _) (low _))
    (mean_lt (top _) (top _) (top _) (top _))]
  simp only [channel8888]
  fin_cases i
  · rfl
  · rfl
  · rfl
  · rfl

private theorem channel4444_pack (ha : a < 16) (hb : b < 16) (hg : g < 16) (hr : r < 16)
    (i : Component) : channel 7 i (pack [4, 4, 4, 4] [a, b, g, r] % 2 ^ 16) = ![a, r, g, b] i := by
  rw [channel4444]
  simp only [pack_cons, pack_nil]
  fin_cases i
  · show (a + 2 ^ 4 * (b + 2 ^ 4 * (g + 2 ^ 4 * (r + 2 ^ 4 * 0)))) % 2 ^ 16 % 16 = a
    omega
  · show (a + 2 ^ 4 * (b + 2 ^ 4 * (g + 2 ^ 4 * (r + 2 ^ 4 * 0)))) % 2 ^ 16 / 4096 = r
    omega
  · show (a + 2 ^ 4 * (b + 2 ^ 4 * (g + 2 ^ 4 * (r + 2 ^ 4 * 0)))) % 2 ^ 16 / 256 % 16 = g
    omega
  · show (a + 2 ^ 4 * (b + 2 ^ 4 * (g + 2 ^ 4 * (r + 2 ^ 4 * 0)))) % 2 ^ 16 / 16 % 16 = b
    omega

theorem box4444_channel (h00 : p00.toNat < 2 ^ 16) (h10 : p10.toNat < 2 ^ 16)
    (h01 : p01.toNat < 2 ^ 16) (h11 : p11.toNat < 2 ^ 16) (i : Component) :
    channel 7 i ((box4444 p00 p10 p01 p11).toNat % 2 ^ 16) =
      (channel 7 i p00.toNat + channel 7 i p10.toNat + channel 7 i p01.toNat +
        channel 7 i p11.toNat) / 4 := by
  have low (n : Nat) : n % 16 < 16 := Nat.mod_lt n (by decide)
  have top {n : Nat} (h : n < 2 ^ 16) : n / 4096 < 16 := by omega
  rw [box4444_toNat h00 h10 h01 h11, channel4444_pack (mean_lt (low _) (low _) (low _) (low _))
    (mean_lt (low _) (low _) (low _) (low _)) (mean_lt (low _) (low _) (low _) (low _))
    (mean_lt (top h00) (top h10) (top h01) (top h11))]
  simp only [channel4444]
  fin_cases i
  · rfl
  · rfl
  · rfl
  · rfl

/-- The channels of a texel that is generated are the means, rounded down, of those of the four
texels it covers. -/
theorem packed_channel_mean {format : Format} (packed : format ∈ [4, 1, 7]) {f : Filter}
    (found : filter format = some f) (src dst : Memory) {width height stride x y : Nat}
    (wide : 2 ≤ width) (high : 2 ≤ height) (hx : x < width / 2) (hy : y < height / 2)
    (i : Component) :
    channel format i
        (texel format (f.produce src dst stride (halve width) (halve height)) (halve width) x y) =
      coveredSum format i src stride x y / 4 := by
  rw [halve_eq wide, halve_eq high]
  simp only [List.mem_cons, List.not_mem_nil, or_false] at packed
  rcases packed with rfl | rfl | rfl
  · obtain rfl := Option.some_inj.mp found
    obtain ⟨p00, p10, p01, p11, h00, h10, h01, h11, written⟩ :=
      texel_covered 4 (f := ⟨2, 1, box565⟩) rfl rfl (by decide) src dst hx hy
    have below (x y : Nat) := texel_lt 4 src stride x y
    rw [written, coveredSum, ← h00, ← h10, ← h01, ← h11]
    exact box565_channel (h00 ▸ below _ _) (h10 ▸ below _ _) (h01 ▸ below _ _) (h11 ▸ below _ _) i
  · obtain rfl := Option.some_inj.mp found
    obtain ⟨p00, p10, p01, p11, h00, h10, h01, h11, written⟩ :=
      texel_covered 1 (f := ⟨4, 1, box8888⟩) rfl rfl (by decide) src dst hx hy
    rw [written, coveredSum, ← h00, ← h10, ← h01, ← h11]
    exact box8888_channel p00 p10 p01 p11 i
  · obtain rfl := Option.some_inj.mp found
    obtain ⟨p00, p10, p01, p11, h00, h10, h01, h11, written⟩ :=
      texel_covered 7 (f := ⟨2, 1, box4444⟩) rfl rfl (by decide) src dst hx hy
    have below (x y : Nat) := texel_lt 7 src stride x y
    rw [written, coveredSum, ← h00, ← h10, ← h01, ← h11]
    exact box4444_channel (h00 ▸ below _ _) (h10 ▸ below _ _) (h01 ▸ below _ _) (h11 ▸ below _ _) i

/-- A level of two by two white texels in `RGBA_8888`, next to one of zeros. -/
theorem packed_channel_mean_white :
    channel 1 2 (texel 1 (Filter.produce ⟨4, 1, box8888⟩ (fun _ => 255) (fun _ => 0) 2 (halve 2)
        (halve 2)) (halve 2) 0 0) = coveredSum 1 2 (fun _ => 255) 2 0 0 / 4 :=
  packed_channel_mean (by decide) rfl _ _ (Nat.le_refl 2) (Nat.le_refl 2) (by decide) (by decide) 2

private theorem channel5551_pack {o : Nat} (ha : a < 2) (hb : b < 32) (hg : g < 32) (ho : o < 2)
    (hr : r < 16) (i : Component) :
    channel 6 i (pack [1, 5, 5, 1, 4] [a, b, g, o, r] % 2 ^ 16) = ![a, o + 2 * r, g, b] i := by
  rw [channel5551]
  simp only [pack_cons, pack_nil]
  fin_cases i
  · show (a + 2 ^ 1 * (b + 2 ^ 5 * (g + 2 ^ 5 * (o + 2 ^ 1 * (r + 2 ^ 4 * 0))))) % 2 ^ 16 % 2 = a
    omega
  · show (a + 2 ^ 1 * (b + 2 ^ 5 * (g + 2 ^ 5 * (o + 2 ^ 1 * (r + 2 ^ 4 * 0))))) % 2 ^ 16 / 2048 =
      o + 2 * r
    omega
  · show (a + 2 ^ 1 * (b + 2 ^ 5 * (g + 2 ^ 5 * (o + 2 ^ 1 * (r + 2 ^ 4 * 0))))) % 2 ^ 16 / 64 % 32 =
      g
    omega
  · show (a + 2 ^ 1 * (b + 2 ^ 5 * (g + 2 ^ 5 * (o + 2 ^ 1 * (r + 2 ^ 4 * 0))))) % 2 ^ 16 / 2 % 32 =
      b
    omega

private theorem green_above (n : Nat) : n / 64 = 32 * (n / 2048) + n / 64 % 32 := by
  omega

private theorem green_sum (a b c d a' b' c' d' : Nat) :
    (32 * a + a' + (32 * b + b') + (32 * c + c') + (32 * d + d') + 2) / 4 % 64 =
      (8 * (a + b + c + d) + (a' + b' + c' + d' + 2) / 4) % 64 := by
  omega

private theorem green_iff {red green : Nat} (small : green < 32) :
    (8 * red + green) % 64 % 32 = green ↔ 4 ∣ red := by
  omega

private theorem red_eq {red green : Nat} (small : green < 32) (whole : 4 ∣ red) :
    ((red + 2) / 4 % 2 ||| (8 * red + green) % 64 / 32) + 2 * ((red + 2) / 4 / 2) =
      (red + 2) / 4 := by
  have same : (8 * red + green) % 64 / 32 = (red + 2) / 4 % 2 := by omega
  rw [same, Nat.or_self]
  omega

theorem box5551_channel (h00 : p00.toNat < 2 ^ 16) (h10 : p10.toNat < 2 ^ 16)
    (h01 : p01.toNat < 2 ^ 16) (h11 : p11.toNat < 2 ^ 16) (i : Component) :
    let sum (i : Component) := channel 6 i p00.toNat + channel 6 i p10.toNat +
      channel 6 i p01.toNat + channel 6 i p11.toNat
    let g := (8 * sum 1 + (sum 2 + 2) / 4) % 64
    channel 6 i ((box5551 p00 p10 p01 p11).toNat % 2 ^ 16) =
      ![(sum 0 + 2) / 4, ((sum 1 + 2) / 4 % 2 ||| g / 32) + 2 * ((sum 1 + 2) / 4 / 2), g % 32,
        (sum 3 + 2) / 4] i := by
  have two (n : Nat) : n % 2 < 2 := Nat.mod_lt n (by decide)
  have five (n : Nat) : n % 32 < 32 := Nat.mod_lt n (by decide)
  have reds {n : Nat} (h : n < 2 ^ 16) : n / 2048 < 32 := by omega
  intro sum g
  have green : (p00.toNat / 64 + p10.toNat / 64 + p01.toNat / 64 + p11.toNat / 64 + 2) / 4 % 64 = g := by
    rw [green_above p00.toNat, green_above p10.toNat, green_above p01.toNat,
      green_above p11.toNat, green_sum]
    simp only [g, sum, channel5551]
    rfl
  have sixBits : g < 64 := Nat.mod_lt _ (by decide)
  have overlap : (sum 1 + 2) / 4 % 2 ||| g / 32 < 2 ^ 1 :=
    Nat.or_lt_two_pow (Nat.mod_lt _ (by decide)) (by omega)
  rw [box5551_toNat h00 h10 h01 h11, green]
  have red : (sum 1 + 2) / 4 < 32 := by
    simp only [sum, channel5551]
    exact rounded_lt (reds h00) (reds h10) (reds h01) (reds h11)
  have packed := channel5551_pack (rounded_lt (two p00.toNat) (two p10.toNat) (two p01.toNat)
    (two p11.toNat)) (rounded_lt (five (p00.toNat / 2)) (five (p10.toNat / 2)) (five (p01.toNat / 2))
    (five (p11.toNat / 2))) (five g) overlap (r := (sum 1 + 2) / 4 / 2) (by omega) i
  simp only [sum, channel5551] at packed ⊢
  exact packed

theorem box5551_channel_iff (h00 : p00.toNat < 2 ^ 16) (h10 : p10.toNat < 2 ^ 16)
    (h01 : p01.toNat < 2 ^ 16) (h11 : p11.toNat < 2 ^ 16) :
    (∀ i, channel 6 i ((box5551 p00 p10 p01 p11).toNat % 2 ^ 16) =
      (channel 6 i p00.toNat + channel 6 i p10.toNat + channel 6 i p01.toNat +
        channel 6 i p11.toNat + 2) / 4) ↔
      4 ∣ channel 6 1 p00.toNat + channel 6 1 p10.toNat + channel 6 1 p01.toNat +
        channel 6 1 p11.toNat := by
  have written := box5551_channel h00 h10 h01 h11
  dsimp only at written
  have green : (channel 6 2 p00.toNat + channel 6 2 p10.toNat + channel 6 2 p01.toNat +
      channel 6 2 p11.toNat + 2) / 4 < 32 := by
    simp only [channel5551]
    exact rounded_lt (Nat.mod_lt _ (by decide)) (Nat.mod_lt _ (by decide))
      (Nat.mod_lt _ (by decide)) (Nat.mod_lt _ (by decide))
  constructor
  · intro mean
    have exact_green := (written 2).symm.trans (mean 2)
    exact (green_iff green).mp exact_green
  · intro whole i
    rw [written i]
    fin_cases i
    · rfl
    · exact red_eq green whole
    · exact (green_iff green).mpr whole
    · rfl

/-- The channels of a texel that is generated are the rounded means exactly if the reds of the four
texels it covers sum up to a multiple of four: the mask of green is one bit too wide. -/
theorem channel5551_mean_iff {f : Filter} (found : filter 6 = some f) (src dst : Memory)
    {width height stride x y : Nat} (wide : 2 ≤ width) (high : 2 ≤ height) (hx : x < width / 2)
    (hy : y < height / 2) :
    (∀ i, channel 6 i
        (texel 6 (f.produce src dst stride (halve width) (halve height)) (halve width) x y) =
      (coveredSum 6 i src stride x y + 2) / 4) ↔ 4 ∣ coveredSum 6 1 src stride x y := by
  rw [halve_eq wide, halve_eq high]
  obtain rfl := Option.some_inj.mp found
  obtain ⟨p00, p10, p01, p11, h00, h10, h01, h11, written⟩ :=
    texel_covered 6 (f := ⟨2, 1, box5551⟩) rfl rfl (by decide) src dst hx hy
  have below (x y : Nat) := texel_lt 6 src stride x y
  rw [written]
  simp only [coveredSum, ← h00, ← h10, ← h01, ← h11]
  exact box5551_channel_iff (h00 ▸ below _ _) (h10 ▸ below _ _) (h01 ▸ below _ _) (h11 ▸ below _ _)

/-- A level of two by two black texels. -/
theorem channel5551_mean_iff_black :
    (∀ i, channel 6 i (texel 6 (Filter.produce ⟨2, 1, box5551⟩ (fun _ => 0) (fun _ => 255) 2 (halve 2)
        (halve 2)) (halve 2) 0 0) = (coveredSum 6 i (fun _ => 0) 2 0 0 + 2) / 4) ↔
      4 ∣ coveredSum 6 1 (fun _ => 0) 2 0 0 :=
  channel5551_mean_iff rfl _ _ (Nat.le_refl 2) (Nat.le_refl 2) (by decide) (by decide)

/-- One texel of two by two has the lowest bit of red set, the others are black. -/
def faintRed : Memory := fun a => if a = 1 then 8 else 0

/-- The mean is black, but the texel that is generated is green. -/
theorem faintRed_green :
    ¬∀ i, channel 6 i (texel 6 (Filter.produce ⟨2, 1, box5551⟩ faintRed (fun _ => 0) 2 (halve 2)
      (halve 2)) (halve 2) 0 0) = (coveredSum 6 i faintRed 2 0 0 + 2) / 4 := by
  intro mean
  exact absurd (mean 2) (by decide)

end RabbitRender.Textures.PackedMeans
