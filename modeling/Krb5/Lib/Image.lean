import Mathlib.Data.BitVec

/-!
# File images

The contents of a file as a list of octets, with reads and writes at an offset,
and the four octets of a machine integer. A file that is only ever written at
its end is the concatenation of what was written.
-/

namespace Krb5.Lib

open List

section Image

variable {α : Type} (data bs : List α) (off n : Nat)

/-- What a read of `n` octets at `off` returns; fewer at the end of the file. -/
def readAt : List α := (data.drop off).take n

/-- The file after `bs` was written at `off`; a hole in front of `off` is
filled with `fill`. -/
def writeAt (fill : α) : List α :=
  data.take off ++ replicate (off - data.length) fill ++ bs ++ data.drop (off + bs.length)

variable (front back : List α)

theorem writeAt_append (fill : α) :
    writeAt (front ++ back) bs front.length fill = front ++ bs ++ back.drop bs.length := by
  simp [writeAt]

theorem readAt_append : readAt (front ++ bs ++ back) front.length bs.length = bs := by
  simp [readAt]

end Image

/-- The octets of an `int` in memory, least significant first. -/
def intOctets (x : Int32) : List UInt8 :=
  let n := x.toUInt32.toNat
  [UInt8.ofNat n, UInt8.ofNat (n / 2 ^ 8), UInt8.ofNat (n / 2 ^ 16), UInt8.ofNat (n / 2 ^ 24)]

/-- The `int` whose octets these are. -/
def octetsInt (bs : List UInt8) : Int32 :=
  (UInt32.ofNat (bs.foldr (fun b n => b.toNat + 2 ^ 8 * n) 0)).toInt32

@[simp] theorem length_intOctets (x : Int32) : (intOctets x).length = 4 := rfl

@[simp] theorem octetsInt_intOctets (x : Int32) : octetsInt (intOctets x) = x := by
  have hlt : x.toUInt32.toNat < 2 ^ 32 := x.toUInt32.toNat_lt
  have hsum : (intOctets x).foldr (fun b n => b.toNat + 2 ^ 8 * n) 0 = x.toUInt32.toNat := by
    simp only [intOctets, foldr, UInt8.toNat_ofNat']
    omega
  rw [octetsInt, hsum, UInt32.ofNat_toNat, Int32.toInt32_toUInt32]

theorem octetsInt_last {a b c d : UInt8} (hpos : 0 < octetsInt [a, b, c, d])
    (hlt : (octetsInt [a, b, c, d]).toNatClampNeg < 2 ^ 24) : d = 0 := by
  have ha := a.toNat_lt
  have hb := b.toNat_lt
  have hc := c.toNat_lt
  have hd := d.toNat_lt
  have hval : (octetsInt [a, b, c, d]).toInt =
      ((a.toNat + 2 ^ 8 * (b.toNat + 2 ^ 8 * (c.toNat + 2 ^ 8 * d.toNat)) : Nat) : Int).bmod
        (2 ^ 32) := by
    show (UInt32.ofNat _).toBitVec.toInt = _
    rw [BitVec.toInt_eq_toNat_bmod, UInt32.toNat_toBitVec, UInt32.toNat_ofNat_of_lt' (by
      simp only [foldr, UInt32.size]
      omega)]
    rfl
  rw [Int32.lt_iff_toInt_lt, hval, Int.bmod_def] at hpos
  rw [← Int32.toNat_toInt, hval, Int.bmod_def] at hlt
  have hzero : (0 : Int32).toInt = 0 := rfl
  refine UInt8.toNat_inj.mp ?_
  rw [UInt8.toNat_zero]
  omega

end Krb5.Lib
