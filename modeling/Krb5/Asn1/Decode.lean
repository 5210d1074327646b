import Krb5.Asn1.Buf

/-!
# Primitive types (`asn1_decode.c`, `gmt_mktime.c`)

Each function reads a tag, refuses any other identifier than its own, and takes
the contents. The length is used as it was read: an indefinite one is a zero.
-/

namespace Krb5.Asn1

open Lib

def asn1Integer : Int := 2
def asn1Bitstring : Int := 3
def asn1Octetstring : Int := 4
def asn1Generaltime : Int := 24
def asn1Generalstring : Int := 27

/-- The macro `tag`: a primitive universal identifier; its length. -/
def tag (type : Int) : Decoder Int := do
  let tag ← asn1GetTag
  if tag.cls ≠ .universal ∨ tag.constructed ∨ tag.tagnum ≠ type then throw .badId
  else return tag.taglen

def sizeofLong : Int := 4

def shiftIn (n : BitVec 32) (o : UInt8) : BitVec 32 := n <<< 8 ||| o.toBitVec.zeroExtend 32

/-- The loop of `asn1_decode_integer` and `asn1_decode_unsigned_integer`. The
first octet is tested before the second is read; `first` says what it is refused
for, and the value it starts from. -/
def integerContents (length : Int) (first : UInt8 → Except DecodeError (BitVec 32)) :
    Decoder (BitVec 32) := do
  if length ≤ 0 then return 0#32
  else
    let o ← removeOctet
    let n ← first o
    let octets ← removeOctets (length.toNat - 1)
    return octets.foldl shiftIn (shiftIn n o)

def asn1DecodeInteger : Decoder Int32 := do
  let length ← tag asn1Integer
  let n ← integerContents length fun o =>
    if o &&& 0x80 ≠ 0 then
      if length > sizeofLong then .error .overflow else .ok (BitVec.allOnes 32)
    -- allow an extra octet for positive
    else if length > sizeofLong + 1 then .error .overflow else .ok 0#32
  return Int32.ofBitVec n

def asn1DecodeUnsignedInteger : Decoder UInt32 := do
  let length ← tag asn1Integer
  let n ← integerContents length fun o =>
    if o &&& 0x80 ≠ 0 then .error .overflow
    else if length > sizeofLong + 1 then .error .overflow else .ok 0#32
  return UInt32.ofBitVec n

/-- `asn1_decode_octetstring` and `asn1_decode_charstring`. -/
def asn1DecodeOctetstring : Decoder Octets := do removeString (← tag asn1Octetstring)

def asn1DecodeGeneralstring : Decoder Octets := do removeString (← tag asn1Generalstring)

/-! ## Times -/

def daysInMonth : List Int := [0, 31, 59, 90, 120, 151, 181, 212, 243, 273, 304, 334]

def hasleapday (year : Int) : Bool :=
  if year % 400 ≠ 0 then if year % 100 ≠ 0 then year % 4 = 0 else false else true

/-- The fields of a `struct tm` that `gmt_mktime` reads. -/
structure Tm where
  year : Int
  mon : Int
  mday : Int
  hour : Int
  min : Int
  sec : Int
deriving DecidableEq, Repr

/-- `gmt_mktime`; no time where it returns `-1` for a field out of range. -/
def gmtMktime (t : Tm) : Option Int :=
  if 70 ≤ t.year ∧ t.year ≤ 138 ∧ 0 ≤ t.mon ∧ t.mon ≤ 11 ∧ 1 ≤ t.mday ∧ t.mday ≤ 31 ∧
      0 ≤ t.hour ∧ t.hour ≤ 23 ∧ 0 ≤ t.min ∧ t.min ≤ 59 ∧ 0 ≤ t.sec ∧ t.sec ≤ 62 then
    let leap : Int := if t.mon ≥ 2 ∧ hasleapday (t.year + 1900) then 1 else 0
    let days := (t.year - 70) * 365 + (t.year - 69) / 4 + leap +
      daysInMonth.getD t.mon.toNat 0 + (t.mday - 1)
    some (wrap32 (((days * 24 + t.hour) * 60 + t.min) * 60 + t.sec))
  else none

def c2i (c : UInt8) : Int := c.toInt8.toInt - 48

def tmOfDigits (s : Octets) : Tm :=
  let d (i : Nat) : Int := c2i (s.getD i 0)
  { year := 1000 * d 0 + 100 * d 1 + 10 * d 2 + d 3 - 1900
    mon := 10 * d 4 + d 5 - 1
    mday := 10 * d 6 + d 7
    hour := 10 * d 8 + d 9
    min := 10 * d 10 + d 11
    sec := 10 * d 12 + d 13 }

/-- `asn1_decode_generaltime`. The return value of `asn1buf_remove_charstring`
is not looked at: when the string is not there, the pointer that is followed was
never set. -/
def asn1DecodeGeneraltime : Decoder Timestamp := do
  let length ← tag asn1Generaltime
  if length ≠ 15 then throw .badLength
  else
    let buf ← get
    match removeString 15 buf with
    | .error _ => throw .fault
    | .ok (s, buf) =>
      set buf
      if s.getD 14 0 ≠ 0x5a then throw .badFormat
      else
        match gmtMktime (tmOfDigits s) with
        | none => throw .badTimeformat
        | some t => if t = -1 then throw .badTimeformat else return Int32.ofInt t

def asn1DecodeKrb5Flags : Decoder Flags := do
  let taglen ← tag asn1Bitstring
  -- the number of padding bits, between 0 and 7
  let unused ← removeOctet
  if unused > 7 then throw .badFormat
  else
    let length := taglen - 1
    let octets ← removeOctets length.toNat
    -- bits past number 31 are ignored
    let f := (octets.take 4).foldl shiftIn 0#32
    let f := if length ≤ 4 then f &&& (BitVec.allOnes 32 <<< unused.toNat) else f
    return if length < 4 then f <<< ((4 - length) * 8).toNat else f

end Krb5.Asn1
