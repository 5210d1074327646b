import Krb5.Asn1.Decode

/-!
# Encoding buffers and primitive types (`asn1buf.c`, `asn1_make.c`, `asn1_encode.c`)

An encoder works from the end of a message to its start. The counts that it returns, added up,
become the lengths of the elements around. The buffer under encoding is a list, in the order of the
finished message. Lengths are `int`s; a message has fewer than `2^31` octets.
-/

namespace Krb5.Asn1

open Lib

inductive EncodeError
  | missingField
  | overflow
  | badGmtime
  | badMsgtype
deriving DecidableEq, Repr

/-- How an encoder stops: with an error, with an error after the buffer was
freed, or by freeing it once more. -/
inductive EncodeStop
  | error (error : EncodeError)
  | destroyed (error : EncodeError)
  | fault
deriving DecidableEq, Repr

abbrev Encoder := StateT Octets (Except EncodeStop)

def insertOctet (o : UInt8) : Encoder Unit := modify (o :: ·)

/-- `asn1buf_insert_octetstring` and `asn1buf_insert_charstring`. -/
def insertString (s : Octets) : Encoder Unit := modify (s ++ ·)

def refuse {α : Type} (e : EncodeError) : Encoder α := throw (.error e)

/-! ## Identifiers and lengths -/

/-- The `while` loop of `asn1_make_length`; an `int` has four octets. -/
def lengthLoop : Nat → Nat → Encoder Nat
  | 0, _ => return 0
  | size + 1, inCopy =>
    if inCopy = 0 then return 0
    else do
      insertOctet (UInt8.ofNat inCopy)
      return (← lengthLoop size (inCopy / 256)) + 1

def asn1MakeLength (inLen : Nat) : Encoder Nat :=
  if inLen < 128 then do
    insertOctet (UInt8.ofNat inLen)
    return 1
  else do
    let length ← lengthLoop 4 inLen
    insertOctet (0x80 ||| (UInt8.ofNat length &&& 0x7f))
    return length + 1

def Class.octet : Class → UInt8
  | .universal => 0x00
  | .application => 0x40
  | .contextSpecific => 0x80
  | .priv => 0xc0

def constructionOctet (constructed : Bool) : UInt8 := if constructed then 0x20 else 0x00

/-- The `for` loop of `asn1_make_id`; an `int` has five groups of seven bits. -/
def idLoop : Nat → Nat → Encoder Nat
  | 0, _ => return 0
  | size + 1, tagcopy =>
    if tagcopy = 0 then return 0
    else do
      insertOctet (0x80 ||| (UInt8.ofNat tagcopy &&& 0x7f))
      return (← idLoop size (tagcopy / 128)) + 1

def asn1MakeId (cls : Class) (constructed : Bool) (tagnum : Nat) : Encoder Nat :=
  if tagnum < 31 then do
    insertOctet (cls.octet ||| constructionOctet constructed ||| UInt8.ofNat tagnum)
    return 1
  else do
    insertOctet (UInt8.ofNat tagnum &&& 0x7f)
    let length ← idLoop 5 (tagnum / 128)
    insertOctet (cls.octet ||| constructionOctet constructed ||| 0x1f)
    return length + 2

def asn1MakeTag (cls : Class) (constructed : Bool) (tagnum inLen : Nat) : Encoder Nat :=
  if (tagnum : Int) > tagnumCeiling - 1 then refuse .overflow
  else do
    let sumlen ← asn1MakeLength inLen
    return sumlen + (← asn1MakeId cls constructed tagnum)

def asn1MakeEtag (cls : Class) (tagnum inLen : Nat) : Encoder Nat :=
  asn1MakeTag cls true tagnum inLen

def asn1MakeSequence (seqLen : Nat) : Encoder Nat := do
  let sum ← asn1MakeLength seqLen
  return sum + (← asn1MakeId .universal true 16)

def lowOctet (value : Int) : UInt8 := UInt8.ofNat (value % 256).toNat

/-- The `do` loop of `asn1_encode_integer` and `asn1_encode_unsigned_integer`: the
number of octets, and the last one, `digit`. -/
def integerLoop : Nat → Int → Encoder (Nat × UInt8)
  | 0, _ => return (0, 0)
  | size + 1, valcopy => do
      insertOctet (lowOctet valcopy)
      let valcopy' := valcopy / 256
      if valcopy' ≠ 0 ∧ valcopy' ≠ -1 then
        let (length, digit) ← integerLoop size valcopy'
        return (length + 1, digit)
      else return (1, lowOctet valcopy)

def asn1EncodeInteger (val : Int32) : Encoder Nat := do
  let (length, digit) ← integerLoop 4 val.toInt
  let length ←
    if val > 0 ∧ digit &&& 0x80 = 0x80 then do
      insertOctet 0
      pure (length + 1)
    else if val < 0 ∧ digit &&& 0x80 ≠ 0x80 then do
      insertOctet 0xff
      pure (length + 1)
    else pure length
  return length + (← asn1MakeTag .universal false 2 length)

def asn1EncodeUnsignedInteger (val : UInt32) : Encoder Nat := do
  let (length, digit) ← integerLoop 4 val.toNat
  let length ←
    if digit &&& 0x80 ≠ 0 then do
      insertOctet 0
      pure (length + 1)
    else pure length
  return length + (← asn1MakeTag .universal false 2 length)

def encodeString (tagnum : Nat) (val : Octets) : Encoder Nat := do
  insertString val
  return val.length + (← asn1MakeTag .universal false tagnum val.length)

/-- `asn1_encode_octetstring` and `asn1_encode_charstring`. -/
def asn1EncodeOctetstring (val : Octets) : Encoder Nat := encodeString 4 val

def asn1EncodeGeneralstring (val : Octets) : Encoder Nat := encodeString 27 val

def monthStarts (leap : Bool) : List Nat :=
  if leap then [0, 31, 60, 91, 121, 152, 182, 213, 244, 274, 305, 335]
  else [0, 31, 59, 90, 120, 151, 181, 212, 243, 273, 304, 334]

/-- `gmtime`. A 32-bit time lies between the years 1901 and 2038, in which every
fourth year is a leap year: days are counted from the start of 1901, in cycles of
four years. -/
def gmtime (val : Timestamp) : Tm :=
  let days := val.toInt / 86400
  let secs := val.toInt % 86400
  let cycle := (days + 25202) / 1461
  let inCycle := (days + 25202) % 1461
  let yearInCycle := min (inCycle / 365) 3
  let day := (inCycle - 365 * yearInCycle).toNat
  let starts := monthStarts (yearInCycle = 3)
  let month := (starts.filter (· ≤ day)).length - 1
  { year := 1 + 4 * cycle + yearInCycle
    mon := month
    mday := day - starts.getD month 0 + 1
    hour := secs / 3600
    min := secs / 60 % 60
    sec := secs % 60 }

def decimal : Nat → Int → Octets
  | 0, _ => []
  | width + 1, n => decimal width (n / 10) ++ [UInt8.ofNat (48 + (n % 10).toNat)]

/-- `sprintf(s, "%04d%02d%02d%02d%02d%02dZ", …)`. -/
def timeText (t : Tm) : Octets :=
  decimal 4 (1900 + t.year) ++ decimal 2 (t.mon + 1) ++ decimal 2 t.mday ++ decimal 2 t.hour ++
    decimal 2 t.min ++ decimal 2 t.sec ++ [0x5a]

def asn1EncodeGeneraltime (val : Timestamp) : Encoder Nat := do
  let gtime := gmtime val
  if gtime.year > 8099 ∨ gtime.mon > 11 ∨ gtime.mday > 31 ∨ gtime.hour > 23 ∨ gtime.min > 59 ∨
      gtime.sec > 59 then refuse .badGmtime
  else
    insertString (timeText gtime)
    return 15 + (← asn1MakeTag .universal false 24 15)

def asn1EncodeKrb5Flags (val : Flags) : Encoder Nat := do
  insertOctet (UInt8.ofNat val.toNat)
  insertOctet (UInt8.ofNat (val >>> 8).toNat)
  insertOctet (UInt8.ofNat (val >>> 16).toNat)
  insertOctet (UInt8.ofNat (val >>> 24).toNat)
  -- no padding bits
  insertOctet 0
  return 5 + (← asn1MakeTag .universal false 3 5)

end Krb5.Asn1
