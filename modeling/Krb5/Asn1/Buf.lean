import Krb5.Basic
import Krb5.Lib.Checked

/-!
# Decoding buffers (`asn1buf.c`, `asn1_get.c`)

A buffer under decoding is the octets of the whole message and two pointers, to the octet that is
read `next` and to the last one of the buffer. Pointers are offsets from the start of the message; a
negative length takes them below zero.

Reading outside the message, or a variable that was never set, or a loop that does not end, is the
error `fault`. `long`, `int` and `time_t` have 32 bits.
-/

namespace Krb5.Asn1

open Lib

inductive DecodeError
  | badTimeformat
  | missingField
  | misplacedField
  | overflow
  | overrun
  | badId
  | badLength
  | badFormat
  | missingEoc
  | enomem
  | badPvno
  | badMsgtype
  | fault
deriving DecidableEq, Repr

/-- `asn1buf`. The pointer `base` is never looked at once it is set. -/
structure Asn1Buf where
  data : Octets
  next : Int
  bound : Int
deriving DecidableEq, Repr

abbrev Decoder := StateT Asn1Buf (Except DecodeError)

def wrap32 (n : Int) : Int := (n + 2 ^ 31) % 2 ^ 32 - 2 ^ 31

namespace Asn1Buf

def wrapData (code : Octets) : Asn1Buf := ⟨code, 0, code.length - 1⟩

def left (buf : Asn1Buf) : Int := buf.bound - buf.next + 1

def octet (buf : Asn1Buf) (p : Int) : Option UInt8 := if p < 0 then none else buf.data[p.toNat]?

end Asn1Buf

def removeOctet : Decoder UInt8 := fun buf =>
  if buf.next > buf.bound then .error .overrun
  else
    match buf.octet buf.next with
    | none => .error .fault
    | some o => .ok (o, { buf with next := buf.next + 1 })

/-- The octets of a `for` loop over `asn1buf_remove_octet`. -/
def removeOctets : Nat → Decoder Octets
  | 0 => return []
  | n + 1 => do
      let o ← removeOctet
      return o :: (← removeOctets n)

/-- `asn1buf_remove_octetstring` and `asn1buf_remove_charstring`. No memory is
found for a negative length. -/
def removeString (len : Int) : Decoder Octets := do
  let buf ← get
  if buf.next + len - 1 > buf.bound then throw .overrun
  else if len = 0 then return []
  else if len < 0 then throw .enomem
  else removeOctets len.toNat

def asn1bufRemains (buf : Asn1Buf) (indef : Bool) : Int :=
  if buf.left ≤ 0 then buf.left
  -- Two zero octets are the end of an indefinite encoding.
  else if indef ∧ buf.left ≥ 2 ∧ buf.octet buf.next = some 0 ∧
      buf.octet (buf.next + 1) = some 0 then 0
  else buf.left

/-! ## Identifiers and lengths -/

inductive Class
  | universal
  | application
  | contextSpecific
  | priv
deriving DecidableEq, Repr

def classOf (o : UInt8) : Class :=
  if o &&& 0xc0 = 0 then .universal
  else if o &&& 0xc0 = 0x40 then .application
  else if o &&& 0xc0 = 0x80 then .contextSpecific
  else .priv

/-- The variables `class`, `construction` (whether it is `CONSTRUCTED`),
`tagnum`, `taglen` and `indef` of a decoder. -/
structure TagVars where
  cls : Class
  constructed : Bool
  tagnum : Int
  taglen : Int
  indef : Bool
deriving DecidableEq, Repr

def tagnumCeiling : Int := 2 ^ 31 - 1

/-- `asn1_get_id`. The loop of the high-tag-number form goes on while the number
read so far has bit 7 set. After its first octet it does not, so there is no
second. -/
def asn1GetId : Decoder (Class × Bool × Int) := do
  let o ← removeOctet
  if o &&& 0x1f ≠ 0x1f then
    return (classOf o, o &&& 0x20 != 0, (o &&& 0x1f).toNat)
  else
    let o' ← removeOctet
    return (classOf o, o &&& 0x20 != 0, (o' &&& 0x7f).toNat)

/-- `asn1_get_length`: the length and whether it is indefinite. -/
def asn1GetLength : Decoder (Int × Bool) := do
  let o ← removeOctet
  if o &&& 0x80 = 0 then return ((o &&& 0x7f).toNat, false)
  else
    let octets ← removeOctets (o &&& 0x7f).toNat
    let len : Int := octets.foldl (fun len o => wrap32 (len * 256 + o.toNat)) 0
    return (len, len = 0)

/-- `asn1_get_tag_indef`. At the end of the buffer only the tag number is set:
the other variables keep what they held. -/
def asn1GetTagIndef (vars : TagVars) : Decoder TagVars := do
  let buf ← get
  if buf.left ≤ 0 then return { vars with tagnum := tagnumCeiling }
  else
    let (cls, constructed, tagnum) ← asn1GetId
    let (taglen, indef) ← asn1GetLength
    return ⟨cls, constructed, tagnum, taglen, indef⟩

/-- The variables of a function before it has read a tag. No branch depends on
them: where there is no tag the number is `ASN1_TAGNUM_CEILING`. -/
def TagVars.unset : TagVars := ⟨.universal, false, 0, 0, false⟩

def asn1GetTag : Decoder TagVars := asn1GetTagIndef .unset

def asn1Sequence : Int := 16

/-- `asn1_get_sequence`: the length and whether it is indefinite. -/
def asn1GetSequence : Decoder (Int × Bool) := do
  let tag ← asn1GetTagIndef .unset
  if tag.cls ≠ .universal ∨ !tag.constructed ∨ tag.tagnum ≠ asn1Sequence then throw .badId
  else return (tag.taglen, tag.indef)

def asn1bufImbed (buf : Asn1Buf) (length : Int) (indef : Bool) : Except DecodeError Asn1Buf :=
  if indef then .ok buf
  else
    let bound := buf.next + length - 1
    if bound > buf.bound then .error .overrun else .ok { buf with bound := bound }

def TagVars.isEoc (tag : TagVars) : Bool := tag.cls = .universal ∧ tag.tagnum = 0 ∧ ! tag.indef

/-- `if (length <= buf->bound - buf->next + 1) buf->next += length;`. -/
def skip (length : Int) (buf : Asn1Buf) : Except DecodeError Asn1Buf :=
  if length ≤ buf.left then .ok { buf with next := buf.next + length } else .error .overrun

/-- The loop of `asn1buf_skiptail`. Its variables are not set before the first
tag is read. -/
def skipLoop : Nat → Option TagVars → Nat → Asn1Buf → Except DecodeError Asn1Buf
  | _, _, 0, buf => .ok buf
  | 0, _, _ + 1, _ => .error .fault
  | fuel + 1, vars, nestlevel + 1, buf =>
    if vars.isNone ∧ buf.left ≤ 0 then .error .fault
    else do
      let (tag, buf) ← asn1GetTagIndef (vars.getD .unset) buf
      let buf ← if tag.indef then .ok buf else skip tag.taglen buf
      let level := if tag.indef then nestlevel + 2 else nestlevel + 1
      skipLoop fuel (some tag) (if tag.isEoc then level - 1 else level) buf

def asn1bufSkiptail (fuel : Nat) (buf : Asn1Buf) (length : Int) (indef : Bool) :
    Except DecodeError Asn1Buf := do
  let buf ← if indef then .ok buf else skip length buf
  skipLoop fuel none (if indef then 2 else 1) buf

/-- `asn1buf_sync`. When the tail of an indefinite sequence is skipped, the
pointer of `buf` stays where it was. -/
def asn1bufSync (fuel : Nat) (buf subbuf : Asn1Buf) (tag : TagVars) (length : Int)
    (seqindef : Bool) : Except DecodeError Asn1Buf :=
  if !seqindef then .ok { buf with next := subbuf.bound + 1 }
  else if !tag.isEoc then do
    let _ ← asn1bufSkiptail fuel subbuf length tag.indef
    return buf
  else .ok { buf with next := subbuf.next }

end Krb5.Asn1
