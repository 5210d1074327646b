import Krb5.Basic

/-!
# The raw field scanner (`asn1length`, `fetch_asn1_field`)

The KDC looks for the request body with a scanner of its own, which can read beyond the packet's
end: memory is a function from offsets to octets, of which the packet is the beginning.

Nothing bounds the search for the end of an indefinite length. The functions take fuel, and `none`
says that it did not suffice. The inner `none` is the return value `-1`.
-/

namespace Krb5.Asn1

abbrev Memory := Nat → UInt8

/-- A packet with whatever lies behind it in memory. -/
def inMemory (pkt : Octets) (behind : Memory) : Memory :=
  fun i => pkt.getD i (behind (i - pkt.length))

def Memory.read (mem : Memory) (start length : Nat) : Octets :=
  (List.range length).map fun i => mem (start + i)

def lengthOctets (mem : Memory) : Nat → Nat → Nat → Nat
  | 0, _, length => length
  | blen + 1, p, length => lengthOctets mem blen (p + 1) (length * 256 + (mem p).toNat)

mutual

/-- `asn1length`: the length at an offset, and the offset behind it. -/
def asn1length (mem : Memory) : Nat → Nat → Option (Option (Nat × Nat))
  | 0, _ => none
  | fuel + 1, astream =>
    if mem astream &&& 0x80 ≠ 0 then
      let blen := (mem astream &&& 0x7f).toNat
      if blen > 3 then some none
      else
        let length := lengthOctets mem blen (astream + 1) 0
        let astream := astream + 1 + blen
        if length = 0 then
          (indefiniteEnd mem fuel (astream + 1)).map (·.map fun p => (p - astream, astream))
        else some (some (length, astream))
    else some (some ((mem astream).toNat, astream + 1))

/-- The `while (1)` loop of `asn1length`: the offset behind the end-of-contents
octets, from the length octets of the first value on. -/
def indefiniteEnd (mem : Memory) : Nat → Nat → Option (Option Nat)
  | 0, _ => none
  | fuel + 1, p =>
    match asn1length mem fuel p with
    | none => none
    | some none => some none
    | some (some (sublen, p)) =>
      let p := p + sublen
      -- `(!*p++) && (!*p)`: the second octet is looked at only behind a zero
      if mem p = 0 ∧ mem (p + 1) = 0 then some (some (p + 2))
      else indefiniteEnd mem fuel (p + 1)

end

def idConstructed (id : UInt8) : Bool := id &&& 0x20 != 0

def idContext (id : UInt8) : Bool := id &&& 0xc0 == 0x80

def idTag (id : UInt8) : Nat := (id &&& 0x1f).toNat

/-- The main loop of `fetch_asn1_field`. -/
def scanField (mem : Memory) (level field estream : Nat) :
    Nat → Nat → Int → Nat → Int → Option (Option (Nat × Nat))
  | 0, _, _, _, _ => none
  | fuel + 1, astream, classes, levels, lastlevel =>
    if ¬astream < estream then some none
    else if !idConstructed (mem astream) then some none
    else
      let tag := idTag (mem astream)
      let context := idContext (mem astream)
      let deeper := context && decide ((tag : Int) ≤ lastlevel)
      let levels := if deeper then levels + 1 else levels
      let classes := if deeper then -1 else classes
      let lastlevel := if context then (tag : Int) else lastlevel
      if context ∧ levels = level ∧ tag = field then
        let savelen := mem (astream + 1)
        (asn1length mem fuel (astream + 1)).map (·.map fun (length, astream) =>
          (astream, if savelen = 0x80 then length - 2 else length))
      else if context ∧ levels = level ∧ (tag : Int) ≤ classes then some none
      else
        let classes := if context ∧ levels = level then (tag : Int) else classes
        match asn1length mem fuel (astream + 1) with
        | none => none
        | some none => some none
        | some (some (length, astream)) =>
          let astream := if levels = level then astream + length else astream
          scanField mem level field estream fuel astream classes levels lastlevel

/-- `fetch_asn1_field`: where the field's contents start, and their length. -/
def fetchAsn1Field (fuel : Nat) (mem : Memory) (level field : Nat) :
    Option (Option (Nat × Nat)) :=
  match asn1length mem fuel 1 with
  | none => none
  | some none => some none
  | some (some (length, astream)) =>
    scanField mem level field (1 + length) fuel astream (-1) 0 1000

end Krb5.Asn1
