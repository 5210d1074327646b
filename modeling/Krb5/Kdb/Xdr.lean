import Krb5.Kdb.Entry

/-!
# Database records (`kdb_xdr.c`)

`krb5_encode_princ_contents` goes over an entry twice, to find the size of the record and to
fill it. `krb5_decode_princ_contents` has a pointer into the record and a count of what is
left of it; the two are moved apart from each other, and only the count is tested. A read
behind the end of the record is the error `fault`.

Sizes are counted without a limit.
-/

namespace Krb5.Kdb

open Lib

/-- The size that is allocated, and what is written there. -/
structure Content where
  length : Nat
  data : Octets
deriving DecidableEq, Repr

def typedOctets (type : Int16) (contents : Octets) : Octets :=
  le16 type.toBitVec ++ le16 (.ofNat 16 contents.length) ++ contents

def keyDataOctets (key : KeyData) : Octets :=
  le16 key.ver.toBitVec ++ le16 key.kvno.toBitVec ++
    key.parts.flatMap fun part => typedOctets part.type part.contents

def baseOctets (entry : DbEntry) : Octets :=
  le16 entry.len.toBitVec ++ le32 entry.attributes ++ le32 entry.maxLife.toBitVec ++
    le32 entry.maxRenewableLife.toBitVec ++ le32 entry.expiration.toBitVec ++
    le32 entry.pwExpiration.toBitVec ++ le32 entry.lastSuccess.toBitVec ++
    le32 entry.lastFailed.toBitVec ++ le32 entry.failAuthCount.toBitVec ++
    le16 entry.nTlData.toBitVec ++ le16 (.ofNat 16 entry.keyData.length)

/-- The name with its size in front and a zero behind it. -/
def nameOctets (unparsePrinc : Octets) : Octets :=
  le16 (.ofNat 16 (unparsePrinc.length + 1)) ++ (unparsePrinc ++ [0])

def contentsOctets (entry : DbEntry) (unparsePrinc : Octets) : Octets :=
  baseOctets entry ++ entry.eData ++ nameOctets unparsePrinc ++
    (entry.tlData.flatMap fun tl => typedOctets tl.type tl.contents) ++
    entry.keyData.flatMap keyDataOctets

/-- `content->length`, as the first pass adds it up. -/
def contentLength (entry : DbEntry) (unparsePrinc : Octets) : Nat :=
  entry.len.toNatClampNeg + entry.eData.length + (unparsePrinc.length + 1) + 2 +
    (entry.tlData.map fun tl => tl.contents.length + 4).sum +
    (entry.keyData.map fun key =>
      4 + (key.parts.map fun part => part.contents.length + 4).sum).sum

def encodePrincContents (entry : DbEntry) : Except Code Content := do
  let unparsePrinc := cstring (← (Name.unparseName entry.princ).mapError .name)
  if (entry.tlData.length : Int) ≠ entry.nTlData.toInt then .error .truncatedRecord
  else if entry.len ≠ v1BaseLength then .error .aborted
  else return ⟨contentLength entry unparsePrinc, contentsOctets entry unparsePrinc⟩

/-! ## Reading a record -/

/-- The octets from `nextloc` on, and `sizeleft`. -/
structure Cursor where
  rest : Octets
  sizeleft : Int
deriving DecidableEq, Repr

abbrev Decoding := StateT Cursor (Except Code)

/-- `if ((sizeleft -= n) < 0) return KRB5_KDB_TRUNCATED_RECORD;`. -/
def countDown (n : Int) : Decoding Unit := fun cursor =>
  if cursor.sizeleft - n < 0 then .error .truncatedRecord
  else .ok ((), { cursor with sizeleft := cursor.sizeleft - n })

def octets (n : Nat) : Decoding Octets := fun cursor =>
  if n ≤ cursor.rest.length then
    .ok (cursor.rest.take n, { cursor with rest := cursor.rest.drop n })
  else .error .fault

def int16 : Decoding (BitVec 16) := fun cursor =>
  match cursor.rest with
  | a :: b :: rest => .ok (ofLe16 a b, { cursor with rest })
  | _ => .error .fault

def int32 : Decoding (BitVec 32) := fun cursor =>
  match cursor.rest with
  | a :: b :: c :: d :: rest => .ok (ofLe32 a b c d, { cursor with rest })
  | _ => .error .fault

def refuseIf (refuses : Bool) (code : Code) : Decoding Unit := fun cursor =>
  if refuses then .error code else .ok ((), cursor)

def typed : Decoding (Int16 × Octets) := do
  countDown 4
  let type ← int16
  let length := Int16.ofBitVec (← int16)
  countDown length.toInt
  refuseIf (length < 0) .enomem
  return (.ofBitVec type, ← octets length.toNatClampNeg)

def tlData : Decoding TlData := do
  let (type, contents) ← typed
  return ⟨type, contents⟩

def keyPart : Decoding KeyPart := do
  let (type, contents) ← typed
  return ⟨type, contents⟩

def keyData : Decoding KeyData := do
  countDown 4
  let ver := Int16.ofBitVec (← int16)
  let kvno ← int16
  if hver : ver ≤ v1KeyDataArray then
    let parts ← times keyPart ver.toNatClampNeg
    return ⟨ver, .ofBitVec kvno, parts.1, parts.2, hver⟩
  else throw .aborted

/-- The name at `nextloc`: it is read up to a zero before its size is looked at. -/
def princName (defaultRealm : Except Name.Code Octets) : Decoding Principal := do
  countDown 2
  let size := (Int16.ofBitVec (← int16)).toInt
  let cursor ← get
  refuseIf (!cursor.rest.contains 0) .fault
  let princ ← liftM ((Name.parseName defaultRealm cursor.rest).mapError Code.name)
  let strlen := (cstring cursor.rest).length
  refuseIf (size ≠ strlen + 1 || cursor.sizeleft < size) .truncatedRecord
  set (⟨cursor.rest.drop (strlen + 1), cursor.sizeleft - size⟩ : Cursor)
  return princ

/-- `krb5_decode_princ_contents`. What is behind a base that is larger than the one known is
taken for extra data, without being counted. -/
def decodeEntry (defaultRealm : Except Name.Code Octets) : Decoding DbEntry := do
  countDown v1BaseLength.toInt
  let len := Int16.ofBitVec (← int16)
  let attributes ← int32
  let maxLife ← int32
  let maxRenewableLife ← int32
  let expiration ← int32
  let pwExpiration ← int32
  let lastSuccess ← int32
  let lastFailed ← int32
  let failAuthCount ← int32
  let nTlData := Int16.ofBitVec (← int16)
  refuseIf (nTlData < 0) .truncatedRecord
  let nKeyData := Int16.ofBitVec (← int16)
  refuseIf (nKeyData < 0) .truncatedRecord
  let eData ← octets (len.toInt - v1BaseLength.toInt).toNat
  let princ ← princName defaultRealm
  let tls ← times tlData nTlData.toNatClampNeg
  let keys ← times keyData nKeyData.toNatClampNeg
  return {
    len, attributes, nTlData, eData, princ
    maxLife := .ofBitVec maxLife
    maxRenewableLife := .ofBitVec maxRenewableLife
    expiration := .ofBitVec expiration
    pwExpiration := .ofBitVec pwExpiration
    lastSuccess := .ofBitVec lastSuccess
    lastFailed := .ofBitVec lastFailed
    failAuthCount := .ofBitVec failAuthCount
    tlData := tls.1
    keyData := keys.1 }

/-- `krb5_decode_princ_contents`, of a record of these octets. -/
def decodePrincContents (defaultRealm : Except Name.Code Octets) (content : Octets) :
    Except Code DbEntry :=
  (decodeEntry defaultRealm ⟨content, content.length⟩).map Prod.fst

end Krb5.Kdb
