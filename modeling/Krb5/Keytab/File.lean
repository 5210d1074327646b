import Krb5.Basic
import Krb5.Lib.Stdio

/-!
# Keytab files (`ktf_util.c`)

A keytab is a version number and a sequence of blocks. A block is a length and as many octets. A
negative length is that of a hole, which an entry left that was deleted, and a length of zero that
of a block at the end of the file that has been reserved and not been committed. A loop of
`krb5_ktfileint_find_slot` that does not end is the code `hangs`.
-/

namespace Krb5.Keytab

open Lib OpenFile List

/-- The codes of `ktf_util.c`. -/
inductive KtCode
  | ktEnd
  | ioErr
  | errno
  /-- a loop goes on -/
  | hangs
deriving DecidableEq, Repr

/-- `KRB5_KT_VNO_1`, with integers in the order of the host, and `KRB5_KT_VNO`. -/
inductive KtVersion
  | v1
  | v2
deriving DecidableEq, Repr

/-- The parts of a `krb5_keytab` of which the functions make use, and `BUFSIZ`. -/
structure KtId where
  version : KtVersion
  bufsiz : Nat
  bufsiz_pos : 0 < bufsiz

structure KeytabEntry where
  principal : Principal
  timestamp : Timestamp
  vno : UInt32
  key : Keyblock
deriving DecidableEq, Repr

/-- What `krb5_ktfileint_write_entry` finds in its environment. -/
structure KtIo where
  now : Except Int32 Timestamp
  /-- after how many octets of the entry the device fails -/
  stop : Option Nat

abbrev KtCall := Action OpenFile KtCode

def octets16 (v : KtVersion) (x : Int16) : Octets :=
  match v with
  | .v1 => le16 x.toBitVec
  | .v2 => (le16 x.toBitVec).reverse

def octets32 (v : KtVersion) (x : Int32) : Octets :=
  match v with
  | .v1 => le32 x.toBitVec
  | .v2 => (le32 x.toBitVec).reverse

def ofOctets16 (v : KtVersion) : Octets → Int16
  | [a, b] =>
    match v with
    | .v1 => ⟨⟨ofLe16 a b⟩⟩
    | .v2 => ⟨⟨ofLe16 b a⟩⟩
  | _ => 0

def ofOctets32 (v : KtVersion) : Octets → Int32
  | [a, b, c, d] =>
    match v with
    | .v1 => ⟨⟨ofLe32 a b c d⟩⟩
    | .v2 => ⟨⟨ofLe32 d c b a⟩⟩
  | _ => 0

variable (id : KtId)

def readInt16 : KtCall Int16 := do
  match ← readItem 2 with
  | some bs => return ofOctets16 id.version bs
  | none => .fail .ktEnd

def readInt32 : KtCall Int32 := do
  match ← readItem 4 with
  | some bs => return ofOctets32 id.version bs
  | none => .fail .ktEnd

/-! ## Writing -/

/-- `xfwrite` of one item. -/
def putItem (bs : Octets) : KtCall Unit := do
  let n ← write bs
  .failIf (n != bs.length) .ioErr

/-- `xfwrite` of characters: an error is that none is written. -/
def putChars (bs : Octets) : KtCall Unit := do
  let n ← write bs
  .failIf (n == 0) .ioErr

/-- `krb5_sync_disk_file`. A device that has failed is noticed here at the latest. -/
def syncDiskFile : KtCall Unit := do
  let s ← .get
  .failIf s.room.isSome .errno

/-- The zeros of `krb5_ktfileint_delete_entry`, by buffers. The results of the writes are not
looked at. -/
def writeZeros : Nat → Nat → Nat → KtCall Unit
  | 0, _, _ => pure ()
  | fuel + 1, size, len =>
    if size = 0 then pure ()
    else do
      let _ ← write (replicate len 0)
      writeZeros fuel (size - len) (min len (size - len))

def ktfileintDeleteEntry (deletePoint : Nat) : KtCall Unit := do
  seek deletePoint
  let size ← readInt32 id
  if size > 0 then
    seek deletePoint
    putItem (octets32 id.version (-size))
    writeZeros size.toNatClampNeg size.toNatClampNeg (min size.toNatClampNeg id.bufsiz)
    syncDiskFile
  else return ()

def putCounted (bs : Octets) : KtCall Unit := do
  putItem (octets16 id.version (.ofNat bs.length))
  putChars bs

/-- The components that are written: the loop counts to a `krb5_int16`. -/
def writtenComponents (p : Principal) : List Octets := p.data.take (Int16.ofNat p.data.length).toNatClampNeg

def ktfileintSizeEntry (entry : KeytabEntry) : Int32 :=
  .ofNat (2 + (entry.principal.realm.length + 2) +
    ((writtenComponents entry.principal).map fun c => c.length + 2).sum + 4 + 4 + 1 + 2 +
      (2 + entry.key.contents.length))

/-- The number of components, with the realm in the first version. -/
def countField (p : Principal) : Int16 :=
  match id.version with
  | .v1 => .ofNat p.data.length + 1
  | .v2 => .ofNat p.data.length

def stamp (io : KtIo) : Timestamp := io.now.toOption.getD 0

/-- The type of the name, which the first version does not have. -/
def putType (type : Int32) : KtCall Unit :=
  match id.version with
  | .v1 => pure ()
  | .v2 => putItem (octets32 .v2 type)

/-- The part of `krb5_ktfileint_write_entry` that writes the entry into the slot. -/
def putEntry (entry : KeytabEntry) (now : Timestamp) : KtCall Unit := do
  putItem (octets16 id.version (countField id entry.principal))
  putCounted id entry.principal.realm
  (writtenComponents entry.principal).forM (putCounted id)
  putType id entry.principal.type
  putItem (octets32 id.version now)
  putItem [entry.vno.toUInt8]
  putItem (octets16 id.version entry.key.enctype.toInt16)
  putItem (octets16 id.version (.ofNat entry.key.contents.length))
  putChars entry.key.contents

/-- A number of octets that is a multiple of four, unless the buffer is full. -/
def roundedSize (size : Nat) : Nat := if size = id.bufsiz then size else (size + 3) / 4 * 4

/-- What is done with the data behind a length of zero. The zeros do not go over what has been
read but behind it. -/
def zeroTrailing : Nat → KtCall Unit
  | 0 => .fail .hangs
  | fuel + 1 => do
      let got ← read id.bufsiz
      if got = [] then return ()
      else do
        let _ ← write (replicate (roundedSize id got.length) 0)
        zeroTrailing fuel

/-- The loop of `krb5_ktfileint_find_slot`: the size of the slot and where its length is. -/
def findSlotLoop : Nat → Int32 → KtCall (Int32 × Nat)
  | 0, _ => .fail .hangs
  | fuel + 1, sizeNeeded => do
      let commitPoint ← tell
      match ← readItem 4 with
      | none =>
        putItem (octets32 id.version 0)
        return (sizeNeeded, commitPoint)
      | some bs =>
        let size := ofOctets32 id.version bs
        if size > 0 then
          skip size.toNatClampNeg
          findSlotLoop fuel sizeNeeded
        else if -size ≥ sizeNeeded then return (-size, commitPoint)
        else if -size > 0 then
          skip (-size).toNatClampNeg
          findSlotLoop fuel sizeNeeded
        else
          let zeroPoint ← tell
          zeroTrailing id fuel
          seek zeroPoint
          findSlotLoop fuel sizeNeeded

def ktfileintFindSlot (fuel : Nat) (sizeNeeded : Int32) : KtCall (Int32 × Nat) := do
  seek 0
  match ← readItem 2 with
  | none => .fail .ioErr
  | some _ => findSlotLoop id fuel sizeNeeded

def setRoom (room : Option Nat) : KtCall Unit := .modify fun s => { s with room := room }

/-- The rest of `krb5_ktfileint_write_entry`, when it has a slot: its length is written when the
entry is on the disk. -/
def fillSlot (io : KtIo) (entry : KeytabEntry) (slot : Int32 × Nat) : KtCall Unit := do
  setRoom io.stop
  putEntry id entry (stamp io)
  syncDiskFile
  seek slot.2
  putItem (octets32 id.version slot.1)
  syncDiskFile

def ktfileintWriteEntry (fuel : Nat) (io : KtIo) (entry : KeytabEntry) : KtCall Unit := do
  let slot ← ktfileintFindSlot id fuel (ktfileintSizeEntry entry)
  fillSlot id io entry slot

/-! ## Reading -/

/-- The octets of a buffer that was allocated for them. What is not there stays what it was,
which is taken for zeros. -/
def readChars (n : Nat) : KtCall Octets := do
  let got ← read n
  .failIf got.isEmpty .ktEnd
  return got ++ replicate (n - got.length) 0

def readCount : KtCall Nat := do
  let n ← readInt16 id
  .failIf (n ≤ 0) .ktEnd
  return n.toNatClampNeg

def readComponentCount : KtCall Nat := do
  let n ← readInt16 id
  let n := match id.version with
    | .v1 => n - 1
    | .v2 => n
  .failIf (n ≤ 0) .ktEnd
  return n.toNatClampNeg

def readRealm : KtCall Octets := do
  let n ← readCount id
  let got ← read n
  .failIf (got.length != n) .ktEnd
  return got

def readComponent : KtCall Octets := do
  let n ← readCount id
  readChars n

def readType : KtCall Int32 :=
  match id.version with
  | .v1 => return 0
  | .v2 => readInt32 id

/-- The encryption type: with its sign in the first version, and without it in the second. -/
def readEnctype : KtCall Int32 := do
  let n ← readInt16 id
  return match id.version with
    | .v1 => n.toInt32
    | .v2 => n.toUInt16.toUInt32.toInt32

def readVno : KtCall UInt32 := do
  match ← readItem 1 with
  | some bs => return (bs.headD 0).toUInt32
  | none => .fail .ktEnd

def readBody : KtCall KeytabEntry := do
  let count ← readComponentCount id
  let realm ← readRealm id
  let ⟨data, _⟩ ← times (readComponent id) count
  let type ← readType id
  let timestamp ← readInt32 id
  let vno ← readVno
  let enctype ← readEnctype id
  let length ← readCount id
  let contents ← readChars length
  return ⟨⟨realm, data, type⟩, timestamp, vno, ⟨enctype, contents⟩⟩

/-- The holes in front of an entry: where its length is, and the length. An offset is never so
large that a negative one leads anywhere. -/
def skipHoles : Nat → KtCall (Nat × Int32)
  | 0 => .fail .hangs
  | fuel + 1 => do
      let deletePoint ← tell
      let size ← readInt32 id
      if size < 0 then
        if -size < 0 then .fail .errno
        else
          skip (-size).toNatClampNeg
          skipHoles fuel
      else return (deletePoint, size)

/-- `krb5_ktfileint_internal_read_entry`: the delete point and the entry. -/
def ktfileintInternalReadEntry (fuel : Nat) : KtCall (Nat × KeytabEntry) := do
  let (deletePoint, size) ← skipHoles id fuel
  .failIf (size == 0) .ktEnd
  let start ← tell
  let entry ← readBody id
  seek (start + size.toNatClampNeg)
  return (deletePoint, entry)

/-- `krb5_ktfileint_read_entry` until there is no entry any more. -/
def scanLoop : Nat → OpenFile → List (Nat × KeytabEntry)
  | 0, _ => []
  | fuel + 1, s =>
    match (ktfileintInternalReadEntry id (s.data.length + 1)).run s with
    | (.ok found, s') => found :: scanLoop fuel s'
    | (.error _, _) => []

/-- The entries of a file with their delete points. -/
def scan (data : Octets) : List (Nat × KeytabEntry) := scanLoop id (data.length + 1) ⟨data, 2, none⟩

/-- The file that `krb5_ktfileint_openw` makes: the version `0x0502`. -/
def emptyKeytab : Octets := [5, 2]

end Krb5.Keytab
