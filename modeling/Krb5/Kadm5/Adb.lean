import Krb5.Kadm5.Acl
import Krb5.Kdb.Entry

/-!
# The record of the admin server (`adb.h`, `adb_xdr.c`)

What the admin server knows about a principal besides its database entry: the policy, and the keys
of passwords that were in use before. The record is an element of the entry's typed data, in XDR.

`xdrOsaPrincEntRec` reads a record as it stands, and `RawPrincEnt.ent?` gives the value that it
stands for where there is one.
-/

namespace Krb5.Kadm5

open Lib Kdb List

/-- `osa_pw_hist_ent`: the keys of one password. -/
structure PwHistEnt where
  keyData : List KeyData
deriving DecidableEq, Repr

/-- `osa_princ_ent_rec`; `old_key_len` is the length of `old_keys`. -/
structure OsaPrincEnt where
  policy : Option CString
  auxAttributes : Mask
  oldKeyNext : UInt32
  adminHistoryKvno : UInt32
  oldKeys : List PwHistEnt
deriving DecidableEq, Repr

def OsaPrincEnt.zero : OsaPrincEnt := ⟨none, 0, 0, 0, []⟩

def adbPrincVersion1 : Int32 := 0x12345C01

/-! ## Keys as they are read -/

/-- `krb5_key_data`, with what an octet string of the record was read for its contents. -/
structure RawKeyData where
  ver : Int16
  kvno : Int16
  type0 : Int16
  type1 : Int16
  length0 : Int16
  length1 : Int16
  contents0 : Octets
  contents1 : Octets
deriving DecidableEq, Repr

def contentsAt (key : KeyData) (i : Nat) : Octets :=
  ((key.parts[i]?).map KeyPart.contents).getD []

def rawKeyData (key : KeyData) : RawKeyData where
  ver := key.ver
  kvno := key.kvno
  type0 := key.typeAt 0
  type1 := key.typeAt 1
  length0 := .ofNat (contentsAt key 0).length
  length1 := .ofNat (contentsAt key 1).length
  contents0 := contentsAt key 0
  contents1 := contentsAt key 1

theorem toNatClampNeg_le_two {ver : Int16} (h : ver ≤ v1KeyDataArray) : ver.toNatClampNeg ≤ 2 := by
  rw [Int16.le_iff_toInt_le] at h
  have htwo : v1KeyDataArray.toInt = 2 := rfl
  rw [Int16.toNatClampNeg]
  omega

def RawKeyData.keyData? (raw : RawKeyData) : Option KeyData :=
  if hver : raw.ver ≤ v1KeyDataArray then
    let parts := [KeyPart.mk raw.type0 raw.contents0, ⟨raw.type1, raw.contents1⟩]
    let key : KeyData := ⟨raw.ver, raw.kvno, parts.take raw.ver.toNatClampNeg,
      by rw [length_take]; exact Nat.min_eq_left (toNatClampNeg_le_two hver), hver⟩
    if rawKeyData key = raw then some key else none
  else none

theorem keyData?_rawKeyData (key : KeyData) : (rawKeyData key).keyData? = some key := by
  have hparts : [KeyPart.mk (key.typeAt 0) (contentsAt key 0),
      ⟨key.typeAt 1, contentsAt key 1⟩].take key.ver.toNatClampNeg = key.parts := by
    have htwo := toNatClampNeg_le_two key.ver_le
    rw [← key.length_parts] at htwo ⊢
    rcases hlist : key.parts with _ | ⟨p, _ | ⟨q, _ | ⟨r, rest⟩⟩⟩
    · rfl
    · simp [KeyData.typeAt, contentsAt, hlist]
    · simp [KeyData.typeAt, contentsAt, hlist]
    · simp only [hlist, length_cons] at htwo
      omega
  have hkey (h) : (⟨key.ver, key.kvno, [KeyPart.mk (key.typeAt 0) (contentsAt key 0),
      ⟨key.typeAt 1, contentsAt key 1⟩].take key.ver.toNatClampNeg, h, key.ver_le⟩ : KeyData) =
        key := by
    cases key
    simpa using hparts
  rw [RawKeyData.keyData?, dif_pos (show (rawKeyData key).ver ≤ v1KeyDataArray from key.ver_le)]
  simp [rawKeyData, hkey]

/-- `osa_princ_ent_rec`, as it is read: the history with such keys, and the policy as the
memory that was filled. -/
structure RawPrincEnt where
  policy : Option Octets
  auxAttributes : Mask
  oldKeyNext : UInt32
  adminHistoryKvno : UInt32
  oldKeys : List (List RawKeyData)
deriving DecidableEq, Repr

/-- The record as it lies in memory. -/
def rawPrincEnt (adb : OsaPrincEnt) : RawPrincEnt where
  policy := adb.policy.map CString.buffer
  auxAttributes := adb.auxAttributes
  oldKeyNext := adb.oldKeyNext
  adminHistoryKvno := adb.adminHistoryKvno
  oldKeys := adb.oldKeys.map fun hist => hist.keyData.map rawKeyData

/-- The record with these fields: the policy has to end inside its memory. -/
def RawPrincEnt.ent? (raw : RawPrincEnt) : Option OsaPrincEnt := do
  let policy ← match raw.policy with
    | none => some none
    | some mem => (CString.ofBuffer mem).map some
  let oldKeys ← raw.oldKeys.mapM fun keys => (keys.mapM RawKeyData.keyData?).map PwHistEnt.mk
  return { policy, auxAttributes := raw.auxAttributes, oldKeyNext := raw.oldKeyNext,
           adminHistoryKvno := raw.adminHistoryKvno, oldKeys }

/-- `xdr_u_int`. -/
def putUInt (v : UInt32) : Octets := be32 v.toInt32

/-- `xdr_krb5_int16`. -/
def putInt16 (v : Int16) : Octets := be32 v.toInt32

def padding (n : Nat) : Nat := (4 - n % 4) % 4

/-- `xdr_opaque`. -/
def putOpaque (bs : Octets) : Octets := bs ++ replicate (padding bs.length) 0

/-- `xdr_bytes`. -/
def putBytes (bs : Octets) : Octets := putUInt (.ofNat bs.length) ++ putOpaque bs

/-- `xdr_nullstring`. -/
def putNullstring : Option CString → Octets
  | none => putUInt 0
  | some s => putUInt (.ofNat (s.text.length + 1)) ++ putOpaque (s.text ++ [0])

/-- `xdr_krb5_kvno`: through an `unsigned char`, which `xdr_u_char` reads as a `char` and
extends with its sign. -/
def putKvno (kvno : UInt32) : Octets := putUInt kvno.toUInt8.toInt8.toInt32.toUInt32

/-- `xdr_krb5_key_data`, of a key whose lengths are those of its contents. -/
def putRawKeyData (raw : RawKeyData) : Octets :=
  putInt16 raw.ver ++ putInt16 raw.kvno ++ putInt16 raw.type0 ++ putInt16 raw.type1 ++
    putInt16 raw.length0 ++ putInt16 raw.length1 ++ putBytes raw.contents0 ++
    putBytes raw.contents1

def putKeyData (key : KeyData) : Octets := putRawKeyData (rawKeyData key)

/-- `xdr_array`. -/
def putArray {α : Type} (put : α → Octets) (l : List α) : Octets :=
  putUInt (.ofNat l.length) ++ l.flatMap put

/-- `xdr_osa_pw_hist_ent`. -/
def putPwHistEnt (hist : PwHistEnt) : Octets := putArray putKeyData hist.keyData

/-- `xdr_osa_princ_ent_rec`. -/
def encodeRawPrincEnt (raw : RawPrincEnt) : Octets :=
  be32 adbPrincVersion1 ++ putNullstring (raw.policy.map CString.ofMemory) ++
    be32 (.ofBitVec raw.auxAttributes) ++ putUInt raw.oldKeyNext ++ putKvno raw.adminHistoryKvno ++
    putArray (putArray putRawKeyData) raw.oldKeys

def encodeOsaPrincEnt (adb : OsaPrincEnt) : Octets := encodeRawPrincEnt (rawPrincEnt adb)

theorem putArray_map {α β : Type} (put : β → Octets) (g : α → β) (l : List α) :
    putArray put (l.map g) = putArray (fun a => put (g a)) l := by
  rw [putArray, putArray, length_map, flatMap_map]

theorem encodeOsaPrincEnt_eq (adb : OsaPrincEnt) : encodeOsaPrincEnt adb =
    be32 adbPrincVersion1 ++ putNullstring adb.policy ++ be32 (.ofBitVec adb.auxAttributes) ++
      putUInt adb.oldKeyNext ++ putKvno adb.adminHistoryKvno ++
      putArray putPwHistEnt adb.oldKeys := by
  have hpolicy : (adb.policy.map CString.buffer).map CString.ofMemory = adb.policy := by
    rw [Option.map_map, show CString.ofMemory ∘ CString.buffer = id from funext CString.ofMemory_buffer,
      Option.map_id_apply]
  simp only [encodeOsaPrincEnt, encodeRawPrincEnt, rawPrincEnt, hpolicy, putArray_map]
  rfl

abbrev Xdr := Unpacking Unit

def getUInt : Xdr UInt32 := do return (← unpackInt32 ()).toUInt32

def getInt16 : Xdr Int16 := do return (← unpackInt32 ()).toInt16

def getOpaque (n : Nat) : Xdr Octets := do
  let bs ← unpackBytes () n
  let _ ← unpackBytes () (padding n)
  return bs

def getBytes : Xdr Octets := do getOpaque (← getUInt).toNat

def getNullstring : Xdr (Option Octets) := do
  let size ← getUInt
  if size = 0 then return none else return some (← getOpaque size.toNat)

def getKvno : Xdr UInt32 := do return (← getUInt).toUInt8.toUInt32

def xdrKrb5KeyData : Xdr RawKeyData := do
  let ver ← getInt16
  let kvno ← getInt16
  let type0 ← getInt16
  let type1 ← getInt16
  let length0 ← getInt16
  let length1 ← getInt16
  let contents0 ← getBytes
  let contents1 ← getBytes
  return ⟨ver, kvno, type0, type1, length0, length1, contents0, contents1⟩

/-- `xdr_array`. -/
def getArray {α : Type} (element : Xdr α) : Xdr (List α) := do
  let count ← getUInt
  return (← times element count.toNat).1

def xdrOsaPrincEntRec : Xdr RawPrincEnt := do
  let version ← unpackInt32 ()
  if version ≠ adbPrincVersion1 then throw ()
  let policy ← getNullstring
  let auxAttributes := (← unpackInt32 ()).toBitVec
  let oldKeyNext ← getUInt
  let adminHistoryKvno ← getKvno
  let oldKeys ← getArray (getArray xdrKrb5KeyData)
  return { policy, auxAttributes, oldKeyNext, adminHistoryKvno, oldKeys }

def decodeOsaPrincEnt (data : Octets) : Option OsaPrincEnt :=
  match xdrOsaPrincEntRec data with
  | .ok (raw, _) => raw.ent?
  | .error _ => none

end Krb5.Kadm5
