import Krb5.Lib.Serial
import Krb5.Name.Text

/-!
# Database entries (`kdb.h`, `kdb_xdr.c`)

A `krb5_db_entry` with its keys and its list of typed data. The list is kept with a count of its
elements beside it, which only `krb5_dbe_update_tl_data` keeps in step.

Memory is found for every size that is not negative.
-/

namespace Krb5.Kdb

open Lib

inductive Code
  | noentry
  | truncatedRecord
  | badSalttype
  | badEnctype
  | cryptoInternal
  | enomem
  /-- `abort()` -/
  | aborted
  /-- a read outside of the record -/
  | fault
  | name (code : Name.Code)
  /-- an error of the operating system, of the database or of the cryptography -/
  | system (code : Int32)
deriving DecidableEq, Repr

structure TlData where
  type : Int16
  contents : Octets
deriving DecidableEq, Repr

/-- One of the elements of `key_data_type`, `key_data_length` and `key_data_contents`. -/
structure KeyPart where
  type : Int16
  contents : Octets
deriving DecidableEq, Repr

def v1KeyDataArray : Int16 := 2

theorem one_le_array : 1 ≤ v1KeyDataArray := by decide

theorem two_le_array : 2 ≤ v1KeyDataArray := by decide

/-- `krb5_key_data`. The first part is the key and the second the salt. There are
`key_data_ver` of them, none for a negative one, and what is behind them is zero. -/
structure KeyData where
  ver : Int16
  kvno : Int16
  parts : List KeyPart
  length_parts : parts.length = ver.toNatClampNeg
  ver_le : ver ≤ v1KeyDataArray
deriving DecidableEq, Repr

def KeyData.typeAt (key : KeyData) (i : Nat) : Int16 :=
  ((key.parts[i]?).map KeyPart.type).getD 0

/-- `krb5_db_entry`. `n_key_data` and `e_length` are the lengths of what they count. -/
structure DbEntry where
  len : Int16
  attributes : Flags
  maxLife : Deltat
  maxRenewableLife : Deltat
  expiration : Timestamp
  pwExpiration : Timestamp
  lastSuccess : Timestamp
  lastFailed : Timestamp
  failAuthCount : UInt32
  nTlData : Int16
  eData : Octets
  princ : Principal
  tlData : List TlData
  keyData : List KeyData
deriving DecidableEq, Repr

def v1BaseLength : Int16 := 38

def tlLastPwdChange : Int16 := 1
def tlModPrinc : Int16 := 2
def tlKadmData : Int16 := 3

def replaceTlData (new : TlData) : List TlData → List TlData
  | [] => []
  | tl :: rest => if tl.type = new.type then new :: rest else tl :: replaceTlData new rest

/-- The octets that are copied when their number is in a `krb5_int16`. -/
def tlContents (contents : Octets) : Except Code Octets :=
  let length := Int16.ofNat contents.length
  if length < 0 then .error .enomem else .ok (contents.take length.toNatClampNeg)

/-- `krb5_dbe_update_tl_data`: in place, or as a new element in front. -/
def dbeUpdateTlData (entry : DbEntry) (type : Int16) (contents : Octets) :
    Except Code DbEntry := do
  let new : TlData := ⟨type, ← tlContents contents⟩
  if entry.tlData.any (·.type = type) then
    return { entry with tlData := replaceTlData new entry.tlData }
  else
    return { entry with tlData := new :: entry.tlData, nTlData := entry.nTlData + 1 }

/-- `krb5_dbe_lookup_tl_data`: nothing where there is no element of the type. -/
def dbeLookupTlData (entry : DbEntry) (type : Int16) : Octets :=
  ((entry.tlData.find? (·.type = type)).map TlData.contents).getD []

def dbeUpdateLastPwdChange (entry : DbEntry) (stamp : Timestamp) : Except Code DbEntry :=
  dbeUpdateTlData entry tlLastPwdChange (le32 stamp.toBitVec)

def dbeLookupLastPwdChange (entry : DbEntry) : Timestamp :=
  match dbeLookupTlData entry tlLastPwdChange with
  | [a, b, c, d] => .ofBitVec (ofLe32 a b c d)
  | _ => 0

def dbeUpdateModPrincData (entry : DbEntry) (modDate : Timestamp) (modPrinc : Principal) :
    Except Code DbEntry := do
  let unparsed ← (Name.unparseName modPrinc).mapError .name
  dbeUpdateTlData entry tlModPrinc (le32 modDate.toBitVec ++ cstring unparsed ++ [0])

def dbeLookupModPrincData (defaultRealm : Except Name.Code Octets) (entry : DbEntry) :
    Except Code (Timestamp × Principal) :=
  match dbeLookupTlData entry tlModPrinc with
  | a :: b :: c :: d :: name =>
    if name.getLast? = some 0 then do
      return (.ofBitVec (ofLe32 a b c d), ← (Name.parseName defaultRealm name).mapError .name)
    else .error .truncatedRecord
  | _ => .error .truncatedRecord

end Krb5.Kdb
