import Krb5.Kadm5.AdbFacts
import Krb5.Kdb.Cpw
import Krb5.Kdb.Xdr
import Krb5.Lib.Action
import Krb5.Lib.Table

/-!
# The databases of the admin server (`server_kdb.c`, `server_misc.c`, `adb_policy.c`)

A principal is found by its name as text, and with it comes the record of the admin server. `Io` is
what a call finds in its environment: the clock, and whether the writes to the database of
principals are carried out. A record of a principal is read as it was written
(`Krb5.Kdb.reads_entry`), except for its name, which is parsed again.
-/

namespace Krb5.Kadm5

open Lib Kdb Name

inductive Code
  | einval
  | dup
  | badMask
  | badPolicy
  | unkPolicy
  | unkPrinc
  | policyRef
  | badMinPassLife
  | badLength
  | badClass
  | badHistory
  | badTlType
  | badDb
  | noRenameSalt
  | protectPrincipal
  | badHistKey
  | passToosoon
  | passQTooshort
  | passQClass
  | passQDict
  | passReuse
  | adbDup
  | adbNoent
  | adbXdrFailure
  /-- a null pointer is followed -/
  | fault
  | kdb (code : Kdb.Code)
deriving DecidableEq, Repr

def maskPrincipal : Mask := 0x000001
def maskLastPwdChange : Mask := 0x000008
def maskModTime : Mask := 0x000040
def maskModName : Mask := 0x000080
def maskKvno : Mask := 0x000100
def maskMkvno : Mask := 0x000200
def maskAuxAttributes : Mask := 0x000400
def maskLastSuccess : Mask := 0x004000
def maskLastFailed : Mask := 0x008000
def maskFailAuthCount : Mask := 0x010000
def maskKeyData : Mask := 0x020000
def maskTlData : Mask := 0x040000

def maskNormal : Mask := 0x01ffff

def allPrincMask : Mask :=
  maskPrincipal ||| maskPrincExpireTime ||| maskPwExpiration ||| maskLastPwdChange |||
    maskAttributes ||| maskMaxLife ||| maskModTime ||| maskModName ||| maskKvno ||| maskMkvno |||
    maskAuxAttributes ||| maskPolicyClr ||| maskPolicy ||| maskMaxRlife ||| maskTlData |||
    maskKeyData

def maskPwMaxLife : Mask := 0x004000
def maskPwMinLife : Mask := 0x008000
def maskPwMinLength : Mask := 0x010000
def maskPwMinClasses : Mask := 0x020000
def maskPwHistoryNum : Mask := 0x040000
def maskRefCount : Mask := 0x080000

/-- `osa_policy_ent_rec`, as it is stored under its name. -/
structure OsaPolicyEnt where
  pwMinLife : UInt32
  pwMaxLife : UInt32
  pwMinLength : UInt32
  pwMinClasses : UInt32
  pwHistoryNum : UInt32
  policyRefcnt : UInt32
deriving DecidableEq, Repr

/-- `kadm5_policy_ent_rec`, as it is passed; a `long` has 32 bits. -/
structure PolicyEnt where
  policy : Option CString
  pwMinLife : Int32
  pwMaxLife : Int32
  pwMinLength : Int32
  pwMinClasses : Int32
  pwHistoryNum : Int32
  policyRefcnt : Int32
deriving DecidableEq, Repr

/-- What `kadm5_get_policy` makes of a stored policy. -/
def OsaPolicyEnt.ent (t : OsaPolicyEnt) (name : CString) : PolicyEnt where
  policy := some name
  pwMinLife := t.pwMinLife.toInt32
  pwMaxLife := t.pwMaxLife.toInt32
  pwMinLength := t.pwMinLength.toInt32
  pwMinClasses := t.pwMinClasses.toInt32
  pwHistoryNum := t.pwHistoryNum.toInt32
  policyRefcnt := t.policyRefcnt.toInt32

structure Db where
  princs : Table Octets DbEntry
  policies : Table CString OsaPolicyEnt
deriving DecidableEq

def Db.empty : Db := ⟨∅, ∅⟩

/-- The members of the server handle and of its parameters, and the static variables of
`server_kdb.c`. -/
structure Handle where
  defaultRealm : Except Name.Code Octets
  currentCaller : Principal
  masterKeyblock : Keyblock
  histKey : Keyblock
  histKvno : UInt32
  histPrinc : Principal
  keysalts : List KeySaltTuple
  flags : Flags
  maxLife : Deltat
  maxRlife : Deltat
  expiration : Timestamp
  /-- `find_word` finds the word in the dictionary -/
  findWord : Octets → Bool
  keys : KeyLib

structure Io where
  /-- `krb5_timeofday` -/
  now : Except Kdb.Code Timestamp
  /-- `krb5_timeofday` in `kdb_put_entry` -/
  putNow : Except Kdb.Code Timestamp
  /-- the write of `krb5_db_put_principal` -/
  put : Except Kdb.Code Unit
  /-- the write of `krb5_db_delete_principal`, of the entry without its keys -/
  clear : Except Kdb.Code Unit
  /-- the removal in `krb5_db_delete_principal` -/
  del : Except Kdb.Code Unit
deriving DecidableEq

abbrev DbCall := Action Db Code

def ofKdb {α : Type} (x : Except Kdb.Code α) : DbCall α := .ofExcept (x.mapError .kdb)

def ofName {α : Type} (x : Except Name.Code α) : DbCall α :=
  .ofExcept (x.mapError fun code => .kdb (.name code))

variable (handle : Handle) (io : Io)

/-- `osa_adb_get_policy`, with the error of `kadm5_get_policy` for one that is not there. -/
def kadm5GetPolicy (name : Option CString) : DbCall PolicyEnt := do
  match name with
  | none => .fail .einval
  | some name =>
    Action.failIf name.text.isEmpty .badPolicy
    let db ← .get
    match db.policies.lookup name with
    | none => .fail .unkPolicy
    | some t => return t.ent name

/-! ## Principals -/

/-- `krb5_db_get_principal`, for one principal. -/
def dbGetPrincipal (principal : Principal) : DbCall DbEntry := do
  let key ← ofName (encodePrincDbkey principal)
  let db ← .get
  match db.princs.lookup key with
  | none => .fail .unkPrinc
  | some entry =>
    let princ ← ofName (parseName handle.defaultRealm key)
    return { entry with princ }

/-- The admin record of an entry; one that has none gets an empty one. -/
def adminRecord (kdb : DbEntry) : Except Code OsaPrincEnt :=
  let data := dbeLookupTlData kdb tlKadmData
  if data = [] then .ok { OsaPrincEnt.zero with adminHistoryKvno := handle.histKvno }
  else
    match decodeOsaPrincEnt data with
    | some adb => .ok adb
    | none => .error .adbXdrFailure

def kdbGetEntry (principal : Principal) : DbCall (DbEntry × OsaPrincEnt) := do
  let kdb ← dbGetPrincipal handle principal
  let adb ← .ofExcept (adminRecord handle kdb)
  return (kdb, adb)

/-- What `kdb_put_entry` adds to an entry before it is stored. -/
def prepared (kdb : DbEntry) (adb : OsaPrincEnt) : Except Kdb.Code DbEntry := do
  let now ← io.putNow
  let kdb ← dbeUpdateModPrincData kdb now handle.currentCaller
  dbeUpdateTlData kdb tlKadmData (encodeOsaPrincEnt adb)

/-- `krb5_db_put_principal`, with the answer of the database. -/
def dbPutPrincipal (written : Except Kdb.Code Unit) (entry : DbEntry) : DbCall Unit := do
  let _ ← ofKdb (encodePrincContents entry)
  let key ← ofName (encodePrincDbkey entry.princ)
  ofKdb written
  .modify fun db => { db with princs := db.princs.insert key entry }

def kdbPutEntry (kdb : DbEntry) (adb : OsaPrincEnt) : DbCall Unit := do
  let entry ← ofKdb (prepared handle io kdb adb)
  dbPutPrincipal io.put entry

/-- The key of an entry is overwritten before the entry is removed. -/
def clearedPart (part : KeyPart) : KeyPart :=
  { part with contents := List.replicate part.contents.length 0 }

def clearedKey (key : KeyData) : KeyData :=
  { key with
    parts := key.parts.modifyHead clearedPart
    length_parts := by rw [List.length_modifyHead]; exact key.length_parts }

/-- `kdb_delete_entry` and `krb5_db_delete_principal`. -/
def kdbDeleteEntry (name : Principal) : DbCall Unit := do
  let key ← ofName (encodePrincDbkey name)
  let db ← .get
  match db.princs.lookup key with
  | none => .fail (.kdb .noentry)
  | some entry =>
    let princ ← ofName (parseName handle.defaultRealm key)
    let entry := { entry with princ, keyData := entry.keyData.map clearedKey }
    let _ ← ofKdb (encodePrincContents entry)
    ofKdb io.clear
    .modify fun db => { db with princs := db.princs.insert key entry }
    ofKdb io.del
    .modify fun db => { db with princs := db.princs.erase key }

/-- The classes that `passwd_check` counts. -/
inductive CharClass
  | lower
  | upper
  | digit
  | punct
  | spec
deriving DecidableEq, Repr

def charClass (c : UInt8) : CharClass :=
  if 0x61 ≤ c ∧ c ≤ 0x7a then .lower
  else if 0x41 ≤ c ∧ c ≤ 0x5a then .upper
  else if 0x30 ≤ c ∧ c ≤ 0x39 then .digit
  else if 0x21 ≤ c ∧ c ≤ 0x7e then .punct
  else .spec

def classCount (password : Octets) : Nat :=
  ([.lower, .upper, .digit, .punct, .spec] : List CharClass).countP fun class_ =>
    password.any fun c => charClass c = class_

/-- `passwd_check`, without Hesiod. -/
def passwdCheck (password : CString) (pol : Option PolicyEnt) (principal : Principal) :
    Except Code Unit :=
  match pol with
  | some pol =>
    if password.text.length < pol.pwMinLength.toUInt32.toNat then .error .passQTooshort
    else if (classCount password.text : Int) < pol.pwMinClasses.toInt then .error .passQClass
    else if handle.findWord password.text then .error .passQDict
    else if (principal.realm :: principal.data).any fun word =>
        strcasecmpEq (cstring word) password.text then .error .passQDict
    else .ok ()
  | none => if password.text.isEmpty then .error .passQTooshort else .ok ()

end Krb5.Kadm5
