import Krb5.Kadm5.Principal
import Krb5.Kdc.Policy

/-!
# Changes of a password (`svr_principal.c`)

Under a policy the keys of the new password are compared with those it replaces and with the ones in
the history; then those it replaces go into the history, in the history key. The history grows up to
the limit of the policy that is in force when a password is changed.
-/

namespace Krb5.Kadm5

open Lib Kdb

variable (handle : Handle) (io : Io)

/-- A key that is read. Without contents the block stays as it was on the stack. -/
def decryptedKey (mkey : Keyblock) (key : KeyData) : Except Code Keyblock := do
  match ← (dbekdDecryptKey handle.keys mkey key).mapError Code.kdb with
  | some block => return block
  | none => .error .fault

/-- The innermost loop of `check_pw_reuse`: a key against one key of the history. -/
def compareKey (newkey : Keyblock) (old : KeyData) : Except Code Unit := do
  let histkey ← decryptedKey handle handle.histKey old
  if newkey = histkey then .error .passReuse else .ok ()

def checkPwReuse (newKeyData : List KeyData) (pwHistData : List PwHistEnt) : Except Code Unit :=
  newKeyData.forM fun key => do
    let newkey ← decryptedKey handle handle.masterKeyblock key
    pwHistData.forM fun hist => hist.keyData.forM (compareKey handle newkey)

def historyKey (key : KeyData) : Except Code KeyData := do
  let block ← decryptedKey handle handle.masterKeyblock key
  (dbekdEncryptKeyData handle.keys handle.histKey block (dbekdKeysalt key) key.kvno.toInt32).mapError
    .kdb

def createHistoryEntry (keyData : List KeyData) : Except Code PwHistEnt := do
  return ⟨← keyData.mapM (historyKey handle)⟩

/-- The array, which is resized by one slot as long as it is shorter than the limit. -/
def resized (limit : UInt32) (oldKeys : List PwHistEnt) : List PwHistEnt :=
  if oldKeys.length < limit.toNat then oldKeys ++ [⟨[]⟩] else oldKeys

/-- `add_to_history`. The lengths and the limit are compared without their signs, and the slot
may be one beside the array. -/
def addToHistory (adb : OsaPrincEnt) (pol : PolicyEnt) (pw : PwHistEnt) : Except Code OsaPrincEnt :=
  if pol.pwHistoryNum = 1 then .ok adb
  else
    let limit := (pol.pwHistoryNum - 1).toUInt32
    let oldKeys := resized limit adb.oldKeys
    if adb.oldKeyNext.toNat < oldKeys.length then
      .ok { adb with
        oldKeys := oldKeys.set adb.oldKeyNext.toNat pw
        oldKeyNext := if adb.oldKeyNext + 1 = limit then 0 else adb.oldKeyNext + 1 }
    else .error .fault

/-- The part of `kadm5_chpass_principal_3` for the history: the record with the keys that are
replaced. -/
def enforceHistory (pol : PolicyEnt) (oldKeyData newKeyData : List KeyData) (adb : OsaPrincEnt) :
    Except Code OsaPrincEnt := do
  let hist ← createHistoryEntry handle oldKeyData
  checkPwReuse handle newKeyData [hist]
  if pol.pwHistoryNum > 1 then
    if adb.adminHistoryKvno ≠ handle.histKvno then .error .badHistKey
    else
      checkPwReuse handle newKeyData adb.oldKeys
      addToHistory adb pol hist
  else return adb

def historyUnder (pol : Option PolicyEnt) (oldKeyData newKeyData : List KeyData) (adb : OsaPrincEnt) :
    Except Code OsaPrincEnt :=
  match pol with
  | some pol => enforceHistory handle pol oldKeyData newKeyData adb
  | none => .ok adb

def newExpiration (pol : Option PolicyEnt) (now : Timestamp) : Timestamp :=
  match pol with
  | some pol => if pol.pwMaxLife ≠ 0 then now + pol.pwMaxLife else 0
  | none => 0

/-- What `kadm5_chpass_principal_3` makes of an entry and its record. -/
def changedPassword (principal : Principal) (keepold : Bool) (ksTuple : List KeySaltTuple)
    (password : CString) (pol : Option PolicyEnt) (kdb : DbEntry) (adb : OsaPrincEnt) :
    Except Code (DbEntry × OsaPrincEnt) := do
  passwdCheck handle password pol principal
  let keyed ← (keyedEntry handle kdb ksTuple password 0 keepold).mapError .kdb
  let now ← io.now.mapError .kdb
  let adb ← historyUnder handle pol kdb.keyData keyed.keyData adb
  let changed ← (dbeUpdateLastPwdChange { keyed with
    attributes := clear keyed.attributes Kdc.kdbRequiresPwchange
    pwExpiration := newExpiration pol now } now).mapError .kdb
  return (changed, adb)

def recordPolicy (adb : OsaPrincEnt) : DbCall (Option PolicyEnt) :=
  if isSet adb.auxAttributes maskPolicy then do
    let pol ← kadm5GetPolicy adb.policy
    return some pol
  else pure none

def kadm5ChpassPrincipal3 (principal : Option Principal) (keepold : Bool)
    (ksTuple : List KeySaltTuple) (password : Option CString) : DbCall Unit := do
  match principal, password with
  | some principal, some password =>
    .failIf (principalCompare principal handle.histPrinc) .protectPrincipal
    let (kdb, adb) ← kdbGetEntry handle principal
    let pol ← recordPolicy adb
    let (kdb, adb) ← .ofExcept (changedPassword handle io principal keepold ksTuple password pol kdb adb)
    kdbPutEntry handle io kdb adb
  | _, _ => .fail .einval

def kadm5ChpassPrincipal (principal : Option Principal) (password : Option CString) : DbCall Unit :=
  kadm5ChpassPrincipal3 handle io principal false [] password

end Krb5.Kadm5
