import Krb5.Kadm5.Policy

/-!
# Principals (`svr_principal.c`)

Creation, modification, removal, renaming and reading of a principal, for version 2 of the
interface. A policy counts the principals that name it; the count is changed before the
principal is written, in the other database.
-/

namespace Krb5.Kadm5

open Lib Kdb

/-- `kadm5_principal_ent_rec`; `n_key_data` is the length of what it counts. -/
structure PrincipalEntRec where
  principal : Option Principal
  princExpireTime : Timestamp
  lastPwdChange : Timestamp
  pwExpiration : Timestamp
  maxLife : Deltat
  modName : Option Principal
  modDate : Timestamp
  attributes : Flags
  kvno : UInt32
  policy : Option CString
  auxAttributes : Mask
  maxRenewableLife : Deltat
  lastSuccess : Timestamp
  lastFailed : Timestamp
  failAuthCount : UInt32
  nTlData : Int16
  tlData : List TlData
  keyData : List KeyData
deriving DecidableEq, Repr

def PrincipalEntRec.zero : PrincipalEntRec where
  principal := none
  princExpireTime := 0
  lastPwdChange := 0
  pwExpiration := 0
  maxLife := 0
  modName := none
  modDate := 0
  attributes := 0
  kvno := 0
  policy := none
  auxAttributes := 0
  maxRenewableLife := 0
  lastSuccess := 0
  lastFailed := 0
  failAuthCount := 0
  nTlData := 0
  tlData := []
  keyData := []

def anySet (mask : Mask) (bits : List Mask) : Bool := bits.any fun bit => isSet mask bit

def deref {α : Type} : Option α → DbCall α
  | some a => pure a
  | none => .fail .fault

variable (handle : Handle) (io : Io)

def putRefcnt (pol : PolicyEnt) : DbCall Unit := kadm5ModifyPolicyInternal pol maskRefCount

def counted (pol : PolicyEnt) (more : Int32) : PolicyEnt :=
  { pol with policyRefcnt := pol.policyRefcnt + more }

def writeCount : Option PolicyEnt → DbCall Unit
  | some pol => putRefcnt pol
  | none => pure ()

/-! ## Creation -/

def createForbidden : List Mask :=
  [maskModName, maskModTime, maskLastPwdChange, maskMkvno, maskPolicyClr, maskAuxAttributes,
    maskKeyData, maskLastSuccess, maskLastFailed, maskFailAuthCount]

def requestOr {α : Type} (mask bit : Mask) (value param : α) : α :=
  if isSet mask bit then value else param

def newEntry (principal : Principal) (entry : PrincipalEntRec) (mask : Mask)
    (polent : Option PolicyEnt) (now : Timestamp) : DbEntry where
  len := v1BaseLength
  attributes := requestOr mask maskAttributes entry.attributes handle.flags
  maxLife := requestOr mask maskMaxLife entry.maxLife handle.maxLife
  maxRenewableLife := requestOr mask maskMaxRlife entry.maxRenewableLife handle.maxRlife
  expiration := requestOr mask maskPrincExpireTime entry.princExpireTime handle.expiration
  pwExpiration := requestOr mask maskPwExpiration entry.pwExpiration
    (match polent with
      | some pol => if pol.pwMaxLife ≠ 0 then now + pol.pwMaxLife else 0
      | none => 0)
  lastSuccess := 0
  lastFailed := 0
  failAuthCount := 0
  nTlData := 0
  eData := []
  princ := principal
  tlData := []
  keyData := []

def newAdb (entry : PrincipalEntRec) (mask : Mask) : OsaPrincEnt :=
  { OsaPrincEnt.zero with
    adminHistoryKvno := handle.histKvno
    auxAttributes := if isSet mask maskPolicy then maskPolicy else 0
    policy := if isSet mask maskPolicy then entry.policy else none }

def requestedPolicy (entry : PrincipalEntRec) (mask : Mask) : DbCall (Option PolicyEnt) :=
  if isSet mask maskPolicy then do
    let polent ← (kadm5GetPolicy entry.policy).mapError fun code =>
      if code = .einval then .badPolicy else code
    return some polent
  else pure none

def keyedEntry (kdb : DbEntry) (ksTuple : List KeySaltTuple) (password : CString) (kvno : Int32)
    (keepold : Bool) : Except Kdb.Code DbEntry :=
  dbeCpw handle.keys handle.masterKeyblock
    (if ksTuple.isEmpty then handle.keysalts else ksTuple) password.text kvno keepold kdb

/-- The caller's typed data in front of that of the entry. The number of elements stays as it
was, and a list without elements has no end to be found. -/
def spliceTlData (kdb : DbEntry) (entry : PrincipalEntRec) (mask : Mask) : Except Code DbEntry :=
  if isSet mask maskTlData then
    if entry.tlData.isEmpty then .error .fault
    else .ok { kdb with tlData := entry.tlData ++ kdb.tlData }
  else .ok kdb

/-- The checks of `kadm5_create_principal_3`, and the new entry with its keys and its policy. -/
def createdEntry (entry : PrincipalEntRec) (mask : Mask) (ksTuple : List KeySaltTuple)
    (password : Option CString) : DbCall (DbEntry × Option PolicyEnt) := do
  .failIf (!isSet mask maskPrincipal || anySet mask createForbidden) .badMask
  .failIf (isSet mask (~~~allPrincMask)) .badMask
  match password with
  | none => .fail .einval
  | some password =>
    let principal ← deref entry.principal
    let found ← (kdbGetEntry handle principal).upTo .unkPrinc
    .failIf found.isSome .dup
    let polent ← requestedPolicy entry mask
    .ofExcept (passwdCheck handle password polent principal)
    let now ← ofKdb io.now
    let kdb ← ofKdb (dbeUpdateLastPwdChange (newEntry handle principal entry mask polent now) now)
    let kdb ← ofKdb (keyedEntry handle kdb ksTuple password
      (if isSet mask maskKvno then entry.kvno.toInt32 else 1) false)
    return (kdb, polent)

/-- The entry is stored; when this fails, the count of the policy is set back, and it is not
looked at whether that worked. -/
def storeNew (kdb : DbEntry) (adb : OsaPrincEnt) (polent : Option PolicyEnt) : DbCall Unit where
  run db :=
    match (kdbPutEntry handle io kdb adb).run db with
    | (.ok (), db) => (.ok (), db)
    | (.error code, db) =>
      match polent with
      | some pol => (.error code, ((putRefcnt pol).run db).2)
      | none => (.error code, db)

def countAndStore (kdb : DbEntry) (entry : PrincipalEntRec) (mask : Mask)
    (polent : Option PolicyEnt) : DbCall Unit := do
  writeCount (polent.map (counted · 1))
  let kdb ← .ofExcept (spliceTlData kdb entry mask)
  storeNew handle io kdb (newAdb handle entry mask) polent

def kadm5CreatePrincipal3 (entry : PrincipalEntRec) (mask : Mask) (ksTuple : List KeySaltTuple)
    (password : Option CString) : DbCall Unit := do
  let (kdb, polent) ← createdEntry handle io entry mask ksTuple password
  countAndStore handle io kdb entry mask polent

/-- `kadm5_delete_principal`. Where the policy is not found, memory that was not written to is
freed. -/
def kadm5DeletePrincipal (principal : Option Principal) : DbCall Unit := do
  match principal with
  | none => .fail .einval
  | some principal =>
    let (_, adb) ← kdbGetEntry handle principal
    if isSet adb.auxAttributes maskPolicy then
      let polent ← (kadm5GetPolicy adb.policy).mapError fun _ => .fault
      putRefcnt (counted polent (-1))
    kdbDeleteEntry handle io principal

def saltedByName (key : KeyData) : Bool := key.ver = 1 || key.typeAt 1 = salttypeNormal

/-- `kadm5_rename_principal`. Any error stands for a target that is not there. -/
def kadm5RenamePrincipal (source target : Option Principal) : DbCall Unit := do
  match source, target with
  | some source, some target =>
    let found ← (kdbGetEntry handle target).attempt
    .failIf found.isSome .dup
    let (kdb, adb) ← kdbGetEntry handle source
    .failIf (kdb.keyData.any saltedByName) .noRenameSalt
    kdbPutEntry handle io { kdb with princ := target } adb
    kdbDeleteEntry handle io source
  | _, _ => .fail .einval

/-! ## Modification -/

def modifyForbidden : List Mask :=
  [maskPrincipal, maskLastPwdChange, maskModTime, maskModName, maskMkvno, maskAuxAttributes,
    maskKeyData, maskLastSuccess, maskLastFailed]

/-- The entry and the admin record with the policy changed, and the policies whose counts are
written back. -/
structure PolicyChange where
  kdb : DbEntry
  adb : OsaPrincEnt
  opol : Option PolicyEnt
  npol : Option PolicyEnt

/-- The policy that a principal had is looked up; that it is not there is passed over. -/
def formerPolicy (adb : OsaPrincEnt) : DbCall (Option PolicyEnt) :=
  (kadm5GetPolicy adb.policy).attempt

/-- The part of `kadm5_modify_principal` for `KADM5_POLICY`. -/
def setPolicy (entry : PrincipalEntRec) (kdb : DbEntry) (adb : OsaPrincEnt) : DbCall PolicyChange := do
  let npol ← (kadm5GetPolicy entry.policy).mapError fun code =>
    match code with
    | .einval => .badPolicy
    | .unkPolicy | .badPolicy => .unkPolicy
    | code => code
  let adb' := { adb with
    auxAttributes := raise adb.auxAttributes maskPolicy, policy := entry.policy }
  let kdb' := { kdb with pwExpiration :=
    if npol.pwMaxLife ≠ 0 then dbeLookupLastPwdChange kdb + npol.pwMaxLife else 0 }
  if isSet adb.auxAttributes maskPolicy then
    let former ← deref adb.policy
    if some former ≠ entry.policy then
      let opol ← formerPolicy adb
      return ⟨kdb', adb', opol.map (counted · (-1)), some (counted npol 1)⟩
    else return ⟨kdb', adb', none, some npol⟩
  else return ⟨kdb', adb', none, some (counted npol 1)⟩

/-- The part of `kadm5_modify_principal` for `KADM5_POLICY_CLR`. -/
def clearPolicy (kdb : DbEntry) (adb : OsaPrincEnt) : DbCall PolicyChange :=
  if isSet adb.auxAttributes maskPolicy then do
    let opol ← (kadm5GetPolicy adb.policy).mapError fun _ => .badDb
    return ⟨{ kdb with pwExpiration := 0 },
      { adb with policy := none, auxAttributes := clear adb.auxAttributes maskPolicy },
      some (counted opol (-1)), none⟩
  else pure ⟨kdb, adb, none, none⟩

def changePolicy (entry : PrincipalEntRec) (mask : Mask) (kdb : DbEntry) (adb : OsaPrincEnt) :
    DbCall PolicyChange :=
  if isSet mask maskPolicy then setPolicy entry kdb adb
  else if isSet mask maskPolicyClr then clearPolicy kdb adb
  else pure ⟨kdb, adb, none, none⟩

def writeCounts (change : PolicyChange) : DbCall Unit := do
  writeCount change.opol
  writeCount change.npol

/-- The fields of the mask. The typed data are replaced as a whole, each element being put in
front of those before it. -/
def changedEntry (kdb : DbEntry) (entry : PrincipalEntRec) (mask : Mask) : DbEntry :=
  { kdb with
    attributes := requestOr mask maskAttributes entry.attributes kdb.attributes
    maxLife := requestOr mask maskMaxLife entry.maxLife kdb.maxLife
    expiration := requestOr mask maskPrincExpireTime entry.princExpireTime kdb.expiration
    pwExpiration := requestOr mask maskPwExpiration entry.pwExpiration kdb.pwExpiration
    maxRenewableLife := requestOr mask maskMaxRlife entry.maxRenewableLife kdb.maxRenewableLife
    failAuthCount := requestOr mask maskFailAuthCount entry.failAuthCount kdb.failAuthCount
    keyData := if isSet mask maskKvno then
        kdb.keyData.map fun key => { key with kvno := entry.kvno.toInt32.toInt16 }
      else kdb.keyData
    nTlData := requestOr mask maskTlData entry.nTlData kdb.nTlData
    tlData := requestOr mask maskTlData entry.tlData.reverse kdb.tlData }

/-- The checks of `kadm5_modify_principal`, and what becomes of the policy. -/
def requestedChange (entry : PrincipalEntRec) (mask : Mask) : DbCall PolicyChange := do
  .failIf (anySet mask modifyForbidden) .badMask
  .failIf (isSet mask (~~~allPrincMask)) .badMask
  .failIf (isSet mask maskPolicy && isSet mask maskPolicyClr) .badMask
  .failIf (isSet mask maskTlData && entry.tlData.any (·.type < 256)) .badTlType
  let principal ← deref entry.principal
  let (kdb, adb) ← kdbGetEntry handle principal
  changePolicy entry mask kdb adb

def kadm5ModifyPrincipal (entry : PrincipalEntRec) (mask : Mask) : DbCall Unit := do
  let change ← requestedChange handle entry mask
  writeCounts change
  kdbPutEntry handle io (changedEntry change.kdb entry mask) change.adb

/-- The loop over the versions of the keys: a negative one counts as a large one. -/
def highestKvno (keys : List KeyData) : UInt32 :=
  keys.foldl (fun kvno key => if key.kvno.toInt32.toUInt32 > kvno then key.kvno.toInt32.toUInt32
    else kvno) 0

def callersTlData (kdb : DbEntry) : List TlData := (kdb.tlData.filter (·.type > 255)).reverse

def ifSet {α : Type} (mask bit : Mask) (value zero : α) : α := if isSet mask bit then value else zero

/-- Who modified the entry and when is found in one place, for either of the two bits. -/
def modifiedFor (kdb : DbEntry) (mask : Mask) : Except Code (Option (Timestamp × Principal)) :=
  if isSet mask maskModName || isSet mask maskModTime then
    ((dbeLookupModPrincData handle.defaultRealm kdb).mapError .kdb).map some
  else .ok none

/-- The fields of the answer. Where the name of who modified the entry is not asked for but
the time is, it is the principal that is taken out of the answer. -/
def answer (principal : Principal) (kdb : DbEntry) (adb : OsaPrincEnt)
    (modified : Option (Timestamp × Principal)) (mask : Mask) : PrincipalEntRec where
  principal := if modified.isSome && !isSet mask maskModName then none
    else ifSet mask maskPrincipal (some principal) none
  princExpireTime := ifSet mask maskPrincExpireTime kdb.expiration 0
  lastPwdChange := ifSet mask maskLastPwdChange (dbeLookupLastPwdChange kdb) 0
  pwExpiration := ifSet mask maskPwExpiration kdb.pwExpiration 0
  maxLife := ifSet mask maskMaxLife kdb.maxLife 0
  modName := modified.map Prod.snd
  modDate := ifSet mask maskModTime ((modified.map Prod.fst).getD 0) 0
  attributes := ifSet mask maskAttributes kdb.attributes 0
  kvno := ifSet mask maskKvno (highestKvno kdb.keyData) 0
  policy := if isSet mask maskPolicy && isSet adb.auxAttributes maskPolicy then adb.policy else none
  auxAttributes := ifSet mask maskAuxAttributes adb.auxAttributes 0
  maxRenewableLife := ifSet mask maskMaxRlife kdb.maxRenewableLife 0
  lastSuccess := ifSet mask maskLastSuccess kdb.lastSuccess 0
  lastFailed := ifSet mask maskLastFailed kdb.lastFailed 0
  failAuthCount := ifSet mask maskFailAuthCount kdb.failAuthCount 0
  nTlData := ifSet mask maskTlData (.ofNat (callersTlData kdb).length) 0
  tlData := ifSet mask maskTlData (callersTlData kdb) []
  keyData := ifSet mask maskKeyData kdb.keyData []

def kadm5GetPrincipal (principal : Option Principal) (mask : Mask) : DbCall PrincipalEntRec := do
  match principal with
  | none => .fail .einval
  | some principal =>
    let (kdb, adb) ← kdbGetEntry handle principal
    let modified ← .ofExcept (modifiedFor handle kdb mask)
    return answer principal kdb adb modified mask

end Krb5.Kadm5
