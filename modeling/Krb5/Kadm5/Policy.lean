import Krb5.Kadm5.Server

/-!
# Password policies (`svr_policy.c`)

A field of a policy is checked when its bit is in the mask: on creation against the other
fields of the request, on a modification against those of the stored policy as far as they
have been changed by then. Fields that are not in the mask get defaults on creation and stay
as they are on a modification.
-/

namespace Krb5.Kadm5

open Lib

def minPwLength : Int32 := 1
def minPwClasses : Int32 := 1
def maxPwClasses : Int32 := 5
def minPwHistory : Int32 := 1
def maxPwHistory : Int32 := 10

def policyChar (c : UInt8) : Bool := 0x20 ≤ c && c ≤ 0x7e

def fieldOr (mask bit : Mask) (value : Int32) (default : UInt32) : UInt32 :=
  if isSet mask bit then value.toUInt32 else default

def checkField (mask bit : Mask) (bad : Bool) (code : Code) : DbCall Unit :=
  .failIf (isSet mask bit && bad) code

/-- The checks of the fields that creation and modification have in common. -/
def checkCounts (entry : PolicyEnt) (mask : Mask) : DbCall Unit := do
  checkField mask maskPwMinLength (entry.pwMinLength < minPwLength) .badLength
  checkField mask maskPwMinClasses
    (entry.pwMinClasses > maxPwClasses || entry.pwMinClasses < minPwClasses) .badClass
  checkField mask maskPwHistoryNum
    (entry.pwHistoryNum < minPwHistory || entry.pwHistoryNum > maxPwHistory) .badHistory

/-- The policy that `kadm5_create_policy_internal` makes of a request. -/
def newPolicy (entry : PolicyEnt) (mask : Mask) : OsaPolicyEnt where
  pwMaxLife := fieldOr mask maskPwMaxLife entry.pwMaxLife 0
  pwMinLife := fieldOr mask maskPwMinLife entry.pwMinLife 0
  pwMinLength := fieldOr mask maskPwMinLength entry.pwMinLength minPwLength.toUInt32
  pwMinClasses := fieldOr mask maskPwMinClasses entry.pwMinClasses minPwClasses.toUInt32
  pwHistoryNum := fieldOr mask maskPwHistoryNum entry.pwHistoryNum minPwHistory.toUInt32
  policyRefcnt := fieldOr mask maskRefCount entry.policyRefcnt 0

def adbCreatePolicy (name : CString) (pent : OsaPolicyEnt) : DbCall Unit := do
  let db ← .get
  .failIf (db.policies.lookup name).isSome .adbDup
  .modify fun db => { db with policies := db.policies.insert name pent }

/-- `kadm5_create_policy_internal`. The lives are compared as they are passed, with their
signs. -/
def kadm5CreatePolicyInternal (entry : PolicyEnt) (mask : Mask) : DbCall Unit := do
  match entry.policy with
  | none => .fail .einval
  | some name =>
    .failIf name.text.isEmpty .badPolicy
    .failIf (!isSet mask maskPolicy) .badMask
    .failIf (!name.text.all policyChar) .badPolicy
    checkField mask maskPwMinLife (isSet mask maskPwMaxLife &&
      (entry.pwMinLife > entry.pwMaxLife && entry.pwMaxLife != 0)) .badMinPassLife
    checkCounts entry mask
    adbCreatePolicy name (newPolicy entry mask)

def kadm5CreatePolicy (entry : PolicyEnt) (mask : Mask) : DbCall Unit := do
  .failIf (isSet mask maskRefCount) .badMask
  kadm5CreatePolicyInternal entry mask

def changedPolicy (p : OsaPolicyEnt) (entry : PolicyEnt) (mask : Mask) : OsaPolicyEnt where
  pwMaxLife := fieldOr mask maskPwMaxLife entry.pwMaxLife p.pwMaxLife
  pwMinLife := fieldOr mask maskPwMinLife entry.pwMinLife p.pwMinLife
  pwMinLength := fieldOr mask maskPwMinLength entry.pwMinLength p.pwMinLength
  pwMinClasses := fieldOr mask maskPwMinClasses entry.pwMinClasses p.pwMinClasses
  pwHistoryNum := fieldOr mask maskPwHistoryNum entry.pwHistoryNum p.pwHistoryNum
  policyRefcnt := fieldOr mask maskRefCount entry.policyRefcnt p.policyRefcnt

/-- `kadm5_modify_policy_internal`. The minimum life is compared with the new maximum, both
without signs; a new maximum is not compared with the old minimum. -/
def kadm5ModifyPolicyInternal (entry : PolicyEnt) (mask : Mask) : DbCall Unit := do
  match entry.policy with
  | none => .fail .einval
  | some name =>
    .failIf name.text.isEmpty .badPolicy
    .failIf (isSet mask maskPolicy) .badMask
    let db ← .get
    match db.policies.lookup name with
    | none => .fail .unkPolicy
    | some p =>
      let changed := changedPolicy p entry mask
      checkField mask maskPwMinLife
        (entry.pwMinLife.toUInt32 > changed.pwMaxLife && changed.pwMaxLife != 0) .badMinPassLife
      checkCounts entry mask
      .modify fun db => { db with policies := db.policies.insert name changed }

def kadm5ModifyPolicy (entry : PolicyEnt) (mask : Mask) : DbCall Unit := do
  .failIf (isSet mask maskRefCount) .badMask
  kadm5ModifyPolicyInternal entry mask

def kadm5DeletePolicy (name : Option CString) : DbCall Unit := do
  match name with
  | none => .fail .einval
  | some name =>
    .failIf name.text.isEmpty .badPolicy
    let db ← .get
    match db.policies.lookup name with
    | none => .fail .adbNoent
    | some entry =>
      .failIf (entry.policyRefcnt != 0) .policyRef
      .modify fun db => { db with policies := db.policies.erase name }

end Krb5.Kadm5
