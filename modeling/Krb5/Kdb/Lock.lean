import Krb5.Basic
import Krb5.Lib.Action
import Krb5.Lib.Runs

/-!
# Database locks (`kdb_db2.c`)

With the first lock a process locks the file for that and opens the database, and a lock
for writing on top of one for reading does both again. An open that fails ends in an
unlock that finds nothing to unlock, since the count was set to zero before.
-/

namespace Krb5.Kdb

open Lib List

inductive LockCode
  | dbNotInited
  | badLockMode
  | cantLockDb
  | notLocked
  | errno (code : Int32)
deriving DecidableEq, Repr

def lockmodeShared : Int32 := 1
def lockmodeExclusive : Int32 := 2

def EBADF : Int32 := 9

/-- `krb5_db2_context`, with the mode in which the process has locked the file, zero
for none. Of the database handle the flags of its opening matter. -/
structure Db2Context where
  dbInited : Bool
  db : Option Int32
  dbLfTime : Int32
  dbLockMode : Int32
  dbLocksHeld : Int32
  fileLock : Int32
deriving DecidableEq, Repr

/-- What the system answers: `krb5_lock_file`, the time of the file, or -1, and the error
of `dbopen`. -/
structure LockSystem where
  lockFile : Option Int32
  fstat : Int32
  dbopen : Option Int32
deriving DecidableEq, Repr

def oRdonly : Int32 := 0
def oRdwr : Int32 := 2

/-- `krb5_lock_file`, where zero unlocks. -/
def lockFile (sys : LockSystem) (mode : Int32) : Action Db2Context LockCode Unit :=
  match sys.lockFile with
  | some code => .fail (.errno code)
  | none => .modify fun s => { s with fileLock := mode }

def krb5Db2DbUnlock (sys : LockSystem) : Action Db2Context LockCode Unit := do
  let s ← .get
  if !s.dbInited then .fail .dbNotInited
  else if s.dbLocksHeld = 0 then .fail .notLocked
  else if s.dbLocksHeld = 1 then
    .modify fun s => { s with dbLocksHeld := 0, db := none }
    (lockFile sys 0).always fun s => { s with dbLockMode := 0 }
  else .modify fun s => { s with dbLocksHeld := s.dbLocksHeld - 1 }

/-- The part of `krb5_db2_db_lock` behind the lock on the file. -/
def openLocked (sys : LockSystem) (mode : Int32) : Action Db2Context LockCode Unit :=
  match sys.dbopen with
  | none =>
    .modify fun s =>
      { s with
        dbLfTime := sys.fstat
        db := some (if mode = lockmodeShared then oRdonly else oRdwr)
        dbLockMode := mode
        dbLocksHeld := s.dbLocksHeld + 1 }
  | some code => do
      .modify fun s => { s with db := none, dbLockMode := 0, dbLocksHeld := 0 }
      let _ ← (krb5Db2DbUnlock sys).attempt
      .fail (.errno code)

def krb5Db2DbLock (sys : LockSystem) (mode : Int32) : Action Db2Context LockCode Unit := do
  let s ← .get
  if !s.dbInited then .fail .dbNotInited
  else if s.dbLocksHeld ≠ 0 ∧ s.dbLockMode ≥ mode then
    .modify fun s => { s with dbLocksHeld := s.dbLocksHeld + 1 }
  else if mode ≠ lockmodeShared ∧ mode ≠ lockmodeExclusive then .fail .badLockMode
  else
    (lockFile sys mode).mapError fun code =>
      if code = .errno EBADF ∧ mode = lockmodeExclusive then .cantLockDb else code
    openLocked sys mode

/-! ## Runs -/

/-- A call and what the system answers to it. -/
inductive LockCall
  | lock (sys : LockSystem) (mode : Int32)
  | unlock (sys : LockSystem)
deriving DecidableEq, Repr

def LockCall.action : LockCall → Action Db2Context LockCode Unit
  | .lock sys mode => krb5Db2DbLock sys mode
  | .unlock sys => krb5Db2DbUnlock sys

structure LockEvent where
  call : LockCall
  before : Db2Context

def LockEvent.Step (s : Db2Context) (e : LockEvent) (s' : Db2Context) : Prop :=
  e.before = s ∧ s' = (e.call.action.run s).2

/-- The file is locked and the database open where a lock is counted, and the lock is
as strong as the mode says. -/
structure Db2Context.Sound (s : Db2Context) : Prop where
  counted : 0 ≤ s.dbLocksHeld
  locked : s.fileLock ≠ 0 ↔ 0 < s.dbLocksHeld
  opened : s.db.isSome = true ↔ 0 < s.dbLocksHeld
  strong : s.dbLockMode ≤ s.fileLock

/-- The call leaves a sound state, and the same as before if it fails. -/
def LockEvent.Keeps (e : LockEvent) : Prop :=
  wp e.call.action (fun r s => s.Sound ∧ (r ≠ .ok () → s = e.before)) e.before

section Locks

variable {s : Db2Context} {sys : LockSystem} {mode n : Int32}

end Locks

end Krb5.Kdb
