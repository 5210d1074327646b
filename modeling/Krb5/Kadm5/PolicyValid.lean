import Krb5.Kadm5.Policy
import Krb5.Lib.Runs

/-!
# Validity of the stored policies

What a creation or a modification puts into the database is valid as far as the checks go. What they
leave out is in `PolicyCall.Orderly`.
-/

namespace Krb5.Kadm5

open Lib Silent AList

def InOrder (minLife maxLife : UInt32) : Prop := maxLife = 0 ∨ minLife ≤ maxLife

instance (minLife maxLife : UInt32) : Decidable (InOrder minLife maxLife) :=
  inferInstanceAs (Decidable (_ ∨ _))

structure ValidCounts (p : OsaPolicyEnt) : Prop where
  length : 1 ≤ p.pwMinLength
  classes : 1 ≤ p.pwMinClasses ∧ p.pwMinClasses ≤ 5
  history : 1 ≤ p.pwHistoryNum ∧ p.pwHistoryNum ≤ 10

/-- What a stored policy is meant to satisfy. -/
structure ValidPolicy (p : OsaPolicyEnt) : Prop extends ValidCounts p where
  lives : InOrder p.pwMinLife p.pwMaxLife

theorem toNat_toUInt32 (x : Int32) :
    (x.toUInt32.toNat : Int) = if x.toInt < 0 then x.toInt + 2 ^ 32 else x.toInt := by
  have hnat : x.toUInt32.toNat = x.toBitVec.toNat := rfl
  have hint : x.toInt = x.toBitVec.toInt := rfl
  rw [hint, BitVec.toInt_eq_toNat_cond]
  split <;> split <;> omega

theorem toUInt32_le_iff {x y : Int32} (h : 0 ≤ x ∨ y < 0) : x.toUInt32 ≤ y.toUInt32 ↔
    (x ≤ y ∨ y < 0 ∧ 0 ≤ x) := by
  have hx := toNat_toUInt32 x
  have hy := toNat_toUInt32 y
  have hx' := x.toInt_lt
  have hy' := y.le_toInt
  have hzero : (0 : Int32).toInt = 0 := rfl
  simp only [Int32.le_iff_toInt_le, Int32.lt_iff_toInt_lt, UInt32.le_iff_toNat_le] at h ⊢
  split at hx <;> split at hy <;> omega

theorem toUInt32_le {x y : Int32} (hx : 0 ≤ x) (hxy : x ≤ y) : x.toUInt32 ≤ y.toUInt32 :=
  (toUInt32_le_iff (.inl hx)).mpr (.inl hxy)

/-! ## What the calls do -/

variable {entry : PolicyEnt} {mask : Mask} {db db' : Db}

section Calls

theorem silent_checkField (bit : Mask) (bad : Bool) (code : Code) :
    Silent (checkField mask bit bad code) := failIf _ _

theorem run_checkField {bit : Mask} {bad : Bool} {code : Code}
    (h : (checkField mask bit bad code).run db = (.ok (), db')) :
    isSet mask bit → bad = false := by
  intro hbit
  rw [checkField, hbit] at h
  cases bad with
  | false => rfl
  | true => cases h

structure AcceptedCounts (entry : PolicyEnt) (mask : Mask) : Prop where
  length : isSet mask maskPwMinLength = true → 1 ≤ entry.pwMinLength
  classes : isSet mask maskPwMinClasses = true → 1 ≤ entry.pwMinClasses ∧ entry.pwMinClasses ≤ 5
  history : isSet mask maskPwHistoryNum = true → 1 ≤ entry.pwHistoryNum ∧ entry.pwHistoryNum ≤ 10

theorem silent_checkCounts : Silent (checkCounts entry mask) :=
  (silent_checkField _ _ _).bind fun _ => (silent_checkField _ _ _).bind fun _ =>
    silent_checkField _ _ _

theorem acceptedCounts_of_run (h : (checkCounts entry mask).run db = (.ok (), db')) :
    AcceptedCounts entry mask := by
  obtain ⟨_, hlen, h⟩ := (run_silent_bind_eq_ok (silent_checkField _ _ _)).mp h
  obtain ⟨_, hclasses, h⟩ := (run_silent_bind_eq_ok (silent_checkField _ _ _)).mp h
  refine ⟨fun hbit => ?_, fun hbit => ?_, fun hbit => ?_⟩
  · have := run_checkField hlen hbit
    rwa [decide_eq_false_iff_not, Int32.not_lt] at this
  · have := run_checkField hclasses hbit
    rw [Bool.or_eq_false_iff, decide_eq_false_iff_not, decide_eq_false_iff_not, Int32.not_lt,
      Int32.not_lt] at this
    exact this.symm
  · have := run_checkField h hbit
    rwa [Bool.or_eq_false_iff, decide_eq_false_iff_not, decide_eq_false_iff_not, Int32.not_lt,
      Int32.not_lt] at this

theorem careful_createPolicyInternal (entry : PolicyEnt) (mask : Mask) :
    Careful (kadm5CreatePolicyInternal entry mask) := by
  rw [kadm5CreatePolicyInternal]
  cases entry.policy with
  | none => exact (fail _).careful
  | some name =>
    refine .failIf_bind _ _ (.failIf_bind _ _ (.failIf_bind _ _ ?_))
    refine (silent_checkField _ _ _).bind_careful fun _ => silent_checkCounts.bind_careful fun _ => ?_
    exact .get_bind fun _ => .failIf_bind _ _ (.modify _)

theorem careful_modifyPolicyInternal (entry : PolicyEnt) (mask : Mask) :
    Careful (kadm5ModifyPolicyInternal entry mask) := by
  rw [kadm5ModifyPolicyInternal]
  cases entry.policy with
  | none => exact (fail _).careful
  | some name =>
    refine .failIf_bind _ _ (.failIf_bind _ _ (.get_bind fun db => ?_))
    cases db.policies.lookup name with
    | none => exact (fail _).careful
    | some p =>
      exact (silent_checkField _ _ _).bind_careful fun _ =>
        silent_checkCounts.bind_careful fun _ => .modify _

/-- What a successful call has checked and stored. -/
theorem createPolicyInternal_ok
    (h : (kadm5CreatePolicyInternal entry mask).run db = (.ok (), db')) :
    ∃ name, entry.policy = some name ∧ name.text ≠ [] ∧ db.policies.lookup name = none ∧
      (isSet mask maskPwMinLife → isSet mask maskPwMaxLife →
        entry.pwMinLife ≤ entry.pwMaxLife ∨ entry.pwMaxLife = 0) ∧ AcceptedCounts entry mask ∧
      db' = { db with policies := db.policies.insert name (newPolicy entry mask) } := by
  rw [kadm5CreatePolicyInternal] at h
  split at h
  · cases h
  rename_i name hname
  obtain ⟨hempty, h⟩ := run_failIf_bind_eq_ok.mp h
  obtain ⟨-, h⟩ := run_failIf_bind_eq_ok.mp h
  obtain ⟨-, h⟩ := run_failIf_bind_eq_ok.mp h
  obtain ⟨_, hlives, h⟩ := (run_silent_bind_eq_ok (silent_checkField _ _ _)).mp h
  obtain ⟨_, hcounts, h⟩ := (run_silent_bind_eq_ok silent_checkCounts).mp h
  rw [adbCreatePolicy, run_get_bind, run_failIf_bind_eq_ok] at h
  refine ⟨name, hname, by simpa using hempty, Option.not_isSome_iff_eq_none.mp (by simp [h.1]), ?_,
    acceptedCounts_of_run hcounts, (Prod.mk.inj h.2).2.symm⟩
  intro hmin hmax
  have := run_checkField hlives hmin
  rw [hmax, Bool.true_and, Bool.and_eq_false_iff] at this
  simpa using this

/-- What a successful call has checked and stored. -/
theorem modifyPolicyInternal_ok
    (h : (kadm5ModifyPolicyInternal entry mask).run db = (.ok (), db')) :
    ∃ name p, entry.policy = some name ∧ db.policies.lookup name = some p ∧
      (isSet mask maskPwMinLife →
        InOrder entry.pwMinLife.toUInt32 (changedPolicy p entry mask).pwMaxLife) ∧
      AcceptedCounts entry mask ∧
      db' = { db with policies := db.policies.insert name (changedPolicy p entry mask) } := by
  rw [kadm5ModifyPolicyInternal] at h
  split at h
  · cases h
  rename_i name hname
  obtain ⟨-, h⟩ := run_failIf_bind_eq_ok.mp h
  obtain ⟨-, h⟩ := run_failIf_bind_eq_ok.mp h
  rw [run_get_bind] at h
  dsimp only at h
  split at h
  · cases h
  rename_i p hp
  obtain ⟨_, hlives, h⟩ := (run_silent_bind_eq_ok (silent_checkField _ _ _)).mp h
  obtain ⟨_, hcounts, h⟩ := (run_silent_bind_eq_ok silent_checkCounts).mp h
  refine ⟨name, p, hname, hp, ?_, acceptedCounts_of_run hcounts, (Prod.mk.inj h).2.symm⟩
  intro hmin
  have := run_checkField hlives hmin
  rw [Bool.and_eq_false_iff] at this
  rw [InOrder, or_comm]
  simpa using this

end Calls

section Fields

variable {bit : Mask} {value : Int32} {old : UInt32}

theorem le_fieldOr {lo : Int32} (hlo : 0 ≤ lo) (hval : isSet mask bit → lo ≤ value)
    (hold : lo.toUInt32 ≤ old) : lo.toUInt32 ≤ fieldOr mask bit value old := by
  rw [fieldOr]
  split
  · exact toUInt32_le hlo (hval ‹_›)
  · exact hold

theorem fieldOr_le {hi : Int32} (hval : isSet mask bit → 0 ≤ value ∧ value ≤ hi)
    (hold : old ≤ hi.toUInt32) : fieldOr mask bit value old ≤ hi.toUInt32 := by
  rw [fieldOr]
  split
  · exact toUInt32_le (hval ‹_›).1 (hval ‹_›).2
  · exact hold

end Fields

def defaultPolicy : OsaPolicyEnt := ⟨0, 0, 1, 1, 1, 0⟩

theorem newPolicy_eq (entry : PolicyEnt) (mask : Mask) :
    newPolicy entry mask = changedPolicy defaultPolicy entry mask := rfl

theorem validPolicy_defaultPolicy : ValidPolicy defaultPolicy :=
  ⟨⟨by decide, by decide, by decide⟩, by decide⟩

section Valid

variable {p : OsaPolicyEnt}

theorem validCounts_changedPolicy (hp : ValidCounts p) (h : AcceptedCounts entry mask) :
    ValidCounts (changedPolicy p entry mask) := by
  have hone : (0 : Int32) ≤ 1 := by decide
  refine ⟨le_fieldOr hone h.length hp.length, ⟨?_, ?_⟩, ⟨?_, ?_⟩⟩
  · exact le_fieldOr hone (fun hbit => (h.classes hbit).1) hp.classes.1
  · exact fieldOr_le (fun hbit => ⟨Int32.le_trans hone (h.classes hbit).1, (h.classes hbit).2⟩)
      hp.classes.2
  · exact le_fieldOr hone (fun hbit => (h.history hbit).1) hp.history.1
  · exact fieldOr_le (fun hbit => ⟨Int32.le_trans hone (h.history hbit).1, (h.history hbit).2⟩)
      hp.history.2

def ValidDb (db : Db) : Prop := ∀ name p, db.policies.lookup name = some p → ValidPolicy p

theorem validDb_insert (hdb : ValidDb db) (name : CString) :
    ValidDb { db with policies := db.policies.insert name p } ↔ ValidPolicy p := by
  constructor
  · intro h
    exact h name p (lookup_insert _)
  intro hp name' p' hlook
  by_cases hname : name' = name
  · subst hname
    rw [lookup_insert] at hlook
    cases hlook
    exact hp
  · rw [lookup_insert_ne hname] at hlook
    exact hdb name' p' hlook

theorem validPolicy_changedPolicy (hp : ValidCounts p) (h : AcceptedCounts entry mask) :
    ValidPolicy (changedPolicy p entry mask) ↔
      InOrder (changedPolicy p entry mask).pwMinLife (changedPolicy p entry mask).pwMaxLife :=
  ⟨fun hvalid => hvalid.lives, fun hlives => ⟨validCounts_changedPolicy hp h, hlives⟩⟩

end Valid

/-! ## Sequences of calls -/

inductive PolicyCall
  | create (entry : PolicyEnt) (mask : Mask)
  | modify (entry : PolicyEnt) (mask : Mask)
deriving DecidableEq

def PolicyCall.run : PolicyCall → DbCall Unit
  | create entry mask => kadm5CreatePolicy entry mask
  | modify entry mask => kadm5ModifyPolicy entry mask

/-- What the code does not check: on creation that a minimum life in front of a maximum is
not negative, on a modification that a new maximum is not below the minimum that stays. -/
def PolicyCall.Orderly (db : Db) : PolicyCall → Prop
  | create entry mask => isSet mask maskPwMinLife = true → isSet mask maskPwMaxLife = true →
      0 ≤ entry.pwMinLife ∨ entry.pwMaxLife ≤ 0
  | modify entry mask => isSet mask maskPwMaxLife = true → isSet mask maskPwMinLife = false →
      ∀ name p, entry.policy = some name → db.policies.lookup name = some p →
        InOrder p.pwMinLife entry.pwMaxLife.toUInt32

section Sequences

variable {call : PolicyCall}

theorem careful_policyCall (call : PolicyCall) : Careful call.run := by
  cases call with
  | create entry mask => exact .failIf_bind _ _ (careful_createPolicyInternal entry mask)
  | modify entry mask => exact .failIf_bind _ _ (careful_modifyPolicyInternal entry mask)

/-- The lives are compared only if the mask has both. -/
theorem inOrder_created (hlives : isSet mask maskPwMinLife → isSet mask maskPwMaxLife →
      entry.pwMinLife ≤ entry.pwMaxLife ∨ entry.pwMaxLife = 0) :
    InOrder (newPolicy entry mask).pwMinLife (newPolicy entry mask).pwMaxLife ↔
      (PolicyCall.create entry mask).Orderly db := by
  show InOrder (fieldOr mask maskPwMinLife entry.pwMinLife 0)
    (fieldOr mask maskPwMaxLife entry.pwMaxLife 0) ↔ _
  cases hmax : isSet mask maskPwMaxLife with
  | false => simp [fieldOr, InOrder, PolicyCall.Orderly, hmax]
  | true =>
    cases hmin : isSet mask maskPwMinLife with
    | false => simp [fieldOr, InOrder, PolicyCall.Orderly, hmin]
    | true =>
      simp only [fieldOr, InOrder, PolicyCall.Orderly, hmin, hmax, if_true, forall_const]
      have hmin' := toNat_toUInt32 entry.pwMinLife
      have hmax' := toNat_toUInt32 entry.pwMaxLife
      have hzero : (0 : Int32).toInt = 0 := rfl
      have hsigned := hlives hmin hmax
      have hle := entry.pwMinLife.le_toInt
      have hlt := entry.pwMaxLife.toInt_lt
      rw [← Int32.toInt_inj] at hsigned
      rw [← UInt32.toNat_inj]
      simp only [Int32.le_iff_toInt_le, UInt32.le_iff_toNat_le, UInt32.toNat_zero] at hsigned ⊢
      split at hmin' <;> split at hmax' <;> omega

/-- A maximum that is set alone is not compared with the minimum. -/
theorem inOrder_modified {name : CString} {p : OsaPolicyEnt} (hname : entry.policy = some name)
    (hp : db.policies.lookup name = some p) (hvalid : ValidPolicy p)
    (hlives : isSet mask maskPwMinLife →
      InOrder entry.pwMinLife.toUInt32 (changedPolicy p entry mask).pwMaxLife) :
    InOrder (changedPolicy p entry mask).pwMinLife (changedPolicy p entry mask).pwMaxLife ↔
      (PolicyCall.modify entry mask).Orderly db := by
  have hmin_eq : (changedPolicy p entry mask).pwMinLife =
      fieldOr mask maskPwMinLife entry.pwMinLife p.pwMinLife := rfl
  have hmax_eq : (changedPolicy p entry mask).pwMaxLife =
      fieldOr mask maskPwMaxLife entry.pwMaxLife p.pwMaxLife := rfl
  cases hmin : isSet mask maskPwMinLife with
  | true =>
    refine iff_of_true ?_ (fun _ hfalse => absurd (hmin.symm.trans hfalse) (by decide))
    rw [hmin_eq, fieldOr, if_pos hmin]
    exact hlives hmin
  | false =>
    rw [hmin_eq, hmax_eq, fieldOr, fieldOr, hmin]
    cases hmax : isSet mask maskPwMaxLife with
    | false => exact iff_of_true hvalid.lives fun htrue => absurd (hmax.symm.trans htrue) (by decide)
    | true =>
      refine ⟨fun h _ _ name' p' hname' hp' => ?_, fun h => h hmax hmin name p hname hp⟩
      cases hname.symm.trans hname'
      cases hp.symm.trans hp'
      exact h

theorem validDb_call_iff (hdb : ValidDb db) (h : call.run.run db = (.ok (), db')) :
    ValidDb db' ↔ call.Orderly db := by
  cases call with
  | create entry mask =>
    obtain ⟨-, h⟩ := run_failIf_bind_eq_ok.mp h
    obtain ⟨name, -, -, -, hlives, hcounts, rfl⟩ := createPolicyInternal_ok h
    rw [validDb_insert hdb, newPolicy_eq, validPolicy_changedPolicy
      validPolicy_defaultPolicy.toValidCounts hcounts]
    exact inOrder_created hlives
  | modify entry mask =>
    obtain ⟨-, h⟩ := run_failIf_bind_eq_ok.mp h
    obtain ⟨name, p, hname, hp, hlives, hcounts, rfl⟩ := modifyPolicyInternal_ok h
    have hvalid := hdb name p hp
    rw [validDb_insert hdb, validPolicy_changedPolicy hvalid.toValidCounts hcounts]
    exact inOrder_modified hname hp hvalid hlives

def PolicyStep (db : Db) (call : PolicyCall) (db' : Db) : Prop := (call.run.run db).2 = db'

def OrderlyStep (db : Db) (call : PolicyCall) (db' : Db) : Prop :=
  PolicyStep db call db' ∧ call.Orderly db

theorem validDb_step (hdb : ValidDb db) (h : OrderlyStep db call db') : ValidDb db' := by
  obtain ⟨hstep, horderly⟩ := h
  rcases hrun : call.run.run db with ⟨e | u, t⟩
  · rw [PolicyStep, hrun] at hstep
    cases hstep
    rw [careful_policyCall call hrun]
    exact hdb
  · rw [PolicyStep, hrun] at hstep
    cases hstep
    exact (validDb_call_iff hdb hrun).mpr horderly

/-- The stored policies stay valid over every sequence of calls that are in order, and a call
that succeeds and is not in order makes one of them invalid. -/
theorem stored_policies_valid {db₀ : Db} (hdb₀ : ValidDb db₀) :
    (∀ calls db, Run OrderlyStep db₀ calls db → ValidDb db) ∧
      ∀ calls db (call : PolicyCall) db', Run OrderlyStep db₀ calls db → call.run.run db = (.ok (), db') →
        (ValidDb db' ↔ call.Orderly db) := by
  have hvalid : ∀ calls db, Run OrderlyStep db₀ calls db → ValidDb db := fun calls db hrun =>
    hrun.history (fun _ db => ValidDb db) hdb₀ fun _ _ _ _ hdb hstep => validDb_step hdb hstep
  exact ⟨hvalid, fun calls db call db' hrun hcall => validDb_call_iff (hvalid calls db hrun) hcall⟩

end Sequences

theorem validDb_empty : ValidDb Db.empty := by
  intro name p h
  cases h

def lives (minLife maxLife : Int32) : PolicyEnt :=
  ⟨some (.ofAscii "p"), minLife, maxLife, 0, 0, 0, 0⟩

/-- A policy with both lives, and one with a higher maximum in its place. -/
theorem stored_policies_valid_raised : ∃ db, Run OrderlyStep Db.empty
    [.create (lives 100 200) (maskPolicy ||| maskPwMinLife ||| maskPwMaxLife),
      .modify (lives 0 300) maskPwMaxLife] db ∧ ValidDb db := by
  obtain ⟨db, hrun⟩ : ∃ db, Run OrderlyStep Db.empty
      [.create (lives 100 200) (maskPolicy ||| maskPwMinLife ||| maskPwMaxLife),
        .modify (lives 0 300) maskPwMaxLife] db := by
    refine ⟨_, (Run.nil.snoc ⟨rfl, fun _ _ => .inl (by decide)⟩).snoc
      ⟨rfl, fun _ _ name p hname hp => ?_⟩⟩
    cases hname
    cases hp
    decide
  exact ⟨db, hrun, (stored_policies_valid validDb_empty).1 _ _ hrun⟩

/-- A maximum below the minimum that is stored, and a negative minimum on creation. -/
theorem stored_policies_invalid :
    (∃ db db', (PolicyCall.create (lives 100 0) (maskPolicy ||| maskPwMinLife)).run.run Db.empty =
        (.ok (), db) ∧
      (PolicyCall.modify (lives 0 50) maskPwMaxLife).run.run db = (.ok (), db') ∧ ¬ValidDb db') ∧
    ∃ db, (PolicyCall.create (lives (-1) 5)
      (maskPolicy ||| maskPwMinLife ||| maskPwMaxLife)).run.run Db.empty = (.ok (), db) ∧
      ¬ValidDb db := by
  refine ⟨⟨_, _, rfl, rfl, fun h => ?_⟩, ⟨_, rfl, fun h => ?_⟩⟩
  · exact absurd (h (.ofAscii "p") ⟨100, 50, 1, 1, 1, 0⟩ rfl).lives (by decide)
  · exact absurd (h (.ofAscii "p") ⟨0xffffffff, 5, 1, 1, 1, 0⟩ rfl).lives (by decide)

end Krb5.Kadm5
