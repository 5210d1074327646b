import Krb5.Kadm5.ServerFacts

/-!
# What the checks of a creation and of a modification let through

Both calls read and check first and write afterwards. The first part leaves the databases
alone, and the statements here say what is known when it has been passed.
-/

namespace Krb5.Kadm5

open Lib Kdb Silent Name

variable {handle : Handle} {io : Io} {db db' : Db} {entry : PrincipalEntRec} {mask : Mask}

variable {α : Type} {polent : Option PolicyEnt} {ksTuple : List KeySaltTuple}
  {principal : Principal} {bit : Mask} {word : CString}

theorem silent_deref (a : Option α) : Silent (deref a) := by
  cases a with
  | none => exact fail _
  | some a => exact pure _

theorem run_deref_bind_eq_ok {β : Type} {x : Option α} {f : α → DbCall β} {b : β} :
    (deref x >>= f).run db = (.ok b, db') ↔ ∃ a, x = some a ∧ (f a).run db = (.ok b, db') := by
  cases x with
  | none => exact ⟨fun h => (nomatch h), fun ⟨_, h, _⟩ => (nomatch h)⟩
  | some a =>
    refine ⟨fun h => ⟨a, rfl, h⟩, fun ⟨a', ha, h⟩ => ?_⟩
    cases ha
    exact h

/-! ## Creation -/

theorem silent_requestedPolicy : Silent (requestedPolicy entry mask) := by
  rw [requestedPolicy]
  split
  · exact ((silent_getPolicy _).mapError _).bind fun _ => pure _
  · exact pure _

theorem requestedPolicy_ok (h : (requestedPolicy entry mask).run db = (.ok polent, db')) :
    if isSet mask maskPolicy then ∃ n t, entry.policy = some n ∧ n.text ≠ [] ∧
      db.policies.lookup n = some t ∧ polent = some (t.ent n) else polent = none := by
  rw [requestedPolicy] at h
  split at h
  · rename_i hmask
    rw [if_pos hmask]
    obtain ⟨pol, hpol, h⟩ := (run_silent_bind_eq_ok ((silent_getPolicy _).mapError _)).mp h
    obtain ⟨-, n, t, hn, hne, ht, rfl⟩ := getPolicy_ok.mp (run_mapError_eq_ok.mp hpol)
    cases h
    exact ⟨n, t, hn, hne, ht, rfl⟩
  · rename_i hmask
    rw [if_neg hmask]
    cases h
    rfl

theorem kdbGetEntry_unkPrinc (h : (kdbGetEntry handle principal).run db = (.error .unkPrinc, db')) :
    ∃ key, encodePrincDbkey principal = .ok key ∧ db.princs.lookup key = none := by
  cases hkey : encodePrincDbkey principal with
  | error code =>
    rw [kdbGetEntry, dbGetPrincipal, hkey] at h
    cases h
  | ok key =>
    refine ⟨key, rfl, ?_⟩
    cases hlook : db.princs.lookup key with
    | none => rfl
    | some e =>
      have hget : (dbGetPrincipal handle principal).run db =
          ((parseName handle.defaultRealm key).mapError (fun code => .kdb (.name code)) >>=
            fun princ => .ok { e with princ }, db) := by
        rw [dbGetPrincipal, hkey]
        refine (bind_of_ok rfl).trans ((run_get_bind _).trans ?_)
        rw [hlook]
        cases parseName handle.defaultRealm key <;> rfl
      cases hparse : parseName handle.defaultRealm key with
      | error code =>
        rw [hparse] at hget
        rw [kdbGetEntry, bind_of_error hget] at h
        cases h
      | ok princ =>
        rw [hparse] at hget
        rw [kdbGetEntry, bind_of_ok hget] at h
        simp only [adminRecord] at h
        split at h
        · cases h
        · split at h <;> cases h

theorem requestOr_of_set (h : isSet mask bit) (value param : α) :
    requestOr mask bit value param = value := if_pos h

theorem requestOr_of_not_set (h : isSet mask bit = false) (value param : α) :
    requestOr mask bit value param = param := by
  rw [requestOr, h]
  rfl

def pwdChangeTl (now : Timestamp) : TlData := ⟨tlLastPwdChange, le32 now.toBitVec⟩

def requestedKvno (entry : PrincipalEntRec) (mask : Mask) : Int32 :=
  if isSet mask maskKvno then entry.kvno.toInt32 else 1

/-- What a creation has checked, and the entry `kdb` it has made. -/
structure CreateChecks (handle : Handle) (io : Io) (entry : PrincipalEntRec) (mask : Mask)
    (ksTuple : List KeySaltTuple) (word : CString) (db : Db) (principal : Principal)
    (now : Timestamp) (kdb : DbEntry) (polent : Option PolicyEnt) : Prop where
  named : entry.principal = some principal
  required : isSet mask maskPrincipal = true
  allowed : anySet mask createForbidden = false ∧ isSet mask (~~~allPrincMask) = false
  free : ∃ key, encodePrincDbkey principal = .ok key ∧ db.princs.lookup key = none
  policy : (requestedPolicy entry mask).run db = (.ok polent, db)
  quality : passwdCheck handle word polent principal = .ok ()
  clock : io.now = .ok now
  keyed : keyedEntry handle (withTl (newEntry handle principal entry mask polent now)
    (pwdChangeTl now)) ksTuple word (requestedKvno entry mask) false = .ok kdb

theorem dbeLookupLastPwdChange_withTl (kdb : DbEntry) (now : Timestamp) :
    dbeLookupLastPwdChange (withTl kdb (pwdChangeTl now)) = now := by
  have hdata : dbeLookupTlData (withTl kdb (pwdChangeTl now)) tlLastPwdChange = le32 now.toBitVec :=
    dbeLookupTlData_withTl_self (pwdChangeTl now)
  rw [dbeLookupLastPwdChange, hdata]
  show Int32.ofBitVec (ofLe32 _ _ _ _) = now
  rw [ofLe32_octets]
  rfl

theorem dbeUpdateLastPwdChange_eq (kdb : DbEntry) (now : Timestamp) :
    dbeUpdateLastPwdChange kdb now = .ok (withTl kdb (pwdChangeTl now)) :=
  dbeUpdateTlData_ok.mpr ⟨_, tlContents_of_lt (by rw [length_le32]; decide), rfl⟩

def tuplesFor (handle : Handle) (ksTuple : List KeySaltTuple) : List KeySaltTuple :=
  if ksTuple.isEmpty then handle.keysalts else ksTuple

variable {kdb : DbEntry} {change : PolicyChange}

theorem keyedEntry_ok {kdb' : DbEntry} {kvno : Int32} {keepold : Bool}
    (h : keyedEntry handle kdb ksTuple word kvno keepold = .ok kdb') :
    ∃ keys, kdb' = { kdb with keyData := keys } := by
  obtain ⟨keys, -, h⟩ := bind_eq_ok.mp h
  cases h
  exact ⟨_, rfl⟩

theorem CreateChecks.princ {now : Timestamp}
    (h : CreateChecks handle io entry mask ksTuple word db principal now kdb polent) :
    kdb.princ = principal := by
  obtain ⟨keys, rfl⟩ := keyedEntry_ok h.keyed
  rfl

theorem silent_createdEntry (ksTuple : List KeySaltTuple) (password : Option CString) :
    Silent (createdEntry handle io entry mask ksTuple password) := by
  refine (failIf _ _).bind fun _ => (failIf _ _).bind fun _ => ?_
  cases password with
  | none => exact fail _
  | some word =>
    refine (silent_deref _).bind fun principal => ((silent_kdbGetEntry principal).upTo _).bind
      fun found => (failIf _ _).bind fun _ => silent_requestedPolicy.bind fun polent => ?_
    exact (ofExcept _).bind fun _ => (silent_ofKdb _).bind fun _ =>
      (silent_ofKdb _).bind fun _ => (silent_ofKdb _).bind fun _ => pure _

/-- The checks before anything is written. -/
theorem createdEntry_ok {password : Option CString}
    (h : (createdEntry handle io entry mask ksTuple password).run db = (.ok (kdb, polent), db')) :
    ∃ word principal now, password = some word ∧
      CreateChecks handle io entry mask ksTuple word db principal now kdb polent := by
  obtain ⟨hmask, h⟩ := run_failIf_bind_eq_ok.mp h
  obtain ⟨hall, h⟩ := run_failIf_bind_eq_ok.mp h
  rw [Bool.or_eq_false_iff, Bool.not_eq_false'] at hmask
  cases password with
  | none => cases h
  | some word =>
    obtain ⟨principal, hprinc, h⟩ := run_deref_bind_eq_ok.mp h
    obtain ⟨found, hfound, h⟩ :=
      (run_silent_bind_eq_ok ((silent_kdbGetEntry principal).upTo _)).mp h
    obtain ⟨hnone, h⟩ := run_failIf_bind_eq_ok.mp h
    obtain ⟨polent', hpol, h⟩ := (run_silent_bind_eq_ok silent_requestedPolicy).mp h
    obtain ⟨_, hqual, h⟩ := run_ofExcept_bind_eq_ok.mp h
    obtain ⟨now, hnow, h⟩ := run_ofKdb_bind_eq_ok.mp h
    obtain ⟨kdb₁, hchange, h⟩ := run_ofKdb_bind_eq_ok.mp h
    obtain ⟨kdb₂, hkeyed, h⟩ := run_ofKdb_bind_eq_ok.mp h
    cases h
    rw [dbeUpdateLastPwdChange_eq, Except.ok.injEq] at hchange
    subst hchange
    rw [Option.isSome_eq_false_iff, Option.isNone_iff_eq_none] at hnone
    subst hnone
    exact ⟨word, principal, now, rfl, hprinc, hmask.1, ⟨hmask.2, hall⟩,
      kdbGetEntry_unkPrinc (run_upTo_eq_none.mp hfound), hpol, hqual, hnow, hkeyed⟩

theorem spliceTlData_ok {kdb' : DbEntry} (h : spliceTlData kdb entry mask = .ok kdb') :
    kdb'.princ = kdb.princ := by
  rw [spliceTlData] at h
  split at h
  · split at h
    · cases h
    · cases h
      rfl
  · cases h
    rfl

/-! ## Modification -/

def OsaPrincEnt.named (adb : OsaPrincEnt) : Option CString :=
  if isSet adb.auxAttributes maskPolicy then adb.policy else none

theorem named_newAdb : (newAdb handle entry mask).named =
    if isSet mask maskPolicy then entry.policy else none := by
  simp only [OsaPrincEnt.named, newAdb]
  split
  · rfl
  · exact ite_self none

theorem length_newAdb (h : isSet mask maskPolicy = false) :
    (encodeOsaPrincEnt (newAdb handle entry mask)).length = 24 := by
  simp only [newAdb, h]
  rfl

def policyAfter (entry : PrincipalEntRec) (mask : Mask) (before : Option CString) :
    Option CString :=
  if isSet mask maskPolicy then entry.policy
  else if isSet mask maskPolicyClr then none else before

def underPolicy (kdb : DbEntry) (t : OsaPolicyEnt) : DbEntry :=
  { kdb with pwExpiration :=
      if t.pwMaxLife.toInt32 ≠ 0 then dbeLookupLastPwdChange kdb + t.pwMaxLife.toInt32 else 0 }

def naming (adb : OsaPrincEnt) (n : CString) : OsaPrincEnt :=
  { adb with auxAttributes := raise adb.auxAttributes maskPolicy, policy := some n }

def unnaming (adb : OsaPrincEnt) : OsaPrincEnt :=
  { adb with policy := none, auxAttributes := clear adb.auxAttributes maskPolicy }

/-- What becomes of the policy of an entry: nothing, a first one, the same one again, another
one, or none. -/
inductive PolicyChanged (entry : PrincipalEntRec) (mask : Mask) (kdb : DbEntry) (adb : OsaPrincEnt)
    (db : Db) : PolicyChange → Prop
  | untouched (hset : isSet mask maskPolicy = false)
      (hclr : isSet mask maskPolicyClr = true → isSet adb.auxAttributes maskPolicy = false) :
      PolicyChanged entry mask kdb adb db ⟨kdb, adb, none, none⟩
  | first {n : CString} {t : OsaPolicyEnt} (hset : isSet mask maskPolicy = true)
      (hn : entry.policy = some n) (hne : n.text ≠ []) (ht : db.policies.lookup n = some t)
      (haux : isSet adb.auxAttributes maskPolicy = false) :
      PolicyChanged entry mask kdb adb db
        ⟨underPolicy kdb t, naming adb n, none, some (counted (t.ent n) 1)⟩
  | again {n : CString} {t : OsaPolicyEnt} (hset : isSet mask maskPolicy = true)
      (hn : entry.policy = some n) (hne : n.text ≠ []) (ht : db.policies.lookup n = some t)
      (haux : isSet adb.auxAttributes maskPolicy = true) (hf : adb.policy = some n) :
      PolicyChanged entry mask kdb adb db ⟨underPolicy kdb t, naming adb n, none, some (t.ent n)⟩
  | other {n f : CString} {t : OsaPolicyEnt} {opol : Option PolicyEnt}
      (hset : isSet mask maskPolicy = true) (hn : entry.policy = some n) (hne : n.text ≠ [])
      (ht : db.policies.lookup n = some t) (haux : isSet adb.auxAttributes maskPolicy = true)
      (hf : adb.policy = some f) (hother : f ≠ n)
      (hopol : (formerPolicy adb).run db = (.ok opol, db)) :
      PolicyChanged entry mask kdb adb db ⟨underPolicy kdb t, naming adb n,
        opol.map (counted · (-1)), some (counted (t.ent n) 1)⟩
  | cleared {f : CString} {t : OsaPolicyEnt} (hset : isSet mask maskPolicy = false)
      (hclr : isSet mask maskPolicyClr = true) (haux : isSet adb.auxAttributes maskPolicy = true)
      (hf : adb.policy = some f) (hne : f.text ≠ []) (ht : db.policies.lookup f = some t) :
      PolicyChanged entry mask kdb adb db
        ⟨{ kdb with pwExpiration := 0 }, unnaming adb, some (counted (t.ent f) (-1)), none⟩

section Modification

variable {adb : OsaPrincEnt}

theorem named_naming (n : CString) : (naming adb n).named = some n := by
  have hraised : isSet (raise adb.auxAttributes maskPolicy) maskPolicy := by
    rw [isSet_raise]
    exact Bool.or_true _
  exact if_pos hraised

theorem named_unnaming : (unnaming adb).named = none := ite_self none

theorem named_of_aux (h : isSet adb.auxAttributes maskPolicy) : adb.named = adb.policy :=
  if_pos h

theorem named_of_not_aux (h : isSet adb.auxAttributes maskPolicy = false) : adb.named = none := by
  rw [OsaPrincEnt.named, h]
  rfl

section

variable (h : PolicyChanged entry mask kdb adb db change)
include h

theorem PolicyChanged.named_eq :
    change.adb.named = policyAfter entry mask adb.named := by
  cases h with
  | untouched hset hclr =>
    rw [policyAfter, hset]
    cases hclr' : isSet mask maskPolicyClr with
    | false => rfl
    | true => exact named_of_not_aux (hclr hclr')
  | first hset hn => rw [policyAfter, if_pos hset, hn, named_naming]
  | again hset hn => rw [policyAfter, if_pos hset, hn, named_naming]
  | other hset hn => rw [policyAfter, if_pos hset, hn, named_naming]
  | cleared hset hclr =>
    rw [policyAfter, hset, hclr]
    exact named_unnaming

theorem PolicyChanged.length_record
    (hlen : (encodeOsaPrincEnt adb).length < 2 ^ 15)
    (hrec : change.adb.named ≠ adb.named → isSet mask maskPolicy →
      ∀ n, entry.policy = some n → (encodeOsaPrincEnt (naming adb n)).length < 2 ^ 15) :
    (encodeOsaPrincEnt change.adb).length < 2 ^ 15 := by
  cases h with
  | untouched => exact hlen
  | @first n t hset hn hne ht haux =>
    refine hrec ?_ hset n hn
    rw [named_naming, named_of_not_aux haux]
    exact Option.some_ne_none n
  | @again n t hset hn hne ht haux hf =>
    rw [length_encodeOsaPrincEnt] at hlen ⊢
    rwa [hf] at hlen
  | @other n f t opol hset hn hne ht haux hf hother =>
    refine hrec ?_ hset n hn
    rw [named_naming, named_of_aux haux, hf]
    simpa using Ne.symm hother
  | cleared =>
    rw [length_encodeOsaPrincEnt] at hlen ⊢
    have hnone := length_putNullstring_none_le adb.policy
    show 16 + (putNullstring none).length + (putArray putPwHistEnt adb.oldKeys).length < 2 ^ 15
    omega

theorem PolicyChanged.kdb_eq :
    change.kdb = { kdb with pwExpiration := change.kdb.pwExpiration } := by
  cases h <;> rfl

end

theorem silent_setPolicy : Silent (setPolicy entry kdb adb) := by
  refine ((silent_getPolicy _).mapError _).bind fun npol => ?_
  dsimp only
  split
  · refine (silent_deref _).bind fun former => ?_
    split
    · exact (silent_getPolicy _).attempt.bind fun _ => pure _
    · exact pure _
  · exact pure _

theorem silent_changePolicy : Silent (changePolicy entry mask kdb adb) := by
  rw [changePolicy]
  split
  · exact silent_setPolicy
  split
  · rw [clearPolicy]
    split
    · exact ((silent_getPolicy _).mapError _).bind fun _ => pure _
    · exact pure _
  · exact pure _

theorem setPolicy_ok (hset : isSet mask maskPolicy)
    (h : (setPolicy entry kdb adb).run db = (.ok change, db')) :
    PolicyChanged entry mask kdb adb db change := by
  obtain ⟨npol, hnpol, h⟩ := (run_silent_bind_eq_ok ((silent_getPolicy _).mapError _)).mp h
  obtain ⟨-, n, t, hn, hne, ht, rfl⟩ := getPolicy_ok.mp (run_mapError_eq_ok.mp hnpol)
  dsimp only at h
  split at h
  · rename_i haux
    obtain ⟨former, hf, h⟩ := run_deref_bind_eq_ok.mp h
    split at h
    · rename_i hother
      rw [hn, ne_eq, Option.some.injEq] at hother
      obtain ⟨opol, hopol, h⟩ :=
        (run_silent_bind_eq_ok ((silent_getPolicy _).attempt)).mp h
      cases h
      rw [hn]
      exact .other hset hn hne ht haux hf hother hopol
    · rename_i hsame
      rw [hn, ne_eq, Option.some.injEq, not_not] at hsame
      subst hsame
      cases h
      rw [hn]
      exact .again hset hn hne ht haux hf
  · rename_i haux
    cases h
    rw [hn]
    exact .first hset hn hne ht (by simpa using haux)

/-- The policy is set, cleared or left as it is. -/
theorem changePolicy_ok (h : (changePolicy entry mask kdb adb).run db = (.ok change, db')) :
    PolicyChanged entry mask kdb adb db change := by
  rw [changePolicy] at h
  split at h
  · exact setPolicy_ok ‹_› h
  rename_i hset
  rw [Bool.not_eq_true] at hset
  split at h
  · rename_i hclr
    rw [clearPolicy] at h
    split at h
    · rename_i haux
      obtain ⟨opol, hopol, h⟩ := (run_silent_bind_eq_ok ((silent_getPolicy _).mapError _)).mp h
      obtain ⟨-, f, t, hf, hne, ht, rfl⟩ := getPolicy_ok.mp (run_mapError_eq_ok.mp hopol)
      cases h
      exact .cleared hset hclr haux hf hne ht
    · rename_i haux
      cases h
      exact .untouched hset fun _ => by simpa using haux
  · rename_i hclr
    cases h
    exact .untouched hset fun htrue => absurd htrue hclr

end Modification

/-- What a modification has checked, the entry it has read and the change of its policy. -/
structure ModifyChecks (handle : Handle) (entry : PrincipalEntRec) (mask : Mask) (db : Db)
    (principal : Principal) (kdb : DbEntry) (adb : OsaPrincEnt) (change : PolicyChange) : Prop where
  named : entry.principal = some principal
  allowed : anySet mask modifyForbidden = false ∧ isSet mask (~~~allPrincMask) = false
  types : isSet mask maskTlData = true → ∀ tl ∈ entry.tlData, 256 ≤ tl.type
  found : (kdbGetEntry handle principal).run db = (.ok (kdb, adb), db)
  changed : PolicyChanged entry mask kdb adb db change

theorem silent_requestedChange : Silent (requestedChange handle entry mask) :=
  (failIf _ _).bind fun _ => (failIf _ _).bind fun _ => (failIf _ _).bind
    fun _ => (failIf _ _).bind fun _ => (silent_deref _).bind fun principal =>
      (silent_kdbGetEntry principal).bind fun _ => silent_changePolicy

theorem requestedChange_ok (h : (requestedChange handle entry mask).run db = (.ok change, db')) :
    ∃ principal kdb adb, ModifyChecks handle entry mask db principal kdb adb change := by
  obtain ⟨hforbidden, h⟩ := run_failIf_bind_eq_ok.mp h
  obtain ⟨hall, h⟩ := run_failIf_bind_eq_ok.mp h
  obtain ⟨-, h⟩ := run_failIf_bind_eq_ok.mp h
  obtain ⟨htypes, h⟩ := run_failIf_bind_eq_ok.mp h
  obtain ⟨principal, hprinc, h⟩ := run_deref_bind_eq_ok.mp h
  obtain ⟨⟨kdb, adb⟩, hget, h⟩ := (run_silent_bind_eq_ok (silent_kdbGetEntry principal)).mp h
  refine ⟨principal, kdb, adb, hprinc, ⟨hforbidden, hall⟩, fun hmask tl htl => ?_, hget,
    changePolicy_ok h⟩
  rw [hmask, Bool.true_and, List.any_eq_false] at htypes
  simpa using htypes tl htl

def noKeys : KeyLib where
  stringToKey _ _ _ := .ok []
  encrypt _ plain := .ok plain
  decrypt _ cipher := .ok cipher
  decrypt_encrypt h := by
    cases h
    exact ⟨[], congrArg Except.ok (List.append_nil _).symm⟩

def principalA : Principal := ⟨ascii "R", [ascii "a"], ntPrincipal⟩

def sampleHandle : Handle where
  defaultRealm := .ok (ascii "R")
  currentCaller := principalA
  masterKeyblock := ⟨1, []⟩
  histKey := ⟨1, []⟩
  histKvno := 1
  histPrinc := ⟨ascii "R", [ascii "kadmin", ascii "history"], ntPrincipal⟩
  keysalts := []
  flags := 0
  maxLife := 0
  maxRlife := 0
  expiration := 0
  findWord _ := false
  keys := noKeys

def sampleIo : Io := ⟨.ok 1000, .ok 1000, .ok (), .ok (), .ok ()⟩

def requestA : PrincipalEntRec :=
  { PrincipalEntRec.zero with principal := some principalA, policy := some (.ofAscii "p") }

def secret : CString := .ofAscii "secret"

def createdDb : Db :=
  ((kadm5CreatePrincipal3 sampleHandle sampleIo requestA maskPrincipal [] (some secret)).run Db.empty).2

end Krb5.Kadm5
