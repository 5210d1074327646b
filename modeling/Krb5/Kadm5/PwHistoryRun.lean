import Krb5.Kadm5.CreateGet
import Krb5.Kadm5.PwHistory

/-!
# Runs of password changes

The passwords that a principal has had are read off the calls that succeeded. `Remembers` says
that the database holds the present one and the last of those that were replaced; one call and
a run of calls keep this.
-/

namespace Krb5.Kadm5

open Lib Kdb List Avoids Name

variable {handle : Handle} {io : Io} {db db' : Db} {p : Principal} {ksTuple kept : List KeySaltTuple}
  {num : Int32} {word : CString} {current : Octets} {replaced : List Octets} {key : Octets}
  {stored kdb kdb' : DbEntry} {adb adb' : OsaPrincEnt} {pol : PolicyEnt} {s : Slots Octets}
  {result : Except Code Unit} {mask : Mask} {keys : List KeyData}

theorem avoids_passwdCheck (pol : Option PolicyEnt) : Avoids .passReuse (passwdCheck handle word pol p) := by
  unfold passwdCheck
  repeat' split
  all_goals exact fun h => nomatch h

theorem avoids_kdb {α : Type} (x : Except Kdb.Code α) : Avoids .passReuse (x.mapError Code.kdb) :=
  mapError fun code (h : Code.kdb code = .passReuse) => nomatch h

theorem avoids_decryptedKey (mkey : Keyblock) (data : KeyData) :
    Avoids .passReuse (decryptedKey handle mkey data) := by
  refine (avoids_kdb _).bind fun block => ?_
  cases block with
  | none => exact error fun h => nomatch h
  | some block => exact ok block

theorem avoids_createHistoryEntry (keys : List KeyData) :
    Avoids .passReuse (createHistoryEntry handle keys) :=
  (mapM (fun data => (avoids_decryptedKey _ data).bind fun _ => avoids_kdb _) keys).bind
    fun _ => ok _

theorem avoids_addToHistory (pol : PolicyEnt) (hist : PwHistEnt) :
    Avoids .passReuse (addToHistory adb pol hist) := by
  unfold addToHistory
  dsimp only
  repeat' split
  all_goals exact fun h => nomatch h

theorem kdbPutEntry_error {code : Code} (h : (kdbPutEntry handle io kdb adb).run db = (.error code, db')) :
    ∃ c, code = .kdb c := by
  have hkdb {α β : Type} {x : Except Kdb.Code α} {f : α → DbCall β}
      (h : (ofKdb x >>= f).run db = (.error code, db')) :
      (∃ c, code = .kdb c) ∨ ∃ a, (f a).run db = (.error code, db') := by
    cases x with
    | error c =>
      cases h
      exact .inl ⟨c, rfl⟩
    | ok a => exact .inr ⟨a, h⟩
  rcases hkdb h with h | ⟨entry, h⟩
  · exact h
  rcases hkdb h with h | ⟨content, h⟩
  · exact h
  cases hkey : encodePrincDbkey entry.princ with
  | error c =>
    rw [hkey] at h
    cases h
    exact ⟨_, rfl⟩
  | ok key =>
    rw [hkey] at h
    rcases hkdb h with h | ⟨_, h⟩
    · exact h
    · cases h

/-! ## What is remembered -/

/-- What is stored about a principal under a policy: the keys of its password, and in the slots
of the history the passwords that were replaced. -/
structure Remembered (handle : Handle) (p : Principal) (ksTuple : List KeySaltTuple) (num : Int32)
    (db : Db) (current : Octets) (replaced : List Octets) (key : Octets) (stored kdb : DbEntry)
    (adb : OsaPrincEnt) (pol : PolicyEnt) (kept : List KeySaltTuple) (s : Slots Octets) : Prop where
  read : ReadAs handle db p key stored kdb adb
  policy : (recordPolicy adb).run db = (.ok (some pol), db)
  num_eq : pol.pwHistoryNum = num
  tuples : keptTuples [] (tuplesFor handle ksTuple) = .ok kept
  keys : HoldsKeys handle handle.masterKeyblock kdb.princ current kept kdb.keyData
  slots : SlotsOf (HoldsSlot handle kdb.princ kept) adb s
  filled : s.Filled (historyLimit num) replaced
  kvno : adb.adminHistoryKvno = handle.histKvno ∨ replaced = []

/-- The checks in front of the comparison with other passwords are passed: the principal is not
that of the history, the password is good enough, its keys can be made, the clock answers and
the keys that are replaced can be put into the history key. -/
structure Passes (handle : Handle) (io : Io) (p : Principal) (ksTuple : List KeySaltTuple)
    (word : CString) (pol : Option PolicyEnt) (kdb : DbEntry) : Prop where
  other : principalCompare p handle.histPrinc = false
  quality : passwdCheck handle word pol p = .ok ()
  keyed : ∃ kdb', keyedEntry handle kdb ksTuple word 0 false = .ok kdb'
  clock : ∃ now, io.now = .ok now
  encrypted : ∃ hist, createHistoryEntry handle kdb.keyData = .ok hist

def Fits (handle : Handle) (p : Principal) (db : Db) : Prop :=
  ∀ kdb adb hist, (kdbGetEntry handle p).run db = (.ok (kdb, adb), db) →
    createHistoryEntry handle kdb.keyData = .ok hist →
      (encodeOsaPrincEnt adb).length + (putPwHistEnt hist).length + 4 < 2 ^ 16

section Call

variable (hlaws : KeyLaws handle.keys) (hne : tuplesFor handle ksTuple ≠ []) (hnum : 2 ≤ num)

theorem keyedEntry_keys {kvno : Int32}
    (h : keyedEntry handle kdb ksTuple word kvno false = .ok { kdb with keyData := keys }) :
    ∃ v, addKeyPwd handle.keys handle.masterKeyblock kdb.princ word.text v []
      (tuplesFor handle ksTuple) = .ok keys := by
  obtain ⟨keys', hkeys, h⟩ := bind_eq_ok.mp h
  have heq : keys' = keys := congrArg DbEntry.keyData (Except.ok.inj h)
  subst heq
  exact ⟨_, hkeys⟩

theorem recordPolicy_some (h : (recordPolicy adb).run db = (.ok (some pol), db')) :
    isSet adb.auxAttributes maskPolicy ∧ ∃ n t, adb.policy = some n ∧ n.text ≠ [] ∧
      db.policies.lookup n = some t ∧ pol = t.ent n := by
  obtain ⟨-, hpol⟩ := recordPolicy_ok.mp h
  split at hpol
  · rename_i haux
    obtain ⟨n, t, hn, hne, ht, heq⟩ := hpol
    exact ⟨haux, n, t, hn, hne, ht, Option.some.inj heq⟩
  · cases hpol

theorem Remembered.saved
    (h : Remembered handle p ksTuple num db current replaced key stored kdb adb pol kept s) :
    adb.saved = adb := by
  obtain ⟨haux, -⟩ := recordPolicy_some h.policy
  have hrec := h.read.record
  simp only [adminRecord] at hrec
  split at hrec
  · cases hrec
    exact absurd (show isSet (0 : Mask) maskPolicy = true from haux) (by decide)
  split at hrec
  · rename_i hdec
    cases hrec
    exact saved_of_decode hdec
  · cases hrec

theorem changedPassword_eq_passReuse {keepold : Bool} :
    changedPassword handle io p keepold ksTuple word (some pol) kdb adb = .error .passReuse ↔
      passwdCheck handle word (some pol) p = .ok () ∧ ∃ keys now,
        keyedEntry handle kdb ksTuple word 0 keepold = .ok { kdb with keyData := keys } ∧
        io.now = .ok now ∧ enforceHistory handle pol kdb.keyData keys adb = .error .passReuse := by
  constructor
  · intro h
    rcases bind_eq_error.mp h with h | ⟨_, hqual, h⟩
    · exact absurd h (avoids_passwdCheck _)
    rcases bind_eq_error.mp h with h | ⟨keyed, hkeyed, h⟩
    · exact absurd h (avoids_kdb _)
    rcases bind_eq_error.mp h with h | ⟨now, hnow, h⟩
    · exact absurd h (avoids_kdb _)
    rw [mapError_eq_ok] at hkeyed hnow
    obtain ⟨keys, rfl⟩ := keyedEntry_ok hkeyed
    rcases bind_eq_error.mp h with h | ⟨adb', -, h⟩
    · exact ⟨hqual, keys, now, hkeyed, hnow, h⟩
    · exact absurd h ((avoids_kdb _).bind fun _ => ok _)
  · rintro ⟨hqual, keys, now, hkeyed, hnow, h⟩
    rw [changedPassword, hqual, hkeyed, hnow]
    show (enforceHistory handle pol kdb.keyData keys adb >>= _) = _
    rw [h]
    rfl

include hlaws hne hnum

variable (h : Remembered handle p ksTuple num db current replaced key stored kdb adb pol kept s)
include h

/-- The order of the checks: the current password, the history key, the old ones. -/
theorem Remembered.enforceHistory
    {hist : PwHistEnt} (hhist : createHistoryEntry handle kdb.keyData = .ok hist)
    (hkeys : HoldsKeys handle handle.masterKeyblock kdb.princ word.text kept keys) :
    enforceHistory handle pol kdb.keyData keys adb =
      if word.text = current then .error .passReuse
      else if adb.adminHistoryKvno ≠ handle.histKvno then .error .badHistKey
      else if word.text ∈ replaced.rtake (historyLimit num) then .error .passReuse
      else addToHistory adb pol hist := by
  have hkept := keptTuples_ne_nil h.tuples hne
  have hcur : checkPwReuse handle keys [hist] =
      if word.text = current then .error .passReuse else .ok () := by
    have hslot : HoldsSlot handle kdb.princ kept hist (some current) := h.keys.history hlaws hhist
    rw [checkPwReuse_eq hlaws hkept hkeys (.cons hslot .nil)]
    simp
  have hold : checkPwReuse handle keys adb.oldKeys =
      if word.text ∈ replaced.rtake (historyLimit num) then .error .passReuse else .ok () := by
    rw [checkPwReuse_eq hlaws hkept hkeys h.slots.slots, ← h.filled.holds]
    simp [Slots.mem_toList]
  have hmany : pol.pwHistoryNum > 1 := by
    rw [h.num_eq]
    exact Int32.lt_of_lt_of_le (by decide) hnum
  rw [Kadm5.enforceHistory, hhist, ok_bind, hcur]
  split
  · rfl
  split
  · rfl
  · rw [hold]
    split <;> rfl

/-- Exactly the remembered passwords are refused as used before. -/
theorem Remembered.refused_iff
    (hcall : (kadm5ChpassPrincipal3 handle io (some p) false ksTuple (some word)).run db = (result, db')) :
    result = .error .passReuse ↔ Passes handle io p ksTuple word (some pol) kdb ∧
      word.text ∈ current :: replaced.rtake (historyLimit num) := by
  -- the result is the one of the comparison
  have hres : result = .error .passReuse ↔ principalCompare p handle.histPrinc = false ∧
      changedPassword handle io p false ksTuple word (some pol) kdb adb = .error .passReuse := by
    by_cases hother : principalCompare p handle.histPrinc = false
    · rw [h.read.chpass h.policy hother] at hcall
      simp only [hother, true_and]
      cases hchanged : changedPassword handle io p false ksTuple word (some pol) kdb adb with
      | error code =>
        rw [hchanged] at hcall
        rw [← (Prod.mk.inj hcall).1]
        simp
      | ok changed =>
        rw [hchanged] at hcall
        refine ⟨fun hreuse => ?_, fun hreuse => nomatch hreuse⟩
        subst hreuse
        obtain ⟨c, hc⟩ := kdbPutEntry_error hcall
        cases hc
    · refine ⟨fun hreuse => ?_, fun hreuse => absurd hreuse.1 hother⟩
      rw [Bool.not_eq_false] at hother
      have hprotect : (kadm5ChpassPrincipal3 handle io (some p) false ksTuple (some word)).run db =
          (.error .protectPrincipal, db) := by
        show ((Action.failIf _ _ >>= _ : DbCall Unit)).run db = _
        rw [hother]
        rfl
      rw [hprotect, hreuse] at hcall
      cases hcall
  have hkeys {keys : List KeyData}
      (hkeyed : keyedEntry handle kdb ksTuple word 0 false = .ok { kdb with keyData := keys }) :
      HoldsKeys handle handle.masterKeyblock kdb.princ word.text kept keys := by
    obtain ⟨v, hadd⟩ := keyedEntry_keys hkeyed
    exact holdsKeys_addKeyPwd hlaws hadd h.tuples
  rw [hres, changedPassword_eq_passReuse]
  constructor
  · rintro ⟨hother, hqual, keys, now, hkeyed, hnow, henforce⟩
    obtain ⟨hist, hhist⟩ : ∃ hist, createHistoryEntry handle kdb.keyData = .ok hist := by
      cases hhist : createHistoryEntry handle kdb.keyData with
      | ok hist => exact ⟨hist, rfl⟩
      | error code =>
        rw [Kadm5.enforceHistory, hhist] at henforce
        cases henforce
        exact absurd hhist (avoids_createHistoryEntry _)
    refine ⟨⟨hother, hqual, ⟨_, hkeyed⟩, ⟨now, hnow⟩, ⟨hist, hhist⟩⟩, ?_⟩
    rw [h.enforceHistory hlaws hne hnum hhist (hkeys hkeyed)] at henforce
    split at henforce
    · rename_i heq
      exact mem_cons.mpr (.inl heq)
    split at henforce
    · cases henforce
    split at henforce
    · rename_i hmem
      exact mem_cons_of_mem _ hmem
    · exact absurd henforce (avoids_addToHistory _ _)
  · rintro ⟨⟨hother, hqual, ⟨kdb', hkeyed⟩, ⟨now, hnow⟩, ⟨hist, hhist⟩⟩, hmem⟩
    obtain ⟨keys, rfl⟩ := keyedEntry_ok hkeyed
    refine ⟨hother, hqual, keys, now, hkeyed, hnow, ?_⟩
    rw [h.enforceHistory hlaws hne hnum hhist (hkeys hkeyed)]
    split
    · rfl
    rename_i hcur
    have hold := (mem_cons.mp hmem).resolve_left hcur
    -- where there is a password to be found, the history is in the present key
    have hkvno : ¬adb.adminHistoryKvno ≠ handle.histKvno := by
      rcases h.kvno with heq | hnil
      · exact not_not.mpr heq
      · rw [hnil, rtake_nil] at hold
        cases hold
    rw [if_neg hkvno, if_pos hold]

/-- After a change the password that was current is remembered. -/
theorem Remembered.changed
    (hfits : Fits handle p db)
    (hcall : (kadm5ChpassPrincipal3 handle io (some p) false ksTuple (some word)).run db = (.ok (), db')) :
    ∃ stored' kdb' adb' s', Remembered handle p ksTuple num db' word.text (replaced ++ [current]) key
      stored' kdb' adb' pol kept s' := by
  obtain ⟨-, key', stored₀, kdb₀, adb₀, pol₀, kdb', adb', stored', hcalled⟩ := chpass_ok hcall
  cases h.read.get.symm.trans hcalled.read.get
  cases h.read.dbkey.symm.trans hcalled.read.dbkey
  cases h.policy.symm.trans hcalled.policy
  obtain ⟨keys, now, hrepassed⟩ := changedPassword_ok hcalled.changed
  obtain ⟨v, hadd⟩ := keyedEntry_keys hrepassed.keyed
  have hkeys := holdsKeys_addKeyPwd hlaws hadd h.tuples
  -- the password is a new one, and the one before goes into the history
  have henforce : Kadm5.enforceHistory handle pol kdb.keyData keys adb = .ok adb' := hrepassed.history
  obtain ⟨hist, hhist, -⟩ := bind_eq_ok.mp henforce
  have hroom := hfits kdb adb hist h.read.get hhist
  have hone : pol.pwHistoryNum ≠ 1 := by
    rw [h.num_eq]
    rintro rfl
    exact absurd hnum (by decide)
  obtain ⟨hkvno, hadded⟩ : adb.adminHistoryKvno = handle.histKvno ∧ addToHistory adb pol hist = .ok adb' := by
    rw [h.enforceHistory hlaws hne hnum hhist hkeys] at henforce
    split at henforce
    · cases henforce
    split at henforce
    · cases henforce
    rename_i hkvno
    split at henforce
    · cases henforce
    · exact ⟨not_not.mp hkvno, henforce⟩
  obtain ⟨-, rfl⟩ := (addToHistory_ok hone).mp hadded
  have hslot := h.keys.history hlaws hhist
  have hlen := length_oldKeys_le adb
  obtain ⟨s', hpush, hfilled⟩ := h.filled.push current
  rw [← h.num_eq] at hpush
  have hslots := h.slots.added rfl hslot (by omega) hpush
  -- and it is read again
  have hread := hcalled.reread (Nat.lt_of_le_of_lt length_added_le hroom)
  have hsaved : (added adb pol hist).saved = added adb pol hist := by
    have hkvno' : adb.adminHistoryKvno.toUInt8.toUInt32 = adb.adminHistoryKvno :=
      congrArg OsaPrincEnt.adminHistoryKvno h.saved
    show { added adb pol hist with adminHistoryKvno := adb.adminHistoryKvno.toUInt8.toUInt32 } = _
    rw [hkvno']
    rfl
  rw [hsaved] at hread
  have hprinc : kdb.princ = { p with type := ntPrincipal } := by rw [h.read.eq]
  obtain ⟨hkeyData, -⟩ := hcalled.fields hrepassed
  refine ⟨stored', _, _, s', hread, ?_, h.num_eq, h.tuples, ?_, ?_, hfilled, .inl hkvno⟩
  · rw [hcalled.put]
    exact recordPolicy_ok.mpr ⟨rfl, (recordPolicy_ok.mp h.policy).2⟩
  · rw [← hkeyData, hprinc] at hkeys
    exact hkeys
  · rw [hprinc] at hslots
    exact hslots

end Call

/-! ## Runs -/

/-- The password of the principal is `current`, and before it had `replaced`, from the first to
the last. -/
def Remembers (handle : Handle) (p : Principal) (ksTuple : List KeySaltTuple) (num : Int32) (db : Db)
    (current : Octets) (replaced : List Octets) : Prop :=
  ∃ key stored kdb adb pol kept s,
    Remembered handle p ksTuple num db current replaced key stored kdb adb pol kept s

/-- Something else is changed: other principals, and policies except for the number of passwords
that they remember. -/
structure Elsewhere (p : Principal) (db db' : Db) : Prop where
  princ : ∀ key, encodePrincDbkey p = .ok key → db'.princs.lookup key = db.princs.lookup key
  policies : ∀ n t, db.policies.lookup n = some t →
    ∃ t', db'.policies.lookup n = some t' ∧ t'.pwHistoryNum = t.pwHistoryNum

theorem Remembered.elsewhere
    (h : Remembered handle p ksTuple num db current replaced key stored kdb adb pol kept s)
    (helse : Elsewhere p db db') : Remembers handle p ksTuple num db' current replaced := by
  obtain ⟨haux, n, t, hn, hne, ht, rfl⟩ := recordPolicy_some h.policy
  obtain ⟨t', ht', hnum⟩ := helse.policies n t ht
  have hread : ReadAs handle db' p key stored kdb adb :=
    { h.read with lookup := (helse.princ key h.read.dbkey).trans h.read.lookup }
  refine ⟨key, stored, kdb, adb, t'.ent n, kept, s, hread, ?_, ?_, h.tuples, h.keys, h.slots, h.filled,
    h.kvno⟩
  · exact recordPolicy_ok.mpr ⟨rfl, by rw [if_pos haux]; exact ⟨n, t', hn, hne, ht', rfl⟩⟩
  · rw [← h.num_eq]
    exact congrArg UInt32.toInt32 hnum

theorem elsewhere_modifyPolicy {entry : PolicyEnt} (hmask : isSet mask maskPwHistoryNum = false)
    (h : (kadm5ModifyPolicyInternal entry mask).run db = (.ok (), db')) : Elsewhere p db db' := by
  obtain ⟨name, t₀, -, ht₀, -, -, rfl⟩ := modifyPolicyInternal_ok h
  refine ⟨fun _ _ => rfl, fun n t ht => ?_⟩
  by_cases hn : n = name
  · cases hn
    cases ht₀.symm.trans ht
    refine ⟨_, AList.lookup_insert _, ?_⟩
    show fieldOr mask maskPwHistoryNum _ _ = _
    rw [fieldOr, hmask]
    rfl
  · exact ⟨t, (AList.lookup_insert_ne hn).trans ht, rfl⟩

/-- A call of `kadm5_chpass_principal_3` and its result. -/
structure Change where
  io : Io
  password : CString
  result : Except Code Unit

/-- A call for the principal, or a change elsewhere. -/
inductive ChangeStep (handle : Handle) (p : Principal) (ksTuple : List KeySaltTuple) :
    Db → Option Change → Db → Prop
  | call {db db' : Db} {c : Change} (hfits : Fits handle p db)
      (h : (kadm5ChpassPrincipal3 handle c.io (some p) false ksTuple (some c.password)).run db =
        (c.result, db')) : ChangeStep handle p ksTuple db (some c) db'
  | elsewhere {db db' : Db} (h : Elsewhere p db db') : ChangeStep handle p ksTuple db none db'

/-- The password and those that were replaced, after a call or something else. -/
def advance (passwords : Octets × List Octets) : Option Change → Octets × List Octets
  | some ⟨_, password, .ok ()⟩ => (password.text, passwords.2 ++ [passwords.1])
  | _ => passwords

def passwordsAfter (first : Octets) (events : List (Option Change)) : Octets × List Octets :=
  events.foldl advance (first, [])

section Runs

variable (hlaws : KeyLaws handle.keys) (hne : tuplesFor handle ksTuple ≠ []) (hnum : 2 ≤ num)
include hlaws hne hnum

theorem remembers_step {passwords : Octets × List Octets} {e : Option Change}
    (h : Remembers handle p ksTuple num db passwords.1 passwords.2)
    (hstep : ChangeStep handle p ksTuple db e db') :
    Remembers handle p ksTuple num db' (advance passwords e).1 (advance passwords e).2 := by
  obtain ⟨key, stored, kdb, adb, pol, kept, s, h⟩ := h
  cases hstep with
  | @call _ c hfits hcall =>
    obtain ⟨io, password, result⟩ := c
    cases result with
    | error code =>
      cases careful_chpass _ _ hcall
      exact ⟨key, stored, kdb, adb, pol, kept, s, h⟩
    | ok u =>
      obtain ⟨stored', kdb', adb', s', h'⟩ := h.changed hlaws hne hnum hfits hcall
      exact ⟨key, stored', kdb', adb', pol, kept, s', h'⟩
  | elsewhere helse => exact h.elsewhere helse

theorem remembers_run {db₀ : Db} {first : Octets} {events : List (Option Change)}
    (h : Remembers handle p ksTuple num db₀ first [])
    (hrun : Run (ChangeStep handle p ksTuple) db₀ events db) :
    Remembers handle p ksTuple num db (passwordsAfter first events).1
      (passwordsAfter first events).2 := by
  refine hrun.history (fun events db => Remembers handle p ksTuple num db
    (passwordsAfter first events).1 (passwordsAfter first events).2) h fun es t e u ht hstep => ?_
  rw [passwordsAfter, foldl_append]
  exact remembers_step hlaws hne hnum ht hstep

end Runs

/-- A new principal remembers its first password and none before. -/
theorem Created.remembers (hlaws : KeyLaws handle.keys) (hnum : 2 ≤ num) {entry : PrincipalEntRec}
    {polent : Option PolicyEnt} {now : Timestamp}
    (h : Created handle io entry mask ksTuple word db' p polent now keys kdb stored key)
    (hrealm : p.realm ≠ []) (hkept : keptTuples [] (tuplesFor handle ksTuple) = .ok kept)
    (hlen : (encodeOsaPrincEnt (newAdb handle entry mask)).length < 2 ^ 16)
    (hpolicy : (recordPolicy (newAdb handle entry mask)).run db' = (.ok (some pol), db'))
    (hpol : pol.pwHistoryNum = num) : Remembers handle p ksTuple num db' word.text [] := by
  obtain ⟨_, _, modified, record, -, -, -, hrec, rfl⟩ := prepared_ok.mp h.prepared
  obtain ⟨hshort, rfl⟩ := tlContents_ok hrec hlen
  have hkdb : kdb = createdKdb handle entry mask p polent now keys := by
    have hspliced := h.spliced
    rw [spliceTlData, h.untyped] at hspliced
    exact (Except.ok.inj hspliced).symm
  have hread : ReadAs handle db' p key _ _ (newAdb handle entry mask).saved :=
    ⟨h.dbkey, h.lookup, parseName_of_dbkey _ h.dbkey hrealm, rfl,
      adminRecord_of_data (lookup_kadmData _) hshort⟩
  have hlim : 0 < historyLimit num := by
    rw [historyLimit_eq hnum]
    rw [Int32.le_iff_toInt_le, show (2 : Int32).toInt = 2 from rfl] at hnum
    rw [Int32.toNatClampNeg]
    omega
  refine ⟨key, _, _, _, pol, kept, .empty, hread, hpolicy, hpol, hkept, ?_, ⟨rfl, .nil⟩,
    Slots.filled_empty hlim, .inr rfl⟩
  have hkeys := holdsKeys_addKeyPwd hlaws h.keyed hkept
  have hdata : (withTl (withTl kdb ⟨tlModPrinc, modified⟩) ⟨tlKadmData, encodeOsaPrincEnt
      (newAdb handle entry mask)⟩).keyData = keys := by
    rw [hkdb]
    rfl
  rw [← hdata] at hkeys
  exact hkeys

/-- The history of a principal is these passwords, from the oldest to the newest. -/
def HistoryHolds (handle : Handle) (p : Principal) (ksTuple : List KeySaltTuple) (db : Db)
    (pws : List Octets) : Prop :=
  ∃ kdb adb kept, (kdbGetEntry handle p).run db = (.ok (kdb, adb), db) ∧
    keptTuples [] (tuplesFor handle ksTuple) = .ok kept ∧
    List.Forall₂ (fun hist pw => HoldsKeys handle handle.histKey kdb.princ pw kept hist.keyData)
      (adb.oldKeys.drop adb.oldKeyNext.toNat ++ adb.oldKeys.take adb.oldKeyNext.toNat) pws

theorem Remembered.historyHolds
    (h : Remembered handle p ksTuple num db current replaced key stored kdb adb pol kept s) :
    HistoryHolds handle p ksTuple db (replaced.rtake (historyLimit num)) := by
  refine ⟨kdb, adb, kept, h.read.get, h.tuples, ?_⟩
  have horder : List.Forall₂ (HoldsSlot handle kdb.princ kept)
      (adb.oldKeys.drop adb.oldKeyNext.toNat ++ adb.oldKeys.take adb.oldKeyNext.toNat)
      (Slots.order s.slots s.next) := by
    rw [h.slots.next]
    exact rel_append (forall₂_drop _ h.slots.slots) (forall₂_take _ h.slots.slots)
  rw [Slots.order_eq_map h.filled.length_eq, h.filled.holds, forall₂_map_right_iff] at horder
  exact horder

/-- The checks in front of the comparison are passed, for what is stored of the principal. -/
def PassesIn (handle : Handle) (io : Io) (p : Principal) (ksTuple : List KeySaltTuple) (word : CString)
    (db : Db) : Prop :=
  ∃ kdb adb pol, (kdbGetEntry handle p).run db = (.ok (kdb, adb), db) ∧
    (recordPolicy adb).run db = (.ok pol, db) ∧ Passes handle io p ksTuple word pol kdb

/-- After every run of password changes under a policy that remembers `num` passwords, the
history holds the passwords that were replaced last, one less than that; and a call is refused
as a reuse if and only if the other checks are passed and its password is the present one or in
the history. -/
theorem password_history_enforced (hlaws : KeyLaws handle.keys) (hne : tuplesFor handle ksTuple ≠ [])
    (hnum : 2 ≤ num) {db₀ : Db} {first : Octets} {events : List (Option Change)}
    (hfirst : Remembers handle p ksTuple num db₀ first [])
    (hrun : Run (ChangeStep handle p ksTuple) db₀ events db) :
    HistoryHolds handle p ksTuple db ((passwordsAfter first events).2.rtake (num.toNatClampNeg - 1)) ∧
    ∀ io word result db',
      (kadm5ChpassPrincipal3 handle io (some p) false ksTuple (some word)).run db = (result, db') →
        (result = .error .passReuse ↔ PassesIn handle io p ksTuple word db ∧
          (word.text = (passwordsAfter first events).1 ∨
            word.text ∈ (passwordsAfter first events).2.rtake (num.toNatClampNeg - 1))) := by
  obtain ⟨key, stored, kdb, adb, pol, kept, s, h⟩ := remembers_run hlaws hne hnum hfirst hrun
  rw [← historyLimit_eq hnum]
  refine ⟨h.historyHolds, fun io word result db' hcall => ?_⟩
  rw [h.refused_iff hlaws hne hnum hcall, mem_cons]
  refine and_congr_left fun _ => ⟨fun hpasses => ⟨kdb, adb, some pol, h.read.get, h.policy, hpasses⟩, ?_⟩
  rintro ⟨kdb', adb', pol', hget, hpolicy, hpasses⟩
  cases h.read.get.symm.trans hget
  cases h.policy.symm.trans hpolicy
  exact hpasses

/-! ## A server with keys that are the passwords themselves -/

def plainKeys : KeyLib where
  stringToKey _ pw _ := if pw.length < 2 ^ 15 then .ok pw else .error .cryptoInternal
  encrypt _ plain := .ok plain
  decrypt _ cipher := .ok cipher
  decrypt_encrypt := @noKeys.decrypt_encrypt

theorem keyLaws_plainKeys : KeyLaws plainKeys where
  injective _ h h' := by
    simp only [plainKeys] at h h'
    split at h
    · split at h'
      · cases h
        cases h'
        rfl
      · cases h'
    · cases h
  short h := by
    simp only [plainKeys] at h
    split at h
    · cases h
      assumption
    · cases h

def plainHandle : Handle := { sampleHandle with keysalts := [⟨1, 0⟩], keys := plainKeys }

def historyPolicy (minLength : Int32) : PolicyEnt := ⟨some (.ofAscii "p"), 0, 0, minLength, 0, 2, 0⟩

def policyDb : Db :=
  ((kadm5CreatePolicy (historyPolicy 1) (maskPolicy ||| maskPwMinLength ||| maskPwHistoryNum)).run
    Db.empty).2

def secretDb : Db :=
  ((kadm5CreatePrincipal3 plainHandle sampleIo requestA (maskPrincipal ||| maskPolicy) []
    (some secret)).run policyDb).2

theorem remembers_secretDb : Remembers plainHandle principalA [] 2 secretDb secret.text [] := by
  have hcreatable : Creatable plainHandle requestA (maskPrincipal ||| maskPolicy) secret policyDb
      principalA (some ((OsaPolicyEnt.mk 0 0 1 1 2 0).ent (.ofAscii "p"))) :=
    ⟨rfl, by decide, by decide, ⟨_, encodePrincDbkey_eq _ _ _ _, rfl⟩, rfl, rfl⟩
  have hcreate : (kadm5CreatePrincipal3 plainHandle sampleIo requestA (maskPrincipal ||| maskPolicy)
      [] (some secret)).run policyDb = (.ok (), secretDb) := Prod.ext (by decide +kernel) rfl
  obtain ⟨now, keys, kdb, stored, key, hcreated⟩ := createPrincipal_ok hcreatable hcreate
  have hpol : (recordPolicy (newAdb plainHandle requestA (maskPrincipal ||| maskPolicy))).run
      secretDb = (.ok (some ((OsaPolicyEnt.mk 0 0 1 1 2 1).ent (.ofAscii "p"))), secretDb) :=
    Prod.ext (by decide +kernel) rfl
  exact hcreated.remembers keyLaws_plainKeys (by decide) (by decide) rfl (by decide) hpol rfl

def publicChange : Change := ⟨sampleIo, .ofAscii "public", .ok ()⟩

def publicDb : Db :=
  ((kadm5ChpassPrincipal3 plainHandle publicChange.io (some principalA) false []
    (some publicChange.password)).run secretDb).2

def hasRoom (db : Db) : Bool :=
  match (kdbGetEntry plainHandle principalA).run db with
  | (.ok (kdb, adb), _) => (createHistoryEntry plainHandle kdb.keyData).toOption.all fun hist =>
    (encodeOsaPrincEnt adb).length + (putPwHistEnt hist).length + 4 < 2 ^ 16
  | _ => true

theorem fits_of_hasRoom (h : hasRoom db) : Fits plainHandle principalA db := by
  intro kdb adb hist hget hhist
  rw [hasRoom, hget] at h
  simp only [hhist, Except.toOption, Option.all_some, decide_eq_true_eq] at h
  exact h

/-- The password that was replaced is in the history, and it cannot be taken again. -/
theorem password_history_enforced_publicDb :
    HistoryHolds plainHandle principalA [] publicDb [secret.text] ∧
    ((kadm5ChpassPrincipal3 plainHandle sampleIo (some principalA) false [] (some secret)).run
      publicDb).1 = .error .passReuse ∧
    PassesIn plainHandle sampleIo principalA [] secret publicDb := by
  have hcall : (kadm5ChpassPrincipal3 plainHandle publicChange.io (some principalA) false []
      (some publicChange.password)).run secretDb = (publicChange.result, publicDb) :=
    run_eq_of_fst (by decide +kernel)
  have hrun : Run (ChangeStep plainHandle principalA []) secretDb [some publicChange] publicDb :=
    .snoc .nil (.call (fits_of_hasRoom (by decide +kernel)) hcall)
  obtain ⟨hholds, hrefused⟩ :=
    password_history_enforced keyLaws_plainKeys (by decide) (by decide) remembers_secretDb hrun
  refine ⟨hholds, (and_iff_left_of_imp fun hreuse => ?_).mpr (by decide +kernel)⟩
  exact ((hrefused _ _ _ _ Prod.mk.eta.symm).mp hreuse).1

def stricterDb : Db :=
  ((kadm5ModifyPolicy (historyPolicy 8) maskPwMinLength).run secretDb).2

/-- The quality of the password is looked at first: the present password may have become too
short, and it is refused for that. -/
theorem current_password_tooShort :
    Remembers plainHandle principalA [] 2 stricterDb secret.text [] ∧
    ((kadm5ChpassPrincipal3 plainHandle sampleIo (some principalA) false [] (some secret)).run
      stricterDb).1 = .error .passQTooshort := by
  refine ⟨?_, by decide +kernel⟩
  obtain ⟨key, stored, kdb, adb, pol, kept, s, h⟩ := remembers_secretDb
  have hmodify : (kadm5ModifyPolicyInternal (historyPolicy 8) maskPwMinLength).run secretDb =
      (.ok (), stricterDb) := run_eq_of_fst (by decide +kernel)
  exact h.elsewhere (elsewhere_modifyPolicy (by decide) hmodify)

end Krb5.Kadm5
