import Krb5.Kadm5.Principal
import Krb5.Kdb.TlFacts

/-!
# What the calls on the databases find and leave

One statement for each call: what it has found when it returns, what it leaves in the
databases, and that a call which only reads leaves them alone.
-/

namespace Krb5.Kadm5

open Lib Kdb Silent Name

variable {handle : Handle} {io : Io} {db db' : Db} {pol : PolicyEnt}

theorem silent_getPolicy (name : Option CString) : Silent (kadm5GetPolicy name) := by
  cases name with
  | none => exact fail _
  | some name =>
    refine (failIf _ _).bind fun _ => get.bind fun db => ?_
    cases db.policies.lookup name with
    | none => exact fail _
    | some t => exact pure _

/-- Only names that are not empty are looked up. -/
theorem getPolicy_ok {name : Option CString} :
    (kadm5GetPolicy name).run db = (.ok pol, db') ↔ db' = db ∧ ∃ n t, name = some n ∧
      n.text ≠ [] ∧ db.policies.lookup n = some t ∧ pol = t.ent n := by
  unfold kadm5GetPolicy
  cases name with
  | none => exact ⟨fun h => (nomatch h), fun ⟨_, _, _, h, _⟩ => (nomatch h)⟩
  | some n =>
    rw [run_failIf_bind_eq_ok, run_get_bind]
    cases hlook : db.policies.lookup n with
    | none =>
      refine ⟨fun h => (nomatch h.2), fun ⟨_, n', t, hn, _, ht, _⟩ => ?_⟩
      cases hn
      cases hlook.symm.trans ht
    | some t =>
      constructor
      · rintro ⟨hne, h⟩
        cases h
        exact ⟨rfl, n, t, rfl, by simpa using hne, hlook, rfl⟩
      · rintro ⟨rfl, n', t', hn, hne, ht, rfl⟩
        cases hn
        cases hlook.symm.trans ht
        exact ⟨by simpa using hne, rfl⟩

def Db.withRefcnt (db : Db) (n : CString) (t : OsaPolicyEnt) (count : UInt32) : Db :=
  { db with policies := db.policies.insert n { t with policyRefcnt := count } }

theorem putRefcnt_run {n : CString} {t : OsaPolicyEnt} (hname : pol.policy = some n)
    (hne : n.text ≠ []) (hlook : db.policies.lookup n = some t) :
    (putRefcnt pol).run db = (.ok (), db.withRefcnt n t pol.policyRefcnt.toUInt32) := by
  have hempty : n.text.isEmpty = false := by simpa using hne
  rw [putRefcnt, kadm5ModifyPolicyInternal, hname]
  show ((Action.failIf n.text.isEmpty _ >>= _ : DbCall Unit)).run db = _
  rw [hempty]
  refine (bind_of_ok rfl).trans ((bind_of_ok rfl).trans ((run_get_bind _).trans ?_))
  rw [hlook]
  rfl

/-! ## Principals -/

def Db.put (db : Db) (key : Octets) (entry : DbEntry) : Db :=
  { db with princs := db.princs.insert key entry }

def Db.remove (db : Db) (key : Octets) : Db := { db with princs := db.princs.erase key }

variable {α β : Type} {kdb entry : DbEntry} {adb : OsaPrincEnt} {f : α → DbCall β} {b : β}
  {principal : Principal}

theorem silent_ofKdb (x : Except Kdb.Code α) : Silent (ofKdb x) := ofExcept _

theorem silent_ofName (x : Except Name.Code α) : Silent (ofName x) := ofExcept _

theorem run_ofKdb_bind_eq_ok {x : Except Kdb.Code α} :
    (ofKdb x >>= f).run db = (.ok b, db') ↔ ∃ a, x = .ok a ∧ (f a).run db = (.ok b, db') := by
  rw [ofKdb, run_ofExcept_bind_eq_ok]
  simp [mapError_eq_ok]

theorem run_ofName_bind_eq_ok {x : Except Name.Code α} :
    (ofName x >>= f).run db = (.ok b, db') ↔ ∃ a, x = .ok a ∧ (f a).run db = (.ok b, db') := by
  rw [ofName, run_ofExcept_bind_eq_ok]
  simp [mapError_eq_ok]

theorem ofName_ok_bind (a : α) (f : α → DbCall β) : (ofName (.ok a) >>= f) = f a := rfl

theorem silent_dbGetPrincipal (principal : Principal) : Silent (dbGetPrincipal handle principal) := by
  refine (silent_ofName _).bind fun key => get.bind fun db => ?_
  cases db.princs.lookup key with
  | none => exact fail _
  | some entry => exact (silent_ofName _).bind fun _ => pure _

theorem silent_kdbGetEntry (principal : Principal) : Silent (kdbGetEntry handle principal) :=
  (silent_dbGetPrincipal principal).bind fun _ => (ofExcept _).bind fun _ => pure _

/-- An entry is stored under the key of a name and is read with an admin record. -/
structure ReadAs (handle : Handle) (db : Db) (principal : Principal) (key : Octets)
    (stored kdb : DbEntry) (adb : OsaPrincEnt) : Prop where
  dbkey : encodePrincDbkey principal = .ok key
  lookup : db.princs.lookup key = some stored
  parse : parseName handle.defaultRealm key = .ok kdb.princ
  eq : kdb = { stored with princ := { principal with type := ntPrincipal } }
  record : adminRecord handle stored = .ok adb

theorem kdbGetEntry_ok (h : (kdbGetEntry handle principal).run db = (.ok (kdb, adb), db')) :
    ∃ key stored, ReadAs handle db principal key stored kdb adb := by
  obtain ⟨found, hget, h⟩ := (run_silent_bind_eq_ok (silent_dbGetPrincipal principal)).mp h
  obtain ⟨adb', hadb, h⟩ := run_ofExcept_bind_eq_ok.mp h
  cases h
  obtain ⟨key, hkey, hget⟩ := run_ofName_bind_eq_ok.mp hget
  rw [run_get_bind] at hget
  split at hget
  · cases hget
  rename_i entry hlook
  obtain ⟨princ, hparse, hget⟩ := run_ofName_bind_eq_ok.mp hget
  cases hget
  obtain ⟨-, rfl, -⟩ := parseName_dbkey hkey hparse
  exact ⟨key, entry, hkey, hlook, hparse, rfl, hadb⟩

def modifiedOctets (now : Timestamp) (name : Octets) : Octets :=
  le32 now.toBitVec ++ cstring name ++ [0]

theorem prepared_ok :
    prepared handle io kdb adb = .ok entry ↔ ∃ now name modified record, io.putNow = .ok now ∧
      unparseName handle.currentCaller = .ok name ∧
      tlContents (modifiedOctets now name) = .ok modified ∧
      tlContents (encodeOsaPrincEnt adb) = .ok record ∧
      entry = withTl (withTl kdb ⟨tlModPrinc, modified⟩) ⟨tlKadmData, record⟩ := by
  constructor
  · intro h
    obtain ⟨now, hnow, h⟩ := bind_eq_ok.mp h
    obtain ⟨kdb', hmod, h⟩ := bind_eq_ok.mp h
    obtain ⟨record, hrec, rfl⟩ := dbeUpdateTlData_ok.mp h
    obtain ⟨name, hname, hmod⟩ := bind_eq_ok.mp hmod
    obtain ⟨modified, hmodified, rfl⟩ := dbeUpdateTlData_ok.mp hmod
    exact ⟨now, name, modified, record, hnow, mapError_eq_ok.mp hname, hmodified, hrec, rfl⟩
  · rintro ⟨now, name, modified, record, hnow, hname, hmodified, hrec, rfl⟩
    rw [prepared, hnow, ok_bind, dbeUpdateModPrincData, hname]
    show (dbeUpdateTlData kdb tlModPrinc (modifiedOctets now name) >>= _) = _
    rw [dbeUpdateTlData_ok.mpr ⟨modified, hmodified, rfl⟩, ok_bind]
    exact dbeUpdateTlData_ok.mpr ⟨record, hrec, rfl⟩

theorem careful_kdbPutEntry (kdb : DbEntry) (adb : OsaPrincEnt) :
    Careful (kdbPutEntry handle io kdb adb) :=
  (silent_ofKdb _).bind_careful fun _ => (silent_ofKdb _).bind_careful fun _ =>
    (silent_ofName _).bind_careful fun _ => (silent_ofKdb _).bind_careful fun _ => .modify _

theorem kdbPutEntry_ok : (kdbPutEntry handle io kdb adb).run db = (.ok (), db') ↔
      ∃ entry content key, prepared handle io kdb adb = .ok entry ∧
        encodePrincContents entry = .ok content ∧ encodePrincDbkey entry.princ = .ok key ∧
        io.put = .ok () ∧ db' = db.put key entry := by
  rw [kdbPutEntry]
  simp only [dbPutPrincipal, run_ofKdb_bind_eq_ok, run_ofName_bind_eq_ok, run_modify, Prod.mk.injEq,
    true_and]
  constructor
  · rintro ⟨entry, hprepared, content, hcontent, key, hkey, ⟨⟩, hput, hdb⟩
    exact ⟨entry, content, key, hprepared, hcontent, hkey, hput, hdb.symm⟩
  · rintro ⟨entry, content, key, hprepared, hcontent, hkey, hput, rfl⟩
    exact ⟨entry, hprepared, content, hcontent, key, hkey, (), hput, rfl⟩

/-- What it takes to store an entry: the clock and the database answer, and the name of the
caller fits into an element of typed data. -/
structure Writes (handle : Handle) (io : Io) (now : Timestamp) (name : Octets) : Prop where
  clock : io.putNow = .ok now
  write : io.put = .ok ()
  caller : unparseName handle.currentCaller = .ok name
  short : (cstring name).length + 5 < 2 ^ 15

theorem length_modifiedOctets (now : Timestamp) (name : Octets) :
    (modifiedOctets now name).length = (cstring name).length + 5 := by
  simp only [modifiedOctets, List.length_append, length_le32, List.length_singleton]
  omega

def storedEntry (kdb : DbEntry) (adb : OsaPrincEnt) (now : Timestamp) (name : Octets) : DbEntry :=
  withTl (withTl kdb ⟨tlModPrinc, modifiedOctets now name⟩) ⟨tlKadmData, encodeOsaPrincEnt adb⟩

theorem kdbPutEntry_run {now : Timestamp} {name key : Octets} (hw : Writes handle io now name)
    (hkey : encodePrincDbkey kdb.princ = .ok key) (hlen : kdb.len = v1BaseLength)
    (hrec : (encodeOsaPrincEnt adb).length < 2 ^ 15)
    (hcounted : Counted (storedEntry kdb adb now name)) :
    (kdbPutEntry handle io kdb adb).run db = (.ok (), db.put key (storedEntry kdb adb now name)) := by
  have hmod : (modifiedOctets now name).length < 2 ^ 15 := by
    rw [length_modifiedOctets]
    exact hw.short
  have hprepared : prepared handle io kdb adb = .ok (storedEntry kdb adb now name) :=
    prepared_ok.mpr ⟨now, name, _, _, hw.clock, hw.caller, tlContents_of_lt hmod,
      tlContents_of_lt hrec, rfl⟩
  have hprinc : (storedEntry kdb adb now name).princ = kdb.princ := by
    rw [storedEntry, withTl_eq, withTl_eq]
  have hlen' : (storedEntry kdb adb now name).len = v1BaseLength := by
    rw [storedEntry, withTl_eq, withTl_eq]
    exact hlen
  rw [← hprinc] at hkey
  obtain ⟨content, hcontent⟩ := encodePrincContents_isOk hcounted hlen' (unparseName_of_dbkey hkey)
  exact kdbPutEntry_ok.mpr ⟨_, content, key, hprepared, hcontent, hkey, hw.write, rfl⟩

def clearedEntry (entry : DbEntry) (principal : Principal) : DbEntry :=
  { entry with
    princ := { principal with type := ntPrincipal }
    keyData := entry.keyData.map clearedKey }

/-- The keys are cleared in the entry before it is removed. -/
theorem kdbDeleteEntry_eq {princ : Principal} {key : Octets}
    (hkey : encodePrincDbkey principal = .ok key) (hlook : db.princs.lookup key = some entry)
    (hparse : parseName handle.defaultRealm key = .ok princ) (hcnt : Counted entry)
    (hlen : entry.len = v1BaseLength) :
    (kdbDeleteEntry handle io principal).run db =
      match io.clear, io.del with
      | .error code, _ => (.error (.kdb code), db)
      | .ok (), .error code => (.error (.kdb code), db.put key (clearedEntry entry principal))
      | .ok (), .ok () => (.ok (), (db.put key (clearedEntry entry principal)).remove key) := by
  obtain ⟨-, rfl, hkey'⟩ := parseName_dbkey hkey hparse
  obtain ⟨content, hcontent⟩ : ∃ content,
      encodePrincContents (clearedEntry entry principal) = .ok content :=
    encodePrincContents_isOk (show Counted entry from hcnt) hlen (unparseName_of_dbkey hkey')
  rw [clearedEntry] at hcontent
  rw [kdbDeleteEntry, hkey, ofName_ok_bind, run_get_bind, hlook]
  dsimp only
  rw [hparse, ofName_ok_bind, hcontent]
  cases io.clear with
  | error code => rfl
  | ok u =>
    cases io.del with
    | error code => rfl
    | ok u' => rfl

end Krb5.Kadm5
