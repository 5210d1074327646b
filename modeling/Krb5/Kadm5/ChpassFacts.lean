import Krb5.Kadm5.Chpass
import Krb5.Kadm5.GetFacts

/-!
# What a change of a password reads and leaves

A change that succeeds has stored one entry; one that fails has stored nothing. A key that was
encrypted is read again as it was, so that the comparison with the history is one of keys.
-/

namespace Krb5.Kadm5

open Lib Kdb Silent

variable {handle : Handle} {io : Io} {db db' : Db} {p : Principal} {key : Octets}
  {stored kdb kdb' : DbEntry} {adb adb' : OsaPrincEnt} {pol : Option PolicyEnt} {keepold : Bool}
  {ksTuple : List KeySaltTuple} {word : CString}

/-! ## The call -/

theorem silent_recordPolicy (adb : OsaPrincEnt) : Silent (recordPolicy adb) := by
  rw [recordPolicy]
  split
  · exact (silent_getPolicy _).bind fun _ => pure _
  · exact pure _

theorem recordPolicy_ok : (recordPolicy adb).run db = (.ok pol, db') ↔ db' = db ∧
    if isSet adb.auxAttributes maskPolicy then ∃ n t, adb.policy = some n ∧ n.text ≠ [] ∧
      db.policies.lookup n = some t ∧ pol = some (t.ent n) else pol = none := by
  rw [recordPolicy]
  split
  · rw [run_bind_eq_ok]
    constructor
    · rintro ⟨ent, db₁, hget, h⟩
      obtain ⟨rfl, n, t, hn, hne, ht, rfl⟩ := getPolicy_ok.mp hget
      cases h
      exact ⟨rfl, n, t, hn, hne, ht, rfl⟩
    · rintro ⟨rfl, n, t, hn, hne, ht, rfl⟩
      exact ⟨t.ent n, _, getPolicy_ok.mpr ⟨rfl, n, t, hn, hne, ht, rfl⟩, rfl⟩
  · constructor
    · intro h
      cases h
      exact ⟨rfl, rfl⟩
    · rintro ⟨rfl, rfl⟩
      rfl

theorem ReadAs.chpass (h : ReadAs handle db p key stored kdb adb)
    (hpol : (recordPolicy adb).run db = (.ok pol, db))
    (hother : principalCompare p handle.histPrinc = false) :
    (kadm5ChpassPrincipal3 handle io (some p) keepold ksTuple (some word)).run db =
      match changedPassword handle io p keepold ksTuple word pol kdb adb with
      | .ok (kdb', adb') => (kdbPutEntry handle io kdb' adb').run db
      | .error code => (.error code, db) := by
  show ((Action.failIf _ _ >>= _ : DbCall Unit)).run db = _
  rw [hother]
  show ((kdbGetEntry handle p >>= _ : DbCall Unit)).run db = _
  rw [bind_of_ok h.get]
  rw [bind_of_ok hpol]
  cases changedPassword handle io p keepold ksTuple word pol kdb adb with
  | error code => rfl
  | ok changed => rfl

theorem careful_chpass (principal : Option Principal) (password : Option CString) :
    Careful (kadm5ChpassPrincipal3 handle io principal keepold ksTuple password) := by
  cases principal with
  | none => exact (fail _).careful
  | some p =>
    cases password with
    | none => exact (fail _).careful
    | some word =>
      exact (failIf _ _).bind_careful fun _ => (silent_kdbGetEntry p).bind_careful fun _ =>
        (silent_recordPolicy _).bind_careful fun _ => (ofExcept _).bind_careful fun _ =>
          careful_kdbPutEntry _ _

structure Changed (handle : Handle) (io : Io) (p : Principal) (keepold : Bool)
    (ksTuple : List KeySaltTuple) (word : CString) (db db' : Db) (key : Octets)
    (stored kdb : DbEntry) (adb : OsaPrincEnt) (pol : Option PolicyEnt) (kdb' : DbEntry)
    (adb' : OsaPrincEnt) (stored' : DbEntry) : Prop where
  read : ReadAs handle db p key stored kdb adb
  policy : (recordPolicy adb).run db = (.ok pol, db)
  changed : changedPassword handle io p keepold ksTuple word pol kdb adb = .ok (kdb', adb')
  prepared : prepared handle io kdb' adb' = .ok stored'
  put : db' = db.put key stored'

def repassed (kdb : DbEntry) (keys : List KeyData) (pol : Option PolicyEnt) (now : Timestamp) : DbEntry :=
  withTl { kdb with
    keyData := keys
    attributes := clear kdb.attributes Kdc.kdbRequiresPwchange
    pwExpiration := newExpiration pol now } (pwdChangeTl now)

structure Repassed (handle : Handle) (io : Io) (p : Principal) (keepold : Bool)
    (ksTuple : List KeySaltTuple) (word : CString) (pol : Option PolicyEnt) (kdb : DbEntry)
    (adb : OsaPrincEnt) (keys : List KeyData) (now : Timestamp) (kdb' : DbEntry)
    (adb' : OsaPrincEnt) : Prop where
  quality : passwdCheck handle word pol p = .ok ()
  keyed : keyedEntry handle kdb ksTuple word 0 keepold = .ok { kdb with keyData := keys }
  clock : io.now = .ok now
  history : historyUnder handle pol kdb.keyData keys adb = .ok adb'
  entry : kdb' = repassed kdb keys pol now

theorem changedPassword_ok
    (h : changedPassword handle io p keepold ksTuple word pol kdb adb = .ok (kdb', adb')) :
    ∃ keys now, Repassed handle io p keepold ksTuple word pol kdb adb keys now kdb' adb' := by
  obtain ⟨_, hqual, h⟩ := bind_eq_ok.mp h
  obtain ⟨keyed, hkeyed, h⟩ := bind_eq_ok.mp h
  obtain ⟨now, hnow, h⟩ := bind_eq_ok.mp h
  obtain ⟨adb₁, hhistory, h⟩ := bind_eq_ok.mp h
  obtain ⟨changed, hchanged, h⟩ := bind_eq_ok.mp h
  cases h
  rw [mapError_eq_ok] at hkeyed hnow hchanged
  obtain ⟨keys, rfl⟩ := keyedEntry_ok hkeyed
  rw [dbeUpdateLastPwdChange_eq, Except.ok.injEq] at hchanged
  exact ⟨keys, now, hqual, hkeyed, hnow, hhistory, hchanged.symm⟩

theorem chpass_ok (h : (kadm5ChpassPrincipal3 handle io (some p) keepold ksTuple (some word)).run db =
      (.ok (), db')) :
    principalCompare p handle.histPrinc = false ∧ ∃ key stored kdb adb pol kdb' adb' stored',
      Changed handle io p keepold ksTuple word db db' key stored kdb adb pol kdb' adb' stored' := by
  obtain ⟨hother, h⟩ := run_failIf_bind_eq_ok.mp h
  obtain ⟨⟨kdb, adb⟩, hget, h⟩ := (run_silent_bind_eq_ok (silent_kdbGetEntry p)).mp h
  obtain ⟨pol, hpol, h⟩ := (run_silent_bind_eq_ok (silent_recordPolicy adb)).mp h
  obtain ⟨⟨kdb', adb'⟩, hchanged, h⟩ := run_ofExcept_bind_eq_ok.mp h
  obtain ⟨key, stored, hread⟩ := kdbGetEntry_ok hget
  obtain ⟨stored', content, key', hprepared, -, hkey', -, rfl⟩ := kdbPutEntry_ok.mp h
  refine ⟨hother, key, stored, kdb, adb, pol, kdb', adb', stored', hread, hpol, hchanged, hprepared, ?_⟩
  obtain ⟨keys, now, hrepassed⟩ := changedPassword_ok hchanged
  have hprinc : stored'.princ = kdb.princ := by
    obtain ⟨_, _, _, _, -, -, -, -, rfl⟩ := prepared_ok.mp hprepared
    rw [withTl_eq, withTl_eq, hrepassed.entry, repassed, withTl_eq]
  rw [hprinc] at hkey'
  obtain ⟨-, -, hkey⟩ := Name.parseName_dbkey hread.dbkey hread.parse
  cases hkey.symm.trans hkey'
  rfl

section Reread

variable {stored' : DbEntry} {keys : List KeyData} {now : Timestamp}
  (h : Changed handle io p keepold ksTuple word db db' key stored kdb adb pol kdb' adb' stored')
include h

theorem Changed.reread (hlen : (encodeOsaPrincEnt adb').length < 2 ^ 16) :
    ReadAs handle db' p key stored' { stored' with princ := { p with type := Name.ntPrincipal } }
      adb'.saved := by
  have hparse := h.read.parse
  rw [h.read.eq] at hparse
  refine ⟨h.read.dbkey, ?_, hparse, rfl, ?_⟩
  · rw [h.put]
    exact AList.lookup_insert _
  · obtain ⟨_, _, _, record, -, -, -, hrec, rfl⟩ := prepared_ok.mp h.prepared
    obtain ⟨hshort, rfl⟩ := tlContents_ok hrec hlen
    exact adminRecord_of_data (lookup_kadmData _) hshort

theorem Changed.fields
    (hrepassed : Repassed handle io p keepold ksTuple word pol kdb adb keys now kdb' adb') :
    stored'.keyData = keys ∧
      stored'.attributes = clear kdb.attributes Kdc.kdbRequiresPwchange := by
  obtain ⟨_, _, _, _, -, -, -, -, rfl⟩ := prepared_ok.mp h.prepared
  rw [withTl_eq, withTl_eq, hrepassed.entry, repassed, withTl_eq]
  exact ⟨rfl, rfl⟩

end Reread

end Krb5.Kadm5
