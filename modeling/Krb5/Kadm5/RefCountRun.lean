import Krb5.Kadm5.RefCount

/-!
# Reference counts over sequences of calls

Each call on the databases keeps the counts right, as long as nothing stops it between its
writes. `Undisturbed` says for each call what that takes.
-/

namespace Krb5.Kadm5

open Lib Kdb Name AList

inductive PrincCall
  | createPrincipal (entry : PrincipalEntRec) (mask : Mask) (ksTuple : List KeySaltTuple)
      (password : Option CString)
  | modifyPrincipal (entry : PrincipalEntRec) (mask : Mask)
  | deletePrincipal (principal : Option Principal)
  | renamePrincipal (source target : Option Principal)
  | createPolicy (entry : PolicyEnt) (mask : Mask)
  | modifyPolicy (entry : PolicyEnt) (mask : Mask)
  | deletePolicy (name : Option CString)

structure Served where
  handle : Handle
  io : Io
  call : PrincCall

def Served.run (s : Served) : DbCall Unit :=
  match s.call with
  | .createPrincipal entry mask ksTuple password =>
    kadm5CreatePrincipal3 s.handle s.io entry mask ksTuple password
  | .modifyPrincipal entry mask => kadm5ModifyPrincipal s.handle s.io entry mask
  | .deletePrincipal principal => kadm5DeletePrincipal s.handle s.io principal
  | .renamePrincipal source target => kadm5RenamePrincipal s.handle s.io source target
  | .createPolicy entry mask => kadm5CreatePolicy entry mask
  | .modifyPolicy entry mask => kadm5ModifyPolicy entry mask
  | .deletePolicy name => kadm5DeletePolicy name

def Io.Removes (io : Io) : Prop := io.clear = .ok () ∧ io.del = .ok ()

def NamedAt (db : Db) (principal : Principal) (entry : DbEntry) : Prop :=
  ∃ key, encodePrincDbkey principal = .ok key ∧ db.princs.lookup key = some entry

/-- What it takes to store a modified entry: it can be written, the admin record fits into an
element of typed data, and a new list of typed data has the length that it is said to have. -/
structure Stores (handle : Handle) (io : Io) (entry : PrincipalEntRec) (mask : Mask)
    (adb : OsaPrincEnt) : Prop where
  writes : ∃ now name, Writes handle io now name
  record : isSet mask maskPolicy = true → ∀ n, entry.policy = some n →
    (encodeOsaPrincEnt (naming adb n)).length < 2 ^ 15
  counted : isSet mask maskTlData = true → (entry.tlData.length : Int) = entry.nTlData.toInt ∧
    entry.tlData.length + 2 < 2 ^ 15

/-- What a call needs to keep the counts right. -/
def PrincCall.Undisturbed (handle : Handle) (io : Io) (db : Db) : PrincCall → Prop
  | .createPrincipal entry mask _ _ => isSet mask maskPolicy = true →
      db.princs.entries.length + 1 < 2 ^ 32 ∧
        (isSet mask maskTlData = true → entry.tlData ≠ []) ∧
        (encodeOsaPrincEnt (newAdb handle entry mask)).length < 2 ^ 16
  | .modifyPrincipal entry mask => ∀ principal stored adb, entry.principal = some principal →
      NamedAt db principal stored → adminRecord handle stored = .ok adb →
        policyAfter entry mask adb.named ≠ adb.named →
          db.princs.entries.length + 1 < 2 ^ 32 ∧ Stores handle io entry mask adb
  | .deletePrincipal principal => ∀ p stored, principal = some p → NamedAt db p stored →
      policyOf stored ≠ none → io.Removes
  | .renamePrincipal source target =>
    (∀ p stored, target = some p → NamedAt db p stored → p.realm ≠ []) ∧
      ∀ p stored, source = some p → NamedAt db p stored → policyOf stored ≠ none → io.Removes
  | .createPolicy _ _ => True
  | .modifyPolicy _ _ => True
  | .deletePolicy _ => True

variable {handle : Handle} {io : Io} {db db' : Db} {entry : PrincipalEntRec} {mask : Mask}

def Keeps (x : DbCall Unit) (db : Db) : Prop := Consistent (x.run db).2

variable {key : Octets} {stored kdb : DbEntry} {adb : OsaPrincEnt} {n : CString}

section ReadAs

variable {principal : Principal}

variable (h : ReadAs handle db principal key stored kdb adb)
include h

theorem ReadAs.policyAt :
    policyAt db key = adb.named := by
  rw [policyAt_of_lookup h.lookup, policyOf_of_adminRecord h.record]

theorem ReadAs.length_record (hdb : Sound db) :
    (encodeOsaPrincEnt adb).length < 2 ^ 15 := by
  obtain ⟨adb', hadb', hlen⟩ := (hdb.kept key stored h.lookup).adminRecord handle
  cases hadb'.symm.trans h.record
  exact hlen

theorem ReadAs.namedAt :
    NamedAt db principal stored := ⟨key, h.dbkey, h.lookup⟩

end ReadAs

theorem policyAt_of_free (h : db.princs.lookup key = none) : policyAt db key = none := by
  rw [policyAt, h]
  rfl

/-! ## Creation -/

section

variable {principal : Principal} (hdb : Consistent db) (hkey : encodePrincDbkey principal = .ok key)
  (hprinc : kdb.princ = principal) (hfree : db.princs.lookup key = none)
include hdb hkey hprinc hfree

theorem storeNew_keeps {db₁ : Db} {polent : Option PolicyEnt}
    (hcounted : Recounted db db₁ none adb.named) (hlen : (encodeOsaPrincEnt adb).length < 2 ^ 16)
    (hback : ∀ pol, polent = some pol → Consistent ((putRefcnt pol).run db₁).2)
    (hnone : polent = none → adb.named = none) : Keeps (storeNew handle io kdb adb polent) db₁ := by
  rw [Keeps]
  simp only [storeNew]
  rcases hrun : (kdbPutEntry handle io kdb adb).run db₁ with ⟨code | u, db₂⟩
  · cases careful_kdbPutEntry kdb adb hrun
    cases polent with
    | none =>
      rw [hnone rfl] at hcounted
      exact hdb.of_balanced hcounted.balanced (hcounted.sound hdb.toSound)
    | some pol => exact hback pol rfl
  · obtain ⟨stored, content, key', hprepared, hcontent, hkey', -, rfl⟩ := kdbPutEntry_ok.mp hrun
    obtain ⟨hkept, hpol, hprinc'⟩ := kept_of_put hprepared hcontent hlen
    rw [hprinc', hprinc, hkey, Except.ok.injEq] at hkey'
    subst hkey'
    refine hdb.of_balanced ?_ ((hcounted.sound hdb.toSound).put hkept key)
    apply Recounted.balanced_put
    rw [policyAt_of_free hfree, hpol]
    exact hcounted

theorem countAndStore_keeps_none (hmask : isSet mask maskPolicy = false) :
    Keeps (countAndStore handle io kdb entry mask none) db := by
  have hnamed : (newAdb handle entry mask).named = none := by
    rw [named_newAdb, hmask]
    rfl
  have hlen : (encodeOsaPrincEnt (newAdb handle entry mask)).length < 2 ^ 16 := by
    rw [length_newAdb hmask]
    decide
  show Consistent ((Action.ofExcept (spliceTlData kdb entry mask) >>= fun kdb =>
    storeNew handle io kdb (newAdb handle entry mask) none).run db).2
  cases hsplice : spliceTlData kdb entry mask with
  | error code => exact hdb
  | ok kdb' =>
    show Keeps (storeNew handle io kdb' (newAdb handle entry mask) none) db
    refine storeNew_keeps hdb hkey ((spliceTlData_ok hsplice).trans hprinc) hfree ?_ hlen
      (fun _ h => by cases h) fun _ => hnamed
    rw [hnamed]
    exact .refl hdb.toSound none

/-- A policy is counted before the entry is stored, and put back if that fails. -/
theorem countAndStore_keeps_some {t : OsaPolicyEnt} (hmask : isSet mask maskPolicy)
    (hn : entry.policy = some n) (ht : db.policies.lookup n = some t)
    (hroom : db.princs.entries.length + 1 < 2 ^ 32)
    (hlist : isSet mask maskTlData → entry.tlData ≠ [])
    (hlen : (encodeOsaPrincEnt (newAdb handle entry mask)).length < 2 ^ 16) :
    Keeps (countAndStore handle io kdb entry mask (some (t.ent n))) db := by
  have hnamed : (newAdb handle entry mask).named = some n := by
    rw [named_newAdb, if_pos hmask, hn]
  have hsplice : ∃ kdb', spliceTlData kdb entry mask = .ok kdb' := by
    rw [spliceTlData]
    split
    · rename_i htl
      exact ⟨_, if_neg (by simpa using hlist htl)⟩
    · exact ⟨_, rfl⟩
  obtain ⟨kdb', hsplice⟩ := hsplice
  have hcnt : t.policyRefcnt.toNat + 1 < 2 ^ 32 := by
    have := refs_le db n
    have := hdb.toNat_policyRefcnt ht
    omega
  obtain ⟨db₁, hrun, hup⟩ := countUp ht hdb.toSound hcnt
  have hwrite : (writeCount ((some (t.ent n)).map (counted · 1))).run db = (.ok (), db₁) := hrun
  rw [Keeps, countAndStore, bind_of_ok hwrite, hsplice]
  show Keeps (storeNew handle io kdb' (newAdb handle entry mask) (some (t.ent n))) db₁
  refine storeNew_keeps hdb hkey ((spliceTlData_ok hsplice).trans hprinc) hfree ?_ hlen
    (fun pol hpol => ?_) fun h => by cases h
  · rw [hnamed]
    exact hup
  · cases hpol
    exact countBack ht hdb hup

end

theorem createPrincipal_keeps {ksTuple : List KeySaltTuple} {password : Option CString}
    (hdb : Consistent db)
    (h : (PrincCall.createPrincipal entry mask ksTuple password).Undisturbed handle io db) :
    Keeps (kadm5CreatePrincipal3 handle io entry mask ksTuple password) db := by
  refine (silent_createdEntry ksTuple password).bind_state hdb fun ⟨kdb, polent⟩ hrun => ?_
  obtain ⟨word, principal, now, -, hchecks⟩ := createdEntry_ok hrun
  obtain ⟨key, hkey, hfree⟩ := hchecks.free
  have hpol := requestedPolicy_ok hchecks.policy
  split at hpol
  · rename_i hmask
    obtain ⟨n, t, hn, -, ht, rfl⟩ := hpol
    obtain ⟨hroom, hlist, hlen⟩ := h hmask
    exact countAndStore_keeps_some hdb hkey hchecks.princ hfree hmask hn ht hroom hlist hlen
  · rename_i hmask
    subst hpol
    exact countAndStore_keeps_none hdb hkey hchecks.princ hfree (by simpa using hmask)

/-! ## Removal and renaming -/

theorem Kept.cleared (h : Kept stored) (principal : Principal) :
    Kept (clearedEntry stored principal) := ⟨h.counted, h.len, h.modPrinc, h.record⟩

theorem kdbDeleteEntry_keeps {db₁ : Db} {principal princ : Principal} (hdb : Consistent db)
    (hcounted : Recounted db db₁ (policyAt db key) none)
    (hkey : encodePrincDbkey principal = .ok key) (hlook : db.princs.lookup key = some stored)
    (hparse : parseName handle.defaultRealm key = .ok princ)
    (hremoves : policyAt db key ≠ none → io.Removes) :
    Keeps (kdbDeleteEntry handle io principal) db₁ := by
  have hkept := hdb.kept key stored hlook
  have hsound := hcounted.sound hdb.toSound
  have hlook₁ : db₁.princs.lookup key = some stored := by rw [hcounted.princs, hlook]
  -- nothing or only the first write has been done: then no policy was named
  have hstopped (h : policyAt db key = none) (db₂ : Db)
      (hdb₂ : db₂ = db₁ ∨ db₂ = db₁.put key (clearedEntry stored principal)) : Consistent db₂ := by
    have hnone : policyOf (clearedEntry stored principal) = none :=
      (policyAt_of_lookup hlook).symm.trans h
    rcases hdb₂ with rfl | rfl
    · rw [h] at hcounted
      exact hdb.of_balanced hcounted.balanced hsound
    · refine hdb.of_balanced (Recounted.balanced_put ?_) (hsound.put (hkept.cleared principal) key)
      rw [hnone]
      exact hcounted
  rw [Keeps, kdbDeleteEntry_eq hkey hlook₁ hparse hkept.counted hkept.len]
  cases hclear : io.clear with
  | error code =>
    refine hstopped (by_contra fun h => ?_) _ (.inl rfl)
    cases hclear.symm.trans (hremoves h).1
  | ok u =>
    cases hdel : io.del with
    | error code =>
      refine hstopped (by_contra fun h => ?_) _ (.inr rfl)
      cases hdel.symm.trans (hremoves h).2
    | ok u =>
      exact hdb.of_balanced hcounted.balanced_remove ((hsound.put (hkept.cleared principal) key).remove key)

/-- The count of the policy goes down with the entry. -/
theorem deletePrincipal_keeps {principal : Option Principal} (hdb : Consistent db)
    (h : (PrincCall.deletePrincipal principal).Undisturbed handle io db) :
    Keeps (kadm5DeletePrincipal handle io principal) db := by
  cases principal with
  | none => exact hdb
  | some p =>
    refine (silent_kdbGetEntry p).bind_state hdb fun ⟨kdb, adb⟩ hrun => ?_
    obtain ⟨key, stored, hread⟩ := kdbGetEntry_ok hrun
    have hremoves : policyAt db key ≠ none → io.Removes := fun hne =>
      h p stored rfl hread.namedAt (policyAt_of_lookup hread.lookup ▸ hne)
    dsimp only
    split
    · rename_i haux
      cases hpol : adb.policy with
      | none => exact hdb
      | some n =>
        have hnamed : policyAt db key = some n := by
          rw [hread.policyAt, OsaPrincEnt.named, if_pos haux, hpol]
        obtain ⟨t, ht, hpos⟩ := hdb.lookup_policyOf hread.lookup
          ((policyAt_of_lookup hread.lookup).symm.trans hnamed)
        obtain ⟨db₁, hdown, hcounted⟩ := countDown ht hdb.toSound hpos
        have hget : ((kadm5GetPolicy (some n)).mapError fun _ => .fault).run db =
            (.ok (t.ent n), db) :=
          run_mapError_eq_ok.mpr (getPolicy_ok.mpr ⟨rfl, n, t, rfl, hdb.named n t ht, ht, rfl⟩)
        rw [bind_of_ok hget, bind_of_ok hdown]
        rw [← hnamed] at hcounted
        exact kdbDeleteEntry_keeps hdb hcounted hread.dbkey hread.lookup hread.parse hremoves
    · rename_i haux
      have hnamed : policyAt db key = none := by
        rw [hread.policyAt, OsaPrincEnt.named, if_neg haux]
      refine kdbDeleteEntry_keeps hdb ?_ hread.dbkey hread.lookup hread.parse hremoves
      rw [hnamed]
      exact .refl hdb.toSound none

theorem balanced_rename {key' : Octets} {stored' cleared : DbEntry}
    (hlook : db.princs.lookup key = some stored) (hfree : db.princs.lookup key' = none)
    (hsame : policyOf stored' = policyOf stored) :
    Balanced db (((db.put key' stored').put key cleared).remove key) := by
  intro n
  have hne : key ≠ key' := by
    rintro rfl
    cases hlook.symm.trans hfree
  have hat : policyAt (db.put key' stored') key = policyOf stored := by
    rw [policyAt, Db.put, lookup_insert_ne hne, hlook]
    rfl
  have hput : refs (db.put key' stored') n + _ = _ := refs_put key' stored' n
  have hclear : refs ((db.put key' stored').put key cleared) n + _ = _ := refs_put key cleared n
  have hremove : refs (((db.put key' stored').put key cleared).remove key) n + _ = _ :=
    refs_remove key n
  rw [policyAt_of_free hfree, tally_none, hsame] at hput
  rw [hat] at hclear
  rw [policyAt_put] at hremove
  have hcnt : refcnt (((db.put key' stored').put key cleared).remove key) n = refcnt db n := rfl
  omega

theorem kdbGetEntry_of_kept (handle : Handle) {p : Principal} (hkey : encodePrincDbkey p = .ok key)
    (hlook : db.princs.lookup key = some stored) (hkept : Kept stored) (hrealm : p.realm ≠ []) :
    ∃ r, (kdbGetEntry handle p).run db = (.ok r, db) := by
  obtain ⟨realm, data, type⟩ := p
  obtain ⟨d, ds, hdata, rfl⟩ := encodePrincDbkey_ok hkey
  cases hdata
  obtain ⟨adb, hrec, -⟩ := hkept.adminRecord handle
  refine ⟨({ stored with princ := ⟨realm, d :: ds, ntPrincipal⟩ }, adb), ?_⟩
  have hget : (dbGetPrincipal handle ⟨realm, d :: ds, type⟩).run db =
      (.ok { stored with princ := ⟨realm, d :: ds, ntPrincipal⟩ }, db) := by
    rw [dbGetPrincipal, hkey, ofName_ok_bind, run_get_bind, hlook]
    rw [parseName_nameText _ d ds hrealm]
    rfl
  have hrec' : adminRecord handle
      { stored with princ := ⟨realm, d :: ds, ntPrincipal⟩ } = .ok adb := hrec
  rw [kdbGetEntry, bind_of_ok hget, hrec']
  rfl

theorem renamed_keeps {source : Principal} {key' : Octets} {entry' : DbEntry} (hdb : Consistent db)
    (hread : ReadAs handle db source key stored kdb adb) (hkept : Kept entry')
    (hpol : policyOf entry' = adb.named) (hfree : db.princs.lookup key' = none)
    (hremoves : policyOf stored ≠ none → io.Removes) :
    Keeps (kdbDeleteEntry handle io source) (db.put key' entry') := by
  have hstored := hdb.kept key stored hread.lookup
  have hnamed : policyOf stored = adb.named := policyOf_of_adminRecord hread.record
  have hne : key ≠ key' := by
    rintro rfl
    cases hread.lookup.symm.trans hfree
  have hlook : (db.put key' entry').princs.lookup key = some stored := by
    rw [Db.put, lookup_insert_ne hne, hread.lookup]
  by_cases hnone : adb.named = none
  · have hput : Consistent (db.put key' entry') := by
      refine hdb.of_balanced (Recounted.balanced_put ?_) (hdb.toSound.put hkept key')
      rw [policyAt_of_free hfree, hpol, hnone]
      exact .refl hdb.toSound none
    have hat : policyAt (db.put key' entry') key = none := by
      rw [policyAt_of_lookup hlook, hnamed, hnone]
    refine kdbDeleteEntry_keeps hput ?_ hread.dbkey hlook hread.parse fun h => absurd hat h
    rw [hat]
    exact .refl hput.toSound none
  · obtain ⟨hclear, hdel⟩ := hremoves (hnamed ▸ hnone)
    rw [Keeps, kdbDeleteEntry_eq hread.dbkey hlook hread.parse hstored.counted hstored.len, hclear,
      hdel]
    refine hdb.of_balanced (balanced_rename hread.lookup hfree (hpol.trans hnamed.symm)) ?_
    exact ((hdb.toSound.put hkept key').put (hstored.cleared source) key).remove key

/-- For a moment the policy is named by both entries. -/
theorem renamePrincipal_keeps {source target : Option Principal} (hdb : Consistent db)
    (h : (PrincCall.renamePrincipal source target).Undisturbed handle io db) :
    Keeps (kadm5RenamePrincipal handle io source target) db := by
  obtain ⟨htgt, hsrc⟩ := h
  cases source with
  | none => exact hdb
  | some source =>
    cases target with
    | none => exact hdb
    | some target =>
      have hattempt : (kdbGetEntry handle target).attempt.run db =
          (.ok ((kdbGetEntry handle target).run db).1.toOption, db) :=
        Prod.ext rfl (silent_kdbGetEntry target db)
      rw [Keeps, kadm5RenamePrincipal, bind_of_ok hattempt]
      cases hfound : ((kdbGetEntry handle target).run db).1 with
      | ok r => exact hdb
      | error code =>
        refine (silent_kdbGetEntry source).bind_state hdb fun ⟨kdb, adb⟩ hrun => ?_
        obtain ⟨key, stored, hread⟩ := kdbGetEntry_ok hrun
        dsimp only
        cases kdb.keyData.any saltedByName with
        | true => exact hdb
        | false =>
          refine (careful_kdbPutEntry _ adb).bind_state hdb fun _ _ hput => ?_
          obtain ⟨entry', content, key', hprepared, hcontent, hkey', -, rfl⟩ :=
            kdbPutEntry_ok.mp hput
          have hlen := hread.length_record hdb.toSound
          obtain ⟨hkept, hpol, hprinc⟩ := kept_of_put hprepared hcontent (by omega)
          rw [hprinc] at hkey'
          -- a target that is stored could have been read
          have hfree : db.princs.lookup key' = none := by
            cases hlook : db.princs.lookup key' with
            | none => rfl
            | some stored' =>
              have hrealm := htgt target stored' rfl ⟨key', hkey', hlook⟩
              obtain ⟨r, hr⟩ := kdbGetEntry_of_kept handle hkey' hlook
                (hdb.kept key' stored' hlook) hrealm
              rw [hr] at hfound
              cases hfound
          exact renamed_keeps hdb hread hkept hpol hfree
            (hsrc source stored rfl hread.namedAt)

/-! ## Modification -/

section Modification

variable {principal : Principal} {change : PolicyChange}

/-- The old policy loses one and the new one gains one. -/
theorem writeCounts_recounted (hdb : Consistent db)
    (hread : ReadAs handle db principal key stored kdb adb)
    (h : PolicyChanged entry mask kdb adb db change)
    (hroom : change.adb.named ≠ adb.named → db.princs.entries.length + 1 < 2 ^ 32) :
    ∃ db₁, (writeCounts change).run db = (.ok (), db₁) ∧
      Recounted db db₁ adb.named change.adb.named := by
  have hbelow {n : CString} {t : OsaPolicyEnt} (ht : db.policies.lookup n = some t)
      (hchange : change.adb.named ≠ adb.named) : t.policyRefcnt.toNat + 1 < 2 ^ 32 := by
    have := refs_le db n
    have := hdb.toNat_policyRefcnt ht
    have := hroom hchange
    omega
  -- a policy that was named is stored
  have hformer {f : CString} (hf : adb.named = some f) :
      ∃ t, db.policies.lookup f = some t ∧ 0 < t.policyRefcnt.toNat :=
    hdb.lookup_policyOf hread.lookup ((policyOf_of_adminRecord hread.record).trans hf)
  cases h with
  | untouched => exact ⟨db, rfl, .refl hdb.toSound _⟩
  | @first n t hset hn hne ht haux =>
    rw [named_naming, named_of_not_aux haux] at hbelow ⊢
    obtain ⟨db₁, hrun, hup⟩ := countUp ht hdb.toSound (hbelow ht (Option.some_ne_none n))
    exact ⟨db₁, hrun, hup⟩
  | @again n t hset hn hne ht haux hf =>
    rw [named_naming, named_of_aux haux, hf]
    exact countSame ht hdb.toSound _
  | @other n f t opol hset hn hne ht haux hf hother hopol =>
    rw [named_naming, named_of_aux haux, hf] at hbelow ⊢
    rw [named_of_aux haux, hf] at hformer
    obtain ⟨t', ht', hpos⟩ := hformer rfl
    have hget : (kadm5GetPolicy adb.policy).run db = (.ok (t'.ent f), db) := by
      rw [hf]
      exact getPolicy_ok.mpr ⟨rfl, f, t', rfl, hdb.named f t' ht', ht', rfl⟩
    have hopol' : opol = some (t'.ent f) := by
      rw [formerPolicy, run_attempt_eq_ok, hget] at hopol
      exact hopol.1.symm
    subst hopol'
    obtain ⟨db₁, hdown, hrecounted⟩ := countDown ht' hdb.toSound hpos
    have ht₁ : db₁.policies.lookup n = some t := by
      rw [putRefcnt_run rfl (hdb.named f t' ht') ht'] at hdown
      cases hdown
      rw [Db.withRefcnt, lookup_insert_ne (Ne.symm hother), ht]
    obtain ⟨db₂, hrun, hup⟩ := countUp ht₁ (hrecounted.sound hdb.toSound)
      (hbelow ht (by simpa using Ne.symm hother))
    exact ⟨db₂, (bind_of_ok hdown).trans hrun, hrecounted.trans hup⟩
  | @cleared f t hset hclr haux hf hne ht =>
    rw [named_unnaming, named_of_aux haux, hf]
    rw [named_of_aux haux, hf] at hformer
    obtain ⟨t', ht', hpos⟩ := hformer rfl
    cases ht.symm.trans ht'
    obtain ⟨db₁, hdown, hrecounted⟩ := countDown ht hdb.toSound hpos
    exact ⟨db₁, (bind_of_ok hdown).trans rfl, hrecounted⟩

theorem counted_changed (hstored : Kept stored) (hkdb : kdb.tlData = stored.tlData ∧
      kdb.nTlData = stored.nTlData) (hstores : Stores handle io entry mask adb)
    (modified record : Octets) :
    Counted (withTl (withTl (changedEntry kdb entry mask) ⟨tlModPrinc, modified⟩)
      ⟨tlKadmData, record⟩) := by
  cases hmask : isSet mask maskTlData with
  | false =>
    have htl : (changedEntry kdb entry mask).tlData = stored.tlData :=
      (requestOr_of_not_set hmask _ _).trans hkdb.1
    have hn : (changedEntry kdb entry mask).nTlData = stored.nTlData :=
      (requestOr_of_not_set hmask _ _).trans hkdb.2
    have hcounted : Counted (changedEntry kdb entry mask) := by
      rw [Counted, htl, hn]
      exact hstored.counted
    refine (hcounted.withTl_of_any ?_).withTl_of_any ?_
    · rw [htl]
      exact hstored.modPrinc
    · rw [any_withTl, htl, hstored.any_kadmData]
      exact Bool.or_true _
  | true =>
    obtain ⟨hcnt, hroom⟩ := hstores.counted hmask
    have htl : (changedEntry kdb entry mask).tlData = entry.tlData.reverse :=
      requestOr_of_set hmask _ _
    have hn : (changedEntry kdb entry mask).nTlData = entry.nTlData := requestOr_of_set hmask _ _
    have hcounted : Counted (changedEntry kdb entry mask) := by
      rw [Counted, htl, hn, List.length_reverse]
      exact hcnt
    have hlen : (changedEntry kdb entry mask).tlData.length = entry.tlData.length := by
      rw [htl, List.length_reverse]
    obtain ⟨hfirst, hle⟩ := hcounted.withTl ⟨tlModPrinc, modified⟩ (by omega)
    exact (hfirst.withTl _ (by omega)).1

/-- Counts are written before the entry, which then has to be stored. -/
theorem modifyPrincipal_keeps (hdb : Consistent db)
    (h : (PrincCall.modifyPrincipal entry mask).Undisturbed handle io db) :
    Keeps (kadm5ModifyPrincipal handle io entry mask) db := by
  refine silent_requestedChange.bind_state hdb fun change hrun => ?_
  obtain ⟨principal, kdb, adb, hchecks⟩ := requestedChange_ok hrun
  obtain ⟨key, stored, hread⟩ := kdbGetEntry_ok hchecks.found
  have hstores (hne : change.adb.named ≠ adb.named) :
      db.princs.entries.length + 1 < 2 ^ 32 ∧ Stores handle io entry mask adb :=
    h principal stored adb hchecks.named hread.namedAt hread.record
      (hchecks.changed.named_eq ▸ hne)
  have hlen := hchecks.changed.length_record (hread.length_record hdb.toSound)
    fun hne => (hstores hne).2.record
  obtain ⟨db₁, hcounts, hrecounted⟩ :=
    writeCounts_recounted hdb hread hchecks.changed fun hne => (hstores hne).1
  rw [bind_of_ok hcounts]
  have hkdb := hchecks.changed.kdb_eq
  have hprinc : (changedEntry change.kdb entry mask).princ = kdb.princ := by
    rw [hkdb]
    rfl
  obtain ⟨-, -, hkey⟩ := parseName_dbkey hread.dbkey hread.parse
  rcases hput : (kdbPutEntry handle io (changedEntry change.kdb entry mask) change.adb).run db₁
    with ⟨code | u, db₂⟩
  · cases careful_kdbPutEntry _ _ hput
    -- a change of the policy would have been stored
    by_cases hsame : change.adb.named = adb.named
    · rw [hsame] at hrecounted
      exact hdb.of_balanced hrecounted.balanced (hrecounted.sound hdb.toSound)
    have hstored := hdb.kept key stored hread.lookup
    obtain ⟨now, name, hwrites⟩ := (hstores hsame).2.writes
    have hput' : (kdbPutEntry handle io (changedEntry change.kdb entry mask) change.adb).run db₁ =
        (.ok (), _) :=
      kdbPutEntry_run hwrites (hprinc ▸ hkey) (by rw [hkdb, hread.eq]; exact hstored.len) hlen
        (counted_changed hstored (by rw [hkdb, hread.eq]; exact ⟨rfl, rfl⟩) (hstores hsame).2 _ _)
    cases hput.symm.trans hput'
  · obtain ⟨entry', content, key', hprepared, hcontent, hkey', -, rfl⟩ := kdbPutEntry_ok.mp hput
    obtain ⟨hkept, hpol, hprinc'⟩ := kept_of_put hprepared hcontent (by omega)
    rw [hprinc', hprinc, hkey, Except.ok.injEq] at hkey'
    subst hkey'
    refine hdb.of_balanced (Recounted.balanced_put ?_)
      ((hrecounted.sound hdb.toSound).put hkept key)
    rw [hpol, hread.policyAt]
    exact hrecounted

end Modification

/-! ## Policies -/

section Policies

variable {pol : PolicyEnt} {name : Option CString}

theorem Consistent.policies {policies : Table CString OsaPolicyEnt} (hdb : Consistent db)
    (hcnt : ∀ n, refcnt { db with policies := policies } n = refcnt db n)
    (hnamed : ∀ n t, policies.lookup n = some t → n.text ≠ []) :
    Consistent { db with policies := policies } := by
  refine hdb.of_balanced (fun n => ?_) ⟨hdb.kept, hnamed⟩
  rw [hcnt]
  rfl

theorem Consistent.insertPolicy {t : OsaPolicyEnt} (hdb : Consistent db) (hne : n.text ≠ [])
    (hcnt : t.policyRefcnt.toNat = refcnt db n) :
    Consistent { db with policies := db.policies.insert n t } := by
  refine hdb.policies (fun m => ?_) (hdb.toSound.insertPolicy hne _).named
  rw [refcnt]
  by_cases hm : m = n
  · rw [hm, lookup_insert, Option.elim_some, hcnt]
  · rw [lookup_insert_ne hm, refcnt]

theorem refcnt_changedPolicy (hmask : isSet mask maskRefCount = false) (p : OsaPolicyEnt) :
    (changedPolicy p pol mask).policyRefcnt = p.policyRefcnt := by
  show fieldOr mask maskRefCount _ _ = _
  rw [fieldOr, hmask]
  rfl

theorem createPolicy_keeps (hdb : Consistent db) : Keeps (kadm5CreatePolicy pol mask) db := by
  rw [Keeps]
  rcases hrun : (kadm5CreatePolicy pol mask).run db with ⟨code | u, db₁⟩
  · cases (careful_policyCall (.create pol mask)) hrun
    exact hdb
  obtain ⟨hmask, hrun⟩ := run_failIf_bind_eq_ok.mp hrun
  obtain ⟨n, -, hne, hfree, -, -, rfl⟩ := createPolicyInternal_ok hrun
  refine hdb.insertPolicy hne ?_
  rw [refcnt, hfree, newPolicy_eq, refcnt_changedPolicy hmask]
  rfl

theorem modifyPolicy_keeps (hdb : Consistent db) : Keeps (kadm5ModifyPolicy pol mask) db := by
  rw [Keeps]
  rcases hrun : (kadm5ModifyPolicy pol mask).run db with ⟨code | u, db₁⟩
  · cases (careful_policyCall (.modify pol mask)) hrun
    exact hdb
  obtain ⟨hmask, hrun⟩ := run_failIf_bind_eq_ok.mp hrun
  obtain ⟨n, p, -, hp, -, -, rfl⟩ := modifyPolicyInternal_ok hrun
  refine hdb.insertPolicy (hdb.named n p hp) ?_
  rw [refcnt_changedPolicy hmask, refcnt_of_lookup hp]

theorem careful_deletePolicy (n : CString) : Careful (kadm5DeletePolicy (some n)) := by
  refine .failIf_bind _ _ (.get_bind fun db => ?_)
  split
  · exact (Silent.fail _).careful
  · exact .failIf_bind _ _ (.modify _)

theorem deletePolicy_ok : (kadm5DeletePolicy (some n)).run db = (.ok (), db') ↔
    n.text ≠ [] ∧ ∃ t, db.policies.lookup n = some t ∧ t.policyRefcnt = 0 ∧
      { db with policies := db.policies.erase n } = db' := by
  rw [kadm5DeletePolicy, run_failIf_bind_eq_ok, run_get_bind]
  cases ht : db.policies.lookup n with
  | none => simp [Action.fail]
  | some t =>
    rw [run_failIf_bind_eq_ok]
    simp [Action.modify]

/-- Only a policy that nothing names is removed. -/
theorem deletePolicy_keeps (hdb : Consistent db) : Keeps (kadm5DeletePolicy name) db := by
  rw [Keeps]
  cases name with
  | none => exact hdb
  | some n =>
    rcases hrun : (kadm5DeletePolicy (some n)).run db with ⟨code | u, db₁⟩
    · cases careful_deletePolicy n hrun
      exact hdb
    obtain ⟨hne, t, ht, hzero, rfl⟩ := deletePolicy_ok.mp hrun
    refine hdb.policies (fun m => ?_) fun m t' ht' => ?_
    · rw [refcnt]
      by_cases hm : m = n
      · subst hm
        rw [lookup_erase, refcnt_of_lookup ht, hzero]
        rfl
      · rw [lookup_erase_ne hm, refcnt]
    · by_cases hm : m = n
      · exact hm ▸ hne
      · rw [lookup_erase_ne hm] at ht'
        exact hdb.named m t' ht'

end Policies

/-! ## Sequences of calls -/

def ServedStep (db : Db) (s : Served) (db' : Db) : Prop := (s.run.run db).2 = db'

def UndisturbedStep (db : Db) (s : Served) (db' : Db) : Prop :=
  ServedStep db s db' ∧ s.call.Undisturbed s.handle s.io db

theorem consistent_step {s : Served} (hdb : Consistent db) (h : UndisturbedStep db s db') :
    Consistent db' := by
  obtain ⟨handle, io, call⟩ := s
  obtain ⟨rfl, hundisturbed⟩ := h
  cases call with
  | createPrincipal => exact createPrincipal_keeps hdb hundisturbed
  | modifyPrincipal => exact modifyPrincipal_keeps hdb hundisturbed
  | deletePrincipal => exact deletePrincipal_keeps hdb hundisturbed
  | renamePrincipal => exact renamePrincipal_keeps hdb hundisturbed
  | createPolicy => exact createPolicy_keeps hdb
  | modifyPolicy => exact modifyPolicy_keeps hdb
  | deletePolicy => exact deletePolicy_keeps hdb

/-- Over every sequence of undisturbed calls the count of each policy is the number of
principals that name it: it can be deleted if and only if there are none. -/
theorem policy_refcnt_exact {db₀ : Db} (hdb₀ : Consistent db₀) (calls : List Served) (db : Db)
    (hrun : Run UndisturbedStep db₀ calls db) :
    (∀ n t, db.policies.lookup n = some t → t.policyRefcnt.toNat = refs db n ∧
      ((∃ db', (kadm5DeletePolicy (some n)).run db = (.ok (), db')) ↔ refs db n = 0)) ∧
    ∀ n, db.policies.lookup n = none → refs db n = 0 := by
  have hdb : Consistent db := hrun.history (fun _ db => Consistent db) hdb₀
    fun _ _ _ _ hdb hstep => consistent_step hdb hstep
  refine ⟨fun n t ht => ?_, fun n hn => ?_⟩
  · have hcount := hdb.toNat_policyRefcnt ht
    refine ⟨hcount, ?_⟩
    simp only [deletePolicy_ok, ← hcount]
    constructor
    · rintro ⟨db', -, t', ht', hzero, -⟩
      cases ht.symm.trans ht'
      rw [hzero]
      rfl
    · intro hzero
      exact ⟨_, hdb.named n t ht, t, ht, UInt32.toNat_inj.mp hzero, rfl⟩
  · rw [← hdb.exact, refcnt, hn]
    rfl

theorem consistent_empty : Consistent Db.empty :=
  ⟨⟨fun _ _ h => (nomatch h), fun _ _ h => (nomatch h)⟩, fun _ => rfl⟩

def createP : Served := ⟨sampleHandle, sampleIo, .createPolicy (lives 0 0) maskPolicy⟩

def createA (mask : Mask) : Served :=
  ⟨sampleHandle, sampleIo, .createPrincipal requestA mask [] (some (.ofAscii "secret"))⟩

/-- One principal under the policy, and a count of one. -/
theorem policy_refcnt_exact_one : ∃ db, Run UndisturbedStep Db.empty
    [createP, createA (maskPrincipal ||| maskPolicy)] db ∧ refs db (.ofAscii "p") = 1 ∧
      ∃ t, db.policies.lookup (.ofAscii "p") = some t ∧ t.policyRefcnt.toNat = 1 := by
  obtain ⟨db, hrun, hrefs, t, ht⟩ : ∃ db, Run UndisturbedStep Db.empty
      [createP, createA (maskPrincipal ||| maskPolicy)] db ∧ refs db (.ofAscii "p") = 1 ∧
      ∃ t, db.policies.lookup (.ofAscii "p") = some t := by
    refine ⟨_, (Run.nil.snoc ⟨rfl, trivial⟩).snoc ⟨rfl, fun _ => ⟨by decide, fun h => ?_, ?_⟩⟩, ?_,
      ?_⟩
    · exact absurd h (by decide)
    · decide +kernel
    · decide +kernel
    · exact Option.isSome_iff_exists.mp (by decide +kernel)
  have hcount := ((policy_refcnt_exact consistent_empty _ db hrun).1 _ t ht).1
  exact ⟨db, hrun, hrefs, t, ht, hcount.trans hrefs⟩

/-- A modification that is not stored leaves a count of one behind for a policy that no
principal names, and a removal that is not carried out a count of zero for one that is named:
this one can then be deleted. -/
theorem policy_refcnt_inexact :
    (∃ db, Run ServedStep Db.empty [createP, createA maskPrincipal,
        ⟨sampleHandle, { sampleIo with put := .error (.system 5) },
          .modifyPrincipal requestA maskPolicy⟩] db ∧
      refcnt db (.ofAscii "p") = 1 ∧ refs db (.ofAscii "p") = 0) ∧
    ∃ db, Run ServedStep Db.empty [createP, createA (maskPrincipal ||| maskPolicy),
        ⟨sampleHandle, { sampleIo with del := .error (.system 5) },
          .deletePrincipal (some principalA)⟩] db ∧
      refcnt db (.ofAscii "p") = 0 ∧ refs db (.ofAscii "p") = 1 ∧
      ((kadm5DeletePolicy (some (.ofAscii "p"))).run db).1 = .ok () := by
  refine ⟨⟨_, ((Run.nil.snoc rfl).snoc rfl).snoc rfl, ?_, ?_⟩,
    ⟨_, ((Run.nil.snoc rfl).snoc rfl).snoc rfl, ?_, ?_, ?_⟩⟩
  all_goals decide +kernel

end Krb5.Kadm5
