import Krb5.Kadm5.ModifyFrame

/-!
# Reading a principal that was created

A principal is created and then read with any mask. The typed data of a request are put into the
entry, but not into the count beside it. The version of the keys is kept in each key, in sixteen
bits. And a mask with the time of the modification but without the name takes the principal out of
the answer.
-/

namespace Krb5.Kadm5

open Lib Kdb Name List

variable {handle : Handle} {io : Io} {db db' : Db} {entry rec : PrincipalEntRec} {mask gmask : Mask}
  {ksTuple : List KeySaltTuple} {word : CString} {p : Principal} {polent : Option PolicyEnt}
  {now modDate : Timestamp} {keys : List KeyData} {kdb : DbEntry} {adb : OsaPrincEnt}

/-! ## What is created -/

/-- A request that is accepted, for a principal that does not exist and with a password that
its policy allows. -/
structure Creatable (handle : Handle) (entry : PrincipalEntRec) (mask : Mask) (word : CString)
    (db : Db) (p : Principal) (polent : Option PolicyEnt) : Prop where
  named : entry.principal = some p
  required : isSet mask maskPrincipal = true
  allowed : anySet mask createForbidden = false ∧ isSet mask (~~~allPrincMask) = false
  free : ∃ key, encodePrincDbkey p = .ok key ∧ db.princs.lookup key = none
  policy : (requestedPolicy entry mask).run db = (.ok polent, db)
  quality : passwdCheck handle word polent p = .ok ()

def newKeys (handle : Handle) (entry : PrincipalEntRec) (mask : Mask) (ksTuple : List KeySaltTuple)
    (word : CString) (p : Principal) : Except Kdb.Code (List KeyData) :=
  addKeyPwd handle.keys handle.masterKeyblock p word.text
    (if requestedKvno entry mask < 1 then 1 else requestedKvno entry mask) []
    (tuplesFor handle ksTuple)

def createdRec (handle : Handle) (entry : PrincipalEntRec) (mask : Mask) (p : Principal)
    (polent : Option PolicyEnt) (now modDate : Timestamp) (keys : List KeyData) :
    PrincipalEntRec where
  principal := some p
  princExpireTime := requestOr mask maskPrincExpireTime entry.princExpireTime handle.expiration
  lastPwdChange := now
  pwExpiration := requestOr mask maskPwExpiration entry.pwExpiration
    (match polent with
      | some pol => if pol.pwMaxLife ≠ 0 then now + pol.pwMaxLife else 0
      | none => 0)
  maxLife := requestOr mask maskMaxLife entry.maxLife handle.maxLife
  modName := some { handle.currentCaller with type := ntPrincipal }
  modDate := modDate
  attributes := requestOr mask maskAttributes entry.attributes handle.flags
  kvno := requestOr mask maskKvno entry.kvno 1
  policy := requestOr mask maskPolicy entry.policy none
  auxAttributes := requestOr mask maskPolicy maskPolicy 0
  maxRenewableLife := requestOr mask maskMaxRlife entry.maxRenewableLife handle.maxRlife
  lastSuccess := 0
  lastFailed := 0
  failAuthCount := 0
  nTlData := requestOr mask maskTlData (.ofNat entry.tlData.length) 0
  tlData := requestOr mask maskTlData entry.tlData []
  keyData := keys

structure Agrees (gmask : Mask) (rec created : PrincipalEntRec) : Prop where
  principal : isSet gmask maskPrincipal = true → rec.principal = created.principal
  princExpireTime : isSet gmask maskPrincExpireTime = true →
    rec.princExpireTime = created.princExpireTime
  lastPwdChange : isSet gmask maskLastPwdChange = true → rec.lastPwdChange = created.lastPwdChange
  pwExpiration : isSet gmask maskPwExpiration = true → rec.pwExpiration = created.pwExpiration
  maxLife : isSet gmask maskMaxLife = true → rec.maxLife = created.maxLife
  modName : isSet gmask maskModName = true → rec.modName = created.modName
  modDate : isSet gmask maskModTime = true → rec.modDate = created.modDate
  attributes : isSet gmask maskAttributes = true → rec.attributes = created.attributes
  kvno : isSet gmask maskKvno = true → rec.kvno = created.kvno
  policy : isSet gmask maskPolicy = true → rec.policy = created.policy
  auxAttributes : isSet gmask maskAuxAttributes = true → rec.auxAttributes = created.auxAttributes
  maxRenewableLife : isSet gmask maskMaxRlife = true →
    rec.maxRenewableLife = created.maxRenewableLife
  lastSuccess : isSet gmask maskLastSuccess = true → rec.lastSuccess = created.lastSuccess
  lastFailed : isSet gmask maskLastFailed = true → rec.lastFailed = created.lastFailed
  failAuthCount : isSet gmask maskFailAuthCount = true → rec.failAuthCount = created.failAuthCount
  tlData : isSet gmask maskTlData = true →
    rec.nTlData = created.nTlData ∧ rec.tlData = created.tlData
  keyData : isSet gmask maskKeyData = true → rec.keyData = created.keyData

/-- A mask for which the principal is taken out of the answer. -/
def Stripped (gmask : Mask) : Prop :=
  isSet gmask maskPrincipal = true ∧ isSet gmask maskModTime = true ∧ isSet gmask maskModName = false

/-- The principal is read with these values. -/
def Returns (handle : Handle) (db : Db) (p : Principal) (gmask : Mask) (created : PrincipalEntRec) :
    Prop :=
  ∃ rec, (kadm5GetPrincipal handle (some p) gmask).run db = (.ok rec, db) ∧ Agrees gmask rec created

/-- What it takes for a creation to succeed and to be read back. -/
structure CreateCondition (handle : Handle) (io : Io) (entry : PrincipalEntRec) (mask : Mask)
    (ksTuple : List KeySaltTuple) (word : CString) (p : Principal) : Prop where
  untyped : isSet mask maskTlData = false
  realm : p.realm ≠ []
  caller : handle.currentCaller.realm ≠ []
  clock : ∃ now, io.now = .ok now
  writes : ∃ modDate name, Writes handle io modDate name
  keyed : ∃ keys, newKeys handle entry mask ksTuple word p = .ok keys
  record : (encodeOsaPrincEnt (newAdb handle entry mask)).length < 2 ^ 15
  kvno : if tuplesFor handle ksTuple = [] then requestOr mask maskKvno entry.kvno 1 = 0
    else 1 ≤ requestOr mask maskKvno entry.kvno 1 ∧ requestOr mask maskKvno entry.kvno 1 ≤ 32767

def createdKdb (handle : Handle) (entry : PrincipalEntRec) (mask : Mask) (p : Principal)
    (polent : Option PolicyEnt) (now : Timestamp) (keys : List KeyData) : DbEntry :=
  { withTl (newEntry handle p entry mask polent now) (pwdChangeTl now) with keyData := keys }

theorem keyedEntry_new :
    keyedEntry handle (withTl (newEntry handle p entry mask polent now) (pwdChangeTl now)) ksTuple word
      (requestedKvno entry mask) false = (newKeys handle entry mask ksTuple word p).map
        (createdKdb handle entry mask p polent now) := rfl

theorem dbGetPrincipal_absent {key : Octets} (hkey : encodePrincDbkey p = .ok key)
    (hfree : db.princs.lookup key = none) :
    (dbGetPrincipal handle p).run db = (.error .unkPrinc, db) := by
  rw [dbGetPrincipal, hkey, ofName_ok_bind, run_get_bind, hfree]
  rfl

theorem Creatable.createdEntry (h : Creatable handle entry mask word db p polent)
    (hclock : io.now = .ok now) (hkeys : newKeys handle entry mask ksTuple word p = .ok keys) :
    (createdEntry handle io entry mask ksTuple (some word)).run db =
      (.ok (createdKdb handle entry mask p polent now keys, polent), db) := by
  obtain ⟨key, hkey, hfree⟩ := h.free
  have hnone : ((kdbGetEntry handle p).upTo .unkPrinc).run db = (.ok none, db) := by
    rw [run_upTo_eq_none]
    exact bind_of_error (dbGetPrincipal_absent hkey hfree)
  refine run_failIf_bind_eq_ok.mpr ⟨by rw [h.required, h.allowed.1]; rfl, ?_⟩
  refine run_failIf_bind_eq_ok.mpr ⟨h.allowed.2, ?_⟩
  refine run_deref_bind_eq_ok.mpr ⟨p, h.named, ?_⟩
  refine (run_silent_bind_eq_ok ((silent_kdbGetEntry p).upTo _)).mpr ⟨none, hnone, ?_⟩
  refine (run_silent_bind_eq_ok silent_requestedPolicy).mpr ⟨polent, h.policy, ?_⟩
  refine run_ofExcept_bind_eq_ok.mpr ⟨(), h.quality, ?_⟩
  refine run_ofKdb_bind_eq_ok.mpr ⟨now, hclock, ?_⟩
  refine run_ofKdb_bind_eq_ok.mpr ⟨_, dbeUpdateLastPwdChange_eq _ now, ?_⟩
  refine run_ofKdb_bind_eq_ok.mpr ⟨createdKdb handle entry mask p polent now keys, ?_, rfl⟩
  exact keyedEntry_new.trans (by rw [hkeys]; rfl)

/-! ## A creation that succeeds -/

/-- What a creation that succeeds has stored. -/
structure Created (handle : Handle) (io : Io) (entry : PrincipalEntRec) (mask : Mask)
    (ksTuple : List KeySaltTuple) (word : CString) (db' : Db) (p : Principal)
    (polent : Option PolicyEnt) (now : Timestamp) (keys : List KeyData) (kdb stored : DbEntry)
    (key : Octets) : Prop where
  clock : io.now = .ok now
  keyed : newKeys handle entry mask ksTuple word p = .ok keys
  spliced : spliceTlData (createdKdb handle entry mask p polent now keys) entry mask = .ok kdb
  prepared : prepared handle io kdb (newAdb handle entry mask) = .ok stored
  counted : Counted stored
  write : io.put = .ok ()
  dbkey : encodePrincDbkey p = .ok key
  lookup : db'.princs.lookup key = some stored

theorem storeNew_ok (h : (storeNew handle io kdb adb polent).run db = (.ok (), db')) :
    (kdbPutEntry handle io kdb adb).run db = (.ok (), db') := by
  rw [storeNew] at h
  dsimp only at h
  split at h
  · rename_i hput
    rw [hput]
    exact h
  · split at h <;> cases h

/-- What a successful call has checked and stored. -/
theorem createPrincipal_ok (hc : Creatable handle entry mask word db p polent)
    (h : (kadm5CreatePrincipal3 handle io entry mask ksTuple (some word)).run db = (.ok (), db')) :
    ∃ now keys kdb stored key,
      Created handle io entry mask ksTuple word db' p polent now keys kdb stored key := by
  obtain ⟨⟨kdb₀, polent'⟩, hcreated, h⟩ := (run_silent_bind_eq_ok (silent_createdEntry _ _)).mp h
  obtain ⟨word', p', now, hword, hchecks⟩ := createdEntry_ok hcreated
  cases hword
  cases hc.named.symm.trans hchecks.named
  cases hc.policy.symm.trans hchecks.policy
  obtain ⟨keys, hkeys, rfl⟩ := map_eq_ok.mp (keyedEntry_new.symm.trans hchecks.keyed)
  obtain ⟨_, db₁, -, h⟩ := run_bind_eq_ok.mp h
  obtain ⟨kdb, hsplice, h⟩ := run_ofExcept_bind_eq_ok.mp h
  obtain ⟨stored, content, key, hprepared, hcontent, hkey, hput, rfl⟩ :=
    kdbPutEntry_ok.mp (storeNew_ok h)
  refine ⟨now, keys, kdb, stored, key, hchecks.clock, hkeys, hsplice, hprepared,
    (encodePrincContents_ok hcontent).1, hput, ?_, AList.lookup_insert _⟩
  have hprinc : stored.princ = p := by
    obtain ⟨_, _, _, _, -, -, -, -, rfl⟩ := prepared_ok.mp hprepared
    rw [withTl_eq, withTl_eq, spliceTlData_ok hsplice]
    rfl
  rw [← hprinc]
  exact hkey

section Created

variable {stored : DbEntry} {key : Octets}

theorem Created.untyped
    (h : Created handle io entry mask ksTuple word db' p polent now keys kdb stored key) :
    isSet mask maskTlData = false := by
  by_contra hmask
  rw [Bool.not_eq_false] at hmask
  have hspliced := h.spliced
  rw [spliceTlData, if_pos hmask] at hspliced
  split at hspliced
  · cases hspliced
  rename_i hne
  cases hspliced
  obtain ⟨_, _, _, _, -, -, -, -, rfl⟩ := prepared_ok.mp h.prepared
  have hone : (1 : Int16).toInt = 1 := rfl
  have hlen : ((entry.tlData ++ [pwdChangeTl now]).length : Int) = (1 : Int16).toInt :=
    h.counted.of_withTl_withTl (show (1 : Int16).toInt + 2 < 2 ^ 15 by decide)
  rw [length_append, length_singleton] at hlen
  have hpos : entry.tlData.length ≠ 0 := fun h0 => hne (by rw [length_eq_zero_iff.mp h0]; rfl)
  omega

end Created

/-- Which version numbers survive the sixteen bits they are stored in. -/
theorem keptKvno_used_iff (r : UInt32) :
    keptKvno (if r.toInt32 < 1 then 1 else r.toInt32).toUInt32 = r ↔ 1 ≤ r ∧ r ≤ 32767 := by
  have hone : (1 : Int32).toInt = 1 := rfl
  have hkept (w : Int32) : keptKvno w.toUInt32 = r ↔ w.toInt.bmod (2 ^ 16) = r.toInt32.toInt := by
    rw [keptKvno, Int32.toInt32_toUInt32, ← Int32.toInt_toInt16, ← Int16.toInt_toInt32, Int32.toInt_inj]
    constructor
    · intro h
      rw [← h, Int32.toInt32_toUInt32]
    · intro h
      rw [h, UInt32.toUInt32_toInt32]
  have hcases := toInt_toInt32_cases r
  have hlt : r.toNat < 2 ^ 32 := r.toNat_lt
  rw [hkept]
  show _ ↔ 1 ≤ r.toNat ∧ r.toNat ≤ 32767
  split
  · rename_i hneg
    rw [Int32.lt_iff_toInt_lt] at hneg
    split at hcases <;> simp [Int.bmod_def] <;> omega
  rename_i hpos
  rw [Int32.lt_iff_toInt_lt] at hpos
  split at hcases
  · rw [Int.bmod_def]
    split <;> omega
  · omega

theorem requestedKvno_eq : requestedKvno entry mask = (requestOr mask maskKvno entry.kvno 1).toInt32 := by
  rw [requestedKvno, requestOr]
  split <;> rfl

theorem highestKvno_newKeys (h : newKeys handle entry mask ksTuple word p = .ok keys) :
    highestKvno keys = requestOr mask maskKvno entry.kvno 1 ↔
      if tuplesFor handle ksTuple = [] then requestOr mask maskKvno entry.kvno 1 = 0
      else 1 ≤ requestOr mask maskKvno entry.kvno 1 ∧ requestOr mask maskKvno entry.kvno 1 ≤ 32767 := by
  have hnil := addKeyPwd_eq_nil h
  split
  · rename_i hempty
    rw [hnil.mpr hempty]
    exact eq_comm
  · rename_i hne
    rw [← keptKvno_used_iff, ← requestedKvno_eq, highestKvno_const (mt hnil.mp hne) fun key hkey => ?_]
    rw [addKeyPwd_kvno h key hkey, keptKvno, Int32.toInt32_toUInt32]

/-- An answer for a mask agrees with the whole one. -/
theorem agrees_answer (who : Timestamp × Principal) (hmask : ¬Stripped gmask) :
    Agrees gmask (answer p kdb adb
      (if isSet gmask maskModName || isSet gmask maskModTime then some who else none) gmask)
      (wholeAnswer p kdb adb who) := by
  constructor
  · intro h
    show (if _ then none else ifSet gmask maskPrincipal (some p) none) = some p
    rw [ifSet, if_pos h, if_neg]
    intro hstripped
    rw [Bool.and_eq_true, Bool.not_eq_true'] at hstripped
    obtain ⟨hsome, hname⟩ := hstripped
    rw [hname] at hsome
    cases htime : isSet gmask maskModTime with
    | false =>
      rw [htime] at hsome
      cases hsome
    | true => exact hmask ⟨h, htime, hname⟩
  · exact fun h => if_pos h
  · exact fun h => if_pos h
  · exact fun h => if_pos h
  · exact fun h => if_pos h
  · intro h
    rw [h]
    rfl
  · intro h
    show ifSet gmask maskModTime ((Option.map Prod.fst (if isSet gmask maskModName ||
      isSet gmask maskModTime then some who else none)).getD 0) 0 = _
    rw [h, Bool.or_true, ifSet, if_pos h]
    rfl
  · exact fun h => if_pos h
  · exact fun h => if_pos h
  · intro h
    show (if isSet gmask maskPolicy && isSet adb.auxAttributes maskPolicy then adb.policy else none) = _
    rw [h]
    rfl
  · exact fun h => if_pos h
  · exact fun h => if_pos h
  · exact fun h => if_pos h
  · exact fun h => if_pos h
  · exact fun h => if_pos h
  · exact fun h => ⟨if_pos h, if_pos h⟩
  · exact fun h => if_pos h

theorem not_returns_stripped {created : PrincipalEntRec} (hmask : Stripped gmask)
    (hp : created.principal = some p) : ¬Returns handle db p gmask created := by
  rintro ⟨rec, hget, hagrees⟩
  obtain ⟨p', key, stored, kdb, adb, modified, -, -, hmodified, rfl⟩ := getPrincipal_ok hget
  have hprinc := hagrees.principal hmask.1
  rw [modifiedFor, hmask.2.1, Bool.or_true] at hmodified
  obtain ⟨who, -, rfl⟩ := map_eq_ok.mp hmodified
  rw [hp, answer] at hprinc
  rw [hmask.2.2] at hprinc
  cases hprinc

/-! ## The entry that is read -/

theorem dbeLookupLastPwdChange_createdKdb :
    dbeLookupLastPwdChange (createdKdb handle entry mask p polent now keys) = now :=
  dbeLookupLastPwdChange_withTl (newEntry handle p entry mask polent now) now

theorem wholeAnswer_createdKdb (huntyped : isSet mask maskTlData = false) :
    wholeAnswer p (createdKdb handle entry mask p polent now keys) (newAdb handle entry mask)
        (modDate, { handle.currentCaller with type := ntPrincipal }) =
      { createdRec handle entry mask p polent now modDate keys with kvno := highestKvno keys } := by
  have hpol : (newAdb handle entry mask).named = requestOr mask maskPolicy entry.policy none :=
    named_newAdb
  rw [wholeAnswer, dbeLookupLastPwdChange_createdKdb, hpol]
  simp only [createdRec, requestOr_of_not_set huntyped]
  rfl

theorem agrees_created (hmask : ¬Stripped gmask) (huntyped : isSet mask maskTlData = false)
    (hkvno : highestKvno keys = requestOr mask maskKvno entry.kvno 1) :
    Agrees gmask (answer p (createdKdb handle entry mask p polent now keys) (newAdb handle entry mask)
      (if isSet gmask maskModName || isSet gmask maskModTime then
        some (modDate, { handle.currentCaller with type := ntPrincipal }) else none) gmask)
      (createdRec handle entry mask p polent now modDate keys) := by
  have hwhole : wholeAnswer p (createdKdb handle entry mask p polent now keys)
      (newAdb handle entry mask) (modDate, { handle.currentCaller with type := ntPrincipal }) =
        createdRec handle entry mask p polent now modDate keys := by
    rw [wholeAnswer_createdKdb huntyped, hkvno]
    rfl
  rw [← hwhole]
  exact agrees_answer _ hmask

theorem writeCount_requested (h : (requestedPolicy entry mask).run db = (.ok polent, db)) :
    ∃ db', (writeCount (polent.map (counted · 1))).run db = (.ok (), db') := by
  have hpol := requestedPolicy_ok h
  split at hpol
  · obtain ⟨n, t, -, hne, ht, rfl⟩ := hpol
    have hname : (counted (t.ent n) 1).policy = some n := rfl
    exact ⟨_, putRefcnt_run hname hne ht⟩
  · subst hpol
    exact ⟨db, rfl⟩

theorem counted_createdKdb (adb : OsaPrincEnt) (modDate : Timestamp) (name : Octets) :
    Counted (storedEntry (createdKdb handle entry mask p polent now keys) adb modDate name) := by
  have hnew : Counted (createdKdb handle entry mask p polent now keys) := by
    rfl
  obtain ⟨hfirst, hlen⟩ := hnew.withTl ⟨tlModPrinc, modifiedOctets modDate name⟩
    (show 1 + 1 < 2 ^ 15 by decide)
  have hone : (createdKdb handle entry mask p polent now keys).tlData.length = 1 := rfl
  exact (hfirst.withTl _ (by omega)).1

theorem CreateCondition.stored (h : CreateCondition handle io entry mask ksTuple word p)
    (hc : Creatable handle entry mask word db p polent) (hclock : io.now = .ok now) {name : Octets}
    (hw : Writes handle io modDate name) (hkeys : newKeys handle entry mask ksTuple word p = .ok keys) :
    ∃ db' key, (kadm5CreatePrincipal3 handle io entry mask ksTuple (some word)).run db = (.ok (), db') ∧
      encodePrincDbkey p = .ok key ∧ db'.princs.lookup key = some (storedEntry
        (createdKdb handle entry mask p polent now keys) (newAdb handle entry mask) modDate name) := by
  obtain ⟨key, hkey, -⟩ := hc.free
  obtain ⟨db₁, hcnt⟩ := writeCount_requested hc.policy
  refine ⟨db₁.put key _, key, ?_, hkey, AList.lookup_insert _⟩
  rw [kadm5CreatePrincipal3, bind_of_ok (hc.createdEntry hclock hkeys)]
  show ((writeCount _ >>= _ : DbCall Unit)).run db = _
  rw [bind_of_ok hcnt, spliceTlData, h.untyped]
  show (storeNew handle io _ (newAdb handle entry mask) polent).run db₁ = _
  rw [storeNew]
  dsimp only
  rw [kdbPutEntry_run hw hkey rfl h.record (counted_createdKdb _ modDate name)]

/-- If the entry is given back as created, the condition was met. -/
theorem Created.condition {stored : DbEntry} {key : Octets}
    (h : Created handle io entry mask ksTuple word db' p polent now keys kdb stored key)
    (hreturns : Returns handle db' p fullMask
      (createdRec handle entry mask p polent now modDate keys)) :
    CreateCondition handle io entry mask ksTuple word p := by
  have huntyped := h.untyped
  have hkdb : kdb = createdKdb handle entry mask p polent now keys := by
    have hspliced := h.spliced
    rw [spliceTlData, huntyped] at hspliced
    exact (Except.ok.inj hspliced).symm
  obtain ⟨rec, hget, hagrees⟩ := hreturns
  obtain ⟨date, name, modified, record, hdate, hname, hmodified, hrec, hstored⟩ :=
    prepared_ok.mp h.prepared
  obtain ⟨p', key', stored', kdb', adb', who, hp, hread, hwho, rfl⟩ := getPrincipal_ok hget
  cases hp
  cases hread.dbkey.symm.trans h.dbkey
  cases hread.lookup.symm.trans h.lookup
  obtain ⟨w, hw, -⟩ := map_eq_ok.mp (show ((dbeLookupModPrincData handle.defaultRealm kdb').mapError
    Code.kdb).map some = .ok who from hwho)
  obtain ⟨hlong, hcaller⟩ := lookupMod_ok hname hmodified
    (by rw [hread.eq, hstored]; exact lookup_modPrinc _) (mapError_eq_ok.mp hw)
  obtain ⟨hshort, -⟩ := tlContents_ok hmodified hlong
  rw [length_modifiedOctets] at hshort
  refine ⟨huntyped, (parseName_dbkey hread.dbkey hread.parse).1, hcaller, ⟨now, h.clock⟩,
    ⟨date, name, hdate, h.write, hname, hshort⟩, ⟨keys, h.keyed⟩, ?_, ?_⟩
  · -- the record that is read names the policy, so that its name has not been cut off
    cases hmask : isSet mask maskPolicy with
    | false =>
      rw [length_newAdb hmask]
      decide
    | true =>
      obtain ⟨k, hk, rfl⟩ := tlContents_take hrec
      have hread' := length_encode_of_adminRecord (by
        rw [hstored, lookup_kadmData, length_take]
        omega) hread.record
      have hnamed : adb'.named = entry.policy :=
        (hagrees.policy (by decide)).trans (requestOr_of_set hmask _ _)
      have hpol : (putNullstring entry.policy).length ≤ (putNullstring adb'.policy).length := by
        rw [OsaPrincEnt.named] at hnamed
        split at hnamed
        · rw [hnamed]
        · rw [← hnamed]
          exact length_putNullstring_none_le _
      have hkeys : (putArray putPwHistEnt []).length ≤ (putArray putPwHistEnt adb'.oldKeys).length := by
        rw [length_putArray, length_putArray]
        exact Nat.le_add_right _ _
      rw [length_encodeOsaPrincEnt] at hread' ⊢
      rw [show (newAdb handle entry mask).policy = entry.policy from if_pos hmask]
      show 16 + _ + (putArray putPwHistEnt []).length < 2 ^ 15
      omega
  · have hkvno : highestKvno kdb'.keyData = requestOr mask maskKvno entry.kvno 1 :=
      hagrees.kvno (by decide)
    rw [← highestKvno_newKeys h.keyed, ← hkvno, hread.eq, hstored, hkdb]
    rfl

/-- A creation that is accepted succeeds and is read back, with any mask that does not take
the principal out of the answer, if and only if the condition is met; and with the other masks
it never is. -/
theorem create_then_get (hc : Creatable handle entry mask word db p polent) :
    ((∃ db' now modDate keys,
        (kadm5CreatePrincipal3 handle io entry mask ksTuple (some word)).run db = (.ok (), db') ∧
        io.now = .ok now ∧ io.putNow = .ok modDate ∧
        newKeys handle entry mask ksTuple word p = .ok keys ∧
        ∀ gmask, ¬Stripped gmask → Returns handle db' p gmask
          (createdRec handle entry mask p polent now modDate keys)) ↔
      CreateCondition handle io entry mask ksTuple word p) ∧
    ∀ db' now modDate keys gmask, Stripped gmask → ¬Returns handle db' p gmask
      (createdRec handle entry mask p polent now modDate keys) := by
  refine ⟨⟨?_, fun h => ?_⟩, fun _ _ _ _ _ hmask => not_returns_stripped hmask rfl⟩
  · rintro ⟨db', now, modDate, keys, hcreate, hclock, -, hkeys, hreturns⟩
    obtain ⟨now', keys', kdb, stored, key, hcreated⟩ := createPrincipal_ok hc hcreate
    cases hclock.symm.trans hcreated.clock
    cases hkeys.symm.trans hcreated.keyed
    exact hcreated.condition (hreturns fullMask fun hmask => nomatch hmask.2.2)
  · obtain ⟨now, hclock⟩ := h.clock
    obtain ⟨modDate, name, hw⟩ := h.writes
    obtain ⟨keys, hkeys⟩ := h.keyed
    obtain ⟨db', key, hrun, hkey, hlookup⟩ := h.stored hc hclock hw hkeys
    refine ⟨db', now, modDate, keys, hrun, hclock, hw.clock, hkeys, fun gmask hmask => ?_⟩
    have hkvno := (highestKvno_newKeys hkeys).mpr h.kvno
    exact ⟨_, getPrincipal_stored hkey h.realm hlookup h.record hw.caller h.caller gmask,
      agrees_created hmask h.untyped hkvno⟩

def keyedHandle : Handle := { sampleHandle with keysalts := [⟨1, 0⟩] }

theorem creatable_keyed :
    Creatable keyedHandle requestA maskPrincipal secret Db.empty principalA none :=
  ⟨rfl, by decide, by decide, ⟨_, encodePrincDbkey_eq _ _ _ _, rfl⟩, rfl, rfl⟩

/-- A principal with one key is created and read back. -/
theorem create_then_get_keyed : ∃ db' now modDate keys,
    (kadm5CreatePrincipal3 keyedHandle sampleIo requestA maskPrincipal [] (some secret)).run Db.empty =
      (.ok (), db') ∧
    sampleIo.now = .ok now ∧ sampleIo.putNow = .ok modDate ∧
    newKeys keyedHandle requestA maskPrincipal [] secret principalA = .ok keys ∧
    ∀ gmask, ¬Stripped gmask → Returns keyedHandle db' principalA gmask
      (createdRec keyedHandle requestA maskPrincipal principalA none now modDate keys) := by
  have hname : unparseName principalA = .ok (nameText (ascii "a") [] (ascii "R") ++ [0]) :=
    unparseName_eq _ _ _ _
  have hkeys : (newKeys keyedHandle requestA maskPrincipal [] secret principalA).isOk = true := by
    decide +kernel
  refine (create_then_get creatable_keyed).1.mpr ⟨by decide, by decide, by decide, ⟨1000, rfl⟩,
    ⟨1000, _, rfl, rfl, hname, by decide⟩, ?_, ?_, by decide⟩
  · cases h : newKeys keyedHandle requestA maskPrincipal [] secret principalA with
    | error code =>
      rw [h] at hkeys
      cases hkeys
    | ok keys => exact ⟨keys, rfl⟩
  · decide

def principalRead (db : Db) (gmask : Mask) : Except Code (Option Principal) :=
  ((kadm5GetPrincipal sampleHandle (some principalA) gmask).run db).1.map (·.principal)

/-- A creation with typed data is refused, an accepted one has lost its version, and the name of
the principal depends on the mask. -/
theorem create_then_get_differs :
    Creatable sampleHandle typedA (maskPrincipal ||| maskTlData) secret Db.empty principalA none ∧
    ((kadm5CreatePrincipal3 sampleHandle sampleIo typedA (maskPrincipal ||| maskTlData) []
      (some secret)).run Db.empty).1 = .error (.kdb .truncatedRecord) ∧
    Creatable sampleHandle requestA maskPrincipal secret Db.empty principalA none ∧
    ((kadm5CreatePrincipal3 sampleHandle sampleIo requestA maskPrincipal [] (some secret)).run
      Db.empty).1 = .ok () ∧
    readA createdDb = .ok (1000, 0) ∧
    principalRead createdDb maskPrincipal = .ok (some principalA) ∧
    principalRead createdDb (maskPrincipal ||| maskModTime) = .ok none := by
  refine ⟨⟨rfl, by decide, by decide, ⟨_, encodePrincDbkey_eq _ _ _ _, rfl⟩, rfl, rfl⟩, ?_,
    ⟨rfl, by decide, by decide, ⟨_, encodePrincDbkey_eq _ _ _ _, rfl⟩, rfl, rfl⟩, ?_, ?_, ?_, ?_⟩
  all_goals decide +kernel

end Krb5.Kadm5
