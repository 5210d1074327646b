import Krb5.Kadm5.GetFacts
import Krb5.Kadm5.PolicyValid

/-!
# What a modification changes

An entry is read as a whole before and after a modification. `Framed` says that the fields of
the mask have the new values and that the others have stayed.

The time of the last password change is an element of the typed data, which a mask with
`KADM5_TL_DATA` replaces as a whole. The version of the keys is kept in each key, in sixteen bits.
-/

namespace Krb5.Kadm5

open Lib Kdb List Name

def fullMask : Mask := maskNormal ||| maskKeyData ||| maskTlData

/-- The fields of the mask have the values of the request, and the others those from before.
Not compared are who modified the entry and when, the expiration of the password where the
policy is in the mask, and the keys; of the auxiliary attributes one bit says whether there is
a policy. -/
structure Framed (before after entry : PrincipalEntRec) (mask : Mask) : Prop where
  principal : after.principal = before.principal
  princExpireTime : after.princExpireTime =
    requestOr mask maskPrincExpireTime entry.princExpireTime before.princExpireTime
  lastPwdChange : after.lastPwdChange = before.lastPwdChange
  pwExpiration : isSet mask maskPwExpiration = true ∨
      isSet mask maskPolicy = false ∧ isSet mask maskPolicyClr = false →
    after.pwExpiration = requestOr mask maskPwExpiration entry.pwExpiration before.pwExpiration
  maxLife : after.maxLife = requestOr mask maskMaxLife entry.maxLife before.maxLife
  attributes : after.attributes = requestOr mask maskAttributes entry.attributes before.attributes
  kvno : after.kvno = requestOr mask maskKvno entry.kvno before.kvno
  policy : after.policy = policyAfter entry mask before.policy
  auxAttributes : clear after.auxAttributes maskPolicy = clear before.auxAttributes maskPolicy
  maxRenewableLife : after.maxRenewableLife =
    requestOr mask maskMaxRlife entry.maxRenewableLife before.maxRenewableLife
  lastSuccess : after.lastSuccess = before.lastSuccess
  lastFailed : after.lastFailed = before.lastFailed
  failAuthCount : after.failAuthCount = before.failAuthCount
  nTlData : after.nTlData = requestOr mask maskTlData entry.nTlData before.nTlData
  tlData : after.tlData = requestOr mask maskTlData entry.tlData before.tlData

variable {handle : Handle} {io : Io} {db db' : Db} {entry before after : PrincipalEntRec}
  {mask : Mask} {p : Principal} {kdb : DbEntry} {adb : OsaPrincEnt} {change : PolicyChange}
  {k : UInt32} {keys : List KeyData}

def wholeAnswer (p : Principal) (kdb : DbEntry) (adb : OsaPrincEnt) (who : Timestamp × Principal) :
    PrincipalEntRec where
  principal := some p
  princExpireTime := kdb.expiration
  lastPwdChange := dbeLookupLastPwdChange kdb
  pwExpiration := kdb.pwExpiration
  maxLife := kdb.maxLife
  modName := some who.2
  modDate := who.1
  attributes := kdb.attributes
  kvno := highestKvno kdb.keyData
  policy := adb.named
  auxAttributes := adb.auxAttributes
  maxRenewableLife := kdb.maxRenewableLife
  lastSuccess := kdb.lastSuccess
  lastFailed := kdb.lastFailed
  failAuthCount := kdb.failAuthCount
  nTlData := .ofNat (callersTlData kdb).length
  tlData := callersTlData kdb
  keyData := kdb.keyData

theorem foldl_const (keys : List KeyData) (h : ∀ key ∈ keys, key.kvno.toInt32.toUInt32 = k) :
    keys.foldl (fun kvno key => if key.kvno.toInt32.toUInt32 > kvno then
      key.kvno.toInt32.toUInt32 else kvno) k = k := by
  induction keys with
  | nil => rfl
  | cons key keys ih =>
    rw [foldl_cons, h key mem_cons_self, if_neg (UInt32.lt_irrefl k)]
    exact ih fun key' hkey' => h key' (mem_cons_of_mem key hkey')

theorem highestKvno_const (hne : keys ≠ []) (h : ∀ key ∈ keys, key.kvno.toInt32.toUInt32 = k) :
    highestKvno keys = k := by
  obtain ⟨key, rest, rfl⟩ := exists_cons_of_ne_nil hne
  have hfirst : (if k > 0 then k else 0) = k := by
    by_cases hk : k > 0
    · rw [if_pos hk]
    · rw [if_neg hk]
      exact (UInt32.le_zero_iff.mp (UInt32.not_lt.mp hk)).symm
  rw [highestKvno, foldl_cons, h key mem_cons_self, hfirst]
  exact foldl_const rest fun key' hkey' => h key' (mem_cons_of_mem key hkey')

def keptKvno (kvno : UInt32) : UInt32 := kvno.toInt32.toInt16.toInt32.toUInt32

def withKvno (kvno : UInt32) (key : KeyData) : KeyData := { key with kvno := kvno.toInt32.toInt16 }

theorem map_withKvno_eq_iff (hkept : keptKvno k = k) :
    keys.map (withKvno k) = keys ↔ ∀ key ∈ keys, key.kvno.toInt32.toUInt32 = k := by
  have hkey (key : KeyData) : withKvno k key = key ↔ key.kvno.toInt32.toUInt32 = k := by
    have hfield : withKvno k key = key ↔ k.toInt32.toInt16 = key.kvno := by
      obtain ⟨ver, kvno, parts, -, -⟩ := key
      simp [withKvno]
    rw [hfield]
    constructor
    · intro h
      rw [← h]
      exact hkept
    · rintro rfl
      exact Int16.toInt16_toInt32 key.kvno
  nth_rewrite 2 [← map_id keys]
  rw [map_inj_left]
  exact forall₂_congr fun key _ => hkey key

/-! ## What has been done -/

theorem modifyPolicyInternal_princs (pol : PolicyEnt) (mask : Mask) (db : Db) :
    wp (kadm5ModifyPolicyInternal pol mask) (fun _ db' => db'.princs = db.princs) db := by
  rw [wp]
  rcases hrun : (kadm5ModifyPolicyInternal pol mask).run db with ⟨code | u, db'⟩
  · rw [careful_modifyPolicyInternal pol mask hrun]
  · obtain ⟨name, t, -, -, -, -, rfl⟩ := modifyPolicyInternal_ok hrun
    rfl

theorem writeCounts_princs (change : PolicyChange) (db : Db) :
    wp (writeCounts change) (fun _ db' => db'.princs = db.princs) db := by
  have hcnt (pol : Option PolicyEnt) (db : Db) :
      wp (writeCount pol) (fun _ db' => db'.princs = db.princs) db := by
    cases pol with
    | none => rfl
    | some pol => exact modifyPolicyInternal_princs pol maskRefCount db
  refine wp_seq_run (hcnt change.opol db) (fun _ db₁ _ hdb₁ => ?_) fun _ _ h => h
  exact wp_mono (hcnt change.npol db₁) fun _ _ h => h.trans hdb₁

/-- What a modification that succeeds has stored. -/
structure Modified (handle : Handle) (io : Io) (entry : PrincipalEntRec) (mask : Mask) (db db' : Db)
    (p : Principal) (kdb : DbEntry) (adb : OsaPrincEnt) (change : PolicyChange) (key : Octets)
    (stored : DbEntry) : Prop where
  checks : ModifyChecks handle entry mask db p kdb adb change
  prepared : prepared handle io (changedEntry change.kdb entry mask) change.adb = .ok stored
  counted : Counted stored
  dbkey : encodePrincDbkey p = .ok key
  parse : parseName handle.defaultRealm key = .ok { p with type := ntPrincipal }
  lookup : db'.princs.lookup key = some stored

/-- What a successful call has read and stored. -/
theorem modifyPrincipal_ok
    (h : (kadm5ModifyPrincipal handle io entry mask).run db = (.ok (), db')) :
    ∃ p kdb adb change key stored,
      Modified handle io entry mask db db' p kdb adb change key stored ∧
        db'.princs = db.princs.insert key stored := by
  obtain ⟨change, hchange, h⟩ := (run_silent_bind_eq_ok silent_requestedChange).mp h
  obtain ⟨_, db₁, hcounts, hput⟩ := run_bind_eq_ok.mp h
  obtain ⟨p, kdb, adb, hchecks⟩ := requestedChange_ok hchange
  obtain ⟨key, stored, hread⟩ := kdbGetEntry_ok hchecks.found
  obtain ⟨-, hprinc, hkey⟩ := parseName_dbkey hread.dbkey hread.parse
  obtain ⟨stored', content, key', hprepared, hcontent, hkey', -, rfl⟩ := kdbPutEntry_ok.mp hput
  have hkey'' : key' = key := by
    obtain ⟨now, name, modified, record, -, -, -, -, rfl⟩ := prepared_ok.mp hprepared
    rw [withTl_eq, withTl_eq, hchecks.changed.kdb_eq] at hkey'
    exact Except.ok.inj (hkey'.symm.trans hkey)
  subst hkey''
  have hprincs : db₁.princs = db.princs := wp_run (writeCounts_princs change db) hcounts
  refine ⟨p, kdb, adb, change, key', stored', ⟨hchecks, hprepared, (encodePrincContents_ok hcontent).1,
    hread.dbkey, ?_, AList.lookup_insert _⟩, ?_⟩
  · rw [← hprinc]
    exact hread.parse
  · rw [← hprincs]
    rfl

/-- Whatever the call returns, at most the one entry has changed. -/
theorem modifyPrincipal_princs {result : Except Code Unit}
    (h : (kadm5ModifyPrincipal handle io entry mask).run db = (result, db')) :
    db'.princs = db.princs ∨ ∃ p kdb adb change key stored,
      Modified handle io entry mask db db' p kdb adb change key stored ∧
        db'.princs = db.princs.insert key stored := by
  cases result with
  | ok u => exact .inr (modifyPrincipal_ok h)
  | error code =>
    refine .inl ?_
    rcases hchange : (requestedChange handle entry mask).run db with ⟨code' | change, db₁⟩
    · have := silent_requestedChange.careful hchange
      rw [kadm5ModifyPrincipal, bind_of_error hchange] at h
      cases h
      rw [this]
    cases silent_requestedChange.run_of_ok hchange
    rw [kadm5ModifyPrincipal, bind_of_ok hchange] at h
    have hcounts := writeCounts_princs change db
    rcases hwrite : (writeCounts change).run db with ⟨code' | u, db₂⟩
    · rw [bind_of_error hwrite] at h
      cases h
      exact wp_run hcounts hwrite
    · rw [bind_of_ok hwrite] at h
      rw [careful_kdbPutEntry _ _ h]
      exact wp_run hcounts hwrite

/-! ## Reading what was stored -/

/-- What is stored about the caller and the policy can be read again: the name of the caller
has a realm, and neither of the two is so long that it is cut off. -/
structure Restorable (handle : Handle) (entry : PrincipalEntRec) (mask : Mask) (adb : OsaPrincEnt) :
    Prop where
  caller : ∀ name, unparseName handle.currentCaller = .ok name →
    (cstring name).length + 5 < 2 ^ 16
  realm : handle.currentCaller.realm ≠ []
  record : isSet mask maskPolicy = true → ∀ n, entry.policy = some n →
    (encodeOsaPrincEnt (naming adb n)).length < 2 ^ 16

theorem PolicyChanged.length_of_restorable (h : PolicyChanged entry mask kdb adb db change)
    (hlen : (encodeOsaPrincEnt adb).length < 2 ^ 15) (hc : Restorable handle entry mask adb) :
    (encodeOsaPrincEnt change.adb).length < 2 ^ 16 := by
  cases h with
  | untouched => exact Nat.lt_trans hlen (by decide)
  | first hset hn => exact hc.record hset _ hn
  | again hset hn => exact hc.record hset _ hn
  | other hset hn => exact hc.record hset _ hn
  | cleared hset hclr haux hf hne ht =>
    have hchanged : PolicyChanged entry mask kdb adb db _ := .cleared hset hclr haux hf hne ht
    have hshort := hchanged.length_record hlen fun _ hset' =>
      absurd (hset.symm.trans hset') (by decide)
    exact Nat.lt_trans hshort (by decide)

variable {key : Octets} {stored : DbEntry}

section

variable (h : Modified handle io entry mask db db' p kdb adb change key stored)
  (hlen : (encodeOsaPrincEnt adb).length < 2 ^ 15)
include h hlen

theorem Modified.get (hc : Restorable handle entry mask adb) :
    ∃ who, (kadm5GetPrincipal handle (some p) fullMask).run db' =
      (.ok (wholeAnswer p (changedEntry change.kdb entry mask) change.adb who), db') := by
  obtain ⟨now, name, modified, record, -, hname, hmodified, hrec, rfl⟩ := prepared_ok.mp h.prepared
  obtain ⟨hshort, rfl⟩ := tlContents_ok hrec (h.checks.changed.length_of_restorable hlen hc)
  obtain ⟨-, rfl⟩ := tlContents_ok hmodified (by rw [length_modifiedOctets]; exact hc.caller name hname)
  obtain ⟨hrealm, -, -⟩ := parseName_dbkey h.dbkey h.parse
  have hget := getPrincipal_stored h.dbkey hrealm h.lookup hshort hname hc.realm fullMask
  exact ⟨_, hget.trans (by rfl)⟩

/-- An entry that can be read afterwards was restorable. -/
theorem Modified.restorable
    (hget : (kadm5GetPrincipal handle (some p) fullMask).run db' = (.ok after, db'))
    (hpol : isSet mask maskPolicy → after.policy = entry.policy) :
    Restorable handle entry mask adb := by
  obtain ⟨now, name, modified, record, -, hname, hmodified, hrec, rfl⟩ := prepared_ok.mp h.prepared
  obtain ⟨p', key', stored', kdb', adb', who, hp, hread, hwho, rfl⟩ := getPrincipal_ok hget
  cases hp
  have hkey : key' = key := Except.ok.inj (hread.dbkey.symm.trans h.dbkey)
  subst hkey
  cases hread.lookup.symm.trans h.lookup
  have hmod : ∃ w, dbeLookupModPrincData handle.defaultRealm kdb' = .ok w := by
    obtain ⟨w, hw, -⟩ := map_eq_ok.mp (show ((dbeLookupModPrincData handle.defaultRealm kdb').mapError
      Code.kdb).map some = .ok who from hwho)
    exact ⟨w, mapError_eq_ok.mp hw⟩
  obtain ⟨w, hw⟩ := hmod
  obtain ⟨hcaller, hrealm⟩ := lookupMod_ok hname hmodified
    (by rw [hread.eq]; exact lookup_modPrinc _) hw
  refine ⟨fun name' hname' => ?_, hrealm, fun hset n hn => ?_⟩
  · cases hname.symm.trans hname'
    rwa [length_modifiedOctets] at hcaller
  obtain ⟨k, hk, rfl⟩ := tlContents_take hrec
  have hshort := length_encode_of_adminRecord (by
    rw [lookup_kadmData, length_take]
    omega) hread.record
  have hnamed : adb'.policy = some n := by
    have hanswer : adb'.named = entry.policy := hpol hset
    rw [hn, OsaPrincEnt.named] at hanswer
    split at hanswer
    · exact hanswer
    · cases hanswer
  rw [length_encodeOsaPrincEnt] at hlen hshort ⊢
  rw [hnamed] at hshort
  show 16 + (putNullstring (some n)).length + (putArray putPwHistEnt adb.oldKeys).length < 2 ^ 16
  omega

end

/-! ## The fields -/

section Fields

variable {who who' : Timestamp × Principal}

theorem PolicyChanged.untouched_eq (h : PolicyChanged entry mask kdb adb db change)
    (hset : isSet mask maskPolicy = false) (hclr : isSet mask maskPolicyClr = false) :
    change.kdb = kdb := by
  cases h with
  | untouched => rfl
  | first hset' => cases hset.symm.trans hset'
  | again hset' => cases hset.symm.trans hset'
  | other hset' => cases hset.symm.trans hset'
  | cleared _ hclr' => cases hclr.symm.trans hclr'

theorem PolicyChanged.clear_aux (h : PolicyChanged entry mask kdb adb db change) :
    clear change.adb.auxAttributes maskPolicy = clear adb.auxAttributes maskPolicy := by
  cases h with
  | untouched => rfl
  | first => exact clear_raise _ _
  | again => exact clear_raise _ _
  | other => exact clear_raise _ _
  | cleared => exact clear_clear _ _

theorem ModifyChecks.any_eq_false (h : ModifyChecks handle entry mask db p kdb adb change)
    (hmask : isSet mask maskTlData) {type : Int16} (htype : type < 256) :
    entry.tlData.reverse.any (·.type = type) = false := by
  rw [any_reverse, List.any_eq_false]
  intro tl htl heq
  have hle := h.types hmask tl htl
  rw [of_decide_eq_true heq] at hle
  exact Int16.not_lt.mpr hle htype

theorem ModifyChecks.callersTlData_eq (h : ModifyChecks handle entry mask db p kdb adb change)
    (hmask : isSet mask maskTlData) :
    (entry.tlData.reverse.filter (·.type > 255)).reverse = entry.tlData := by
  have hall : ∀ tl ∈ entry.tlData.reverse, decide (tl.type > 255) := by
    intro tl htl
    have hle := h.types hmask tl (mem_reverse.mp htl)
    rw [decide_eq_true_eq, gt_iff_lt, Int16.lt_iff_toInt_lt]
    rw [Int16.le_iff_toInt_le] at hle
    exact hle
  rw [filter_eq_self.mpr hall, reverse_reverse]

theorem Modified.nTlData_eq (h : Modified handle io entry mask db db' p kdb adb change key stored)
    (hmask : isSet mask maskTlData) : Int16.ofNat entry.tlData.length = entry.nTlData := by
  obtain ⟨now, name, modified, record, -, -, -, -, rfl⟩ := prepared_ok.mp h.prepared
  have hcounted := h.counted
  have htl : (changedEntry change.kdb entry mask).tlData = entry.tlData.reverse :=
    requestOr_of_set hmask _ _
  have hn : (changedEntry change.kdb entry mask).nTlData = entry.nTlData := requestOr_of_set hmask _ _
  have hfirst : (changedEntry change.kdb entry mask).tlData.any (·.type = tlModPrinc) = false := by
    rw [htl]
    exact h.checks.any_eq_false hmask (by decide)
  have hsecond : (withTl (changedEntry change.kdb entry mask) ⟨tlModPrinc, modified⟩).tlData.any
      (·.type = tlKadmData) = false := by
    rw [any_withTl, htl, h.checks.any_eq_false hmask (by decide)]
    rfl
  rw [withTl, if_neg (by simp [hsecond]), withTl, if_neg (by simp [hfirst]), Counted] at hcounted
  simp only [htl, hn, length_cons, length_reverse] at hcounted
  have heq := congrArg Int16.ofInt hcounted
  rw [Int16.ofInt_toInt, Int16.ofInt_eq_ofNat, Int16.ofNat_add, Int16.ofNat_add] at heq
  exact (Int16.add_left_inj 1).mp ((Int16.add_left_inj 1).mp heq)

def keysAfter (entry : PrincipalEntRec) (mask : Mask) (keys : List KeyData) : List KeyData :=
  if isSet mask maskKvno then keys.map (withKvno entry.kvno) else keys

theorem highestKvno_withKvno (k : UInt32) (keys : List KeyData) :
    highestKvno (keys.map (withKvno k)) = if keys = [] then 0 else keptKvno k := by
  split
  · rename_i hnil
    rw [hnil]
    rfl
  · rename_i hne
    refine highestKvno_const (by simpa using hne) fun key hkey => ?_
    obtain ⟨key', -, rfl⟩ := mem_map.mp hkey
    rfl

section

variable (h : Modified handle io entry mask db db' p kdb adb change key stored)
include h

theorem Modified.tlData_eq : (changedEntry change.kdb entry mask).tlData =
    requestOr mask maskTlData entry.tlData.reverse kdb.tlData := by
  rw [h.checks.changed.kdb_eq]
  rfl

theorem Modified.lastPwdChange_eq :
    dbeLookupLastPwdChange (changedEntry change.kdb entry mask) =
      if isSet mask maskTlData then 0 else dbeLookupLastPwdChange kdb := by
  rw [dbeLookupLastPwdChange, dbeLookupTlData, h.tlData_eq]
  cases hmask : isSet mask maskTlData with
  | true =>
    have hnone : entry.tlData.reverse.find? (·.type = tlLastPwdChange) = none := by
      rw [find?_eq_none]
      exact any_eq_false.mp (h.checks.any_eq_false hmask (by decide))
    rw [requestOr_of_set hmask, hnone]
    rfl
  | false =>
    rw [requestOr_of_not_set hmask]
    rfl

theorem Modified.callersTlData_eq :
    callersTlData (changedEntry change.kdb entry mask) =
      requestOr mask maskTlData entry.tlData (callersTlData kdb) := by
  rw [callersTlData, h.tlData_eq]
  cases hmask : isSet mask maskTlData with
  | true =>
    rw [requestOr_of_set hmask, requestOr_of_set hmask]
    exact h.checks.callersTlData_eq hmask
  | false => rw [requestOr_of_not_set hmask, requestOr_of_not_set hmask, callersTlData]

/-- Where the frame can break: the last change among the tagged data, and the key version. -/
theorem Modified.framed_iff :
    Framed (wholeAnswer p kdb adb who)
        (wholeAnswer p (changedEntry change.kdb entry mask) change.adb who') entry mask ↔
      (isSet mask maskTlData → dbeLookupLastPwdChange kdb = 0) ∧
      (isSet mask maskKvno →
        entry.kvno = if kdb.keyData = [] then 0 else keptKvno entry.kvno) := by
  have hpwd := h.lastPwdChange_eq
  have htl := h.callersTlData_eq
  have hkdb := h.checks.changed.kdb_eq
  have hkeys : (changedEntry change.kdb entry mask).keyData = keysAfter entry mask kdb.keyData := by
    rw [hkdb]
    rfl
  have hkvno : highestKvno (changedEntry change.kdb entry mask).keyData =
      requestOr mask maskKvno (if kdb.keyData = [] then 0 else keptKvno entry.kvno)
        (highestKvno kdb.keyData) := by
    rw [hkeys, keysAfter, requestOr]
    split
    · exact highestKvno_withKvno _ _
    · rfl
  have hfail : isSet mask maskFailAuthCount = false :=
    isSet_of_subset h.checks.allowed.2 (by decide)
  constructor
  · intro hframed
    refine ⟨fun hmask => ?_, fun hmask => ?_⟩
    · have := hframed.lastPwdChange
      dsimp only [wholeAnswer] at this
      rw [hpwd, if_pos hmask] at this
      exact this.symm
    · have := hframed.kvno
      dsimp only [wholeAnswer] at this
      rw [hkvno, requestOr_of_set hmask, requestOr_of_set hmask] at this
      exact this.symm
  rintro ⟨hlast, hver⟩
  constructor
  · rfl
  · rw [hkdb]
    rfl
  · show dbeLookupLastPwdChange (changedEntry change.kdb entry mask) = dbeLookupLastPwdChange kdb
    rw [hpwd]
    split
    · rename_i hmask
      exact (hlast hmask).symm
    · rfl
  · intro hcase
    show requestOr mask maskPwExpiration entry.pwExpiration change.kdb.pwExpiration = _
    rcases hcase with hset | ⟨hset, hclr⟩
    · rw [requestOr_of_set hset, requestOr_of_set hset]
    · rw [h.checks.changed.untouched_eq hset hclr]
      rfl
  · rw [hkdb]
    rfl
  · rw [hkdb]
    rfl
  · show highestKvno (changedEntry change.kdb entry mask).keyData = _
    rw [hkvno]
    cases hmask : isSet mask maskKvno with
    | true => rw [requestOr_of_set hmask, requestOr_of_set hmask, ← hver hmask]
    | false => rw [requestOr_of_not_set hmask, requestOr_of_not_set hmask]; rfl
  · exact h.checks.changed.named_eq
  · exact h.checks.changed.clear_aux
  · rw [hkdb]
    rfl
  · rw [hkdb]
    rfl
  · rw [hkdb]
    rfl
  · show requestOr mask maskFailAuthCount _ change.kdb.failAuthCount = kdb.failAuthCount
    rw [requestOr_of_not_set hfail, hkdb]
  · show Int16.ofNat (callersTlData (changedEntry change.kdb entry mask)).length = _
    rw [htl]
    cases hmask : isSet mask maskTlData with
    | true => rw [requestOr_of_set hmask, requestOr_of_set hmask, h.nTlData_eq hmask]
    | false => rw [requestOr_of_not_set hmask, requestOr_of_not_set hmask]; rfl
  · exact htl

end

end Fields

/-! ## Reading before and after -/

/-- What it takes for the fields to come out right. -/
structure FrameCondition (handle : Handle) (db : Db) (p : Principal)
    (before entry : PrincipalEntRec) (mask : Mask) : Prop where
  restorable : ∀ kdb adb, (kdbGetEntry handle p).run db = (.ok (kdb, adb), db) →
    Restorable handle entry mask adb
  lastPwdChange : isSet mask maskTlData = true → before.lastPwdChange = 0
  kvno : isSet mask maskKvno = true →
    entry.kvno = if before.keyData = [] then 0 else keptKvno entry.kvno

/-- After a modification that succeeds, the fields of the mask have the new values and the
others the old ones if and only if the condition is met; and the keys are the same if they had
the new version before. -/
theorem modify_principal_frame (hp : entry.principal = some p)
    (hshort : ∀ key stored, encodePrincDbkey p = .ok key → db.princs.lookup key = some stored →
      (dbeLookupTlData stored tlKadmData).length < 2 ^ 15)
    (hbefore : (kadm5GetPrincipal handle (some p) fullMask).run db = (.ok before, db))
    (hmodify : (kadm5ModifyPrincipal handle io entry mask).run db = (.ok (), db')) :
    ((∃ after, (kadm5GetPrincipal handle (some p) fullMask).run db' = (.ok after, db') ∧
        Framed before after entry mask ∧ after.keyData = before.keyData) ↔
      FrameCondition handle db p before entry mask ∧ (isSet mask maskKvno = true →
        ∀ key ∈ before.keyData, key.kvno.toInt32.toUInt32 = entry.kvno)) ∧
    ((∃ after, (kadm5GetPrincipal handle (some p) fullMask).run db' = (.ok after, db') ∧
        Framed before after entry mask ∧
        after.keyData = keysAfter entry mask before.keyData) ↔
      FrameCondition handle db p before entry mask) := by
  obtain ⟨p', key, stored, kdb, adb, who, hp', hread, hwho, rfl⟩ := getPrincipal_ok hbefore
  cases hp'
  obtain ⟨w, -, rfl⟩ := map_eq_ok.mp (show ((dbeLookupModPrincData handle.defaultRealm kdb).mapError
    Code.kdb).map some = .ok who from hwho)
  obtain ⟨p', kdb', adb', change, key', stored', hm, -⟩ := modifyPrincipal_ok hmodify
  cases hp.symm.trans hm.checks.named
  cases hread.get.symm.trans hm.checks.found
  have hlen := length_encode_of_adminRecord (hshort key stored hread.dbkey hread.lookup) hread.record
  have hkeys : (changedEntry change.kdb entry mask).keyData = keysAfter entry mask kdb.keyData := by
    rw [hm.checks.changed.kdb_eq]
    rfl
  -- the condition gives the answer, and the answer the part of the condition that it rests on
  have hanswer (hc : FrameCondition handle db p (wholeAnswer p kdb adb w) entry mask) :
      ∃ who, (kadm5GetPrincipal handle (some p) fullMask).run db' =
        (.ok (wholeAnswer p (changedEntry change.kdb entry mask) change.adb who), db') :=
    hm.get hlen (hc.restorable kdb adb hread.get)
  have hcondition {after : PrincipalEntRec}
      (hget : (kadm5GetPrincipal handle (some p) fullMask).run db' = (.ok after, db'))
      (hframed : Framed (wholeAnswer p kdb adb w) after entry mask) :
      FrameCondition handle db p (wholeAnswer p kdb adb w) entry mask ∧
        after.keyData = keysAfter entry mask kdb.keyData := by
    have hrestorable := hm.restorable hlen hget fun hset => by
      rw [hframed.policy, policyAfter, if_pos hset]
    obtain ⟨who, hget'⟩ := hm.get hlen hrestorable
    cases hget.symm.trans hget'
    obtain ⟨hpwd, hkvno⟩ := hm.framed_iff.mp hframed
    refine ⟨⟨fun kdb' adb' hfound => ?_, hpwd, hkvno⟩, hkeys⟩
    cases hread.get.symm.trans hfound
    exact hrestorable
  have hversions (hc : FrameCondition handle db p (wholeAnswer p kdb adb w) entry mask) :
      keysAfter entry mask kdb.keyData = kdb.keyData ↔ (isSet mask maskKvno = true →
        ∀ key ∈ kdb.keyData, key.kvno.toInt32.toUInt32 = entry.kvno) := by
    rw [keysAfter]
    split
    · rename_i hmask
      by_cases hnil : kdb.keyData = []
      · simp [hnil]
      have hkept := hc.kvno hmask
      rw [show (wholeAnswer p kdb adb w).keyData = kdb.keyData from rfl, if_neg hnil] at hkept
      rw [map_withKvno_eq_iff hkept.symm]
      exact ⟨fun h _ => h, fun h => h hmask⟩
    · rename_i hmask
      exact ⟨fun _ h => absurd h hmask, fun _ => rfl⟩
  refine ⟨⟨?_, ?_⟩, ⟨?_, ?_⟩⟩
  · rintro ⟨after, hget, hframed, hsame⟩
    obtain ⟨hc, hafter⟩ := hcondition hget hframed
    exact ⟨hc, (hversions hc).mp (hafter.symm.trans hsame)⟩
  · rintro ⟨hc, hkvno⟩
    obtain ⟨who, hget⟩ := hanswer hc
    exact ⟨_, hget, hm.framed_iff.mpr ⟨hc.lastPwdChange, hc.kvno⟩,
      hkeys.trans ((hversions hc).mpr hkvno)⟩
  · rintro ⟨after, hget, hframed, -⟩
    exact (hcondition hget hframed).1
  · intro hc
    obtain ⟨who, hget⟩ := hanswer hc
    exact ⟨_, hget, hm.framed_iff.mpr ⟨hc.lastPwdChange, hc.kvno⟩, hkeys⟩

def typedA : PrincipalEntRec := { requestA with nTlData := 1, tlData := [⟨300, []⟩] }

/-- The attributes are changed, and nothing else. -/
theorem modify_principal_frame_attributes : ∃ before db' after,
    (kadm5GetPrincipal sampleHandle (some principalA) fullMask).run createdDb = (.ok before, createdDb) ∧
    (kadm5ModifyPrincipal sampleHandle sampleIo { requestA with attributes := 1 }
      maskAttributes).run createdDb = (.ok (), db') ∧
    (kadm5GetPrincipal sampleHandle (some principalA) fullMask).run db' = (.ok after, db') ∧
    Framed before after { requestA with attributes := 1 } maskAttributes ∧
    after.keyData = before.keyData := by
  have hkey : encodePrincDbkey principalA = .ok (nameText (ascii "a") [] (ascii "R") ++ [0]) :=
    encodePrincDbkey_eq _ _ _ _
  have hstored : (createdDb.princs.lookup (nameText (ascii "a") [] (ascii "R") ++ [0])).all
      (fun stored => (dbeLookupTlData stored tlKadmData).length < 2 ^ 15) = true := by decide +kernel
  have hname : unparseName principalA = .ok (nameText (ascii "a") [] (ascii "R") ++ [0]) :=
    unparseName_eq _ _ _ _
  obtain ⟨before, hbefore⟩ : ∃ before, (kadm5GetPrincipal sampleHandle (some principalA) fullMask).run
      createdDb = (.ok before, createdDb) :=
    (silent_getPrincipal _).exists_run_of_isOk (by decide +kernel)
  obtain ⟨db', hmodify⟩ : ∃ db', (kadm5ModifyPrincipal sampleHandle sampleIo
      { requestA with attributes := 1 } maskAttributes).run createdDb = (.ok (), db') :=
    ⟨_, Prod.ext (by decide +kernel) rfl⟩
  obtain ⟨after, hafter⟩ := (modify_principal_frame (p := principalA) rfl (fun key stored hk hl => by
      cases hkey.symm.trans hk
      rw [hl] at hstored
      simpa using hstored) hbefore hmodify).1.mpr
    ⟨⟨fun _ _ _ => ⟨fun name hn => by
        cases hname.symm.trans hn
        decide, by decide, fun h => absurd h (by decide)⟩, fun h => absurd h (by decide),
      fun h => absurd h (by decide)⟩, fun h => absurd h (by decide)⟩
  exact ⟨before, db', after, hbefore, hmodify, hafter⟩

def readA (db : Db) : Except Code (Timestamp × UInt32) :=
  ((kadm5GetPrincipal sampleHandle (some principalA) fullMask).run db).1.map fun a =>
    (a.lastPwdChange, a.kvno)

/-- With new typed data the time of the last password change is lost, and the version of a
principal without keys is not kept. -/
theorem modify_principal_unframed :
    readA createdDb = .ok (1000, 0) ∧
    ((kadm5ModifyPrincipal sampleHandle sampleIo typedA maskTlData).run createdDb).1 = .ok () ∧
    readA ((kadm5ModifyPrincipal sampleHandle sampleIo typedA maskTlData).run createdDb).2 =
      .ok (0, 0) ∧
    ((kadm5ModifyPrincipal sampleHandle sampleIo { requestA with kvno := 5 } maskKvno).run
      createdDb).1 = .ok () ∧
    readA ((kadm5ModifyPrincipal sampleHandle sampleIo { requestA with kvno := 5 } maskKvno).run
      createdDb).2 = .ok (1000, 0) := by
  all_goals decide +kernel

end Krb5.Kadm5
