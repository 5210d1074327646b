import Krb5.Kadm5.PrincipalFacts

/-!
# Reading an entry that was stored

What `kdb_put_entry` adds to an entry is not seen by `kadm5_get_principal`, except for who
modified the entry and when.
-/

namespace Krb5.Kadm5

open Lib Kdb Name List Silent

variable {handle : Handle} {db db' : Db} {p : Principal} {key : Octets}
  {stored kdb : DbEntry} {adb : OsaPrincEnt} {mask : Mask}

theorem silent_getPrincipal (principal : Option Principal) :
    Silent (kadm5GetPrincipal handle principal mask) := by
  cases principal with
  | none => exact fail _
  | some p =>
    exact (silent_kdbGetEntry p).bind fun _ => (ofExcept _).bind fun _ => pure _

theorem ReadAs.get (h : ReadAs handle db p key stored kdb adb) :
    (kdbGetEntry handle p).run db = (.ok (kdb, adb), db) := by
  have hget : (dbGetPrincipal handle p).run db = (.ok kdb, db) := by
    rw [dbGetPrincipal, h.dbkey, ofName_ok_bind, run_get_bind, h.lookup]
    rw [h.parse, h.eq]
    rfl
  have hrec : adminRecord handle kdb = .ok adb := by
    rw [h.eq]
    exact h.record
  rw [kdbGetEntry, bind_of_ok hget, hrec]
  rfl

theorem ReadAs.getPrincipal (h : ReadAs handle db p key stored kdb adb) (mask : Mask) :
    (kadm5GetPrincipal handle (some p) mask).run db =
      ((modifiedFor handle kdb mask).map fun modified => answer p kdb adb modified mask, db) := by
  show ((kdbGetEntry handle p >>= _ : DbCall PrincipalEntRec)).run db = _
  rw [bind_of_ok h.get]
  dsimp only
  cases modifiedFor handle kdb mask <;> rfl

theorem getPrincipal_ok {principal : Option Principal} {rec : PrincipalEntRec}
    (h : (kadm5GetPrincipal handle principal mask).run db = (.ok rec, db')) :
    ∃ p key stored kdb adb modified, principal = some p ∧
      ReadAs handle db p key stored kdb adb ∧ modifiedFor handle kdb mask = .ok modified ∧
      rec = answer p kdb adb modified mask := by
  cases principal with
  | none => cases h
  | some p =>
    obtain ⟨⟨kdb, adb⟩, hget, -⟩ := (run_silent_bind_eq_ok (silent_kdbGetEntry p)).mp h
    obtain ⟨key, stored, hread⟩ := kdbGetEntry_ok hget
    rw [hread.getPrincipal] at h
    obtain ⟨modified, hmodified, hrec⟩ := map_eq_ok.mp (Prod.mk.inj h).1
    exact ⟨p, key, stored, kdb, adb, modified, rfl, hread, hmodified, hrec.symm⟩

theorem dbeLookupLastPwdChange_stored (modified record : Octets) (q : Principal) :
    dbeLookupLastPwdChange
        { withTl (withTl kdb ⟨tlModPrinc, modified⟩) ⟨tlKadmData, record⟩ with princ := q } =
      dbeLookupLastPwdChange kdb := by
  have hlook : dbeLookupTlData { withTl (withTl kdb ⟨tlModPrinc, modified⟩)
      ⟨tlKadmData, record⟩ with princ := q } tlLastPwdChange =
        dbeLookupTlData kdb tlLastPwdChange := by
    show dbeLookupTlData (withTl (withTl kdb _) _) tlLastPwdChange = _
    rw [dbeLookupTlData_withTl_of_ne (show tlLastPwdChange ≠ tlKadmData by decide),
      dbeLookupTlData_withTl_of_ne (show tlLastPwdChange ≠ tlModPrinc by decide)]
  rw [dbeLookupLastPwdChange, hlook, dbeLookupLastPwdChange]

theorem answer_stored (modified record : Octets) (q : Principal)
    (who : Option (Timestamp × Principal)) :
    answer p { withTl (withTl kdb ⟨tlModPrinc, modified⟩) ⟨tlKadmData, record⟩ with princ := q }
      adb who mask = answer p kdb adb who mask := by
  have htl : callersTlData
      { withTl (withTl kdb ⟨tlModPrinc, modified⟩) ⟨tlKadmData, record⟩ with princ := q } =
        callersTlData kdb := by
    have hlow (type : Int16) (htype : ¬type > 255) (tl : TlData) (h : tl.type = type) :
        decide (tl.type > 255) = false := by
      rw [h]
      exact decide_eq_false htype
    show ((withTl (withTl kdb _) _).tlData.filter _).reverse = _
    rw [filter_withTl (hlow tlKadmData (by decide)), filter_withTl (hlow tlModPrinc (by decide)),
      callersTlData]
  rw [answer, dbeLookupLastPwdChange_stored, htl, withTl_eq, withTl_eq, answer]

theorem answer_saved (who : Option (Timestamp × Principal)) :
    answer p kdb adb.saved who mask = answer p kdb adb who mask := rfl

/-! ## Who modified the entry -/

variable {name : Octets} {now : Timestamp}

section Modified

variable {caller : Principal} {modified : Octets}

theorem lookup_modPrinc (record : Octets) :
    dbeLookupTlData (withTl (withTl kdb ⟨tlModPrinc, modified⟩) ⟨tlKadmData, record⟩) tlModPrinc =
      modified := by
  rw [dbeLookupTlData_withTl_of_ne (show tlModPrinc ≠ tlKadmData by decide)]
  exact dbeLookupTlData_withTl_self ⟨tlModPrinc, modified⟩

theorem lookup_kadmData (record : Octets) :
    dbeLookupTlData (withTl (withTl kdb ⟨tlModPrinc, modified⟩) ⟨tlKadmData, record⟩) tlKadmData =
      record :=
  dbeLookupTlData_withTl_self ⟨tlKadmData, record⟩

variable {defaultRealm : Except Name.Code Octets} {who : Timestamp × Principal}

theorem lookupMod_eq {v : BitVec 32} {rest : Octets}
    (hdata : dbeLookupTlData kdb tlModPrinc = le32 v ++ rest) (hlast : rest.getLast? = some 0) :
    dbeLookupModPrincData defaultRealm kdb =
      ((parseName defaultRealm rest).mapError .name).map fun q => (.ofBitVec v, q) := by
  rw [dbeLookupModPrincData, hdata]
  show (if rest.getLast? = some 0 then _ else _) = _
  rw [if_pos hlast]
  rw [ofLe32_octets]
  rfl

theorem lookupMod_inv (h : dbeLookupModPrincData defaultRealm kdb = .ok who) :
    ((dbeLookupTlData kdb tlModPrinc).drop 4).getLast? = some 0 := by
  rw [dbeLookupModPrincData] at h
  split at h
  · rename_i a b c d rest hdata
    split at h
    · rename_i hlast
      rw [hdata]
      exact hlast
    · cases h
  · cases h

theorem cstring_unparsed (hname : unparseName caller = .ok name) : ∃ d ds,
    caller.data = d :: ds ∧ cstring name = nameText d ds caller.realm := by
  obtain ⟨realm, data, type⟩ := caller
  cases data with
  | nil => cases hname
  | cons d ds =>
    rw [unparseName_eq, Except.ok.injEq] at hname
    subst hname
    exact ⟨d, ds, rfl, cstring_snoc_nul (nul_notMem_nameText d ds realm)⟩

theorem lookupMod_modifiedOctets
    (hdata : dbeLookupTlData kdb tlModPrinc = modifiedOctets now name) :
    dbeLookupModPrincData defaultRealm kdb =
      ((parseName defaultRealm (cstring name ++ [0])).mapError .name).map fun q => (now, q) := by
  exact lookupMod_eq hdata (by simp)

theorem lookupMod_of_data (hname : unparseName caller = .ok name) (hrealm : caller.realm ≠ [])
    (hdata : dbeLookupTlData kdb tlModPrinc = modifiedOctets now name) :
    dbeLookupModPrincData defaultRealm kdb = .ok (now, { caller with type := ntPrincipal }) := by
  obtain ⟨d, ds, hcaller, htext⟩ := cstring_unparsed hname
  rw [lookupMod_modifiedOctets hdata, htext, parseName_nameText _ d ds hrealm, ← hcaller]
  rfl

theorem lookupMod_ok (hname : unparseName caller = .ok name)
    (hmodified : tlContents (modifiedOctets now name) = .ok modified)
    (hdata : dbeLookupTlData kdb tlModPrinc = modified)
    (h : dbeLookupModPrincData defaultRealm kdb = .ok who) :
    (modifiedOctets now name).length < 2 ^ 16 ∧ caller.realm ≠ [] := by
  have hshort : (modifiedOctets now name).length < 2 ^ 16 := by
    by_contra hlong
    -- what is left of the name does not reach the zero behind it
    obtain ⟨k, hk, rfl⟩ := tlContents_take hmodified
    have hlast := lookupMod_inv h
    have hlen : (modifiedOctets now name).length = 4 + (cstring name).length + 1 := by
      simp only [modifiedOctets, length_append, length_le32, length_singleton]
    have hdrop : (modifiedOctets now name).drop 4 = cstring name ++ [0] := by
      rfl
    rw [hdata, drop_take, hdrop, take_append_of_le_length (by omega)] at hlast
    exact nul_notMem_cstring name (mem_of_mem_take (mem_of_getLast? hlast))
  refine ⟨hshort, fun hrealm => ?_⟩
  obtain ⟨-, rfl⟩ := tlContents_ok hmodified hshort
  obtain ⟨d, ds, -, htext⟩ := cstring_unparsed hname
  rw [lookupMod_modifiedOctets hdata, htext, hrealm, parseName_no_realm] at h
  cases h

end Modified

theorem length_encode_of_adminRecord (hlen : (dbeLookupTlData stored tlKadmData).length < 2 ^ 15)
    (h : adminRecord handle stored = .ok adb) : (encodeOsaPrincEnt adb).length < 2 ^ 15 := by
  simp only [adminRecord] at h
  split at h
  · cases h
    have hzero : (encodeOsaPrincEnt { OsaPrincEnt.zero with
        adminHistoryKvno := handle.histKvno }).length = 24 := by
      rfl
    rw [hzero]
    decide
  · split at h
    · rename_i hdec
      cases h
      exact Nat.lt_of_le_of_lt (length_encode_of_decode hdec) hlen
    · cases h

theorem adminRecord_of_data (hdata : dbeLookupTlData stored tlKadmData = encodeOsaPrincEnt adb)
    (hlen : (encodeOsaPrincEnt adb).length < 2 ^ 15) :
    adminRecord handle stored = .ok adb.saved := by
  simp only [adminRecord, hdata]
  rw [if_neg (encodeOsaPrincEnt_ne_nil adb), decode_encodeOsaPrincEnt hlen]

section

variable (hkey : encodePrincDbkey p = .ok key) (hrealm : p.realm ≠ [])
  (hlook : db.princs.lookup key = some (storedEntry kdb adb now name))
  (hlen : (encodeOsaPrincEnt adb).length < 2 ^ 15)
include hkey hrealm hlook hlen

theorem readAs_stored :
    ReadAs handle db p key (storedEntry kdb adb now name)
      { storedEntry kdb adb now name with princ := { p with type := ntPrincipal } } adb.saved :=
  ⟨hkey, hlook, parseName_of_dbkey _ hkey hrealm, rfl,
    adminRecord_of_data (lookup_kadmData _) hlen⟩

theorem getPrincipal_stored (hname : unparseName handle.currentCaller = .ok name)
    (hcaller : handle.currentCaller.realm ≠ []) (mask : Mask) :
    (kadm5GetPrincipal handle (some p) mask).run db = (.ok (answer p kdb adb
      (if isSet mask maskModName || isSet mask maskModTime then
        some (now, { handle.currentCaller with type := ntPrincipal }) else none) mask), db) := by
  have hmod : dbeLookupModPrincData handle.defaultRealm
      { storedEntry kdb adb now name with princ := { p with type := ntPrincipal } } =
        .ok (now, { handle.currentCaller with type := ntPrincipal }) :=
    lookupMod_of_data hname hcaller (lookup_modPrinc _)
  rw [(readAs_stored hkey hrealm hlook hlen).getPrincipal mask, modifiedFor, hmod]
  split
  · show (Except.ok (answer p _ adb.saved _ mask), db) = _
    rw [answer_saved, storedEntry, answer_stored]
  · show (Except.ok (answer p _ adb.saved _ mask), db) = _
    rw [answer_saved, storedEntry, answer_stored]

end

end Krb5.Kadm5
