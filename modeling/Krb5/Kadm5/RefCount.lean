import Krb5.Kadm5.PolicyValid
import Krb5.Kadm5.PrincipalFacts

/-!
# Reference counts of policies

The count of a policy is meant to be the number of principals that name it. `Balanced` says that a
call has changed both by the same amount. A creation that cannot store its entry sets the count
back; a modification and a removal do not.
-/

namespace Krb5.Kadm5

open Lib Kdb AList List

variable {key : Octets}

def policyOf (entry : DbEntry) : Option CString :=
  (decodeOsaPrincEnt (dbeLookupTlData entry tlKadmData)).bind OsaPrincEnt.named

def namesPolicy (n : CString) (entry : DbEntry) : Bool := policyOf entry = some n

def refs (db : Db) (n : CString) : Nat := db.princs.count (namesPolicy n)

/-- The count that is stored with a policy; zero for one that is not there. -/
def refcnt (db : Db) (n : CString) : Nat :=
  (db.policies.lookup n).elim 0 fun t => t.policyRefcnt.toNat

structure Kept (entry : DbEntry) : Prop where
  counted : Counted entry
  len : entry.len = v1BaseLength
  modPrinc : entry.tlData.any (·.type = tlModPrinc) = true
  record : ∃ adb, dbeLookupTlData entry tlKadmData = encodeOsaPrincEnt adb ∧
    (encodeOsaPrincEnt adb).length < 2 ^ 15

/-- The databases hold only what the admin server has stored. -/
structure Sound (db : Db) : Prop where
  kept : ∀ key entry, db.princs.lookup key = some entry → Kept entry
  named : ∀ n t, db.policies.lookup n = some t → n.text ≠ []

structure Consistent (db : Db) : Prop extends Sound db where
  exact : ∀ n, refcnt db n = refs db n

variable {handle : Handle} {io : Io} {db db' : Db}

def tally (p : Option CString) (n : CString) : Nat := if p = some n then 1 else 0

theorem toNat_namesPolicy (n : CString) (entry : DbEntry) :
    (namesPolicy n entry).toNat = tally (policyOf entry) n := by
  rw [namesPolicy, tally]
  split <;> simp [*]

@[simp] theorem tally_none (n : CString) : tally none n = 0 := rfl

variable {entry : DbEntry} {n : CString}

variable {adb : OsaPrincEnt}

theorem policyOf_of_adminRecord (h : adminRecord handle entry = .ok adb) :
    policyOf entry = adb.named := by
  simp only [adminRecord] at h
  split at h
  · rename_i hdata
    cases h
    rw [policyOf, hdata]
    exact (ite_self none).symm
  · split at h
    · rename_i hdec
      cases h
      rw [policyOf, hdec]
      rfl
    · cases h

theorem Kept.adminRecord (h : Kept entry) (handle : Handle) :
    ∃ adb, Kadm5.adminRecord handle entry = .ok adb ∧ (encodeOsaPrincEnt adb).length < 2 ^ 15 := by
  obtain ⟨adb, hdata, hlen⟩ := h.record
  refine ⟨adb.saved, ?_, ?_⟩
  · simp only [Kadm5.adminRecord, hdata]
    rw [if_neg (encodeOsaPrincEnt_ne_nil adb), decode_encodeOsaPrincEnt hlen]
  · rw [length_encodeOsaPrincEnt] at hlen ⊢
    exact hlen

theorem Kept.any_kadmData (h : Kept entry) : entry.tlData.any (·.type = tlKadmData) := by
  obtain ⟨adb, hdata, -⟩ := h.record
  rw [dbeLookupTlData] at hdata
  cases hfind : entry.tlData.find? (·.type = tlKadmData) with
  | none =>
    rw [hfind] at hdata
    exact absurd hdata.symm (encodeOsaPrincEnt_ne_nil adb)
  | some tl =>
    rw [any_eq_true]
    have htype := find?_some hfind
    exact ⟨tl, mem_of_find?_eq_some hfind, by simpa using htype⟩

theorem kept_of_put {kdb : DbEntry} {content : Content}
    (hprepared : prepared handle io kdb adb = .ok entry)
    (hcontent : encodePrincContents entry = .ok content)
    (hlen : (encodeOsaPrincEnt adb).length < 2 ^ 16) :
    Kept entry ∧ policyOf entry = adb.named ∧ entry.princ = kdb.princ := by
  obtain ⟨now, name, modified, record, -, -, -, hrec, rfl⟩ := prepared_ok.mp hprepared
  obtain ⟨hshort, rfl⟩ := tlContents_ok hrec hlen
  obtain ⟨hcnt, hbase⟩ := encodePrincContents_ok hcontent
  have hlook : dbeLookupTlData (withTl (withTl kdb ⟨tlModPrinc, modified⟩)
      ⟨tlKadmData, encodeOsaPrincEnt adb⟩) tlKadmData = encodeOsaPrincEnt adb :=
    dbeLookupTlData_withTl_self ⟨tlKadmData, encodeOsaPrincEnt adb⟩
  refine ⟨⟨hcnt, hbase, ?_, adb, hlook, hshort⟩, ?_, ?_⟩
  · rw [any_withTl, any_withTl]
    rfl
  · rw [policyOf, hlook, decode_encodeOsaPrincEnt hshort]
    rfl
  · rw [withTl_eq, withTl_eq]

/-! ## Balance -/

/-- Counts and principals have changed by the same amount. -/
def Balanced (db db' : Db) : Prop := ∀ n, refcnt db' n + refs db n = refcnt db n + refs db' n

theorem refs_le (db : Db) (n : CString) : refs db n ≤ db.princs.entries.length :=
  countP_le_length

def policyAt (db : Db) (key : Octets) : Option CString := (db.princs.lookup key).bind policyOf

theorem weight_eq (key : Octets) (n : CString) :
    Table.weight (namesPolicy n) (db.princs.lookup key) = tally (policyAt db key) n := by
  rw [policyAt]
  cases db.princs.lookup key with
  | none => rfl
  | some entry => exact toNat_namesPolicy n entry

theorem refs_put (key : Octets) (entry : DbEntry) (n : CString) :
    refs (db.put key entry) n + tally (policyAt db key) n = refs db n + tally (policyOf entry) n := by
  rw [← toNat_namesPolicy, ← weight_eq]
  exact Table.count_insert _ _ _ _

theorem refs_remove (key : Octets) (n : CString) :
    refs (db.remove key) n + tally (policyAt db key) n = refs db n := by
  rw [← weight_eq]
  exact Table.count_erase _ _ _

theorem policyAt_put (key : Octets) (entry : DbEntry) :
    policyAt (db.put key entry) key = policyOf entry := by
  rw [policyAt, Db.put, lookup_insert]
  rfl

theorem policyAt_of_lookup (h : db.princs.lookup key = some entry) :
    policyAt db key = policyOf entry := by
  rw [policyAt, h]
  rfl

theorem refcnt_withRefcnt (n m : CString) (t : OsaPolicyEnt) (count : UInt32) :
    refcnt (db.withRefcnt n t count) m = if m = n then count.toNat else refcnt db m := by
  rw [refcnt, Db.withRefcnt]
  split
  · rename_i h
    subst h
    rw [lookup_insert]
    rfl
  · rename_i h
    rw [lookup_insert_ne h]
    rfl

theorem Consistent.toNat_policyRefcnt (h : Consistent db) {t : OsaPolicyEnt}
    (ht : db.policies.lookup n = some t) : t.policyRefcnt.toNat = refs db n := by
  rw [← h.exact, refcnt, ht]
  rfl

theorem Consistent.lookup_policyOf (h : Consistent db) (hlook : db.princs.lookup key = some entry)
    (hn : policyOf entry = some n) :
    ∃ t, db.policies.lookup n = some t ∧ 0 < t.policyRefcnt.toNat := by
  have hrefs : _ = refs db n := refs_remove key n
  rw [policyAt_of_lookup hlook, tally, if_pos hn, ← h.exact, refcnt] at hrefs
  cases ht : db.policies.lookup n with
  | none =>
    rw [ht] at hrefs
    simp at hrefs
  | some t =>
    rw [ht, Option.elim_some] at hrefs
    exact ⟨t, rfl, by omega⟩

theorem Balanced.exact (h : Balanced db db') (hdb : ∀ n, refcnt db n = refs db n) (n : CString) :
    refcnt db' n = refs db' n := by
  have := h n
  have := hdb n
  omega

theorem Consistent.of_balanced (h : Consistent db) (hbalanced : Balanced db db')
    (hsound : Sound db') : Consistent db' :=
  ⟨hsound, hbalanced.exact h.exact⟩

theorem Sound.put (h : Sound db) (hentry : Kept entry) (key : Octets) :
    Sound (db.put key entry) := by
  refine ⟨fun key' entry' hlook => ?_, h.named⟩
  by_cases hkey : key' = key
  · subst hkey
    rw [Db.put, lookup_insert] at hlook
    cases hlook
    exact hentry
  · rw [Db.put, lookup_insert_ne hkey] at hlook
    exact h.kept key' entry' hlook

theorem Sound.remove (h : Sound db) (key : Octets) : Sound (db.remove key) := by
  refine ⟨fun key' entry' hlook => ?_, h.named⟩
  by_cases hkey : key' = key
  · subst hkey
    rw [Db.remove, lookup_erase] at hlook
    cases hlook
  · rw [Db.remove, lookup_erase_ne hkey] at hlook
    exact h.kept key' entry' hlook

theorem Sound.insertPolicy (h : Sound db) (hne : n.text ≠ []) (t : OsaPolicyEnt) :
    Sound { db with policies := db.policies.insert n t } := by
  refine ⟨h.kept, fun m t' hlook => ?_⟩
  by_cases hm : m = n
  · subst hm
    exact hne
  · rw [lookup_insert_ne hm] at hlook
    exact h.named m t' hlook

/-! ## Writing the counts -/

/-- The counts are those for a principal that names `after` in the place of `before`, and the
principals are as they were. -/
structure Recounted (db db' : Db) (before after : Option CString) : Prop where
  princs : db'.princs = db.princs
  named : ∀ n t, db'.policies.lookup n = some t → n.text ≠ []
  moved : ∀ n, refcnt db' n + tally before n = refcnt db n + tally after n

namespace Recounted

variable {db₁ db₂ : Db} {a b c : Option CString}

theorem trans (h : Recounted db db₁ a b) (h' : Recounted db₁ db₂ b c) : Recounted db db₂ a c := by
  refine ⟨h'.princs.trans h.princs, h'.named, fun n => ?_⟩
  have := h.moved n
  have := h'.moved n
  omega

theorem refl (h : Sound db) (a : Option CString) : Recounted db db a a := ⟨rfl, h.named, fun _ => rfl⟩

theorem sound (h : Recounted db db₁ a b) (hdb : Sound db) : Sound db₁ :=
  ⟨fun key entry hlook => hdb.kept key entry (by rwa [h.princs] at hlook), h.named⟩

theorem refs_eq (h : Recounted db db₁ a b) (n : CString) : refs db₁ n = refs db n := by
  rw [refs, h.princs, refs]

theorem policyAt_eq (h : Recounted db db₁ a b) (key : Octets) : policyAt db₁ key = policyAt db key := by
  rw [policyAt, h.princs, policyAt]

theorem balanced_put (h : Recounted db db₁ (policyAt db key) (policyOf entry)) :
    Balanced db (db₁.put key entry) := by
  intro n
  have hmoved := h.moved n
  have hrefs : refs (db₁.put key entry) n + tally (policyAt db₁ key) n = _ := refs_put key entry n
  rw [h.refs_eq, h.policyAt_eq] at hrefs
  have hsame : refcnt (db₁.put key entry) n = refcnt db₁ n := rfl
  omega

theorem balanced_remove (h : Recounted db db₁ (policyAt db key) none) :
    Balanced db ((db₁.put key entry).remove key) := by
  intro n
  have hmoved := h.moved n
  have hput : refs (db₁.put key entry) n + tally (policyAt db₁ key) n = _ := refs_put key entry n
  have hremove : refs ((db₁.put key entry).remove key) n + _ = _ := refs_remove key n
  rw [policyAt_put] at hremove
  rw [h.refs_eq, h.policyAt_eq] at hput
  have hsame : refcnt ((db₁.put key entry).remove key) n = refcnt db₁ n := rfl
  rw [tally_none] at hmoved
  omega

theorem balanced (h : Recounted db db₁ a a) : Balanced db db₁ := by
  intro n
  have := h.moved n
  rw [h.refs_eq]
  omega

end Recounted

section Counting

variable {t : OsaPolicyEnt}

theorem named_withRefcnt (h : Sound db) (ht : db.policies.lookup n = some t) (count : UInt32) :
    ∀ m t', (db.withRefcnt n t count).policies.lookup m = some t' → m.text ≠ [] :=
  (h.insertPolicy (h.named n t ht) _).named

theorem refcnt_of_lookup (ht : db.policies.lookup n = some t) :
    refcnt db n = t.policyRefcnt.toNat := by
  rw [refcnt, ht]
  rfl

theorem lookup_of_refcnt_pos (h : 0 < refcnt db n) : ∃ t, db.policies.lookup n = some t := by
  cases ht : db.policies.lookup n with
  | none =>
    rw [refcnt, ht] at h
    exact absurd h (Nat.lt_irrefl 0)
  | some t => exact ⟨t, rfl⟩

section

variable (ht : db.policies.lookup n = some t)
include ht

theorem countUp (h : Sound db)
    (hroom : t.policyRefcnt.toNat + 1 < 2 ^ 32) :
    ∃ db₁, (putRefcnt (counted (t.ent n) 1)).run db = (.ok (), db₁) ∧
      Recounted db db₁ none (some n) := by
  refine ⟨_, putRefcnt_run rfl (h.named n t ht) ht, rfl, named_withRefcnt h ht _, fun m => ?_⟩
  rw [refcnt_withRefcnt, tally_none, tally]
  by_cases hm : m = n
  · subst hm
    rw [if_pos rfl, if_pos rfl, refcnt_of_lookup ht]
    exact Nat.mod_eq_of_lt hroom
  · rw [if_neg hm, if_neg (by simpa using Ne.symm hm)]

theorem countDown (h : Sound db)
    (hpos : 0 < t.policyRefcnt.toNat) :
    ∃ db₁, (putRefcnt (counted (t.ent n) (-1))).run db = (.ok (), db₁) ∧
      Recounted db db₁ (some n) none := by
  refine ⟨_, putRefcnt_run rfl (h.named n t ht) ht, rfl, named_withRefcnt h ht _, fun m => ?_⟩
  have hcnt : (counted (t.ent n) (-1)).policyRefcnt.toUInt32 = t.policyRefcnt - 1 := by
    rw [UInt32.sub_eq_add_neg]
    rfl
  rw [hcnt, refcnt_withRefcnt, tally_none, tally]
  by_cases hm : m = n
  · subst hm
    have hle : (1 : UInt32) ≤ t.policyRefcnt := by
      exact hpos
    rw [if_pos rfl, if_pos rfl, refcnt_of_lookup ht, UInt32.toNat_sub_of_le _ _ hle]
    exact Nat.sub_add_cancel hpos
  · rw [if_neg hm, if_neg (by simpa using Ne.symm hm)]

/-- The count that was raised is put back. -/
theorem countBack {db₁ : Db} (h : Consistent db)
    (hup : Recounted db db₁ none (some n)) : Consistent ((putRefcnt (t.ent n)).run db₁).2 := by
  have hsound := hup.sound h.toSound
  have hone : refcnt db₁ n = refcnt db n + 1 := by
    have := hup.moved n
    rwa [tally_none, tally, if_pos rfl] at this
  have hpos : 0 < refcnt db₁ n := by omega
  obtain ⟨t', ht'⟩ := lookup_of_refcnt_pos hpos
  rw [putRefcnt_run rfl (hsound.named n t' ht') ht']
  refine ⟨⟨hsound.kept, named_withRefcnt hsound ht' _⟩, fun m => ?_⟩
  have hrefs : refs (db₁.withRefcnt n t' (t.ent n).policyRefcnt.toUInt32) m = refs db m :=
    hup.refs_eq m
  rw [refcnt_withRefcnt, hrefs, ← h.exact]
  by_cases hm : m = n
  · subst hm
    rw [if_pos rfl, refcnt_of_lookup ht]
    rfl
  · have := hup.moved m
    rw [tally_none, tally, if_neg (by simpa using Ne.symm hm)] at this
    rw [if_neg hm]
    exact this

theorem countSame (h : Sound db) (a : Option CString) :
    ∃ db₁, (putRefcnt (t.ent n)).run db = (.ok (), db₁) ∧ Recounted db db₁ a a := by
  refine ⟨_, putRefcnt_run rfl (h.named n t ht) ht, rfl, named_withRefcnt h ht _, fun m => ?_⟩
  rw [refcnt_withRefcnt]
  split
  · rename_i hm
    subst hm
    rw [refcnt_of_lookup ht]
    rfl
  · rfl

end

end Counting

end Krb5.Kadm5
