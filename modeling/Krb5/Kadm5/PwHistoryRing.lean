import Krb5.Kadm5.PwHistoryRun

/-!
# The history under policies that change

`add_to_history` takes its limit from the policy that the principal has at the time of the call, and
compares the index with it for equality.
-/

namespace Krb5.Kadm5

open Lib Kdb Slots Name List

variable {handle : Handle} {io : Io} {db db' : Db} {p : Principal} {ksTuple : List KeySaltTuple}
  {keepold : Bool} {word : CString} {kdb kdb' : DbEntry} {adb adb' : OsaPrincEnt} {pol : PolicyEnt}
  {keys : List KeyData} {now : Timestamp} {hist : PwHistEnt} {result : Except Code Unit}
  {entry : PrincipalEntRec} {mask : Mask} {change : PolicyChange}

/-! ## Calls that come to `add_to_history` -/

/-- What `kadm5_chpass_principal_3` has passed when it calls `add_to_history`. -/
structure Appends (handle : Handle) (pol : PolicyEnt) (oldKeyData newKeyData : List KeyData)
    (adb : OsaPrincEnt) (hist : PwHistEnt) : Prop where
  entry : createHistoryEntry handle oldKeyData = .ok hist
  fresh : checkPwReuse handle newKeyData [hist] = .ok ()
  many : pol.pwHistoryNum > 1
  kvno : adb.adminHistoryKvno = handle.histKvno
  unused : checkPwReuse handle newKeyData adb.oldKeys = .ok ()

/-- A history is kept only under a policy that asks for more than one password. -/
theorem historyUnder_ok {pol : Option PolicyEnt}
    (h : historyUnder handle pol kdb.keyData keys adb = .ok adb') :
    (adb' = adb ∧ ∀ pol', pol = some pol' → ¬pol'.pwHistoryNum > 1) ∨
      ∃ pol' hist, pol = some pol' ∧ Appends handle pol' kdb.keyData keys adb hist ∧
        addToHistory adb pol' hist = .ok adb' := by
  cases pol with
  | none =>
    cases h
    exact .inl ⟨rfl, fun _ hpol => nomatch hpol⟩
  | some pol =>
    obtain ⟨hist, hentry, h⟩ := bind_eq_ok.mp h
    obtain ⟨_, hfresh, h⟩ := bind_eq_ok.mp h
    split at h
    · rename_i hmany
      split at h
      · cases h
      · rename_i hkvno
        obtain ⟨_, hunused, h⟩ := bind_eq_ok.mp h
        exact .inr ⟨pol, hist, rfl, ⟨hentry, hfresh, hmany, not_not.mp hkvno, hunused⟩, h⟩
    · rename_i hmany
      cases h
      refine .inl ⟨rfl, fun pol' hpol => ?_⟩
      cases hpol
      exact hmany

/-- A call comes to `add_to_history`, with this record, this policy and this entry. -/
structure Comes (handle : Handle) (io : Io) (p : Principal) (keepold : Bool)
    (ksTuple : List KeySaltTuple) (word : CString) (db : Db) (kdb : DbEntry) (keys : List KeyData)
    (now : Timestamp) (adb : OsaPrincEnt) (pol : PolicyEnt) (hist : PwHistEnt) : Prop where
  other : principalCompare p handle.histPrinc = false
  read : (kdbGetEntry handle p).run db = (.ok (kdb, adb), db)
  policy : (recordPolicy adb).run db = (.ok (some pol), db)
  quality : passwdCheck handle word (some pol) p = .ok ()
  keyed : keyedEntry handle kdb ksTuple word 0 keepold = .ok { kdb with keyData := keys }
  clock : io.now = .ok now
  appends : Appends handle pol kdb.keyData keys adb hist

theorem Changed.record_cases {key : Octets} {stored stored' : DbEntry} {pol : Option PolicyEnt}
    (hother : principalCompare p handle.histPrinc = false)
    (h : Changed handle io p keepold ksTuple word db db' key stored kdb adb pol kdb' adb' stored') :
    (adb' = adb ∧ ∀ pol', pol = some pol' → ¬pol'.pwHistoryNum > 1) ∨
      ∃ pol' hist keys now, pol = some pol' ∧
        Comes handle io p keepold ksTuple word db kdb keys now adb pol' hist ∧
        addToHistory adb pol' hist = .ok adb' := by
  obtain ⟨keys, now, hrepassed⟩ := changedPassword_ok h.changed
  rcases historyUnder_ok hrepassed.history with hsame | ⟨pol', hist, rfl, happends, hadd⟩
  · exact .inl hsame
  · exact .inr ⟨pol', hist, keys, now, rfl, ⟨hother, h.read.get, h.policy, hrepassed.quality,
      hrepassed.keyed, hrepassed.clock, happends⟩, hadd⟩

theorem Comes.unique {keys' : List KeyData} {now' : Timestamp} {pol' : PolicyEnt}
    {hist' : PwHistEnt} (h : Comes handle io p keepold ksTuple word db kdb keys now adb pol hist)
    (h' : Comes handle io p keepold ksTuple word db kdb' keys' now' adb' pol' hist') :
    adb' = adb ∧ pol' = pol ∧ hist' = hist := by
  cases h.read.symm.trans h'.read
  cases h.policy.symm.trans h'.policy
  cases h.appends.entry.symm.trans h'.appends.entry
  exact ⟨rfl, rfl, rfl⟩

/-- A change of the password, or a change of the policy or of the policy's numbers. -/
inductive RingCall
  | chpass (io : Io) (keepold : Bool) (ksTuple : List KeySaltTuple) (word : CString)
  | modifyPolicy (entry : PolicyEnt) (mask : Mask)
  | modifyPrincipal (io : Io) (entry : PrincipalEntRec) (mask : Mask)

namespace RingCall

def run (handle : Handle) (p : Principal) : RingCall → DbCall Unit
  | chpass io keepold ksTuple word =>
    kadm5ChpassPrincipal3 handle io (some p) keepold ksTuple (some word)
  | modifyPolicy entry mask => kadm5ModifyPolicy entry mask
  | modifyPrincipal io entry mask => kadm5ModifyPrincipal handle io entry mask

def Adds (handle : Handle) (p : Principal) (db : Db) (adb : OsaPrincEnt) (pol : PolicyEnt)
    (hist : PwHistEnt) : RingCall → Prop
  | chpass io keepold ksTuple word =>
    ∃ kdb keys now, Comes handle io p keepold ksTuple word db kdb keys now adb pol hist
  | _ => False

def Fits (handle : Handle) (p : Principal) (db : Db) (c : RingCall) : Prop :=
  ∀ kdb adb, (kdbGetEntry handle p).run db = (.ok (kdb, adb), db) →
    (encodeOsaPrincEnt adb).length < 2 ^ 16 ∧
    match c with
    | chpass _ _ _ _ => ∀ hist, createHistoryEntry handle kdb.keyData = .ok hist →
        (encodeOsaPrincEnt adb).length + (putPwHistEnt hist).length + 4 < 2 ^ 16
    | modifyPolicy _ _ => True
    | modifyPrincipal _ entry _ => ∀ n, entry.policy = some n →
        (encodeOsaPrincEnt (naming adb n)).length < 2 ^ 16

end RingCall

/-! ## What stays of the record -/

def SameHistory (handle : Handle) (p : Principal) (db db' : Db) : Prop :=
  ∀ kdb adb, (kdbGetEntry handle p).run db = (.ok (kdb, adb), db) →
    ∃ kdb' adb', (kdbGetEntry handle p).run db' = (.ok (kdb', adb'), db') ∧
      adb'.oldKeys = adb.oldKeys ∧ adb'.oldKeyNext = adb.oldKeyNext

theorem sameHistory_of_lookup
    (h : ∀ key, encodePrincDbkey p = .ok key → db'.princs.lookup key = db.princs.lookup key) :
    SameHistory handle p db db' := by
  intro kdb adb hget
  obtain ⟨key, stored, hread⟩ := kdbGetEntry_ok hget
  have hread' : ReadAs handle db' p key stored kdb adb :=
    { hread with lookup := (h key hread.dbkey).trans hread.lookup }
  exact ⟨kdb, adb, hread'.get, rfl, rfl⟩

theorem sameHistory_of_princs (h : db'.princs = db.princs) : SameHistory handle p db db' :=
  sameHistory_of_lookup fun _ _ => by rw [h]

theorem PolicyChanged.same_history (h : PolicyChanged entry mask kdb adb db change) :
    change.adb.oldKeys = adb.oldKeys ∧ change.adb.oldKeyNext = adb.oldKeyNext := by
  cases h <;> exact ⟨rfl, rfl⟩

theorem PolicyChanged.length_lt (h : PolicyChanged entry mask kdb adb db change)
    (hlen : (encodeOsaPrincEnt adb).length < 2 ^ 16)
    (hnamed : ∀ n, entry.policy = some n → (encodeOsaPrincEnt (naming adb n)).length < 2 ^ 16) :
    (encodeOsaPrincEnt change.adb).length < 2 ^ 16 := by
  cases h with
  | untouched => exact hlen
  | first hset hn => exact hnamed _ hn
  | again hset hn => exact hnamed _ hn
  | other hset hn => exact hnamed _ hn
  | cleared =>
    have hnone := length_putNullstring_none_le adb.policy
    rw [length_encodeOsaPrincEnt] at hlen ⊢
    show 16 + (putNullstring none).length + (putArray putPwHistEnt adb.oldKeys).length < 2 ^ 16
    omega

/-- Modifying a principal does not touch its history. -/
theorem sameHistory_modifyPrincipal
    (hfits : (RingCall.modifyPrincipal io entry mask).Fits handle p db)
    (h : (kadm5ModifyPrincipal handle io entry mask).run db = (result, db')) :
    SameHistory handle p db db' := by
  rcases modifyPrincipal_princs h with hsame | ⟨q, kdb₁, adb₁, change, key₁, stored₁, hmodified, hput⟩
  · exact sameHistory_of_princs hsame
  intro kdb adb hget
  obtain ⟨key, stored, hread⟩ := kdbGetEntry_ok hget
  by_cases hkey : key = key₁
  · cases hkey
    obtain ⟨key', stored', hread₁⟩ := kdbGetEntry_ok hmodified.checks.found
    cases hread₁.dbkey.symm.trans hmodified.dbkey
    cases hread₁.lookup.symm.trans hread.lookup
    cases hread₁.record.symm.trans hread.record
    obtain ⟨hlen, hnamed⟩ := hfits kdb _ hget
    have hroom := hmodified.checks.changed.length_lt hlen hnamed
    obtain ⟨_, _, _, record, -, -, -, hrec, hstored⟩ := prepared_ok.mp hmodified.prepared
    obtain ⟨hshort, rfl⟩ := tlContents_ok hrec hroom
    have hparse := hread.parse
    rw [hread.eq] at hparse
    have hrec' : adminRecord handle stored₁ = .ok change.adb.saved := by
      rw [hstored]
      exact adminRecord_of_data (lookup_kadmData _) hshort
    have hread' : ReadAs handle db' p key₁ stored₁
        { stored₁ with princ := { p with type := ntPrincipal } } change.adb.saved :=
      ⟨hread.dbkey, hmodified.lookup, hparse, rfl, hrec'⟩
    exact ⟨_, _, hread'.get, hmodified.checks.changed.same_history⟩
  · refine sameHistory_of_lookup (fun key' hkey' => ?_) kdb adb hget
    cases hread.dbkey.symm.trans hkey'
    rw [hput]
    exact AList.lookup_insert_ne hkey

theorem sameHistory_chpass (hfits : (RingCall.chpass io keepold ksTuple word).Fits handle p db)
    (h : (kadm5ChpassPrincipal3 handle io (some p) keepold ksTuple (some word)).run db = (result, db'))
    (hnot : result = .ok () → ∀ adb pol hist,
      ¬(RingCall.chpass io keepold ksTuple word).Adds handle p db adb pol hist) :
    SameHistory handle p db db' := by
  cases result with
  | error code =>
    rw [careful_chpass _ _ h]
    exact sameHistory_of_princs rfl
  | ok u =>
    intro kdb adb hget
    obtain ⟨hother, key, stored, kdb₁, adb₁, pol, kdb', adb', stored', hchanged⟩ := chpass_ok h
    cases hchanged.read.get.symm.trans hget
    rcases hchanged.record_cases hother with ⟨rfl, -⟩ | ⟨pol', hist, keys, now, -, hcomes, -⟩
    · exact ⟨_, _, (hchanged.reread (hfits _ _ hget).1).get, rfl, rfl⟩
    · exact absurd ⟨_, keys, now, hcomes⟩ (hnot rfl _ pol' hist)

variable {c : RingCall}

theorem RingCall.sameHistory (hfits : c.Fits handle p db)
    (h : (c.run handle p).run db = (result, db'))
    (hnot : result = .ok () → ∀ adb pol hist, ¬c.Adds handle p db adb pol hist) :
    SameHistory handle p db db' := by
  cases c with
  | chpass io keepold ksTuple word => exact sameHistory_chpass hfits h hnot
  | modifyPolicy entry mask =>
    refine sameHistory_of_princs ?_
    replace h : (kadm5ModifyPolicy entry mask).run db = (result, db') := h
    rw [kadm5ModifyPolicy] at h
    cases hmask : isSet mask maskRefCount with
    | true =>
      rw [hmask] at h
      cases h
      rfl
    | false =>
      rw [hmask] at h
      exact wp_run (modifyPolicyInternal_princs entry mask db) h
  | modifyPrincipal io entry mask => exact sameHistory_modifyPrincipal hfits h

/-! ## Runs -/

/-- The history of a principal as it came about: the passwords in their slots, each with the
number of those before it, how many there have been, and the largest limit so far. -/
structure Ring where
  slots : Slots (Nat × PwHistEnt)
  count : Nat
  largest : Nat

def Ring.empty : Ring := ⟨.empty, 0, 0⟩

def InSlot (hist : PwHistEnt) (o : Option (Nat × PwHistEnt)) : Prop := hist = (o.map Prod.snd).getD ⟨[]⟩

def HasRing (handle : Handle) (p : Principal) (db : Db) (ring : Ring) : Prop :=
  ∃ kdb adb, (kdbGetEntry handle p).run db = (.ok (kdb, adb), db) ∧ SlotsOf InSlot adb ring.slots

def Ring.Push (ring : Ring) (pol : PolicyEnt) (hist : PwHistEnt) (ring' : Ring) : Prop :=
  ring.slots.push (historyLimit pol.pwHistoryNum) (ring.count, hist) = some ring'.slots ∧
    ring'.count = ring.count + 1 ∧ ring'.largest = max ring.largest (historyLimit pol.pwHistoryNum)

/-- The steps of a run. Those that put a password into the history are steady ones. -/
inductive RingStep (handle : Handle) (p : Principal) :
    Db × Ring → Option RingCall → Db × Ring → Prop
  | adds {c : RingCall} {db db' : Db} {ring ring' : Ring} {adb : OsaPrincEnt} {pol : PolicyEnt}
      {hist : PwHistEnt} (hfits : c.Fits handle p db)
      (hrun : (c.run handle p).run db = (.ok (), db')) (hadds : c.Adds handle p db adb pol hist)
      (hsteady : ring.slots.Steady (historyLimit pol.pwHistoryNum)) (hpush : ring.Push pol hist ring') :
      RingStep handle p (db, ring) (some c) (db', ring')
  | keeps {c : RingCall} {db db' : Db} {ring : Ring} {result : Except Code Unit}
      (hfits : c.Fits handle p db) (hrun : (c.run handle p).run db = (result, db'))
      (hnot : result = .ok () → ∀ adb pol hist, ¬c.Adds handle p db adb pol hist) :
      RingStep handle p (db, ring) (some c) (db', ring)
  | elsewhere {db db' : Db} {ring : Ring}
      (h : ∀ key, encodePrincDbkey p = .ok key → db'.princs.lookup key = db.princs.lookup key) :
      RingStep handle p (db, ring) none (db', ring)

structure SteadyRing (handle : Handle) (p : Principal) (db : Db) (ring : Ring) : Prop where
  stored : HasRing handle p db ring
  aged : ring.slots.Aged Prod.fst ring.count
  length_le : ring.slots.slots.length ≤ ring.largest

theorem HasRing.same {ring : Ring} (h : HasRing handle p db ring) (hsame : SameHistory handle p db db') :
    HasRing handle p db' ring := by
  obtain ⟨kdb, adb, hget, hslots⟩ := h
  obtain ⟨kdb', adb', hget', hkeys, hnext⟩ := hsame kdb adb hget
  exact ⟨kdb', adb', hget', hslots.next.trans (congrArg UInt32.toNat hnext.symm), hkeys ▸ hslots.slots⟩

theorem inSlot_none : InSlot ⟨[]⟩ none := rfl

theorem inSlot_some (n : Nat) (hist : PwHistEnt) : InSlot hist (some (n, hist)) := rfl

/-- A change of the password pushes the old keys. -/
theorem HasRing.adds {ring ring' : Ring} (h : HasRing handle p db ring) (hfits : c.Fits handle p db)
    (hrun : (c.run handle p).run db = (.ok (), db')) (hadds : c.Adds handle p db adb pol hist)
    (hpush : ring.Push pol hist ring') : HasRing handle p db' ring' := by
  obtain ⟨kdb, adb₀, hget, hslots⟩ := h
  cases c with
  | modifyPolicy => exact hadds.elim
  | modifyPrincipal => exact hadds.elim
  | chpass io keepold ksTuple word =>
    obtain ⟨kdb₁, keys, now, hcomes⟩ := hadds
    cases hget.symm.trans hcomes.read
    obtain ⟨hlen, hroom⟩ := hfits _ _ hget
    obtain ⟨hother, key, stored, kdb₂, adb₂, pol₂, kdb', adb', stored', hchanged⟩ := chpass_ok hrun
    cases hchanged.read.get.symm.trans hget
    cases hchanged.policy.symm.trans hcomes.policy
    rcases hchanged.record_cases hother with ⟨-, hfew⟩ | ⟨pol', hist', keys', now', -, hcomes', hadd⟩
    · exact absurd hcomes.appends.many (hfew pol rfl)
    obtain ⟨-, rfl, rfl⟩ := hcomes.unique hcomes'
    have hone : pol'.pwHistoryNum ≠ 1 := fun heq => by
      have := hcomes.appends.many
      rw [heq] at this
      exact absurd this (by decide)
    obtain ⟨-, rfl⟩ := (addToHistory_ok hone).mp hadd
    have hmany := length_oldKeys_le adb
    have hread := hchanged.reread
      (Nat.lt_of_le_of_lt length_added_le (hroom hist' hcomes.appends.entry))
    have hslots' := hslots.added inSlot_none (inSlot_some _ _) (by omega) hpush.1
    exact ⟨_, _, hread.get, hslots'.next, hslots'.slots⟩

theorem steadyRing_step {t u : Db × Ring} {e : Option RingCall} (h : SteadyRing handle p t.1 t.2)
    (hstep : RingStep handle p t e u) : SteadyRing handle p u.1 u.2 := by
  cases hstep with
  | adds hfits hrun hadds hsteady hpush =>
    obtain ⟨hslots, hcnt, hlargest⟩ := hpush
    refine ⟨h.stored.adds hfits hrun hadds ⟨hslots, hcnt, hlargest⟩, ?_, ?_⟩
    · rw [hcnt]
      exact h.aged.push hsteady hslots rfl
    · rw [hlargest]
      exact (length_push_le hslots).trans (max_le_max_right _ h.length_le)
  | keeps hfits hrun hnot => exact { h with stored := h.stored.same (RingCall.sameHistory hfits hrun hnot) }
  | elsewhere helse => exact { h with stored := h.stored.same (sameHistory_of_lookup helse) }

theorem steadyRing_run {db₀ : Db} {calls : List (Option RingCall)} {ring : Ring}
    (hfirst : HasRing handle p db₀ .empty)
    (hrun : Run (RingStep handle p) (db₀, .empty) calls (db, ring)) : SteadyRing handle p db ring := by
  have hempty : SteadyRing handle p db₀ .empty := ⟨hfirst, aged_empty, Nat.le_refl 0⟩
  exact hrun.history (fun _ t => SteadyRing handle p t.1 t.2) hempty
    fun _ _ _ _ ht hstep => steadyRing_step ht hstep

/-- What is asked of a call of `add_to_history`: it writes inside the array, which is not longer
than the largest limit, it leaves the index inside the array, and the slot that it writes to was
free or held the oldest password, as will the one that comes next. -/
structure KeepsRing (ring : Ring) (adb : OsaPrincEnt) (pol : PolicyEnt) (hist : PwHistEnt)
    (adb' : OsaPrincEnt) (ring' : Ring) : Prop where
  inside : addToHistory adb pol hist = .ok adb'
  next_lt : adb'.oldKeyNext.toNat < adb'.oldKeys.length
  length_le : adb'.oldKeys.length ≤ max ring.largest (historyLimit pol.pwHistoryNum)
  oldest : ring.slots.OldestNext Prod.fst
  push : ring.Push pol hist ring'
  slots : SlotsOf InSlot adb' ring'.slots
  oldest' : ring'.slots.OldestNext Prod.fst

/-- In every run of password changes and changes of the policy in which the calls of
`add_to_history` so far were steady, the next one keeps the ring if and only if it is steady. -/
theorem history_ring_kept {db₀ : Db} {calls : List (Option RingCall)} {ring : Ring} {c : RingCall}
    (hfirst : HasRing handle p db₀ .empty)
    (hrun : Run (RingStep handle p) (db₀, .empty) calls (db, ring))
    (hfits : c.Fits handle p db) (hadds : c.Adds handle p db adb pol hist) :
    (∃ adb' ring', KeepsRing ring adb pol hist adb' ring') ↔
      ring.slots.Steady (historyLimit pol.pwHistoryNum) := by
  have h := steadyRing_run hfirst hrun
  obtain ⟨kdb, adb₀, hget, hslots⟩ := h.stored
  obtain ⟨hread, hmany⟩ : (adb₀ = adb) ∧ pol.pwHistoryNum > 1 := by
    cases c with
    | modifyPolicy => exact hadds.elim
    | modifyPrincipal => exact hadds.elim
    | chpass io keepold ksTuple word =>
      obtain ⟨_, _, _, hcomes⟩ := hadds
      cases hget.symm.trans hcomes.read
      exact ⟨rfl, hcomes.appends.many⟩
  cases hread
  have hone : pol.pwHistoryNum ≠ 1 := fun heq => by
    rw [heq] at hmany
    exact absurd hmany (by decide)
  have hlen := (hfits _ _ hget).1
  have hkeys := length_oldKeys_le adb
  rw [← h.aged.steady_iff (show Prod.fst (ring.count, hist) = ring.count from rfl)]
  constructor
  · rintro ⟨adb', ring', hkeeps⟩
    refine ⟨ring'.slots, hkeeps.push.1, ?_, hkeeps.oldest'⟩
    rw [hkeeps.slots.next, ← hkeeps.slots.slots.length_eq]
    exact hkeeps.next_lt
  rintro ⟨slots', hpush, hlt, holdest⟩
  have hslots' := hslots.added inSlot_none (inSlot_some _ _) (by omega) hpush
  have hslot := (hslots.slot_iff inSlot_none).mpr (push_eq_some.mp hpush).1
  refine ⟨added adb pol hist, ⟨slots', ring.count + 1, _⟩, (addToHistory_ok hone).mpr ⟨hslot, rfl⟩, ?_,
    ?_, oldestNext_of_sorted h.aged.sorted, ⟨hpush, rfl, rfl⟩, hslots', holdest⟩
  · rw [← hslots'.next, hslots'.slots.length_eq]
    exact hlt
  · rw [hslots'.slots.length_eq]
    exact (length_push_le hpush).trans (max_le_max_right _ h.length_le)

/-! ## A policy whose number is changed -/

theorem Remembers.hasRing {num : Int32} {current : Octets}
    (h : Remembers handle p ksTuple num db current []) : HasRing handle p db .empty := by
  obtain ⟨key, stored, kdb, adb, pol, kept, s, h⟩ := h
  have hempty : s.toList = [] := h.filled.holds.trans (rtake_nil _)
  have hlen : s.slots.length = 0 := by rw [← h.filled.length_eq, hempty, length_nil]
  have hnext : s.next = 0 := by
    rw [h.filled.growing (by rw [hlen]; exact Nat.zero_lt_of_lt h.filled.pos), hlen]
  have hkeys : adb.oldKeys = [] := eq_nil_of_length_eq_zero (h.slots.slots.length_eq.trans hlen)
  refine ⟨kdb, adb, h.read.get, ?_, ?_⟩
  · exact hnext.symm.trans h.slots.next
  · rw [hkeys]
    exact .nil

theorem RingCall.adds_of_ok
    (h : (kadm5ChpassPrincipal3 handle io (some p) keepold ksTuple (some word)).run db = (.ok (), db'))
    (hget : (kdbGetEntry handle p).run db = (.ok (kdb, adb), db))
    (hpol : (recordPolicy adb).run db = (.ok (some pol), db)) (hmany : pol.pwHistoryNum > 1) :
    ∃ hist, (RingCall.chpass io keepold ksTuple word).Adds handle p db adb pol hist := by
  obtain ⟨hother, key, stored, kdb₁, adb₁, pol₁, kdb', adb', stored', hchanged⟩ := chpass_ok h
  cases hchanged.read.get.symm.trans hget
  cases hchanged.policy.symm.trans hpol
  rcases hchanged.record_cases hother with ⟨-, hfew⟩ | ⟨pol', hist, keys, now, hpol', hcomes, -⟩
  · exact absurd hmany (hfew pol rfl)
  · cases hpol'
    exact ⟨hist, kdb, keys, now, hcomes⟩

theorem RingCall.fits_of_adds (h : Kadm5.Fits handle p db)
    (hadds : c.Adds handle p db adb pol hist) : c.Fits handle p db := by
  cases c with
  | modifyPolicy => exact hadds.elim
  | modifyPrincipal => exact hadds.elim
  | chpass io keepold ksTuple word =>
    obtain ⟨kdb, keys, now, hcomes⟩ := hadds
    intro kdb' adb' hget
    cases hget.symm.trans hcomes.read
    refine ⟨?_, fun hist' hhist' => h _ _ _ hget hhist'⟩
    have := h _ _ _ hget hcomes.appends.entry
    omega

def remember (num : Int32) : RingCall :=
  .modifyPolicy { historyPolicy 1 with pwHistoryNum := num } maskPwHistoryNum

def password (word : String) : RingCall := .chpass sampleIo false [] (.ofAscii word)

def after (calls : List RingCall) : Except Code Unit × Db :=
  (calls.forM (RingCall.run plainHandle principalA)).run secretDb

/-- With three passwords the index is behind the array after the first change. If the number is
lowered now, the next change writes there. If it is lowered when the array is full, the index
returns too early, and a password is overwritten while an older one stays. -/
theorem history_ring_broken :
    HasRing plainHandle principalA secretDb .empty ∧
    (after [remember 3, password "b", remember 2]).1 = .ok () ∧
    (after [remember 3, password "b", remember 2, password "c"]).1 = .error .fault ∧
    (after [remember 5, password "b", password "c", password "d", password "e", remember 4,
      password "f", password "g", password "h", password "i", password "d"]).1 = .error .passReuse ∧
    (after [remember 5, password "b", password "c", password "d", password "e", remember 4,
      password "f", password "g", password "h", password "i", password "e"]).1 = .ok () :=
  ⟨remembers_secretDb.hasRing, by decide +kernel, by decide +kernel, by decide +kernel, by decide +kernel⟩

/-- Under a policy that remembers two passwords the second change of the password is steady, as
the first one was. -/
theorem history_ring_kept_second : ∃ ring adb pol hist adb' ring',
    Run (RingStep plainHandle principalA) (secretDb, .empty)
      [some (.chpass publicChange.io false [] publicChange.password)] (publicDb, ring) ∧
    (password "third").Adds plainHandle principalA publicDb adb pol hist ∧
    KeepsRing ring adb pol hist adb' ring' := by
  have hfits : Fits plainHandle principalA secretDb := fits_of_hasRoom (by decide +kernel)
  have hfits' : Fits plainHandle principalA publicDb := fits_of_hasRoom (by decide +kernel)
  have hcall : (kadm5ChpassPrincipal3 plainHandle publicChange.io (some principalA) false []
      (some publicChange.password)).run secretDb = (.ok (), publicDb) :=
    run_eq_of_fst (by decide +kernel)
  have hcall' : ((kadm5ChpassPrincipal3 plainHandle sampleIo (some principalA) false []
      (some (.ofAscii "third"))).run publicDb).1 = .ok () := by decide +kernel
  obtain ⟨key, stored, kdb, adb, pol, kept, s, h⟩ := remembers_secretDb
  obtain ⟨stored', kdb', adb', s', h'⟩ :=
    h.changed keyLaws_plainKeys (by decide) (by decide) hfits hcall
  have hmany : pol.pwHistoryNum > 1 := by
    rw [h.num_eq]
    decide
  have hlimit : historyLimit pol.pwHistoryNum = 1 := by
    rw [h.num_eq]
    decide
  obtain ⟨hist, hadds⟩ := RingCall.adds_of_ok hcall h.read.get h.policy hmany
  obtain ⟨hist', hadds'⟩ := RingCall.adds_of_ok (run_eq_of_fst hcall') h'.read.get h'.policy hmany
  have hpush : Ring.empty.Push pol hist ⟨⟨[some (0, hist)], 0⟩, 1, 1⟩ := by
    rw [Ring.Push, hlimit]
    exact ⟨rfl, rfl, rfl⟩
  have hsteady : Ring.empty.slots.Steady (historyLimit pol.pwHistoryNum) := by
    rw [hlimit]
    rfl
  have hsteady' : (mk [some (0, hist)] 0).Steady (historyLimit pol.pwHistoryNum) := by
    rw [hlimit]
    rfl
  have hstep : RingStep plainHandle principalA (secretDb, .empty) (some (.chpass publicChange.io false []
      publicChange.password)) (publicDb, ⟨⟨[some (0, hist)], 0⟩, 1, 1⟩) :=
    .adds (RingCall.fits_of_adds hfits hadds) hcall hadds hsteady hpush
  obtain ⟨adb'', ring', hkeeps⟩ := (history_ring_kept remembers_secretDb.hasRing (.snoc .nil hstep)
    (RingCall.fits_of_adds hfits' hadds') hadds').mpr hsteady'
  exact ⟨_, _, _, _, _, _, .snoc .nil hstep, hadds', hkeeps⟩

end Krb5.Kadm5
