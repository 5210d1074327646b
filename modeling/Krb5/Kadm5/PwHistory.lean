import Krb5.Kadm5.ChpassFacts
import Krb5.Lib.Runs
import Krb5.Lib.Slots

/-!
# The history of passwords

A password is refused as one that was used before if and only if it is the present one or one of
those in the history.

The keys of an entry are in the master key and those of the history in the history key. Both
`HoldsKeys` of a password, and two passwords with a key in common are the same.
-/

namespace Krb5.Kadm5

open Lib Kdb List

variable {handle : Handle} {princ : Principal} {mkey : Keyblock} {pw pw' : Octets}
  {kept : List KeySaltTuple} {keys : List KeyData}

/-! ## Keys and passwords -/

/-- What is known of the keys that passwords give: those that are stored under one type are
different for different passwords, and their length can be stored. -/
structure KeyLaws (lib : KeyLib) : Prop where
  injective {e e' : Int32} {pw pw' : Octets} {salt salt' : Salt} {contents : Octets}
    (htype : e.toInt16 = e'.toInt16) (h : lib.stringToKey e pw salt = .ok contents)
    (h' : lib.stringToKey e' pw' salt' = .ok contents) : pw = pw'
  short {e : Int32} {pw : Octets} {salt : Salt} {contents : Octets}
    (h : lib.stringToKey e pw salt = .ok contents) : contents.length < 2 ^ 15

def KeyOf (handle : Handle) (princ : Principal) (pw : Octets) (t : KeySaltTuple) (block : Keyblock) :
    Prop :=
  ∃ salt contents, saltFor princ t.salttype.toInt16 = .ok salt ∧
    handle.keys.stringToKey t.enctype pw salt.1 = .ok contents ∧
    block = ⟨t.enctype.toInt16.toInt32, contents⟩

def HoldsKeys (handle : Handle) (mkey : Keyblock) (princ : Principal) (pw : Octets)
    (kept : List KeySaltTuple) (keys : List KeyData) : Prop :=
  List.Forall₂ (fun t key => ∃ block, decryptedKey handle mkey key = .ok block ∧
    KeyOf handle princ pw t block) kept keys

variable {t : KeySaltTuple} {block : Keyblock}

theorem KeyOf.unique {block' : Keyblock} (h : KeyOf handle princ pw t block)
    (h' : KeyOf handle princ pw t block') : block = block' := by
  obtain ⟨salt, contents, hsalt, hkey, rfl⟩ := h
  obtain ⟨salt', contents', hsalt', hkey', rfl⟩ := h'
  cases hsalt.symm.trans hsalt'
  cases hkey.symm.trans hkey'
  rfl

theorem KeyOf.password (hlaws : KeyLaws handle.keys) {t' : KeySaltTuple}
    (h : KeyOf handle princ pw t block) (h' : KeyOf handle princ pw' t' block) : pw = pw' := by
  obtain ⟨salt, contents, -, hkey, rfl⟩ := h
  obtain ⟨salt', contents', -, hkey', heq⟩ := h'
  obtain ⟨htype, rfl⟩ := Keyblock.mk.inj heq
  have htype' : t.enctype.toInt16 = t'.enctype.toInt16 := by
    rw [← Int16.toInt16_toInt32 t.enctype.toInt16, htype, Int16.toInt16_toInt32]
  exact hlaws.injective htype' hkey hkey'

/-- A key that was encrypted is decrypted to itself, its type cut to sixteen bits. -/
theorem decryptedKey_encrypt {salt : Keysalt} {kvno : Int32} {key : KeyData}
    (h : dbekdEncryptKeyData handle.keys mkey block salt kvno = .ok key)
    (hlen : block.contents.length < 2 ^ 15) :
    decryptedKey handle mkey key = .ok ⟨block.enctype.toInt16.toInt32, block.contents⟩ := by
  obtain ⟨cipher, hcipher, h⟩ := bind_eq_ok.mp h
  obtain ⟨pad, hplain⟩ := handle.keys.decrypt_encrypt hcipher
  have hparts : ∃ rest, key.parts = ⟨block.enctype.toInt16,
      le16 (.ofNat 16 block.contents.length) ++ cipher⟩ :: rest := by
    dsimp only at h
    split at h
    all_goals
      cases h
      exact ⟨_, rfl⟩
  obtain ⟨rest, hparts⟩ := hparts
  have hread : dbekdDecryptKey handle.keys mkey key =
      .ok (some ⟨block.enctype.toInt16.toInt32, block.contents⟩) := by
    have hint : (Int16.ofBitVec (.ofNat 16 block.contents.length)).toInt = block.contents.length := by
      show (Int16.ofNat block.contents.length).toInt = _
      rw [Int16.toInt_ofNat', Int.bmod_eq_of_le (by simp) (by simp; omega)]
    rw [dbekdDecryptKey, hparts]
    show (handle.keys.decrypt mkey cipher >>= fun plain =>
      if (Int16.ofBitVec (ofLe16 _ _)).toInt > plain.length then Except.error Kdb.Code.cryptoInternal
      else .ok (some (Keyblock.mk block.enctype.toInt16.toInt32
        (plain.take (Int16.ofBitVec (ofLe16 _ _)).toInt.toNat)))) = _
    rw [hplain, ok_bind, ofLe16_octets, hint, if_neg, Int.toNat_natCast, take_left]
    rw [length_append]
    omega
  rw [decryptedKey, hread]
  rfl

def HoldsSlot (handle : Handle) (princ : Principal) (kept : List KeySaltTuple) (hist : PwHistEnt) :
    Option Octets → Prop
  | some pw => HoldsKeys handle handle.histKey princ pw kept hist.keyData
  | none => hist.keyData = []

section

variable (hlaws : KeyLaws handle.keys) {hists : List PwHistEnt} {slots : List (Option Octets)}
include hlaws

theorem holdsKeys_addKeyPwd {kvno : Int32} {ts : List KeySaltTuple}
    (h : addKeyPwd handle.keys handle.masterKeyblock princ pw kvno [] ts = .ok keys)
    (hkept : keptTuples [] ts = .ok kept) :
    HoldsKeys handle handle.masterKeyblock princ pw kept keys := by
  obtain ⟨kept', hkept', hkeys⟩ := addKeyPwd_ok.mp h
  cases hkept.symm.trans hkept'
  refine hkeys.imp fun t key hkey => ?_
  obtain ⟨salt, hsalt, hkey⟩ := bind_eq_ok.mp hkey
  obtain ⟨contents, hcont, hkey⟩ := bind_eq_ok.mp hkey
  exact ⟨_, decryptedKey_encrypt hkey (hlaws.short hcont), salt, contents, hsalt, hcont, rfl⟩

/-- A history entry holds the same keys under the history key. -/
theorem HoldsKeys.history {hist : PwHistEnt}
    (h : HoldsKeys handle handle.masterKeyblock princ pw kept keys)
    (hhist : createHistoryEntry handle keys = .ok hist) :
    HoldsKeys handle handle.histKey princ pw kept hist.keyData := by
  rw [createHistoryEntry, bind_eq_ok] at hhist
  obtain ⟨keyData, hkeys, heq⟩ := hhist
  cases heq
  rw [mapM_eq_ok] at hkeys
  induction h generalizing keyData with
  | nil =>
    cases hkeys
    exact .nil
  | @cons t key kept keys hkey _ ih =>
    obtain ⟨new, rest, hnew, hrest, rfl⟩ := forall₂_cons_left_iff.mp hkeys
    refine .cons ?_ (ih rest hrest)
    obtain ⟨block, hblock, salt, contents, hsalt, hcont, rfl⟩ := hkey
    obtain ⟨block', hblock', hnew⟩ := bind_eq_ok.mp hnew
    cases hblock.symm.trans hblock'
    refine ⟨_, decryptedKey_encrypt (mapError_eq_ok.mp hnew) (hlaws.short hcont), salt, contents, hsalt,
      hcont, ?_⟩
    rw [Int16.toInt16_toInt32]

/-! ## The comparison -/

/-- Two keys of one type are equal exactly if the passwords are. -/
theorem compareKey_hist (ht : t ∈ kept)
    (hblock : KeyOf handle princ pw t block)
    (h : HoldsKeys handle handle.histKey princ pw' kept keys) :
    keys.forM (compareKey handle block) = if pw = pw' then .error .passReuse else .ok () := by
  have hround {old : KeyData} {block' : Keyblock}
      (hold : decryptedKey handle handle.histKey old = .ok block') :
      compareKey handle block old = if block = block' then .error .passReuse else .ok () := by
    rw [compareKey, hold, ok_bind]
  split
  · rename_i heq
    subst heq
    refine forM_eq_error (fun old hold => ?_) ?_
    · obtain ⟨t', -, block', hread, -⟩ := forall₂_mem_right h hold
      rw [hround hread]
      split
      · exact .inr rfl
      · exact .inl rfl
    · obtain ⟨old, hold, block', hread, hkey⟩ := forall₂_mem_left h ht
      exact ⟨old, hold, (hround hread).trans (if_pos (hblock.unique hkey))⟩
  · rename_i hne
    refine forM_eq_ok fun old hold => ?_
    obtain ⟨t', -, block', hread, hkey⟩ := forall₂_mem_right h hold
    refine (hround hread).trans (if_neg fun heq => ?_)
    subst heq
    exact hne (hblock.password hlaws hkey)

theorem compareKey_slot (ht : t ∈ kept)
    (hblock : KeyOf handle princ pw t block) {hist : PwHistEnt} {slot : Option Octets}
    (h : HoldsSlot handle princ kept hist slot) : hist.keyData.forM (compareKey handle block) =
      if some pw = slot then .error .passReuse else .ok () := by
  cases slot with
  | none =>
    rw [show hist.keyData = [] from h]
    rfl
  | some pw' =>
    rw [compareKey_hist hlaws ht hblock h]
    simp

theorem compareKey_slots (ht : t ∈ kept) (hblock : KeyOf handle princ pw t block)
    (hhists : List.Forall₂ (HoldsSlot handle princ kept) hists slots) :
    (hists.forM fun hist => hist.keyData.forM (compareKey handle block)) =
      if some pw ∈ slots then .error .passReuse else .ok () := by
  split
  · rename_i hmem
    refine forM_eq_error (fun hist hhist => ?_) ?_
    · obtain ⟨slot, -, hholds⟩ := forall₂_mem_left hhists hhist
      rw [compareKey_slot hlaws ht hblock hholds]
      split
      · exact .inr rfl
      · exact .inl rfl
    · obtain ⟨hist, hhist, hholds⟩ := forall₂_mem_right hhists hmem
      exact ⟨hist, hhist, (compareKey_slot hlaws ht hblock hholds).trans (if_pos rfl)⟩
  · rename_i hmem
    refine forM_eq_ok fun hist hhist => ?_
    obtain ⟨slot, hslot, hholds⟩ := forall₂_mem_left hhists hhist
    refine (compareKey_slot hlaws ht hblock hholds).trans (if_neg fun heq => ?_)
    subst heq
    exact hmem hslot

theorem checkPwReuse_eq (hne : kept ≠ [])
    (hkeys : HoldsKeys handle handle.masterKeyblock princ pw kept keys)
    (hhists : List.Forall₂ (HoldsSlot handle princ kept) hists slots) :
    checkPwReuse handle keys hists = if some pw ∈ slots then .error .passReuse else .ok () := by
  -- each of the keys decides, and there is one
  have hround (key : KeyData) (hkey : key ∈ keys) : (decryptedKey handle handle.masterKeyblock key >>=
      fun newkey => hists.forM fun hist => hist.keyData.forM (compareKey handle newkey)) =
        if some pw ∈ slots then .error .passReuse else .ok () := by
    obtain ⟨t, ht, block, hread, hblock⟩ := forall₂_mem_right hkeys hkey
    rw [hread, ok_bind, compareKey_slots hlaws ht hblock hhists]
  split
  · rename_i hmem
    obtain ⟨t, ts, rfl⟩ := exists_cons_of_ne_nil hne
    obtain ⟨key, hkey, -⟩ := forall₂_mem_left hkeys mem_cons_self
    have hfail (key : KeyData) (hkey : key ∈ keys) := (hround key hkey).trans (if_pos hmem)
    exact forM_eq_error (fun key hkey => .inr (hfail key hkey)) ⟨key, hkey, hfail key hkey⟩
  · rename_i hmem
    exact forM_eq_ok fun key hkey => (hround key hkey).trans (if_neg hmem)

end

/-! ## The array -/

def historyLimit (num : Int32) : Nat := (num - 1).toUInt32.toNat

theorem historyLimit_eq {num : Int32} (h : 2 ≤ num) : historyLimit num = num.toNatClampNeg - 1 := by
  rw [Int32.le_iff_toInt_le, show (2 : Int32).toInt = 2 from rfl] at h
  have hone : (1 : Int32).toInt = 1 := rfl
  have hlt := Int32.toInt_lt num
  have hsub : (num - 1).toInt = num.toInt - 1 := by
    rw [Int32.toInt_sub, hone, Int.bmod_eq_of_le (by simp; omega) (by simp; omega)]
  rw [historyLimit, Int32.toNat_toUInt32_of_le, Int32.toNatClampNeg, Int32.toNatClampNeg]
  · omega
  · rw [Int32.le_iff_toInt_le, Int32.toInt_zero]
    omega

/-- A record and slots of the same shape. -/
structure SlotsOf {β : Type} (R : PwHistEnt → Option β → Prop) (adb : OsaPrincEnt) (s : Slots β) :
    Prop where
  next : s.next = adb.oldKeyNext.toNat
  slots : List.Forall₂ R adb.oldKeys s.slots

section Slots

variable {β : Type} {R : PwHistEnt → Option β → Prop} {adb adb' : OsaPrincEnt} {s s' : Slots β}
  {pol : PolicyEnt} {hist : PwHistEnt} {x : β}

theorem SlotsOf.resized (h : SlotsOf R adb s) (hblank : R ⟨[]⟩ none) (limit : UInt32) :
    List.Forall₂ R (resized limit adb.oldKeys) (s.grown limit.toNat) := by
  rw [Kadm5.resized, Slots.grown, h.slots.length_eq]
  split
  · exact rel_append h.slots (.cons hblank .nil)
  · exact h.slots

def added (adb : OsaPrincEnt) (pol : PolicyEnt) (hist : PwHistEnt) : OsaPrincEnt :=
  { adb with
    oldKeys := (resized (pol.pwHistoryNum - 1).toUInt32 adb.oldKeys).set adb.oldKeyNext.toNat hist
    oldKeyNext := if adb.oldKeyNext + 1 = (pol.pwHistoryNum - 1).toUInt32 then 0
      else adb.oldKeyNext + 1 }

theorem addToHistory_eq (hnum : pol.pwHistoryNum ≠ 1) : addToHistory adb pol hist =
    if adb.oldKeyNext.toNat < (resized (pol.pwHistoryNum - 1).toUInt32 adb.oldKeys).length then
      .ok (added adb pol hist) else .error .fault := by
  rw [addToHistory, if_neg hnum]
  rfl

theorem addToHistory_ok (hnum : pol.pwHistoryNum ≠ 1) : addToHistory adb pol hist = .ok adb' ↔
    adb.oldKeyNext.toNat < (resized (pol.pwHistoryNum - 1).toUInt32 adb.oldKeys).length ∧
      adb' = added adb pol hist := by
  rw [addToHistory_eq hnum]
  split
  · rename_i hlt
    rw [Except.ok.injEq, eq_comm]
    exact ⟨fun h => ⟨hlt, h⟩, fun h => h.2⟩
  · rename_i hlt
    exact ⟨fun h => (nomatch h), fun h => absurd h.1 hlt⟩

theorem SlotsOf.slot_iff (h : SlotsOf R adb s) (hblank : R ⟨[]⟩ none) :
    adb.oldKeyNext.toNat < (Kadm5.resized (pol.pwHistoryNum - 1).toUInt32 adb.oldKeys).length ↔
      s.next < (s.grown (historyLimit pol.pwHistoryNum)).length := by
  rw [(h.resized hblank _).length_eq, h.next]
  rfl

/-- `add_to_history` is `push` on the slots. -/
theorem SlotsOf.added (h : SlotsOf R adb s) (hblank : R ⟨[]⟩ none) (hx : R hist (some x))
    (hroom : adb.oldKeys.length + 1 < 2 ^ 32)
    (hpush : s.push (historyLimit pol.pwHistoryNum) x = some s') :
    SlotsOf R (Kadm5.added adb pol hist) s' := by
  obtain ⟨hslot, rfl⟩ := Slots.push_eq_some.mp hpush
  have hlt := (h.slot_iff hblank).mpr hslot
  have hsucc : (adb.oldKeyNext + 1).toNat = adb.oldKeyNext.toNat + 1 := by
    rw [UInt32.toNat_add, UInt32.toNat_one]
    rw [Kadm5.resized] at hlt
    split at hlt
    · rw [length_append, length_singleton] at hlt
      omega
    · omega
  constructor
  · show (if s.next + 1 = historyLimit pol.pwHistoryNum then 0 else s.next + 1) =
      (if adb.oldKeyNext + 1 = (pol.pwHistoryNum - 1).toUInt32 then 0 else adb.oldKeyNext + 1).toNat
    rw [h.next, ← hsucc]
    simp only [historyLimit, UInt32.toNat_inj]
    split <;> rfl
  · show List.Forall₂ R (List.set _ adb.oldKeyNext.toNat hist) (List.set _ s.next (some x))
    rw [← h.next]
    exact forall₂_set (h.resized hblank _) hx s.next

theorem length_added_le : (encodeOsaPrincEnt (added adb pol hist)).length ≤
    (encodeOsaPrincEnt adb).length + (putPwHistEnt hist).length + 4 := by
  have hblank : (putPwHistEnt ⟨[]⟩).length = 4 := rfl
  have hresized (limit : UInt32) : ((resized limit adb.oldKeys).flatMap putPwHistEnt).length ≤
      (adb.oldKeys.flatMap putPwHistEnt).length + 4 := by
    rw [resized]
    split
    · rw [flatMap_append, length_append, flatMap_cons, flatMap_nil, append_nil, hblank]
    · omega
  have hset := length_flatMap_set_le putPwHistEnt
    (resized (pol.pwHistoryNum - 1).toUInt32 adb.oldKeys) adb.oldKeyNext.toNat hist
  have hgrown := hresized (pol.pwHistoryNum - 1).toUInt32
  rw [length_encodeOsaPrincEnt, length_encodeOsaPrincEnt, length_putArray, length_putArray]
  show 16 + (putNullstring adb.policy).length + (4 + ((List.set _ _ hist).flatMap putPwHistEnt).length) ≤ _
  omega

end Slots

end Krb5.Kadm5
