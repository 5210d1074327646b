import Krb5.Kadm5.Adb

/-!
# Round trip of the admin record

A record whose lengths are right is read back as it was written, up to the version of the history
key. `Stream` is what the decoder accepts, whatever the lengths in it say.
-/

namespace Krb5.Kadm5

open Lib Kdb List

/-- An octet string of a stream. Nobody looks at the padding. -/
structure Bytes where
  contents : Octets
  pad : Octets
  length_lt : contents.length < 2 ^ 32
  length_pad : pad.length = padding contents.length

def Bytes.octets (b : Bytes) : Octets := putUInt (.ofNat b.contents.length) ++ (b.contents ++ b.pad)

def padded (n : Nat) : Nat := n + padding n

theorem Bytes.length_octets (b : Bytes) : b.octets.length = 4 + padded b.contents.length := by
  simp only [octets, putUInt, length_append, length_be32, b.length_pad, padded]

/-- A key of a stream: six words and two octet strings. -/
structure KeyStream where
  ver : Int32
  kvno : Int32
  type0 : Int32
  type1 : Int32
  length0 : Int32
  length1 : Int32
  contents0 : Bytes
  contents1 : Bytes

def KeyStream.octets (key : KeyStream) : Octets :=
  be32 key.ver ++ be32 key.kvno ++ be32 key.type0 ++ be32 key.type1 ++ be32 key.length0 ++
    be32 key.length1 ++ key.contents0.octets ++ key.contents1.octets

def KeyStream.record (key : KeyStream) : RawKeyData :=
  ⟨key.ver.toInt16, key.kvno.toInt16, key.type0.toInt16, key.type1.toInt16, key.length0.toInt16,
    key.length1.toInt16, key.contents0.contents, key.contents1.contents⟩

variable {n : Nat} {α β σ : Type} {adb : OsaPrincEnt} {data bs rest : Octets} {g : α → β}
  {l : List α} {key : KeyData} {f : α → Octets} {size : α → Nat} {raw : RawPrincEnt}

/-- What a word can count. -/
abbrev CountedList (σ : Type) := { l : List σ // l.length < 2 ^ 32 }

def CountedList.octets (enc : σ → Octets) (l : CountedList σ) : Octets := putArray enc l.1

/-- A stream of any record. -/
structure Stream where
  policy : Option { b : Bytes // b.contents ≠ [] }
  auxAttributes : Int32
  oldKeyNext : UInt32
  adminHistoryKvno : UInt32
  oldKeys : CountedList (CountedList KeyStream)

def Stream.octets (s : Stream) : Octets :=
  be32 adbPrincVersion1 ++ (s.policy.elim (putUInt 0) fun b => b.1.octets) ++ be32 s.auxAttributes ++
    putUInt s.oldKeyNext ++ putUInt s.adminHistoryKvno ++
    s.oldKeys.octets (CountedList.octets KeyStream.octets)

def Stream.record (s : Stream) : RawPrincEnt where
  policy := s.policy.map fun b => b.1.contents
  auxAttributes := s.auxAttributes.toBitVec
  oldKeyNext := s.oldKeyNext
  adminHistoryKvno := s.adminHistoryKvno.toUInt8.toUInt32
  oldKeys := s.oldKeys.1.map fun keys => keys.1.map KeyStream.record

theorem gets_uInt (v : UInt32) : Gets getUInt (putUInt v) v :=
  (Gets.int32 () v.toInt32).map Int32.toUInt32

theorem gets_padded {bs pad : Octets} (h : pad.length = padding bs.length) :
    Gets (getOpaque bs.length) (bs ++ pad) bs := by
  have hpad := Gets.bytes () pad
  rw [h] at hpad
  exact (Gets.bytes () bs).andThen (hpad.map fun _ => bs)

theorem Bytes.gets (b : Bytes) : Gets getBytes b.octets b.contents := by
  refine (gets_uInt _).andThen ?_
  rw [UInt32.toNat_ofNat_of_lt' b.length_lt]
  exact gets_padded b.length_pad

/-- As `xdr_bytes` writes it. -/
def Bytes.of (bs : Octets) (h : bs.length < 2 ^ 32) : Bytes :=
  ⟨bs, replicate (padding bs.length) 0, h, length_replicate⟩

theorem gets_policy (policy : Option { b : Bytes // b.contents ≠ [] }) :
    Gets getNullstring (policy.elim (putUInt 0) fun b => b.1.octets)
      (policy.map fun b => b.1.contents) := by
  cases policy with
  | none => exact (gets_uInt 0).map fun _ => none
  | some b =>
    have hlen := UInt32.toNat_ofNat_of_lt' b.1.length_lt
    have hne : UInt32.ofNat b.1.contents.length ≠ 0 := by
      intro h0
      rw [h0] at hlen
      exact b.2 (eq_nil_of_length_eq_zero hlen.symm)
    refine (gets_uInt _).andThen ?_
    rw [if_neg hne, hlen]
    exact (gets_padded b.1.length_pad).map some

theorem gets_nullstring {policy : Option Octets} (h : ∀ mem, policy = some mem →
      mem.length < 2 ^ 32 ∧ (CString.ofMemory mem).buffer = mem) :
    Gets getNullstring (putNullstring (policy.map CString.ofMemory)) policy := by
  cases policy with
  | none => exact gets_policy none
  | some mem =>
    obtain ⟨hlen, hmem⟩ := h mem rfl
    have hne : mem ≠ [] := by
      rintro rfl
      cases hmem
    have hget := gets_policy (some ⟨.of mem hlen, hne⟩)
    have hput (s : CString) : putNullstring (some s) = putBytes s.buffer := by
      rw [putNullstring, putBytes, CString.buffer, length_append]
      rfl
    rw [Option.map_some, hput, hmem]
    exact hget

theorem gets_array {element : Xdr β} {put : α → Octets} (hlen : l.length < 2 ^ 32)
    (h : ∀ a ∈ l, Gets element (put a) (g a)) :
    Gets (getArray element) (putArray put l) (l.map g) := by
  refine (gets_uInt _).andThen ?_
  rw [UInt32.toNat_ofNat_of_lt' hlen]
  exact (Gets.times h (length_map g)).map Subtype.val

/-- Sign extension keeps the octet. -/
theorem toUInt8_extended (c : UInt8) : c.toInt8.toInt32.toUInt32.toUInt8 = c := by
  have hall : ∀ b : BitVec 8, ((⟨b⟩ : UInt8).toInt8.toInt32.toUInt32.toUInt8).toBitVec = b := by
    decide +kernel
  exact UInt8.toBitVec_inj.mp (hall c.toBitVec)

theorem gets_kvno (v : UInt32) : Gets getKvno (putKvno v) v.toUInt8.toUInt32 := by
  have h := (gets_uInt v.toUInt8.toInt8.toInt32.toUInt32).map fun u => u.toUInt8.toUInt32
  rwa [toUInt8_extended] at h

theorem toUInt8_toUInt32_of_lt {v : UInt32} : v.toUInt8.toUInt32 = v ↔ v < 256 := by
  rw [← UInt32.toNat_inj]
  exact Nat.mod_eq_iff_lt (by decide)

/-! ## The record -/

/-- The contents are as long as the key says. -/
def RawKeyData.Exact (raw : RawKeyData) : Prop :=
  (raw.contents0.length : Int) = raw.length0.toInt ∧ (raw.contents1.length : Int) = raw.length1.toInt

/-- A record that is properly built: what an allocation holds is counted by 32 bits. -/
structure RawPrincEnt.Consistent (raw : RawPrincEnt) : Prop where
  policy : ∀ mem, raw.policy = some mem → mem.length < 2 ^ 32 ∧ (CString.ofMemory mem).buffer = mem
  oldKeys : raw.oldKeys.length < 2 ^ 32
  keyData : ∀ keys ∈ raw.oldKeys, keys.length < 2 ^ 32
  contents : ∀ keys ∈ raw.oldKeys, ∀ key ∈ keys, key.Exact

theorem KeyStream.gets (key : KeyStream) : Gets xdrKrb5KeyData key.octets key.record := by
  have hword (w : Int32) : Gets getInt16 (be32 w) w.toInt16 := (Gets.int32 () w).map Int32.toInt16
  simp only [octets, append_assoc]
  refine (hword _).andThen ((hword _).andThen ((hword _).andThen ((hword _).andThen
    ((hword _).andThen ((hword _).andThen (key.contents0.gets.andThen ?_))))))
  exact key.contents1.gets.map _

theorem gets_rawKeyData {raw : RawKeyData} (h : raw.Exact) :
    Gets xdrKrb5KeyData (putRawKeyData raw) raw := by
  have h0 : raw.contents0.length < 2 ^ 32 := by
    have := h.1.symm ▸ raw.length0.toInt_lt
    omega
  have h1 : raw.contents1.length < 2 ^ 32 := by
    have := h.2.symm ▸ raw.length1.toInt_lt
    omega
  have hget := KeyStream.gets ⟨raw.ver.toInt32, raw.kvno.toInt32, raw.type0.toInt32,
    raw.type1.toInt32, raw.length0.toInt32, raw.length1.toInt32, .of _ h0, .of _ h1⟩
  simp only [KeyStream.record, Int16.toInt16_toInt32] at hget
  exact hget

theorem CountedList.gets {element : Xdr α} {enc : σ → Octets} {val : σ → α}
    (h : ∀ x, Gets element (enc x) (val x)) (l : CountedList σ) :
    Gets (getArray element) (l.octets enc) (l.1.map val) :=
  gets_array l.2 fun x _ => h x

theorem Stream.gets (s : Stream) : Gets xdrOsaPrincEntRec s.octets s.record := by
  simp only [octets, append_assoc]
  refine (Gets.int32 () adbPrincVersion1).andThen ?_
  refine (gets_policy s.policy).andThen ((Gets.int32 () _).andThen ((gets_uInt _).andThen
    (((gets_uInt _).map _).andThen ?_)))
  exact (CountedList.gets (CountedList.gets KeyStream.gets) s.oldKeys).map _

def RawPrincEnt.saved (raw : RawPrincEnt) : RawPrincEnt :=
  { raw with adminHistoryKvno := raw.adminHistoryKvno.toUInt8.toUInt32 }

/-- What is read back of a record. -/
theorem gets_rawPrincEnt (h : raw.Consistent) :
    Gets xdrOsaPrincEntRec (encodeRawPrincEnt raw) raw.saved := by
  have hhist : ∀ keys ∈ raw.oldKeys,
      Gets (getArray xdrKrb5KeyData) (putArray putRawKeyData keys) keys := fun keys hmem => by
    have harray := gets_array (g := id) (h.keyData keys hmem) fun key hkey =>
      gets_rawKeyData (h.contents keys hmem key hkey)
    rwa [map_id] at harray
  simp only [encodeRawPrincEnt, append_assoc]
  refine (Gets.int32 () adbPrincVersion1).andThen ?_
  refine (gets_nullstring h.policy).andThen ((Gets.int32 () _).andThen ((gets_uInt _).andThen
    ((gets_kvno _).andThen ?_)))
  have hkeys := gets_array (g := id) h.oldKeys hhist
  rw [map_id] at hkeys
  exact hkeys.map _

def OsaPrincEnt.saved (adb : OsaPrincEnt) : OsaPrincEnt :=
  { adb with adminHistoryKvno := adb.adminHistoryKvno.toUInt8.toUInt32 }

theorem mapM_map_some {f : β → Option α} (h : ∀ a, f (g a) = some a) (l : List α) :
    (l.map g).mapM f = some l := by
  induction l with
  | nil => rfl
  | cons a l ih =>
    rw [map_cons, mapM_cons, h, ih]
    rfl

theorem ent?_rawPrincEnt (adb : OsaPrincEnt) : (rawPrincEnt adb).ent? = some adb := by
  have hhist (hist : PwHistEnt) :
      ((hist.keyData.map rawKeyData).mapM RawKeyData.keyData?).map PwHistEnt.mk = some hist := by
    rw [mapM_map_some keyData?_rawKeyData]
    rfl
  have hkeys : (adb.oldKeys.map fun hist => hist.keyData.map rawKeyData).mapM
      (fun keys => (keys.mapM RawKeyData.keyData?).map PwHistEnt.mk) = some adb.oldKeys := by
    apply mapM_map_some
    exact hhist
  rw [RawPrincEnt.ent?]
  simp only [rawPrincEnt, hkeys]
  cases hpol : adb.policy with
  | none =>
    simp only [Option.map_none]
    rw [← hpol]
    rfl
  | some s =>
    simp only [Option.map_some, CString.ofBuffer_buffer]
    rw [← hpol]
    rfl

theorem length_le_flatMap {a : α} (h : a ∈ l) : (f a).length ≤ (l.flatMap f).length :=
  (sublist_flatten_of_mem (mem_map_of_mem h)).length_le

theorem length_putArray (put : α → Octets) (l : List α) :
    (putArray put l).length = 4 + (l.flatMap put).length := by
  rw [putArray, length_append]
  rfl

theorem length_putPwHistEnt_pos (hist : PwHistEnt) : 0 < (putPwHistEnt hist).length := by
  rw [putPwHistEnt, length_putArray]
  omega

theorem contentsAt_le_putKeyData (key : KeyData) :
    (contentsAt key 0).length ≤ (putKeyData key).length ∧
      (contentsAt key 1).length ≤ (putKeyData key).length ∧ 0 < (putKeyData key).length := by
  simp only [putKeyData, putRawKeyData, rawKeyData, putInt16, putBytes, putOpaque, length_append,
    length_be32]
  omega

theorem exact_rawKeyData (h0 : (contentsAt key 0).length < 2 ^ 15)
    (h1 : (contentsAt key 1).length < 2 ^ 15) : (rawKeyData key).Exact :=
  ⟨(Int16.toInt_ofNat_of_lt h0).symm, (Int16.toInt_ofNat_of_lt h1).symm⟩

/-- No length of a record below `2 ^ 15` octets runs over. -/
theorem consistent_of_length (h : (encodeOsaPrincEnt adb).length < 2 ^ 15) :
    (rawPrincEnt adb).Consistent := by
  have hpol : (putNullstring adb.policy).length ≤ (encodeOsaPrincEnt adb).length := by
    simp only [encodeOsaPrincEnt_eq, length_append]
    omega
  have holdKeys : (adb.oldKeys.flatMap putPwHistEnt).length ≤ (encodeOsaPrincEnt adb).length := by
    simp only [encodeOsaPrincEnt_eq, length_append, length_putArray]
    omega
  have hhist : ∀ hist ∈ adb.oldKeys,
      (hist.keyData.flatMap putKeyData).length ≤ (encodeOsaPrincEnt adb).length := by
    intro hist hmem
    have hle := length_le_flatMap (f := putPwHistEnt) hmem
    rw [putPwHistEnt, length_putArray] at hle
    omega
  refine ⟨?_, ?_, ?_, ?_⟩
  · intro mem hmem
    obtain ⟨s, hs, rfl⟩ := Option.map_eq_some_iff.mp hmem
    rw [hs, putNullstring, putOpaque] at hpol
    simp only [length_append] at hpol
    rw [CString.ofMemory_buffer, CString.buffer, length_append]
    exact ⟨by omega, rfl⟩
  · have := length_le_length_flatMap length_putPwHistEnt_pos adb.oldKeys
    rw [rawPrincEnt, length_map]
    omega
  · intro keys hkeys
    obtain ⟨hist, hmem, rfl⟩ := mem_map.mp hkeys
    have := length_le_length_flatMap (fun key => (contentsAt_le_putKeyData key).2.2) hist.keyData
    have := hhist hist hmem
    rw [length_map]
    omega
  · intro keys hkeys raw hraw
    obtain ⟨hist, hmem, rfl⟩ := mem_map.mp hkeys
    obtain ⟨key, hkey, rfl⟩ := mem_map.mp hraw
    have := length_le_flatMap (f := putKeyData) hkey
    have := hhist hist hmem
    have := contentsAt_le_putKeyData key
    exact exact_rawKeyData (by omega) (by omega)

theorem decode_encodeOsaPrincEnt (h : (encodeOsaPrincEnt adb).length < 2 ^ 15) :
    decodeOsaPrincEnt (encodeOsaPrincEnt adb) = some adb.saved := by
  have hread := gets_rawPrincEnt (consistent_of_length h) []
  rw [append_nil] at hread
  rw [decodeOsaPrincEnt, encodeOsaPrincEnt, hread]
  exact ent?_rawPrincEnt adb.saved

/-! ## What the decoder accepts -/

theorem padded_mono {m : Nat} (h : m ≤ n) : padded m ≤ padded n := by
  rw [padded, padded, padding, padding]
  omega

theorem length_putOpaque (bs : Octets) : (putOpaque bs).length = padded bs.length := by
  rw [putOpaque, length_append, length_replicate, padded]

theorem spelled_uInt : Spelled getUInt putUInt fun v => v := by
  intro s v rest h
  obtain ⟨v, rfl, rfl⟩ := (Spelled.int32 ()).map Int32.toUInt32 h
  exact ⟨v.toUInt32, rfl, rfl⟩

theorem spelled_int16 : Spelled getInt16 be32 Int32.toInt16 := (Spelled.int32 ()).map Int32.toInt16

theorem getOpaque_ok {s : Octets} (hn : n < 2 ^ 32) (h : getOpaque n s = .ok (bs, rest)) :
    ∃ b : Bytes, b.contents = bs ∧ bs.length = n ∧ s = b.contents ++ b.pad ++ rest := by
  obtain ⟨_, s', hbs, h⟩ := stateT_bind_eq_ok.mp h
  obtain ⟨_, s'', hpad, h⟩ := stateT_bind_eq_ok.mp h
  cases h
  obtain ⟨contents, rfl, rfl⟩ := Spelled.bytes () _ hbs
  obtain ⟨pad, -, rfl⟩ := Spelled.bytes () _ hpad
  exact ⟨⟨contents.1, pad.1, contents.2.symm ▸ hn, contents.2.symm ▸ pad.2⟩, rfl, contents.2,
    (append_assoc _ _ _).symm⟩

theorem putUInt_length {v : UInt32} (h : bs.length = v.toNat) :
    putUInt v = putUInt (.ofNat bs.length) := by
  rw [h, UInt32.ofNat_toNat]

theorem spelled_bytes : Spelled getBytes Bytes.octets Bytes.contents := by
  intro s bs rest h
  obtain ⟨v, s', hv, hopaque⟩ := stateT_bind_eq_ok.mp h
  obtain ⟨_, rfl, rfl⟩ := spelled_uInt hv
  obtain ⟨b, rfl, hlen, rfl⟩ := getOpaque_ok v.toNat_lt hopaque
  refine ⟨b, rfl, ?_⟩
  rw [Bytes.octets, putUInt_length hlen, ← append_assoc, ← append_assoc]

theorem spelled_nullstring : Spelled getNullstring
    (fun p : Option { b : Bytes // b.contents ≠ [] } => p.elim (putUInt 0) fun b => b.1.octets)
    fun p => p.map fun b => b.1.contents := by
  intro s mem rest h
  obtain ⟨v, s', hv, htail⟩ := stateT_bind_eq_ok.mp h
  obtain ⟨_, rfl, rfl⟩ := spelled_uInt hv
  split at htail
  · rename_i hzero
    cases htail
    exact ⟨none, rfl, by rw [hzero]; rfl⟩
  · rename_i hzero
    obtain ⟨bs, s'', hbs, hpure⟩ := stateT_bind_eq_ok.mp htail
    cases hpure
    obtain ⟨b, rfl, hlen, rfl⟩ := getOpaque_ok v.toNat_lt hbs
    have hne : b.contents ≠ [] := by
      intro hnil
      rw [hnil] at hlen
      exact hzero (UInt32.toNat_inj.mp hlen.symm)
    refine ⟨some ⟨b, hne⟩, rfl, ?_⟩
    show _ = b.octets ++ _
    rw [Bytes.octets, putUInt_length hlen, ← append_assoc, ← append_assoc]

/-- A key is read from its octets alone. -/
theorem spelled_keyData : Spelled xdrKrb5KeyData KeyStream.octets KeyStream.record := by
  intro s raw rest h
  obtain ⟨_, s₁, h₁, h⟩ := stateT_bind_eq_ok.mp h
  obtain ⟨_, s₂, h₂, h⟩ := stateT_bind_eq_ok.mp h
  obtain ⟨_, s₃, h₃, h⟩ := stateT_bind_eq_ok.mp h
  obtain ⟨_, s₄, h₄, h⟩ := stateT_bind_eq_ok.mp h
  obtain ⟨_, s₅, h₅, h⟩ := stateT_bind_eq_ok.mp h
  obtain ⟨_, s₆, h₆, h⟩ := stateT_bind_eq_ok.mp h
  obtain ⟨_, s₇, h₇, h⟩ := stateT_bind_eq_ok.mp h
  obtain ⟨_, s₈, h₈, h⟩ := stateT_bind_eq_ok.mp h
  cases h
  obtain ⟨ver, rfl, rfl⟩ := spelled_int16 h₁
  obtain ⟨kvno, rfl, rfl⟩ := spelled_int16 h₂
  obtain ⟨type0, rfl, rfl⟩ := spelled_int16 h₃
  obtain ⟨type1, rfl, rfl⟩ := spelled_int16 h₄
  obtain ⟨length0, rfl, rfl⟩ := spelled_int16 h₅
  obtain ⟨length1, rfl, rfl⟩ := spelled_int16 h₆
  obtain ⟨contents0, rfl, rfl⟩ := spelled_bytes h₇
  obtain ⟨contents1, rfl, rfl⟩ := spelled_bytes h₈
  exact ⟨⟨ver, kvno, type0, type1, length0, length1, contents0, contents1⟩, rfl,
    by simp only [KeyStream.octets, append_assoc]⟩

theorem spelled_array {element : Xdr α} {enc : σ → Octets} {val : σ → α}
    (h : Spelled element enc val) :
    Spelled (getArray element) (CountedList.octets enc) fun l => l.1.map val := by
  intro s l rest hrun
  obtain ⟨n, s', hn, hrun⟩ := stateT_bind_eq_ok.mp hrun
  obtain ⟨l', s'', hl, hrun⟩ := stateT_bind_eq_ok.mp hrun
  cases hrun
  obtain ⟨_, rfl, rfl⟩ := spelled_uInt hn
  obtain ⟨xs, hlen, hval, rfl⟩ := h.times hl
  refine ⟨⟨xs, hlen ▸ n.toNat_lt⟩, hval, ?_⟩
  have hput : putArray enc xs = putUInt n ++ xs.flatMap enc := by
    rw [putArray, hlen, UInt32.ofNat_toNat]
  rw [CountedList.octets, hput, append_assoc]

/-- The decoder accepts streams only, and reads what stands in them. -/
theorem spelled_osaPrincEntRec : Spelled xdrOsaPrincEntRec Stream.octets Stream.record := by
  intro s raw rest h
  obtain ⟨version, s₁, h₁, h⟩ := stateT_bind_eq_ok.mp h
  split at h
  · cases h
  rename_i hversion
  obtain ⟨_, s₂, h₂, h⟩ := stateT_bind_eq_ok.mp h
  obtain ⟨aux, s₃, h₃, h⟩ := stateT_bind_eq_ok.mp h
  obtain ⟨next, s₄, h₄, h⟩ := stateT_bind_eq_ok.mp h
  obtain ⟨_, s₅, h₅, h⟩ := stateT_bind_eq_ok.mp h
  obtain ⟨_, s₆, h₆, h⟩ := stateT_bind_eq_ok.mp h
  cases h
  obtain ⟨_, rfl, rfl⟩ := Spelled.int32 () h₁
  obtain ⟨policy, rfl, rfl⟩ := spelled_nullstring h₂
  obtain ⟨_, rfl, rfl⟩ := Spelled.int32 () h₃
  obtain ⟨_, rfl, rfl⟩ := spelled_uInt h₄
  obtain ⟨kvno, rfl, rfl⟩ := spelled_uInt.map (fun u => u.toUInt8.toUInt32) h₅
  obtain ⟨oldKeys, rfl, rfl⟩ := spelled_array (spelled_array spelled_keyData) h₆
  refine ⟨⟨policy, aux, next, kvno, oldKeys⟩, rfl, ?_⟩
  simp only [Stream.octets, Decidable.not_not.mp hversion, append_assoc]

def rawKeySize (raw : RawKeyData) : Nat :=
  32 + padded raw.contents0.length + padded raw.contents1.length

theorem KeyStream.length_octets (key : KeyStream) : key.octets.length = rawKeySize key.record := by
  simp only [octets, length_append, length_be32, Bytes.length_octets, rawKeySize, record]
  omega

def rawPrincSize (raw : RawPrincEnt) : Nat :=
  24 + (raw.policy.elim 0 fun mem => padded mem.length) +
    (raw.oldKeys.map fun keys => 4 + (keys.map rawKeySize).sum).sum

theorem CountedList.length_octets {enc : σ → Octets} {val : σ → α} (h : ∀ x, (enc x).length = size (val x))
    (l : CountedList σ) : (l.octets enc).length = 4 + ((l.1.map val).map size).sum := by
  rw [octets, length_putArray, length_flatMap, map_map]
  simp only [h, Function.comp_def]

theorem Stream.length_octets (s : Stream) : s.octets.length = rawPrincSize s.record := by
  have hkeys := @CountedList.length_octets _ _
    (fun keys : List RawKeyData => 4 + (keys.map rawKeySize).sum) _ _
    (CountedList.length_octets KeyStream.length_octets) s.oldKeys
  have hpolicy : (s.policy.elim (putUInt 0) fun b => b.1.octets).length =
      4 + ((s.policy.map fun b => b.1.contents).elim 0 fun mem => padded mem.length) := by
    cases s.policy with
    | none => rfl
    | some b => exact b.1.length_octets
  simp only [octets, putUInt, length_append, length_be32, rawPrincSize, record] at hpolicy hkeys ⊢
  omega

theorem length_putKeyData (key : KeyData) : (putKeyData key).length = rawKeySize (rawKeyData key) := by
  simp only [putKeyData, putRawKeyData, rawKeySize, putInt16, putBytes, putUInt, length_append,
    length_be32, length_putOpaque]
  omega

theorem rawKeyData_of_keyData? {raw : RawKeyData} (h : raw.keyData? = some key) :
    rawKeyData key = raw := by
  rw [RawKeyData.keyData?] at h
  split at h
  · dsimp only at h
    split at h
    · cases h
      assumption
    · cases h
  · cases h

theorem sum_of_mapM {f : α → Option β} {size' : β → Nat}
    (hf : ∀ a b, f a = some b → size' b = size a) {l' : List β} (h : l.mapM f = some l') :
    (l'.map size').sum = (l.map size).sum := by
  induction l generalizing l' with
  | nil =>
    cases h
    rfl
  | cons a l ih =>
    rw [mapM_cons] at h
    obtain ⟨b, ha, h⟩ := Option.bind_eq_some_iff.mp h
    obtain ⟨bs, hl, h⟩ := Option.bind_eq_some_iff.mp h
    cases h
    rw [map_cons, sum_cons, hf a b ha, ih hl, map_cons, sum_cons]

theorem length_putPwHistEnt {keys : List RawKeyData} {hist : PwHistEnt}
    (h : (keys.mapM RawKeyData.keyData?).map PwHistEnt.mk = some hist) :
    (putPwHistEnt hist).length = 4 + (keys.map rawKeySize).sum := by
  obtain ⟨keyData, hkeys, rfl⟩ := Option.map_eq_some_iff.mp h
  have hsize : ∀ raw key, RawKeyData.keyData? raw = some key →
      (putKeyData key).length = rawKeySize raw := by
    intro raw key hkey
    rw [length_putKeyData, rawKeyData_of_keyData? hkey]
  rw [putPwHistEnt, length_putArray, length_flatMap, sum_of_mapM hsize hkeys]

theorem ent?_eq_some (h : raw.ent? = some adb) :
    (putNullstring adb.policy).length ≤ 4 + (raw.policy.elim 0 fun mem => padded mem.length) ∧
      raw.oldKeys.mapM (fun keys => (keys.mapM RawKeyData.keyData?).map PwHistEnt.mk) =
        some adb.oldKeys ∧ adb.adminHistoryKvno = raw.adminHistoryKvno := by
  rw [RawPrincEnt.ent?] at h
  cases hmem : raw.policy with
  | none =>
    rw [hmem] at h
    obtain ⟨policy, hpol, h⟩ := Option.bind_eq_some_iff.mp h
    obtain ⟨oldKeys, hkeys, h⟩ := Option.bind_eq_some_iff.mp h
    cases hpol
    cases h
    exact ⟨Nat.le_refl _, hkeys, rfl⟩
  | some mem =>
    rw [hmem] at h
    obtain ⟨policy, hpol, h⟩ := Option.bind_eq_some_iff.mp h
    obtain ⟨text, htext, rfl⟩ := Option.map_eq_some_iff.mp hpol
    obtain ⟨oldKeys, hkeys, h⟩ := Option.bind_eq_some_iff.mp h
    cases h
    rw [CString.ofBuffer] at htext
    split at htext
    · rename_i hnul
      cases htext
      refine ⟨?_, hkeys, rfl⟩
      have hshort := length_cstring_lt hnul
      simp only [putNullstring, CString.ofMemory, length_append, length_putOpaque]
      exact Nat.add_le_add_left (padded_mono hshort) 4
    · cases htext

theorem length_encodeOsaPrincEnt (adb : OsaPrincEnt) : (encodeOsaPrincEnt adb).length =
    16 + (putNullstring adb.policy).length + (putArray putPwHistEnt adb.oldKeys).length := by
  simp only [encodeOsaPrincEnt_eq, putUInt, putKvno, length_append, length_be32]
  omega

theorem length_flatMap_set_le (f : α → Octets) (l : List α) (i : Nat) (a : α) :
    ((l.set i a).flatMap f).length ≤ (l.flatMap f).length + (f a).length := by
  induction l generalizing i with
  | nil => exact Nat.zero_le _
  | cons b l ih =>
    cases i with
    | zero =>
      simp only [set_cons_zero, flatMap_cons, length_append]
      omega
    | succ i =>
      have := ih i
      simp only [set_cons_succ, flatMap_cons, length_append]
      omega

theorem length_oldKeys_le (adb : OsaPrincEnt) : adb.oldKeys.length ≤ (encodeOsaPrincEnt adb).length := by
  have := length_le_length_flatMap length_putPwHistEnt_pos adb.oldKeys
  rw [length_encodeOsaPrincEnt, length_putArray]
  omega

theorem length_putNullstring_none_le (policy : Option CString) :
    (putNullstring none).length ≤ (putNullstring policy).length := by
  cases policy with
  | none => exact Nat.le_refl _
  | some n =>
    simp only [putNullstring, putUInt, length_append, length_be32]
    omega

theorem length_encode_of_decode (h : decodeOsaPrincEnt data = some adb) :
    (encodeOsaPrincEnt adb).length ≤ data.length := by
  rw [decodeOsaPrincEnt] at h
  split at h
  · rename_i raw rest hread
    obtain ⟨s, rfl, rfl⟩ := spelled_osaPrincEntRec hread
    obtain ⟨hname, hkeys, -⟩ := ent?_eq_some h
    have holdKeys := sum_of_mapM (fun _ _ => length_putPwHistEnt) hkeys
    rw [length_append, s.length_octets, rawPrincSize, length_encodeOsaPrincEnt, length_putArray,
      length_flatMap]
    omega
  · cases h

theorem saved_of_decode (h : decodeOsaPrincEnt data = some adb) : adb.saved = adb := by
  rw [decodeOsaPrincEnt] at h
  split at h
  · rename_i raw rest hread
    obtain ⟨-, -, hkvno⟩ := ent?_eq_some h
    obtain ⟨s, rfl, -⟩ := spelled_osaPrincEntRec hread
    rw [OsaPrincEnt.saved, hkvno, Stream.record, UInt8.toUInt8_toUInt32]
    exact congrArg (fun v => { adb with adminHistoryKvno := v }) hkvno.symm
  · cases h

/-! ## Streams of any records -/

/-- What the functions that walk the history rely on. -/
structure RawPrincEnt.Exact (raw : RawPrincEnt) : Prop where
  keyData : ∀ keys ∈ raw.oldKeys, ∀ key ∈ keys, key.Exact
  oldKeyNext : raw.oldKeys ≠ [] → raw.oldKeyNext.toNat < raw.oldKeys.length

/-- The lower half of each length word is the length that stands before the octets, and the index
is below the number of entries. -/
structure Stream.Agrees (s : Stream) : Prop where
  lengths : ∀ keys ∈ s.oldKeys.1, ∀ key ∈ keys.1,
    key.length0.toInt16.toInt = key.contents0.contents.length ∧
      key.length1.toInt16.toInt = key.contents1.contents.length
  oldKeyNext : s.oldKeys.1 ≠ [] → s.oldKeyNext.toNat < s.oldKeys.1.length

theorem Stream.exact_record_iff (s : Stream) : s.record.Exact ↔ s.Agrees := by
  have hlength : s.record.oldKeys.length = s.oldKeys.1.length := length_map _
  have hne : s.record.oldKeys ≠ [] ↔ s.oldKeys.1 ≠ [] := not_congr map_eq_nil_iff
  constructor
  · intro h
    refine ⟨fun keys hkeys key hkey => ?_, fun hold => hlength ▸ h.oldKeyNext (hne.mpr hold)⟩
    have hexact := h.keyData _ (mem_map_of_mem hkeys) _ (mem_map_of_mem hkey)
    exact ⟨hexact.1.symm, hexact.2.symm⟩
  · intro h
    refine ⟨fun raws hraws raw hraw => ?_, fun hold => hlength ▸ h.oldKeyNext (hne.mp hold)⟩
    obtain ⟨keys, hkeys, rfl⟩ := mem_map.mp hraws
    obtain ⟨key, hkey, rfl⟩ := mem_map.mp hraw
    exact ⟨(h.lengths keys hkeys key hkey).1.symm, (h.lengths keys hkeys key hkey).2.symm⟩

/-- A consistent record is read back if and only if the version of the history key fits into an
octet. Of whatever stream the decoder accepts, it reads a sound record if and only if each length
word of the stream agrees with the octets behind it and the index is below the number of
entries. -/
theorem osaPrincEnt_read_back (hraw : raw.Consistent) {read : RawPrincEnt}
    (hread : xdrOsaPrincEntRec data = .ok (read, rest)) :
    (xdrOsaPrincEntRec (encodeRawPrincEnt raw) = .ok (raw, []) ↔ raw.adminHistoryKvno < 256) ∧
    (read.Exact ↔ ∃ s : Stream, data = s.octets ++ rest ∧ s.Agrees) := by
  have hback := gets_rawPrincEnt hraw []
  rw [append_nil] at hback
  constructor
  · rw [hback, ← toUInt8_toUInt32_of_lt]
    refine ⟨fun h => ?_, fun hkvno => ?_⟩
    · exact congrArg RawPrincEnt.adminHistoryKvno (Prod.mk.inj (Except.ok.inj h)).1
    · rw [RawPrincEnt.saved, hkvno]
  · constructor
    · intro hexact
      obtain ⟨s, rfl, rfl⟩ := spelled_osaPrincEntRec hread
      exact ⟨s, rfl, s.exact_record_iff.mp hexact⟩
    · rintro ⟨s, rfl, hagrees⟩
      rw [s.gets rest] at hread
      cases hread
      exact s.exact_record_iff.mpr hagrees

def sampleRecord : OsaPrincEnt :=
  ⟨some (.ofAscii "p"), maskPolicy, 0, 2,
    [⟨[⟨Kdb.v1KeyDataArray, 3, [⟨1, [7, 7]⟩, ⟨4, []⟩], rfl, Int16.le_refl _⟩]⟩]⟩

/-- A key that no `KeyData` stands for, its version being 3. -/
def oddRecord : RawPrincEnt := ⟨some [112, 0], maskPolicy, 0, 200, [[⟨3, 3, 1, 4, 2, 0, [7, 7], []⟩], []]⟩

def oddStream : Stream where
  policy := none
  auxAttributes := 0
  oldKeyNext := 1
  adminHistoryKvno := 2
  oldKeys := ⟨[⟨[], by decide⟩, ⟨[⟨1, 3, 1, 0, 2, 0x10000, .of [7, 7] (by decide),
    .of [] (by decide)⟩], by decide⟩], by decide⟩

theorem osaPrincEnt_read_back_sample :
    xdrOsaPrincEntRec (encodeRawPrincEnt oddRecord) = .ok (oddRecord, []) ∧
    oddStream.record.Exact := by
  have hodd : oddRecord.Consistent :=
    ⟨by simp [oddRecord, CString.buffer, CString.ofMemory, cstring], by decide, by decide,
      by simp [oddRecord, RawKeyData.Exact]⟩
  have h := osaPrincEnt_read_back hodd (oddStream.gets [])
  refine ⟨h.1.mpr (by decide), h.2.mpr ⟨oddStream, rfl, ?_, ?_⟩⟩
  · simp [oddStream, Bytes.of]
  · simp [oddStream]

def unsoundKey : RawKeyData := ⟨1, 3, 1, 0, 100, 0, [], []⟩

def unsoundStream : Octets :=
  be32 adbPrincVersion1 ++ [0, 0, 5, 2, 1, 1, 1, 3, 1, 0, 100, 0, 0, 0].flatMap be32

/-- A version of 256 comes back as 0. A key of a hundred octets is read with none of them, and
an index beside the history is not looked at. -/
theorem osaPrincEnt_unsound :
    decodeOsaPrincEnt (encodeOsaPrincEnt { sampleRecord with adminHistoryKvno := 256 }) =
      some { sampleRecord with adminHistoryKvno := 0 } ∧
    xdrOsaPrincEntRec unsoundStream = .ok (⟨none, 0, 5, 2, [[unsoundKey]]⟩, []) ∧
    ¬unsoundKey.Exact :=
  ⟨by decide +kernel, by decide +kernel, by simp [unsoundKey, RawKeyData.Exact]⟩

theorem encodeOsaPrincEnt_ne_nil (adb : OsaPrincEnt) : encodeOsaPrincEnt adb ≠ [] := by
  simp [encodeOsaPrincEnt_eq, be32]

end Krb5.Kadm5
