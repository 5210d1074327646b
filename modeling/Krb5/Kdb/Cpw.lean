import Krb5.Crypto.Cksum
import Krb5.Kdb.Entry

/-!
# Keys of an entry (`kdb_cpw.c`, `encrypt_key.c`, `decrypt_key.c`)

A password gives one key for each pair of an encryption type and a salt type, except where a pair
is like one in front of it. In an entry the keys are encrypted, with their true length in front.
The string-to-key functions and the encryption are parameters; what was encrypted is decrypted to
the same octets with some padding behind them.
-/

namespace Krb5.Kdb

open Lib Crypto

structure KeySaltTuple where
  enctype : Int32
  salttype : Int32
deriving DecidableEq, Repr

/-- The salt as it is given to `krb5_c_string_to_key`: the length -1 asks for the AFS
function. -/
structure Salt where
  data : Octets
  afs : Bool
deriving DecidableEq, Repr

structure KeyLib where
  /-- `krb5_c_string_to_key`, the contents of the key -/
  stringToKey : Int32 → Octets → Salt → Except Code Octets
  /-- `krb5_c_encrypt`, with the usage number zero -/
  encrypt : Keyblock → Octets → Except Code Octets
  decrypt : Keyblock → Octets → Except Code Octets
  decrypt_encrypt {key : Keyblock} {plain cipher : Octets} (h : encrypt key plain = .ok cipher) :
    ∃ pad, decrypt key cipher = .ok (plain ++ pad)

/-- The member `str2key` of `krb5_enctypes_list`. -/
inductive Str2key
  | des
  | dk
deriving DecidableEq, Repr

/-- The members `etype`, `enc` and `str2key` of `krb5_enctypes_list`, without the aliases. -/
def keytypes : List (Int32 × EncProvider × Str2key) :=
  [(1, .des, .des), (2, .des, .des), (3, .des, .des), (4, .des, .des), (6, .des3, .dk),
    (0x10, .des3, .dk), (8, .des, .dk)]

def cEnctypeCompare (e1 e2 : Int32) : Except Code Bool :=
  match keytypes.lookup e1, keytypes.lookup e2 with
  | some k1, some k2 => .ok (k1 = k2)
  | _, _ => .error .badEnctype

structure Keysalt where
  type : Int16
  data : Octets
deriving DecidableEq, Repr

def dbekdEncryptKeyData (lib : KeyLib) (mkey dbkey : Keyblock) (keysalt : Keysalt)
    (keyver : Int32) : Except Code KeyData := do
  let cipher ← lib.encrypt mkey dbkey.contents
  let key : KeyPart := ⟨dbkey.enctype.toInt16, le16 (.ofNat 16 dbkey.contents.length) ++ cipher⟩
  if keysalt.type > 0 then
    return ⟨2, keyver.toInt16, [key, ⟨keysalt.type, keysalt.data⟩], rfl, by decide⟩
  else return ⟨1, keyver.toInt16, [key], rfl, by decide⟩

/-- `krb5_dbekd_decrypt_key_data`, the key. Without contents there is none; the caller's
block is left as it was then. -/
def dbekdDecryptKey (lib : KeyLib) (mkey : Keyblock) (key : KeyData) :
    Except Code (Option Keyblock) :=
  match key.parts with
  | ⟨type, a :: b :: cipher⟩ :: _ => do
      let plain ← lib.decrypt mkey cipher
      let tmplen := (Int16.ofBitVec (ofLe16 a b)).toInt
      if tmplen > plain.length then .error .cryptoInternal
      else return some ⟨type.toInt32, plain.take tmplen.toNat⟩
  | ⟨_, [_]⟩ :: _ => .error .fault
  | _ => .ok none

/-- `krb5_dbekd_decrypt_key_data`, the salt. -/
def dbekdKeysalt (key : KeyData) : Keysalt :=
  match key.parts with
  | [_, salt] => ⟨salt.type, salt.contents⟩
  | _ => ⟨0, []⟩

def getKeyDataKvno (keys : List KeyData) : Int16 :=
  keys.foldl (fun kvno key => if kvno < key.kvno then key.kvno else kvno) 0

def salttypeNormal : Int16 := 0
def salttypeV4 : Int16 := 1
def salttypeNorealm : Int16 := 2
def salttypeOnlyrealm : Int16 := 3
def salttypeAfs3 : Int16 := 5

/-- The `switch` over the salt type: what is hashed, and what is stored. -/
def saltFor (princ : Principal) (type : Int16) : Except Code (Salt × Keysalt) :=
  if type = salttypeOnlyrealm then .ok (⟨princ.realm, false⟩, ⟨type, princ.realm⟩)
  else if type = salttypeNorealm then
    .ok (⟨princ.data.flatten, false⟩, ⟨type, princ.data.flatten⟩)
  else if type = salttypeNormal then
    .ok (⟨princ.realm ++ princ.data.flatten, false⟩, ⟨type, princ.realm ++ princ.data.flatten⟩)
  else if type = salttypeV4 then .ok (⟨[], false⟩, ⟨type, []⟩)
  else if type = salttypeAfs3 then .ok (⟨princ.realm ++ [0], true⟩, ⟨type, princ.realm⟩)
  else .error .badSalttype

/-- The inner loop of `add_key_pwd`: is the pair like one in front of it? -/
def similarTo (t : KeySaltTuple) : List KeySaltTuple → Except Code Bool
  | [] => .ok false
  | earlier :: rest => do
      let similar ← cEnctypeCompare t.enctype earlier.enctype
      if similar && earlier.salttype = t.salttype then return true else similarTo t rest

section

variable (lib : KeyLib) (masterKey : Keyblock) (princ : Principal) (passwd : Octets) (kvno : Int32)

def keyForTuple (t : KeySaltTuple) : Except Code KeyData := do
  let (salt, keysalt) ← saltFor princ t.salttype.toInt16
  let contents ← lib.stringToKey t.enctype passwd salt
  dbekdEncryptKeyData lib masterKey ⟨t.enctype, contents⟩ keysalt kvno

/-- `add_key_pwd`, for the pairs that are left behind those in `earlier`. -/
def addKeyPwd (earlier : List KeySaltTuple) : List KeySaltTuple → Except Code (List KeyData)
  | [] => .ok []
  | t :: rest => do
      if ← similarTo t earlier then addKeyPwd (earlier ++ [t]) rest
      else
        let key ← keyForTuple lib masterKey princ passwd kvno t
        return key :: (← addKeyPwd (earlier ++ [t]) rest)

end

/-- `krb5_dbe_cpw`. When it fails the old keys are put back. -/
def dbeCpw (lib : KeyLib) (masterKey : Keyblock) (ksTuple : List KeySaltTuple) (passwd : Octets)
    (newKvno : Int32) (keepold : Bool) (dbEntry : DbEntry) : Except Code DbEntry := do
  let oldKvno := (getKeyDataKvno dbEntry.keyData).toInt32
  let kvno := if newKvno < oldKvno + 1 then oldKvno + 1 else newKvno
  let keys ← addKeyPwd lib masterKey dbEntry.princ passwd kvno [] ksTuple
  return { dbEntry with keyData := if keepold then keys ++ dbEntry.keyData else keys }

/-! ## The keys that a password gives -/

/-- The pairs that get a key, behind those in `earlier`. -/
def keptTuples (earlier : List KeySaltTuple) : List KeySaltTuple → Except Code (List KeySaltTuple)
  | [] => .ok []
  | t :: rest => do
      let similar ← similarTo t earlier
      let kept ← keptTuples (earlier ++ [t]) rest
      return if similar then kept else t :: kept

theorem keptTuples_ne_nil {ts kept : List KeySaltTuple} (h : keptTuples [] ts = .ok kept)
    (hne : ts ≠ []) : kept ≠ [] := by
  obtain ⟨t, rest, rfl⟩ := List.exists_cons_of_ne_nil hne
  obtain ⟨similar, hsimilar, h⟩ := bind_eq_ok.mp h
  obtain ⟨kept', -, h⟩ := bind_eq_ok.mp h
  cases hsimilar
  cases h
  exact List.cons_ne_nil t kept'

section

variable {lib : KeyLib} {masterKey : Keyblock} {princ : Principal} {passwd : Octets} {kvno : Int32}
  {earlier ts : List KeySaltTuple} {keys : List KeyData}

/-- One key for each tuple that is not like one before. -/
theorem addKeyPwd_ok : addKeyPwd lib masterKey princ passwd kvno earlier ts = .ok keys ↔
    ∃ kept, keptTuples earlier ts = .ok kept ∧
      List.Forall₂ (fun t key => keyForTuple lib masterKey princ passwd kvno t = .ok key) kept keys := by
  induction ts generalizing earlier keys with
  | nil =>
    constructor
    · intro h
      cases h
      exact ⟨[], rfl, .nil⟩
    · rintro ⟨kept, h, hkeys⟩
      cases h
      cases hkeys
      rfl
  | cons t rest ih =>
    rw [addKeyPwd, keptTuples]
    simp only [bind_eq_ok]
    constructor
    · rintro ⟨similar, hsimilar, h⟩
      cases similar with
      | true =>
        obtain ⟨kept, hkept, hkeys⟩ := ih.mp h
        exact ⟨kept, ⟨true, hsimilar, kept, hkept, rfl⟩, hkeys⟩
      | false =>
        obtain ⟨key, hkey, h⟩ := bind_eq_ok.mp h
        obtain ⟨keys', hrest, h⟩ := bind_eq_ok.mp h
        cases h
        obtain ⟨kept, hkept, hkeys⟩ := ih.mp hrest
        exact ⟨t :: kept, ⟨false, hsimilar, kept, hkept, rfl⟩, .cons hkey hkeys⟩
    · rintro ⟨kept', ⟨similar, hsimilar, kept, hkept, h⟩, hkeys⟩
      refine ⟨similar, hsimilar, ?_⟩
      cases similar with
      | true =>
        cases h
        exact ih.mpr ⟨kept, hkept, hkeys⟩
      | false =>
        cases h
        obtain ⟨key, keys', hkey, hkeys', rfl⟩ := List.forall₂_cons_left_iff.mp hkeys
        refine bind_eq_ok.mpr ⟨key, hkey, bind_eq_ok.mpr ⟨keys', ih.mpr ⟨kept, hkept, hkeys'⟩, rfl⟩⟩

theorem keyForTuple_kvno {t : KeySaltTuple} {key : KeyData}
    (h : keyForTuple lib masterKey princ passwd kvno t = .ok key) : key.kvno = kvno.toInt16 := by
  obtain ⟨⟨salt, keysalt⟩, -, h⟩ := bind_eq_ok.mp h
  obtain ⟨contents, -, h⟩ := bind_eq_ok.mp h
  obtain ⟨cipher, -, h⟩ := bind_eq_ok.mp h
  dsimp only at h
  split at h
  all_goals
    cases h
    rfl

theorem addKeyPwd_kvno (h : addKeyPwd lib masterKey princ passwd kvno earlier ts = .ok keys) :
    ∀ key ∈ keys, key.kvno = kvno.toInt16 := by
  obtain ⟨kept, -, hkeys⟩ := addKeyPwd_ok.mp h
  clear h
  induction hkeys with
  | nil => exact fun key hkey => (nomatch hkey)
  | cons hkey _ ih => exact List.forall_mem_cons.mpr ⟨keyForTuple_kvno hkey, ih⟩

theorem addKeyPwd_eq_nil (h : addKeyPwd lib masterKey princ passwd kvno [] ts = .ok keys) :
    keys = [] ↔ ts = [] := by
  obtain ⟨kept, hkept, hkeys⟩ := addKeyPwd_ok.mp h
  constructor
  · rintro rfl
    cases hkeys
    by_contra hne
    exact keptTuples_ne_nil hkept hne rfl
  · rintro rfl
    cases h
    rfl

end

end Krb5.Kdb
