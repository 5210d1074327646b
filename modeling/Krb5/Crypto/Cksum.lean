import Krb5.Basic
import Krb5.Lib.Checked

/-!
# Checksums (`cksumtypes.c`, `make_checksum.c`, `verify_checksum.c`)

A checksum type names a keyed hash with code of its own, or a plain hash that is
used as it is or under a key derived from the caller's. The block ciphers and
hash functions underneath are parameters; which lengths, types and keys they are
refused for is modelled.
-/

namespace Krb5.Crypto

open Lib List

/-- What the library returns instead of zero; `fault` stands for a null pointer
that is followed. -/
inductive Code
  | badEnctype
  | badMsize
  | badKeysize
  | cryptoInternal
  | desBadKeypar
  | desWeakKey
  | fault
  | other (code : Int32)
deriving DecidableEq, Repr

/-! ## Providers -/

inductive EncProvider
  | des
  | des3
deriving DecidableEq, Repr

/-- `keylength` of `k5_des_keysize` and `k5_des3_keysize`. -/
def EncProvider.keylength : EncProvider → Nat
  | des => 8
  | des3 => 24

/-- `krb5_enctypes_list`, without the aliases. -/
def enctypesList : List (Int32 × EncProvider) :=
  [(1, .des), (2, .des), (3, .des), (4, .des), (6, .des3), (16, .des3), (8, .des)]

def encProvider (etype : Int32) : Option EncProvider := enctypesList.lookup etype

/-- `etype_match`: both types are known and have one provider. -/
def etypeMatch (e1 e2 : Int32) : Bool :=
  (encProvider e1).isSome && encProvider e1 == encProvider e2

inductive HashProvider
  | crc32
  | md4
  | md5
  | sha1
deriving DecidableEq, Repr

namespace HashProvider

def hashSize : HashProvider → Nat
  | crc32 => 4
  | md4 => 16
  | md5 => 16
  | sha1 => 20

def blockSize : HashProvider → Nat
  | crc32 => 1
  | md4 => 64
  | md5 => 64
  | sha1 => 64

end HashProvider

inductive KeyhashProvider
  | md4des
  | descbc
  | md5des
deriving DecidableEq, Repr

def KeyhashProvider.hashSize : KeyhashProvider → Nat
  | md4des => 24
  | descbc => 8
  | md5des => 24

/-- Ciphers and hash functions, on keys that have been checked. -/
structure Primitives where
  hash : HashProvider → Octets → Octets
  desCbcEncrypt : (key ivec : Octets) → Octets → Octets
  desCbcDecrypt : (key ivec : Octets) → Octets → Octets
  desCbcCksum : (key : Octets) → Octets → Octets
  deriveKey : EncProvider → (key constant : Octets) → Octets
  length_deriveKey (enc : EncProvider) (key constant : Octets) :
    (deriveKey enc key constant).length = enc.keylength

def pstep (x step : UInt8) : UInt8 :=
  let smask : UInt8 := (1 <<< step) - 1
  (x &&& smask) ^^^ ((x >>> step) &&& smask)

def parityChar (x : UInt8) : UInt8 := pstep (pstep (pstep x 4) 2) 1

def mitDesCheckKeyParity (key : Octets) : Bool :=
  key.all fun o => o &&& 1 != parityChar (0xfe &&& o)

def weak : List Octets := [
  [0x01, 0x01, 0x01, 0x01, 0x01, 0x01, 0x01, 0x01],
  [0xfe, 0xfe, 0xfe, 0xfe, 0xfe, 0xfe, 0xfe, 0xfe],
  [0x1f, 0x1f, 0x1f, 0x1f, 0x0e, 0x0e, 0x0e, 0x0e],
  [0xe0, 0xe0, 0xe0, 0xe0, 0xf1, 0xf1, 0xf1, 0xf1],
  [0x01, 0xfe, 0x01, 0xfe, 0x01, 0xfe, 0x01, 0xfe],
  [0xfe, 0x01, 0xfe, 0x01, 0xfe, 0x01, 0xfe, 0x01],
  [0x1f, 0xe0, 0x1f, 0xe0, 0x0e, 0xf1, 0x0e, 0xf1],
  [0xe0, 0x1f, 0xe0, 0x1f, 0xf1, 0x0e, 0xf1, 0x0e],
  [0x01, 0xe0, 0x01, 0xe0, 0x01, 0xf1, 0x01, 0xf1],
  [0xe0, 0x01, 0xe0, 0x01, 0xf1, 0x01, 0xf1, 0x01],
  [0x1f, 0xfe, 0x1f, 0xfe, 0x0e, 0xfe, 0x0e, 0xfe],
  [0xfe, 0x1f, 0xfe, 0x1f, 0xfe, 0x0e, 0xfe, 0x0e],
  [0x01, 0x1f, 0x01, 0x1f, 0x01, 0x0e, 0x01, 0x0e],
  [0x1f, 0x01, 0x1f, 0x01, 0x0e, 0x01, 0x0e, 0x01],
  [0xe0, 0xfe, 0xe0, 0xfe, 0xf1, 0xfe, 0xf1, 0xfe],
  [0xfe, 0xe0, 0xfe, 0xe0, 0xfe, 0xf1, 0xfe, 0xf1]]

/-- `mit_des_key_sched` and the `switch` over what it returns. -/
def mitDesKeySched (key : Octets) : Except Code Unit :=
  if !mitDesCheckKeyParity key then .error .desBadKeypar
  else if weak.contains key then .error .desWeakKey
  else .ok ()

def xorkey (key : Octets) : Octets := key.map (· ^^^ 0xf0)

def zeroblock : Octets := replicate 8 0

/-! ## Keyed hashes -/

section Keyhash

variable (lib : Primitives)

/-- `k5_md4des_hash` and `k5_md5des_hash`; `random` is what
`krb5_c_random_make_octets` gives for the confounder. -/
def desHash (hash : HashProvider) (random : Except Code Octets) (key : Keyblock)
    (input : Octets) : Except Code Octets :=
  if key.contents.length ≠ 8 then .error .badKeysize
  else do
    let conf ← random
    mitDesKeySched (xorkey key.contents)
    return lib.desCbcEncrypt (xorkey key.contents) zeroblock
      (conf ++ lib.hash hash (conf ++ input))

def k5Md4desHash := desHash lib .md4

def k5Md5desHash := desHash lib .md5

def k5DescbcHash (key : Keyblock) (input : Octets) : Except Code Octets :=
  if key.contents.length ≠ 8 then .error .badKeysize
  else if input.length % 8 ≠ 0 then .error .badMsize
  else do
    mitDesKeySched key.contents
    return lib.desCbcCksum key.contents input

/-- What `k5_md4des_verify` and `k5_md5des_verify` do once the lengths are
checked; `compathash` is set for a checksum without a confounder. -/
def desCompare (hash : HashProvider) (compathash : Bool) (key : Keyblock)
    (input cksum : Octets) : Except Code Bool := do
  let xorkey := if compathash then key.contents else xorkey key.contents
  mitDesKeySched xorkey
  let plaintext := lib.desCbcDecrypt xorkey (if compathash then xorkey else zeroblock) cksum
  if compathash then return plaintext == lib.hash hash input
  else return plaintext.drop 8 == lib.hash hash (plaintext.take 8 ++ input)

def k5Md5desVerify (key : Keyblock) (input cksum : Octets) : Except Code Bool :=
  if key.contents.length ≠ 8 then .error .badKeysize
  else if cksum.length ≠ 24 then
    if cksum.length ≠ 16 then .error .cryptoInternal
    else desCompare lib .md5 true key input cksum
  else desCompare lib .md5 false key input cksum

/-- `k5_md4des_verify`. A checksum without a confounder is recognised, and
refused all the same. -/
def k5Md4desVerify (key : Keyblock) (input cksum : Octets) : Except Code Bool :=
  if key.contents.length ≠ 8 then .error .badKeysize
  else if cksum.length ≠ 24 then .error .cryptoInternal
  else desCompare lib .md4 false key input cksum

def hmacPad (hash : HashProvider) (pad : UInt8) (key : Octets) : Octets :=
  (key ++ replicate (hash.blockSize - key.length) 0).map (· ^^^ pad)

/-- `krb5_hmac` of one input, with room for the output. -/
def hmac (hash : HashProvider) (key input : Octets) : Except Code Octets :=
  if key.length > hash.blockSize then .error .cryptoInternal
  else .ok (lib.hash hash (hmacPad hash 0x5c key ++
    lib.hash hash (hmacPad hash 0x36 key ++ input)))

/-- The four octets of a `krb5_keyusage`, the most significant first. -/
def usageOctets (usage : Int32) : Octets :=
  [24, 16, 8, 0].map fun i => UInt8.ofNat (usage.toUInt32.toNat / 2 ^ i)

/-- `krb5_dk_make_checksum`. What the cipher returns while the key is derived is
not looked at. -/
def dkMakeChecksum (hash : HashProvider) (key : Keyblock) (usage : Int32) (input : Octets) :
    Except Code Octets :=
  match encProvider key.enctype with
  | none => .error .badEnctype
  | some enc =>
    if key.contents.length ≠ enc.keylength then .error .cryptoInternal
    else hmac lib hash (lib.deriveKey enc key.contents (usageOctets usage ++ [0x99])) input

end Keyhash

/-! ## Checksum types -/

/-- The members `keyed_etype`, `keyhash` and `hash` of `krb5_cksumtypes`, and its
flag `KRB5_CKSUMFLAG_DERIVE`. -/
inductive Method
  | keyhash (keyedEtype : Int32) (provider : KeyhashProvider)
  | hash (provider : HashProvider) (derive : Bool)
deriving DecidableEq, Repr

structure Cksumtype where
  ctype : Int32
  notCollProof : Bool
  method : Method
deriving DecidableEq, Repr

def cksumtypesList : List Cksumtype := [
  ⟨1, true, .hash .crc32 false⟩,
  ⟨2, false, .hash .md4 false⟩,
  ⟨3, false, .keyhash 1 .md4des⟩,
  ⟨4, false, .keyhash 1 .descbc⟩,
  ⟨7, false, .hash .md5 false⟩,
  ⟨8, false, .keyhash 1 .md5des⟩,
  ⟨9, false, .hash .sha1 false⟩,
  ⟨12, false, .hash .sha1 true⟩,
  ⟨12, false, .hash .sha1 true⟩]

def findCksumtype (ctype : Int32) : Option Cksumtype :=
  cksumtypesList.find? fun type => type.ctype == ctype

def validCksumtype (ctype : Int32) : Bool := (findCksumtype ctype).isSome

def isCollProofCksum (ctype : Int32) : Bool :=
  match findCksumtype ctype with
  | some type => !type.notCollProof
  | none => false

def Method.keyed : Method → Bool
  | keyhash _ _ => true
  | hash _ derive => derive

/-- `is_keyed_cksum`; it is `-1` for a type that is not listed. -/
def isKeyedCksum (ctype : Int32) : Bool :=
  match findCksumtype ctype with
  | some type => type.method.keyed
  | none => true

def Method.hashSize : Method → Nat
  | keyhash _ provider => provider.hashSize
  | hash provider _ => provider.hashSize

def cChecksumLength (ctype : Int32) : Except Code Nat :=
  match findCksumtype ctype with
  | none => .error .badEnctype
  | some type => .ok type.method.hashSize

def cKeyedChecksumTypes (enctype : Int32) : List Int32 :=
  (cksumtypesList.filter fun type =>
    match type.method with
    | .keyhash keyedEtype _ => etypeMatch keyedEtype enctype
    | .hash _ derive => derive).map Cksumtype.ctype

def deref (key : Option Keyblock) : Except Code Keyblock :=
  match key with
  | some key => .ok key
  | none => .error .fault

def cMakeChecksum (lib : Primitives) (random : Except Code Octets) (ctype : Int32)
    (key : Option Keyblock) (usage : Int32) (input : Octets) : Except Code Octets :=
  match findCksumtype ctype with
  | none => .error .badEnctype
  | some type =>
    match type.method with
    | .keyhash keyedEtype provider => do
        let key ← deref key
        if !etypeMatch keyedEtype key.enctype then .error .badEnctype
        else
          match provider with
          | .md4des => k5Md4desHash lib random key input
          | .descbc => k5DescbcHash lib key input
          | .md5des => k5Md5desHash lib random key input
    | .hash provider true => do dkMakeChecksum lib provider (← deref key) usage input
    | .hash provider false => .ok (lib.hash provider input)

/-- `krb5_c_verify_checksum`: what it leaves in `valid`. With an error nothing is
left there. -/
def cVerifyChecksum (lib : Primitives) (random : Except Code Octets) (key : Option Keyblock)
    (usage : Int32) (data : Octets) (cksum : Checksum) : Except Code Bool :=
  match findCksumtype cksum.checksumType with
  | none => .error .badEnctype
  | some type =>
    match type.method with
    | .keyhash _ .md4des => do k5Md4desVerify lib (← deref key) data cksum.contents
    | .keyhash _ .md5des => do k5Md5desVerify lib (← deref key) data cksum.contents
    | _ => do
        let hashsize ← cChecksumLength cksum.checksumType
        if cksum.contents.length ≠ hashsize then .error .badMsize
        else
          let computed ← cMakeChecksum lib random cksum.checksumType key usage data
          return computed == cksum.contents

/-! ## What is refused -/

/-- Whether `krb5_c_verify_checksum` comes to a verdict on a checksum of data of
this size: the checksum has a length of its type, and the key is one its type
can be used with. A null pointer for a key is not an error that is returned. -/
def usable (key : Option Keyblock) (cksum : Checksum) (size : Nat) : Bool :=
  match findCksumtype cksum.checksumType with
  | none => false
  | some type =>
    match type.method with
    | .keyhash _ .md4des => key.all fun key =>
      key.contents.length == 8 && cksum.contents.length == 24 &&
        (mitDesKeySched (xorkey key.contents)).isOk
    | .keyhash _ .md5des => key.all fun key =>
      key.contents.length == 8 &&
        (cksum.contents.length == 24 && (mitDesKeySched (xorkey key.contents)).isOk ||
          cksum.contents.length == 16 && (mitDesKeySched key.contents).isOk)
    | .keyhash keyedEtype .descbc =>
      cksum.contents.length == 8 && key.all fun key =>
        etypeMatch keyedEtype key.enctype && key.contents.length == 8 && size % 8 == 0 &&
          (mitDesKeySched key.contents).isOk
    | .hash provider derive =>
      cksum.contents.length == provider.hashSize && (!derive || key.all fun key =>
        (encProvider key.enctype).any fun enc => key.contents.length == enc.keylength)

/-- An error code other than the fault is returned. -/
def Refused {α : Type} (x : Except Code α) : Prop := ∃ e, x = .error e ∧ e ≠ .fault

section Refused

variable {α β : Type} {x : Except Code α} {e : Code} {lib : Primitives}
  {key : Keyblock} {input : Octets}

@[simp] theorem not_refused_ok (a : α) : ¬Refused (.ok a : Except Code α) := by
  rintro ⟨e, h, -⟩
  cases h

@[simp] theorem refused_error : Refused (.error e : Except Code α) ↔ e ≠ .fault :=
  ⟨fun ⟨_, h, hne⟩ => by cases h; exact hne, fun hne => ⟨e, rfl, hne⟩⟩

@[simp] theorem refused_map (g : α → β) : Refused (x >>= fun a => pure (g a)) ↔ Refused x := by
  cases x with
  | error e => simp
  | ok a => simp [bind, Except.bind, pure, Except.pure]

@[simp] theorem refused_ite {c : Prop} [Decidable c] :
    Refused (if c then .error e else x) ↔ c ∧ e ≠ .fault ∨ ¬c ∧ Refused x := by
  by_cases hc : c <;> simp [hc]

@[simp] theorem refused_mitDesKeySched (k : Octets) :
    Refused (mitDesKeySched k) ↔ (mitDesKeySched k).isOk = false := by
  unfold mitDesKeySched
  split
  · simp [Except.toBool]
  · split <;> simp [Except.toBool]

@[simp] theorem refused_desCompare (hash : HashProvider) (compathash : Bool) (cksum : Octets) :
    Refused (desCompare lib hash compathash key input cksum) ↔
      (mitDesKeySched (if compathash then key.contents else xorkey key.contents)).isOk = false := by
  rw [← refused_mitDesKeySched]
  cases compathash <;> exact refused_map _

@[simp] theorem refused_k5DescbcHash :
    Refused (k5DescbcHash lib key input) ↔
      (key.contents.length == 8 && input.length % 8 == 0 &&
        (mitDesKeySched key.contents).isOk) = false := by
  rw [k5DescbcHash, refused_ite, refused_ite, refused_map, refused_mitDesKeySched]
  grind

@[simp] theorem refused_dkMakeChecksum (usage : Int32) :
    Refused (dkMakeChecksum lib .sha1 key usage input) ↔
      ((encProvider key.enctype).any fun enc => key.contents.length == enc.keylength) = false := by
  unfold dkMakeChecksum
  cases encProvider key.enctype with
  | none => simp
  | some enc =>
    have hfits : ¬(lib.deriveKey enc key.contents (usageOctets usage ++ [0x99])).length >
        HashProvider.sha1.blockSize := by
      rw [lib.length_deriveKey]
      cases enc <;> decide
    simp only [refused_ite, hmac, if_neg hfits]
    simp

@[simp] theorem refused_k5Md4desVerify (cksum : Octets) :
    Refused (k5Md4desVerify lib key input cksum) ↔
      (key.contents.length == 8 && cksum.length == 24 &&
        (mitDesKeySched (xorkey key.contents)).isOk) = false := by
  rw [k5Md4desVerify, refused_ite, refused_ite, refused_desCompare]
  grind

@[simp] theorem refused_k5Md5desVerify (cksum : Octets) :
    Refused (k5Md5desVerify lib key input cksum) ↔
      (key.contents.length == 8 &&
        (cksum.length == 24 && (mitDesKeySched (xorkey key.contents)).isOk ||
          cksum.length == 16 && (mitDesKeySched key.contents).isOk)) = false := by
  rw [k5Md5desVerify, refused_ite]
  split
  · rw [refused_ite, refused_desCompare]
    grind
  · rw [refused_desCompare]
    grind

@[simp] theorem refused_deref {keyblock : Option Keyblock} {f : Keyblock → Except Code α} :
    Refused (deref keyblock >>= f) ↔ ∃ key ∈ keyblock, Refused (f key) := by
  cases keyblock with
  | none => simp [deref, bind, Except.bind]
  | some key => simp [deref, bind, Except.bind]

/-- A verification fails over type, key and sizes alone, not over the octets. -/
theorem refused_cVerifyChecksum_iff (lib : Primitives) (random : Except Code Octets)
    (keyblock : Option Keyblock) (usage : Int32) (data : Octets) (cksum : Checksum) :
    Refused (cVerifyChecksum lib random keyblock usage data cksum) ↔
      usable keyblock cksum data.length = false := by
  unfold cVerifyChecksum usable
  cases hfind : findCksumtype cksum.checksumType with
  | none => simp
  | some type =>
    have hmem : type ∈ cksumtypesList := mem_of_find?_eq_some hfind
    have hlen : cChecksumLength cksum.checksumType = .ok type.method.hashSize := by
      simp [cChecksumLength, hfind]
    rcases type with ⟨ctype, coll, ⟨etype, _ | _ | _⟩ | ⟨provider, derive⟩⟩
    · cases keyblock <;> simp
    · simp only [hlen, ok_bind, cMakeChecksum, hfind, refused_ite, refused_map, refused_deref]
      cases keyblock with
      | none => simp [Method.hashSize, KeyhashProvider.hashSize]
      | some key =>
        simp only [Method.hashSize, KeyhashProvider.hashSize, refused_k5DescbcHash]
        grind
    · cases keyblock <;> simp
    cases derive with
    | false =>
      simp only [hlen, ok_bind, cMakeChecksum, hfind, refused_ite]
      simp [Method.hashSize, pure, Except.pure]
    | true =>
      -- The only hash that is used with a derived key is SHA-1.
      have hsha1 : provider = .sha1 := by
        simp [cksumtypesList] at hmem
        exact hmem.2.2
      subst hsha1
      simp only [hlen, ok_bind, cMakeChecksum, hfind, refused_ite, refused_map, refused_deref]
      cases keyblock with
      | none => simp [Method.hashSize]
      | some key =>
        simp only [Method.hashSize, refused_dkMakeChecksum]
        grind

end Refused

end Krb5.Crypto
