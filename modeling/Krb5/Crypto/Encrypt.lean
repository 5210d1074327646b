import Krb5.Crypto.Cksum
import Krb5.Lib.Action

/-!
# Encryption (`dk_encrypt.c`, `dk_decrypt.c`, `old_encrypt.c`, `old_decrypt.c`)

Both layers put a random block in front of the message, fill it up with zeros to whole blocks and
encrypt that in CBC mode. The newer one derives its keys and puts an HMAC behind the ciphertext;
the older one encrypts a plain hash with the message. The caller's `ivec` is the state.
-/

namespace Krb5.Crypto

open Lib Action List

/-- `block_size` of `krb5_enc_des` and of `krb5_enc_des3`. -/
def blocksize : Nat := 8

def roundup (x y : Nat) : Nat := (x + y - 1) / y * y

def badIntegrity : Code := .other (-1765328353)

def enomem : Code := .other 12

abbrev Block := { block : Octets // block.length = blocksize }

/-- The primitives with DES in three rounds. CBC mode keeps the length of whole
blocks, decryption inverts encryption, and a hash has the size of its provider. -/
structure Ciphers extends Primitives where
  des3CbcEncrypt : (key ivec : Octets) → Octets → Octets
  des3CbcDecrypt : (key ivec : Octets) → Octets → Octets
  length_hash (provider : HashProvider) (input : Octets) :
    (hash provider input).length = provider.hashSize
  length_desCbcEncrypt (key ivec input : Octets) (h : blocksize ∣ input.length) :
    (desCbcEncrypt key ivec input).length = input.length
  length_des3CbcEncrypt (key ivec input : Octets) (h : blocksize ∣ input.length) :
    (des3CbcEncrypt key ivec input).length = input.length
  des_decrypt_encrypt (key ivec input : Octets) (h : blocksize ∣ input.length) :
    desCbcDecrypt key ivec (desCbcEncrypt key ivec input) = input
  des3_decrypt_encrypt (key ivec input : Octets) (h : blocksize ∣ input.length) :
    des3CbcDecrypt key ivec (des3CbcEncrypt key ivec input) = input

/-- `mit_des3_key_sched` and the `switch` over what it returns. -/
def mitDes3KeySched (key : Octets) : Except Code Unit := do
  mitDesKeySched (key.take 8)
  mitDesKeySched ((key.drop 8).take 8)
  mitDesKeySched ((key.drop 16).take 8)

def EncProvider.keySched : EncProvider → Octets → Except Code Unit
  | des => mitDesKeySched
  | des3 => mitDes3KeySched

/-- What `k5_des_docrypt` and `k5_des3_docrypt` check before they run the cipher.
Input and output have one length wherever they are called. -/
def docryptCheck (enc : EncProvider) (key : Octets) (ivec : Option Octets) (length : Nat) :
    Except Code Unit :=
  if key.length ≠ enc.keylength then .error .badKeysize
  else if length % 8 ≠ 0 then .error .badMsize
  else if ivec.any fun ivec => ivec.length ≠ 8 then .error .badMsize
  else enc.keySched key

section

variable (lib : Ciphers)

def Ciphers.cbcEncrypt : EncProvider → (key ivec : Octets) → Octets → Octets
  | .des => lib.desCbcEncrypt
  | .des3 => lib.des3CbcEncrypt

def Ciphers.cbcDecrypt : EncProvider → (key ivec : Octets) → Octets → Octets
  | .des => lib.desCbcDecrypt
  | .des3 => lib.des3CbcDecrypt

/-- `k5_des_encrypt` and `k5_des3_encrypt`. -/
def encEncrypt (enc : EncProvider) (key : Octets) (ivec : Option Octets) (input : Octets) :
    Except Code Octets := do
  docryptCheck enc key ivec input.length
  return lib.cbcEncrypt enc key (ivec.getD zeroblock) input

/-- `k5_des_decrypt` and `k5_des3_decrypt`. -/
def encDecrypt (enc : EncProvider) (key : Octets) (ivec : Option Octets) (input : Octets) :
    Except Code Octets := do
  docryptCheck enc key ivec input.length
  return lib.cbcDecrypt enc key (ivec.getD zeroblock) input

/-- `krb5_derive_key`. What the cipher returns is not looked at there: for a key
of the right length that it refuses, the derived key is made from memory that
nothing has been written to. -/
def krb5DeriveKey (enc : EncProvider) (inkey constant : Octets) : Except Code Octets :=
  if inkey.length ≠ enc.keylength then .error .cryptoInternal
  else if (enc.keySched inkey).isOk then .ok (lib.deriveKey enc inkey constant)
  else .error .fault

/-! ## With derived keys -/

/-- A call on the caller's `ivec`, a null pointer or a counted array. -/
abbrev Chained := Action (Option Octets) Code

def updateIvec (ciphertext : Octets) : Chained Unit :=
  .modify fun ivec => ivec.map fun ivec =>
    if ivec.length = blocksize then ciphertext.drop (ciphertext.length - blocksize) else ivec

def dkEncryptLength (hash : HashProvider) (inputlen : Nat) : Nat :=
  roundup (blocksize + inputlen) blocksize + hash.hashSize

/-- `krb5_dk_encrypt`, with an output buffer of `room` octets. -/
def dkEncrypt (random : Except Code Block) (enc : EncProvider) (hash : HashProvider)
    (key : Keyblock) (usage : Int32) (input : Octets) (room : Nat) : Chained Octets := do
  let plainlen := roundup (blocksize + input.length) blocksize
  failIf (room < dkEncryptLength hash input.length) .badMsize
  let ke ← ofExcept (krb5DeriveKey lib enc key.contents (usageOctets usage ++ [0xaa]))
  let ki ← ofExcept (krb5DeriveKey lib enc key.contents (usageOctets usage ++ [0x55]))
  let confounder ← ofExcept random
  let plaintext := confounder.1 ++
    (input ++ replicate (plainlen - (blocksize + input.length)) 0)
  let ivec ← get
  let ciphertext ← ofExcept (encEncrypt lib enc ke ivec plaintext)
  let mac ← ofExcept (hmac lib.toPrimitives hash ki plaintext)
  updateIvec ciphertext
  return ciphertext ++ mac

/-- `krb5_dk_decrypt`, with an output buffer of `room` octets. -/
def dkDecrypt (enc : EncProvider) (hash : HashProvider) (key : Keyblock) (usage : Int32)
    (input : Octets) (room : Nat) : Chained Octets := do
  -- `enclen` wraps below zero, and so much memory is not there
  failIf (input.length < hash.hashSize) enomem
  let enclen := input.length - hash.hashSize
  let ke ← ofExcept (krb5DeriveKey lib enc key.contents (usageOctets usage ++ [0xaa]))
  let ki ← ofExcept (krb5DeriveKey lib enc key.contents (usageOctets usage ++ [0x55]))
  let ivec ← get
  let plaindata ← ofExcept (encDecrypt lib enc ke ivec (input.take enclen))
  let cksum ← ofExcept (hmac lib.toPrimitives hash ki plaindata)
  failIf (cksum != input.drop enclen) badIntegrity
  -- `plainlen` wraps as well, and no buffer is as large
  failIf (enclen < blocksize || room < enclen - blocksize) .badMsize
  updateIvec (input.take enclen)
  return plaindata.drop blocksize

def oldEncryptLength (hash : HashProvider) (inputlen : Nat) : Nat :=
  roundup (blocksize + hash.hashSize + inputlen) blocksize

/-- `crcivec`: a key for `ENCTYPE_DES_CBC_CRC` is its own `ivec` where none is given. -/
def crcivec (key : Keyblock) (ivec : Option Octets) : Option Octets :=
  if key.enctype = 1 ∧ ivec = none then some key.contents else ivec

/-- `krb5_old_encrypt`, with an output buffer of `room` octets. There is nothing
to update in a null pointer, which is all that `real_ivec` is for. -/
def oldEncrypt (random : Except Code Block) (enc : EncProvider) (hash : HashProvider)
    (key : Keyblock) (_usage : Int32) (input : Octets) (room : Nat) : Chained Octets := do
  let enclen := oldEncryptLength hash input.length
  failIf (room < enclen) .badMsize
  let confounder ← ofExcept random
  let padded := input ++ replicate (enclen - (blocksize + hash.hashSize + input.length)) 0
  let cksum := lib.hash hash (confounder.1 ++ (replicate hash.hashSize 0 ++ padded))
  let ivec ← get
  let output ← ofExcept
    (encEncrypt lib enc key.contents (crcivec key ivec) (confounder.1 ++ (cksum ++ padded)))
  updateIvec output
  return output

/-- `krb5_old_decrypt`, with an output buffer of `room` octets. -/
def oldDecrypt (enc : EncProvider) (hash : HashProvider) (key : Keyblock) (_usage : Int32)
    (input : Octets) (room : Nat) : Chained Octets := do
  -- `plainsize` wraps below zero, and no buffer is as large
  failIf (input.length < blocksize + hash.hashSize ||
    room < input.length - blocksize - hash.hashSize) .badMsize
  let ivec ← get
  let output ← ofExcept (encDecrypt lib enc key.contents (crcivec key ivec) input)
  let cksumdata := (output.drop blocksize).take hash.hashSize
  let cleared := output.take blocksize ++
    (replicate hash.hashSize 0 ++ output.drop (blocksize + hash.hashSize))
  failIf (lib.hash hash cleared != cksumdata) badIntegrity
  updateIvec input
  return output.drop (blocksize + hash.hashSize)

end

/-- The two sets of members `encrypt_len`, `encrypt` and `decrypt` of `krb5_keytypes`. -/
inductive Layer
  | dk
  | old
deriving DecidableEq, Repr

namespace Layer

def encrypt : Layer → Ciphers → Except Code Block → EncProvider → HashProvider → Keyblock →
    Int32 → Octets → Nat → Chained Octets
  | dk => dkEncrypt
  | old => oldEncrypt

def decrypt : Layer → Ciphers → EncProvider → HashProvider → Keyblock → Int32 → Octets → Nat →
    Chained Octets
  | dk => dkDecrypt
  | old => oldDecrypt

def encryptLength : Layer → HashProvider → Nat → Nat
  | dk => dkEncryptLength
  | old => oldEncryptLength

end Layer

end Krb5.Crypto
