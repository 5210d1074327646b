import Krb5.Gss.Ordering
import Krb5.Gss.Token
import Krb5.Lib.Checked

/-!
# Sealing (`k5seal.c`, `util_seqnum.c`, `util_crypt.c`)

The body of a token is six octets that say which algorithms were used, the encrypted sequence
number, the checksum, and for a sealed message the message. The cryptographic library is a
structure of functions with what they are assumed to satisfy. Allocations succeed, except that
there is no token of `2^31` octets or more.
-/

namespace Krb5.Gss

open Lib

inductive Code
  | badEnctype
  | enomem
  | badSeq
  | other (code : Int32)
deriving DecidableEq, Repr

inductive Cksumtype
  | rsaMd5
  | hmacSha1Des3
deriving DecidableEq, Repr

def Cksumtype.length : Cksumtype → Nat
  | .rsaMd5 => 16
  | .hmacSha1Des3 => 20

/-- The key usages `KG_USAGE_SEAL`, `KG_USAGE_SIGN` and `KG_USAGE_SEQ`. -/
def usageSeal : Int32 := 22
def usageSign : Int32 := 23
def usageSeq : Int32 := 24

/-- `krb5_c_make_checksum`, `krb5_c_encrypt` and `krb5_c_decrypt`: a key, a usage,
an initial vector and the input. Decryption inverts encryption on whole blocks. -/
structure Crypto where
  makeChecksum : Cksumtype → Keyblock → Int32 → Octets → Except Code Octets
  encrypt : Keyblock → Int32 → Option Octets → Octets → Except Code Octets
  decrypt : Keyblock → Int32 → Option Octets → Octets → Except Code Octets
  length_makeChecksum {type : Cksumtype} {key : Keyblock} {usage : Int32} {input sum : Octets} :
    makeChecksum type key usage input = .ok sum → sum.length = type.length
  length_encrypt {key : Keyblock} {usage : Int32} {iv : Option Octets} {plain cipher : Octets} :
    8 ∣ plain.length → encrypt key usage iv plain = .ok cipher → cipher.length = plain.length
  decrypt_encrypt {key : Keyblock} {usage : Int32} {iv : Option Octets} {plain cipher : Octets} :
    8 ∣ plain.length → encrypt key usage iv plain = .ok cipher →
      decrypt key usage iv cipher = .ok plain
  length_decrypt {key : Keyblock} {usage : Int32} {iv : Option Octets} {cipher plain : Octets} :
    decrypt key usage iv cipher = .ok plain → plain.length = cipher.length

def enctypesList : List Int32 := [1, 2, 3, 4, 6, 16, 8]

/-- `krb5_c_block_size`: every encryption type of the list works on 8 octets. -/
def cBlockSize (enctype : Int32) : Except Code Nat :=
  if enctype ∈ enctypesList then .ok 8 else .error .badEnctype

def kgConfounderSize (key : Keyblock) : Int :=
  match cBlockSize key.enctype with
  | .ok blocksize => blocksize
  | .error _ => -1

/-- `kg_make_confounder`; `random` is what `krb5_c_random_make_octets` gives. -/
def kgMakeConfounder (random : Except Code (Vector UInt8 8)) (key : Keyblock) :
    Except Code Octets := do
  let blocksize ← cBlockSize key.enctype
  return (← random).toList.take blocksize

/-- The vector that `kg_encrypt` and `kg_decrypt` pass on. -/
def kgVector (key : Keyblock) : Option Octets → Except Code (Option Octets)
  | none => .ok none
  | some iv => do
      let blocksize ← cBlockSize key.enctype
      return some (iv.take blocksize)

def kgEncrypt (crypto : Crypto) (key : Keyblock) (usage : Int32) (iv : Option Octets)
    (input : Octets) : Except Code Octets := do
  let ivd ← kgVector key iv
  crypto.encrypt key usage ivd input

def kgDecrypt (crypto : Crypto) (key : Keyblock) (usage : Int32) (iv : Option Octets)
    (input : Octets) : Except Code Octets := do
  let ivd ← kgVector key iv
  crypto.decrypt key usage ivd input

/-- The octets of a `krb5_int32`, the least significant first. -/
def seqOctets (seqnum : UInt32) : Octets :=
  [UInt8.ofNat seqnum.toNat, UInt8.ofNat (seqnum.toNat / 2 ^ 8),
    UInt8.ofNat (seqnum.toNat / 2 ^ 16), UInt8.ofNat (seqnum.toNat / 2 ^ 24)]

def kgMakeSeqNum (crypto : Crypto) (key : Keyblock) (direction : UInt8) (seqnum : UInt32)
    (cksum : Octets) : Except Code Octets :=
  kgEncrypt crypto key usageSeq (some cksum) (seqOctets seqnum ++ List.replicate 4 direction)

/-- `kg_get_seq_num`: the direction and the number. Eight octets decrypt to eight. -/
def kgGetSeqNum (crypto : Crypto) (key : Keyblock) (cksum buf : Octets) :
    Except Code (UInt8 × UInt32) := do
  match ← kgDecrypt crypto key usageSeq (some cksum) buf with
  | [a, b, c, d, direction, e, f, g] =>
    if direction ≠ e ∨ direction ≠ f ∨ direction ≠ g then throw .badSeq
    else
      return (direction, UInt32.ofNat (a.toNat + b.toNat * 2 ^ 8 + c.toNat * 2 ^ 16 +
        d.toNat * 2 ^ 24))
  | _ => throw .badSeq

/-! ## Contexts -/

inductive Toktype
  | signMsg
  | sealMsg
  | delCtx
deriving DecidableEq, Repr

/-- `KG_TOK_SIGN_MSG`, `KG_TOK_SEAL_MSG` and `KG_TOK_DEL_CTX`. -/
def Toktype.number : Toktype → Nat
  | .signMsg => 0x0101
  | .sealMsg => 0x0201
  | .delCtx => 0x0102

def sgnAlgDesMacMd5 : Nat := 0
def sgnAlgMd25 : Nat := 1
def sgnAlgDesMac : Nat := 2
def sgnAlg3 : Nat := 3
def sgnAlgHmacSha1Des3Kd : Nat := 4
def sgnAlgHmacMd5 : Nat := 0x11

def sealAlgNone : Nat := 0xffff
def sealAlgDes : Nat := 0
def sealAlg1 : Nat := 1
def sealAlgDes3Kd : Nat := 2

def gssMechKrb5Old : Octets := [0x2b, 0x05, 0x01, 0x05, 0x02]

structure Ctx where
  initiate : Bool
  signalg : Nat
  cksumSize : Nat
  sealalg : Nat
  enc : Keyblock
  seq : Keyblock
  endtime : Timestamp
  seqSend : UInt32
  seqstate : Queue
  established : Bool
  bigEndian : Bool
  mechUsed : Octets

/-- Why no token is made: `abort`, octets that nothing has set, or an error. -/
inductive SealStop
  | abort
  | fault
  | code (code : Code)
deriving DecidableEq, Repr

def algOctets (alg : Nat) : Octets := [UInt8.ofNat alg, UInt8.ofNat (alg / 2 ^ 8)]

def bodyHead (signalg sealalg : Nat) : Octets := algOctets signalg ++ algOctets sealalg ++ [0xff, 0xff]

def padded (confounder text : Octets) : Octets :=
  confounder ++ text ++
    List.replicate (8 - text.length % 8) (UInt8.ofNat (8 - text.length % 8))

def sealCksumtype (signalg : Nat) : Except SealStop Cksumtype :=
  if signalg = sgnAlgDesMacMd5 ∨ signalg = sgnAlgMd25 ∨ signalg = sgnAlgHmacMd5 then .ok .rsaMd5
  else if signalg = sgnAlgHmacSha1Des3Kd then .ok .hmacSha1Des3
  else .error .abort

/-- `kg_encrypt` of an MD5 checksum, under the mechanism's choice of vector. -/
def encryptCksum (crypto : Crypto) (seq : Keyblock) (oid sum : Octets) : Except Code Octets :=
  kgEncrypt crypto seq usageSeal (if oid = gssMechKrb5Old then some seq.contents else none) sum

/-- The second `switch (signalg)`: the checksum that goes into the token. The
algorithms for which it copies nothing leave what the memory held. -/
def sealCksum (crypto : Crypto) (seq : Keyblock) (oid : Octets) (signalg cksumSize : Nat)
    (sum : Octets) : Except SealStop Octets :=
  if signalg = sgnAlgDesMacMd5 then do
    let sum ← (encryptCksum crypto seq oid sum).mapError .code
    if cksumSize > 16 then throw .fault else return sum.drop (16 - cksumSize)
  else if signalg = sgnAlgHmacSha1Des3Kd then
    if sum.length ≠ cksumSize then .error .abort else .ok sum
  else .error .fault

def tmsglen (enc : Keyblock) (text : Octets) (encrypt : Bool) (toktype : Toktype) (bigend : Bool) :
    Nat :=
  if toktype = .sealMsg then
    if bigend && !encrypt then text.length
    else ((kgConfounderSize enc + text.length + 8) / 8 * 8).toNat
  else 0

/-- `plain`, which is not used where the text goes into the token as it is. -/
def sealPlain (random : Except Code (Vector UInt8 8)) (enc : Keyblock) (text : Octets)
    (encrypt : Bool) (toktype : Toktype) (bigend : Bool) : Except Code Octets :=
  if toktype = .sealMsg ∧ (!bigend || encrypt) then do
    return padded (← kgMakeConfounder random enc) text
  else .ok []

def sealMessage (crypto : Crypto) (enc : Keyblock) (text plain : Octets) (encrypt : Bool)
    (toktype : Toktype) (bigend : Bool) : Except Code Octets :=
  if toktype = .sealMsg then
    if encrypt then kgEncrypt crypto enc usageSeal none plain
    else .ok (if bigend then text else plain)
  else .ok []

def signedOctets (toktype : Toktype) (head text plain : Octets) (bigend : Bool) : Octets :=
  tokTypeOctets toktype.number ++ head ++
    (if toktype = .sealMsg ∧ !bigend then plain else text)

def makeSealTokenV1 (crypto : Crypto) (random : Except Code (Vector UInt8 8)) (enc seq : Keyblock)
    (seqnum : UInt32) (direction : Bool) (text : Octets) (signalg cksumSize sealalg : Nat)
    (encrypt : Bool) (toktype : Toktype) (bigend : Bool) (oid : Octets) :
    Except SealStop Octets :=
  if signalg ∉ [sgnAlgDesMacMd5, sgnAlgMd25, sgnAlgHmacMd5, sgnAlgDesMac, sgnAlgHmacSha1Des3Kd] then
    .error .abort
  else if sealalg ∉ [sealAlgNone, sealAlgDes, sealAlgDes3Kd] then .error .abort
  else
    let bodySize := 14 + cksumSize + tmsglen enc text encrypt toktype bigend
    if gTokenSize oid bodySize ≥ 2 ^ 31 then .error (.code .enomem)
    else do
      let type ← sealCksumtype signalg
      let head := bodyHead signalg (if toktype = .sealMsg ∧ encrypt then sealalg else 0xffff)
      let plain ← (sealPlain random enc text encrypt toktype bigend).mapError .code
      let message ← (sealMessage crypto enc text plain encrypt toktype bigend).mapError .code
      let sum ← (crypto.makeChecksum type seq usageSign
        (signedOctets toktype head text plain bigend)).mapError .code
      let cksum ← sealCksum crypto seq oid signalg cksumSize sum
      let number ← (kgMakeSeqNum crypto seq (if direction then 0 else 0xff) seqnum
        (cksum ++ message)).mapError .code
      return gMakeTokenHeader oid bodySize toktype.number ++ (head ++ number ++ cksum ++ message)

inductive Major
  | complete
  | gapToken
  | unseqToken
  | oldToken
  | duplicateToken
  | failure
  | contextExpired
  | noContext
  | defectiveToken
  | badSig
deriving DecidableEq, Repr

inductive Minor
  | zero
  | unknownQop
  | validateFailed
  | ctxIncomplete
  | badDirection
  | header (error : HeaderError)
  | code (code : Code)
deriving DecidableEq, Repr

/-- What `kg_seal` returns and stores. -/
structure Sealed where
  major : Major
  minor : Minor
  token : Option Octets
  confState : Option Int32
  ctx : Option Ctx

/-- `kg_seal`; the handle is `none` where it is no valid one, and the result where
the call ends in `abort` or a token with octets that nothing has set. -/
def kgSeal (crypto : Crypto) (random : Except Code (Vector UInt8 8)) (clock : Except Code Timestamp)
    (handle : Option Ctx) (confReqFlag qopReq : Int32) (text : Octets) (toktype : Toktype) :
    Option Sealed :=
  if qopReq ≠ 0 then some ⟨.failure, .unknownQop, none, none, handle⟩
  else
    match handle with
    | none => some ⟨.noContext, .validateFailed, none, none, handle⟩
    | some ctx =>
      if !ctx.established then some ⟨.noContext, .ctxIncomplete, none, none, handle⟩
      else
        match clock with
        | .error code => some ⟨.failure, .code code, none, none, handle⟩
        | .ok now =>
          match makeSealTokenV1 crypto random ctx.enc ctx.seq ctx.seqSend ctx.initiate text
            ctx.signalg ctx.cksumSize ctx.sealalg (confReqFlag != 0) toktype ctx.bigEndian
            ctx.mechUsed with
          | .error (.code code) => some ⟨.failure, .code code, none, none, handle⟩
          | .error _ => none
          | .ok token =>
            some ⟨if ctx.endtime < now then .contextExpired else .complete, .zero, token,
              confReqFlag, some { ctx with seqSend := ctx.seqSend + 1 }⟩

end Krb5.Gss
