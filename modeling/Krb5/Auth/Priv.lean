import Krb5.Auth.Safe

/-!
# Private messages (`mk_priv.c`, `rd_priv.c`)

A private message is an encrypted part with the user's data in it. A context may
have an initial vector for the encryption, which the encryption and the decryption
of a message replace.
-/

namespace Krb5.Auth

open Lib Asn1 Crypto

/-- The `encrypt` and `decrypt` functions of `krb5_enctypes_list`: a key, a usage, an
initial vector and the input. They give the output and what the initial vector is
afterwards. An output of `decrypt` fits where the ciphertext was. -/
structure Cipher where
  encrypt : Keyblock → Int32 → Option Octets → (random : Except Crypto.Code Octets) →
    Octets → Except Crypto.Code Octets × Octets
  decrypt : Keyblock → Int32 → Option Octets → Octets → Except Crypto.Code Octets × Octets
  length_decrypt {key : Keyblock} {usage : Int32} {ivec : Option Octets} {cipher plain : Octets} :
    (decrypt key usage ivec cipher).1 = .ok plain → plain.length ≤ cipher.length

def keyusageKrbPrivEncpart : Int32 := 13

def enctypeUnknown : Int32 := 0x01ff

def withVector (f : Option Octets → Except Crypto.Code Octets × Octets) :
    Action AuthContext Code Octets where
  run ctx :=
    let (result, ivec) := f ctx.iVector
    (result.mapError .crypto, { ctx with iVector := ctx.iVector.map fun _ => ivec })

/-- `krb5_c_encrypt`, after `krb5_c_encrypt_length`. -/
def cEncrypt (cipher : Cipher) (random : Except Crypto.Code Octets) (key : Keyblock)
    (input : Octets) : Action AuthContext Code EncData :=
  if (encProvider key.enctype).isNone then .fail (.crypto .badEnctype)
  else do
    let ciphertext ← withVector fun ivec =>
      cipher.encrypt key keyusageKrbPrivEncpart ivec random input
    return ⟨key.enctype, 0, some ciphertext⟩

/-- `krb5_c_decrypt`, after `krb5_c_block_size`. -/
def cDecrypt (cipher : Cipher) (key : Keyblock) (input : EncData) :
    Action AuthContext Code Octets :=
  if (encProvider key.enctype).isNone then .fail (.crypto .badEnctype)
  else if input.enctype ≠ enctypeUnknown ∧ key.enctype ≠ input.enctype then
    .fail (.crypto .badEnctype)
  else
    withVector fun ivec =>
      cipher.decrypt key keyusageKrbPrivEncpart ivec (input.ciphertext.getD [])

def mkPrivBasic (cipher : Cipher) (host : Host) (userdata : Octets) (keyblock : Option Keyblock)
    (data : ReplayData) (localAddr remoteAddr : Option Address) :
    Action AuthContext Code Octets :=
  match keyblock, localAddr with
  | none, _ => .fail .fault
  | some _, none => .fail (.encode (.error .missingField))
  | some key, some sAddress => do
      let scratch1 ← .ofExcept (alloc (encodeKrb5EncPrivPart
        ⟨userdata, data.timestamp, data.usec, data.seq, sAddress, remoteAddr⟩))
      let encPart ← cEncrypt cipher host.random key scratch1
      .ofExcept (alloc (encodeKrb5Priv ⟨encPart⟩))

/-- `auth_context->local_seq_number++`. In contrast to `krb5_mk_safe`, a number that
is only returned is not counted. -/
def AuthContext.countPriv (ctx : AuthContext) : AuthContext :=
  if ctx.doSequence then { ctx with localSeqNumber := ctx.localSeqNumber + 1 } else ctx

/-- The part of `krb5_mk_priv` behind which the number is taken back. -/
def sendPriv (cipher : Cipher) (host : Host) (userdata : Octets) (ctx : AuthContext)
    (data : ReplayData) : Action AuthContext Code Octets := do
  let outbuf ← mkPrivBasic cipher host userdata ctx.sendKey data
    (fulladdr ctx.localAddr ctx.localPort) (fulladdr ctx.remoteAddr ctx.remotePort)
  .ofExcept (finishSend host ctx uniqPriv data)
  return outbuf

/-- `krb5_mk_priv`. The number is returned only where it is not counted. -/
def mkPriv (cipher : Cipher) (host : Host) (userdata : Octets) (outdata : Option ReplayData) :
    Action AuthContext Code Output := do
  let ctx ← .get
  .ofExcept (checkRequired ctx outdata)
  let time ← .ofExcept (sendTime host ctx)
  let data := ctx.sendData time
  .modify AuthContext.countPriv
  let outbuf ← (sendPriv cipher host userdata ctx data).onError AuthContext.uncount
  return ⟨outbuf, outdata.map fun out =>
    ⟨if ctx.retTime then data.timestamp else out.timestamp,
      if ctx.retTime then data.usec else out.usec,
      if ctx.retSequence && !ctx.doSequence then data.seq else out.seq⟩⟩

def isKrbPriv (dat : Octets) : Bool := dat.head? == some 0x75 || dat.head? == some 0x55

def rdPrivBasic (cipher : Cipher) (host : Host) (inbuf : Octets) (keyblock : Option Keyblock)
    (localAddr remoteAddr : Option Address) : Action AuthContext Code (ReplayData × Octets) :=
  if !isKrbPriv inbuf then .fail .apErrMsgType
  else do
    let privmsg ← .ofExcept ((decodeKrb5Priv (inbuf.length + 1) inbuf).mapError .decode)
    let key ← .ofExcept ((deref keyblock).mapError .crypto)
    let scratch ← cDecrypt cipher key privmsg.encPart
    let part ← .ofExcept ((decodeKrb5EncPrivPart (scratch.length + 1) scratch).mapError .decode)
    .ofExcept (checkAddresses host localAddr remoteAddr part.sAddress part.rAddress)
    return (⟨part.timestamp, part.usec, part.seqNumber⟩, part.userData)

def rdPriv (cipher : Cipher) (host : Host) (inbuf : Octets) (outdata : Option ReplayData) :
    Action AuthContext Code Output := do
  let ctx ← .get
  .ofExcept (checkRequired ctx outdata)
  let (data, userData) ← rdPrivBasic cipher host inbuf ctx.recvKey
    (fulladdr ctx.localAddr ctx.localPort) (fulladdr ctx.remoteAddr ctx.remotePort)
  finishRead host uniqPriv outdata data userData

end Krb5.Auth
