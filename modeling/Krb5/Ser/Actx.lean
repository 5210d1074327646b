import Krb5.Auth.Context
import Krb5.Ser.Parts

/-!
# Serialized authentication contexts (`ser_actx.c`)

The optional members of a context stand behind a token each, in a fixed order; only the
authenticator has none. The internalizer reads one token ahead.

The replay cache of a context is not written. Of `krb5_c_block_size` the answer is that of
the table of encryption types, where all block sizes are eight.
-/

namespace Krb5.Ser

open Lib Auth

/-- `_krb5_auth_context` with the fields that only the serializer uses here. -/
structure FullContext extends AuthContext where
  reqCksumtype : Int32
  authentp : Option HeldAuthenticator
deriving DecidableEq, Repr

def kv5mAuthContext : Int32 := -1760647383

def tokenRaddr : Int32 := 950916
def tokenRport : Int32 := 950917
def tokenLaddr : Int32 := 950918
def tokenLport : Int32 := 950919
def tokenKeyblock : Int32 := 950920
def tokenLskblock : Int32 := 950921
def tokenRskblock : Int32 := 950922

def cBlockSize (enctype : Int32) : Except Code Nat :=
  match Crypto.encProvider enctype with
  | some _ => .ok 8
  | none => .error .badEnctype

def taggedSize {α : Type} (size : α → Except Code Nat) : Option α → Except Code Nat
  | none => .ok 0
  | some a => do return (← size a) + 4

def ivectorSize (ctx : FullContext) : Except Code Nat :=
  match ctx.iVector, ctx.keyblock with
  | some _, some keyblock => cBlockSize keyblock.enctype
  | _, _ => .ok 0

def authContextSize (ctx : FullContext) : Except Code Nat := do
  let ivector ← ivectorSize ctx
  let remoteAddr ← taggedSize addressSize ctx.remoteAddr
  let remotePort ← taggedSize addressSize ctx.remotePort
  let localAddr ← taggedSize addressSize ctx.localAddr
  let localPort ← taggedSize addressSize ctx.localPort
  let keyblock ← taggedSize keyblockSize ctx.keyblock
  let localSubkey ← taggedSize keyblockSize ctx.localSubkey
  let remoteSubkey ← taggedSize keyblockSize ctx.remoteSubkey
  let authentp ← memberSize authenticatorSize ctx.authentp
  return ivector + 4 * 8 + remoteAddr + remotePort + localAddr + localPort + keyblock +
    localSubkey + remoteSubkey + authentp

/-- `if (member) { pack(token); externalize(arg); }`. The externalizers refuse a null
pointer. -/
def taggedExternalize {α : Type} (token : Int32) (externalize : α → Externalizer Unit)
    (member arg : Option α) : Externalizer Unit :=
  if member.isSome then do
    silently (serPackInt32 token)
    match arg with
    | some a => externalize a
    | none => throw .einval
  else pure ()

/-- The number of octets of the initial vector and these; the type of a key that is not
there is asked for all the same. -/
def ivectorExternalize (ctx : FullContext) : Externalizer Unit :=
  match ctx.iVector, ctx.keyblock with
  | none, _ => silently (serPackInt32 0)
  | some _, none => throw .fault
  | some ivector, some keyblock => do
      let obuf ← liftM (cBlockSize keyblock.enctype)
      silently (serPackInt32 (.ofNat obuf))
      if ivector.length < obuf then throw .fault
      silently (serPackBytes (ivector.take obuf))

def fixedExternalize (ctx : FullContext) : Externalizer Unit := do
  silently (serPackInt32 kv5mAuthContext)
  silently (serPackInt32 (.ofBitVec ctx.authContextFlags))
  silently (serPackInt32 ctx.remoteSeqNumber)
  silently (serPackInt32 ctx.localSeqNumber)
  silently (serPackInt32 ctx.reqCksumtype)
  silently (serPackInt32 ctx.safeCksumtype)

/-- The optional members. Behind the tokens of the ports stand the addresses. -/
def membersExternalize (ctx : FullContext) : Externalizer Unit := do
  taggedExternalize tokenRaddr addressExternalize ctx.remoteAddr ctx.remoteAddr
  taggedExternalize tokenRport addressExternalize ctx.remotePort ctx.remoteAddr
  taggedExternalize tokenLaddr addressExternalize ctx.localAddr ctx.localAddr
  taggedExternalize tokenLport addressExternalize ctx.localPort ctx.localAddr
  taggedExternalize tokenKeyblock keyblockExternalize ctx.keyblock ctx.keyblock
  taggedExternalize tokenLskblock keyblockExternalize ctx.localSubkey ctx.localSubkey
  taggedExternalize tokenRskblock keyblockExternalize ctx.remoteSubkey ctx.remoteSubkey
  memberExternalize authenticatorExternalize ctx.authentp

def authContextExternalize (ctx : FullContext) : Externalizer Unit :=
  ifRoom (authContextSize ctx) do
    fixedExternalize ctx
    ivectorExternalize ctx
    membersExternalize ctx
    silently (serPackInt32 kv5mAuthContext)

/-! ## Internalize -/

/-- A length that is not there is left undefined. -/
def unpackIvlen : Internalizer Int32 := unpackInt32 .fault

def ivectorInternalize : Internalizer (Option Octets) := do
  let ivlen ← unpackIvlen
  if ivlen = 0 then return none
  else return some (← serUnpackBytes ivlen)

/-- `if (tag == token) { internalize; unpack(&tag); }`. -/
def taggedInternalize {α : Type} (token : Int32) (internalize : Internalizer α) (tag : Int32) :
    Internalizer (Option α × Int32) :=
  if tag = token then do
    let a ← internalize
    let tag ← serUnpackInt32
    return (some a, tag)
  else return (none, tag)

/-- The last of the tagged members; no tag is read behind it, and one of something else is
put back. -/
def lastInternalize {α : Type} (token : Int32) (internalize : Internalizer α) (tag : Int32) :
    Internalizer (Option α) :=
  if tag = token then do return some (← internalize)
  else do
    modify (be32 tag ++ ·)
    return none

/-- The authenticator, whose `EINVAL` is taken for its absence. -/
def authentpInternalize (defaultRealm : Except Name.Code Octets) :
    Internalizer (Option HeldAuthenticator) := do
  let (authentp, kret) ← attempt (authenticatorInternalize defaultRealm)
  match kret with
  | some code => throw code
  | none => return authentp

/-- The authenticator and the trailer, with the context as far as it is filled. -/
def trailerInternalize (defaultRealm : Except Name.Code Octets) (ctx : FullContext) :
    Internalizer FullContext := do
  let authentp ← authentpInternalize defaultRealm
  let ibuf ← serUnpackInt32
  if ibuf ≠ kv5mAuthContext then throw .einval
  return { ctx with authentp }

/-- From the last tagged member on. -/
def endInternalize (defaultRealm : Except Name.Code Octets) (ctx : FullContext) (tag : Int32) :
    Internalizer FullContext := do
  let remoteSubkey ← lastInternalize tokenRskblock keyblockInternalize tag
  trailerInternalize defaultRealm { ctx with remoteSubkey }

def authContextInternalize (defaultRealm : Except Name.Code Octets) :
    Internalizer FullContext := do
  expectMagic kv5mAuthContext
  expectInts 5
  let flags ← serUnpackInt32
  let remoteSeqNumber ← serUnpackInt32
  let localSeqNumber ← serUnpackInt32
  let reqCksumtype ← serUnpackInt32
  let safeCksumtype ← serUnpackInt32
  let iVector ← ivectorInternalize
  let tag ← serUnpackInt32
  let (remoteAddr, tag) ← taggedInternalize tokenRaddr addressInternalize tag
  let (remotePort, tag) ← taggedInternalize tokenRport addressInternalize tag
  let (localAddr, tag) ← taggedInternalize tokenLaddr addressInternalize tag
  let (localPort, tag) ← taggedInternalize tokenLport addressInternalize tag
  let (keyblock, tag) ← taggedInternalize tokenKeyblock keyblockInternalize tag
  let (localSubkey, tag) ← taggedInternalize tokenLskblock keyblockInternalize tag
  endInternalize defaultRealm
    { authContextFlags := flags.toBitVec, remoteAddr, remotePort, localAddr, localPort,
      keyblock, localSubkey, remoteSubkey := none, remoteSeqNumber, localSeqNumber,
      safeCksumtype, iVector, rcache := false, reqCksumtype, authentp := none } tag

end Krb5.Ser
