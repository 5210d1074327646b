import Krb5.Gss.Unseal
import Krb5.Ser.Actx

/-!
# Exported security contexts (`ser_sctx.c`, `g_queue_*` of `util_ordering.c`)

A GSS context is written as a fixed part, its mechanism, names, keys and queue, the authentication
context and a list of checksum types, between two magic numbers. The queue is copied as it stands
in memory, 25 words of the host; what it is copied from has to be a queue, and anything else is the
error `fault`.

The serializer of the authentication context is a parameter.
-/

namespace Krb5.Ser

open Lib
open Krb5.Gss (Queue queueLength)

/-- The entries of the table of serializers for authentication contexts. -/
structure ActxSerializer (α : Type) where
  size : α → Except Code Nat
  externalize : α → Externalizer Unit
  internalize : Internalizer α

def actxSerializer (defaultRealm : Except Name.Code Octets) : ActxSerializer FullContext where
  size := authContextSize
  externalize := authContextExternalize
  internalize := authContextInternalize defaultRealm

/-- `krb5_gss_ctx_id_rec`; `nctypes` is the length of `ctypes`. -/
structure GssCtxIdRec (α : Type) where
  initiate : Int32
  gssFlags : UInt32
  seedInit : Int32
  seed : Vector UInt8 16
  here : Option Principal
  there : Option Principal
  subkey : Option Keyblock
  signalg : Int32
  cksumSize : Int32
  sealalg : Int32
  enc : Option Keyblock
  seq : Option Keyblock
  endtime : Timestamp
  krbFlags : Flags
  seqSend : UInt32
  seqRecv : UInt32
  seqstate : Option Queue
  established : Int32
  bigEndian : Int32
  authContext : α
  mechUsed : Option Octets
  ctypes : List Int32

def kv5mGssOid : Int32 := -1760647372
def kv5mGssQueue : Int32 := -1760647371
def kgContext : Int32 := 39756040

def kgOidSize : Option Octets → Except Code Nat
  | none => .error .einval
  | some oid => .ok (2 * 4 + 4 + oid.length)

def kgOidExternalize (oid : Octets) : Externalizer Unit := do
  silently (serPackInt32 kv5mGssOid)
  silently (serPackInt32 (.ofNat oid.length))
  silently (serPackBytes oid)
  silently (serPackInt32 kv5mGssOid)

/-- A word; where none is left the variable keeps what it holds. -/
def unpackOr (ibuf : Int32) : Internalizer Int32 := fun s =>
  .ok ((head32 s).getD ibuf, if (head32 s).isSome then s.drop 4 else s)

/-- Octets; where too few are left the memory is not set. -/
def unpackIntoMemory (length : Int32) : Internalizer (Option Octets) := fun s =>
  if length.toUInt32.toNat ≤ s.length then
    .ok (some (s.take length.toUInt32.toNat), s.drop length.toUInt32.toNat)
  else .ok (none, s)

def kgOidInternalize : Internalizer Octets := do
  expectMagic kv5mGssOid
  let length ← unpackOr kv5mGssOid
  let elements ← unpackIntoMemory length
  expectMagic kv5mGssOid
  match elements with
  | some elements => return elements
  | none => throw .fault

/-- The words of a `queue` in memory. -/
def queueWords (q : Queue) : List UInt32 :=
  (if q.doReplay then 1 else 0) :: (if q.doSequence then 1 else 0) ::
    .ofNat q.ring.start :: .ofNat q.ring.length :: q.firstnum :: List.ofFn q.ring.elem

/-- The queue that words in memory are. -/
def queueOfWords : List UInt32 → Option Queue
  | doReplay :: doSequence :: start :: length :: firstnum :: elem =>
    if h : start.toNat < queueLength ∧ 0 < length.toNat ∧ length.toNat ≤ queueLength ∧
        elem.length = queueLength then
      some
        { doReplay := doReplay != 0
          doSequence := doSequence != 0
          firstnum
          ring :=
            { elem := fun i => elem.get (i.cast h.2.2.2.symm)
              start := ⟨start.toNat, h.1⟩
              length := length.toNat
              length_pos := h.2.1
              length_le := h.2.2.1 } }
    else none
  | _ => none

/-- A word in memory, on a host with either order of octets. -/
def hostOctets (big : Bool) (word : UInt32) : Octets :=
  if big then be32 word.toInt32 else (be32 word.toInt32).reverse

def hostWords (big : Bool) : Octets → List UInt32
  | a :: b :: c :: d :: rest =>
    (if big then ofBe32 a b c d else ofBe32 d c b a).toUInt32 :: hostWords big rest
  | _ => []

def sizeofQueue : Nat := 100

def kgQueueSize (_ : Queue) : Except Code Nat := .ok (2 * 4 + sizeofQueue)

def gQueueExternalize (big : Bool) (q : Queue) : Externalizer Unit := fun s =>
  if sizeofQueue ≤ s.remain then .ok ((), s.push ((queueWords q).flatMap (hostOctets big)))
  else .error .fault

def kgQueueExternalize (big : Bool) (q : Queue) : Externalizer Unit := do
  silently (serPackInt32 kv5mGssQueue)
  gQueueExternalize big q
  silently (serPackInt32 kv5mGssQueue)

def gQueueInternalize (big : Bool) : Internalizer Queue := fun s =>
  if sizeofQueue ≤ s.length then
    match queueOfWords (hostWords big (s.take sizeofQueue)) with
    | some q => .ok (q, s.drop sizeofQueue)
    | none => .error .fault
  else .error .fault

/-- `kg_queue_internalize` with its `EINVAL` taken for success. A queue that is followed by
something else has been stored, but its octets are not taken. -/
def kgQueueInternalize (big : Bool) : Internalizer (Option Queue) := fun s =>
  match expectMagic kv5mGssQueue s with
  | .error _ => .ok (none, s)
  | .ok (_, s₁) => do
      let (q, s₂) ← gQueueInternalize big s₁
      match expectMagic kv5mGssQueue s₂ with
      | .error _ => .ok (some q, s)
      | .ok (_, s₃) => .ok (some q, s₃)

/-! ## Contexts -/

section Ctx

variable {α : Type} (actx : ActxSerializer α) (big : Bool)

def kgCtxSize (ctx : GssCtxIdRec α) : Except Code Nat := do
  let here ← memberSize principalSize ctx.here
  let there ← memberSize principalSize ctx.there
  let subkey ← memberSize keyblockSize ctx.subkey
  let enc ← memberSize keyblockSize ctx.enc
  let seq ← memberSize keyblockSize ctx.seq
  let mechUsed ← kgOidSize ctx.mechUsed
  let seqstate ← memberSize kgQueueSize ctx.seqstate
  let authContext ← actx.size ctx.authContext
  return 16 * 4 + 16 + 4 * ctx.ctypes.length + here + there + subkey + enc + seq + mechUsed +
    seqstate + authContext

def staticExternalize (ctx : GssCtxIdRec α) : Externalizer Unit := do
  silently (serPackInt32 kgContext)
  silently (serPackInt32 ctx.initiate)
  silently (serPackInt32 ctx.gssFlags.toInt32)
  silently (serPackInt32 ctx.seedInit)
  silently (serPackBytes ctx.seed.toList)
  silently (serPackInt32 ctx.signalg)
  silently (serPackInt32 ctx.cksumSize)
  silently (serPackInt32 ctx.sealalg)
  silently (serPackInt32 ctx.endtime)
  silently (serPackInt32 (.ofBitVec ctx.krbFlags))
  silently (serPackInt32 ctx.seqSend.toInt32)
  silently (serPackInt32 ctx.seqRecv.toInt32)
  silently (serPackInt32 ctx.established)
  silently (serPackInt32 ctx.bigEndian)
  silently (serPackInt32 (.ofNat ctx.ctypes.length))

def ctypesExternalize : List Int32 → Externalizer Unit
  | [] => pure ()
  | ctype :: rest => do
      serPackInt32 ctype
      ctypesExternalize rest

def kgCtxExternalize (ctx : GssCtxIdRec α) : Externalizer Unit :=
  ifRoom (kgCtxSize actx ctx) do
    staticExternalize ctx
    memberExternalize kgOidExternalize ctx.mechUsed
    memberExternalize principalExternalize ctx.here
    memberExternalize principalExternalize ctx.there
    memberExternalize keyblockExternalize ctx.subkey
    memberExternalize keyblockExternalize ctx.enc
    memberExternalize keyblockExternalize ctx.seq
    memberExternalize (kgQueueExternalize big) ctx.seqstate
    actx.externalize ctx.authContext
    ctypesExternalize ctx.ctypes
    silently (serPackInt32 kgContext)

def unpackSeed : Internalizer (Vector UInt8 16) := do
  let seed ← unpackBytes .enomem 16
  if h : seed.length = 16 then return ⟨seed.toArray, h⟩ else throw .fault

/-- `if (remain >= 10*sizeof(krb5_int32)+sizeof(ctx->seed))`, with `ENOMEM` otherwise. -/
def expectStatic : Internalizer Unit := fun s =>
  if 10 * 4 + 16 ≤ s.length then .ok ((), s) else .error .enomem

def ctypesInternalize : Nat → Internalizer (List Int32)
  | 0 => pure []
  | n + 1 => do
      let ctype ← serUnpackInt32
      return ctype :: (← ctypesInternalize n)

/-- The authentication context, the checksum types and the trailer. -/
def restInternalize (nctypes : Int32) : Internalizer (α × List Int32) := do
  let authContext ← actx.internalize
  let ctypes ← ctypesInternalize nctypes.toInt.toNat
  let ibuf ← serUnpackInt32
  if ibuf ≠ kgContext then throw .einval
  return (authContext, ctypes)

/-- What `kg_oid_internalize` returns is forgotten. -/
def mechInternalize : Internalizer (Option Octets) := do
  let (mechUsed, _) ← attempt kgOidInternalize
  return mechUsed

/-- The words behind `seqRecv` need not be there. -/
def kgCtxInternalize (defaultRealm : Except Name.Code Octets) :
    Internalizer (GssCtxIdRec α) := do
  expectMagic kgContext
  expectStatic
  let initiate ← serUnpackInt32
  let gssFlags ← serUnpackInt32
  let seedInit ← serUnpackInt32
  let seed ← unpackSeed
  let signalg ← serUnpackInt32
  let cksumSize ← serUnpackInt32
  let sealalg ← serUnpackInt32
  let endtime ← serUnpackInt32
  let krbFlags ← serUnpackInt32
  let seqSend ← serUnpackInt32
  let seqRecv ← serUnpackInt32
  let established ← unpackOr krbFlags
  let bigEndian ← unpackOr established
  let nctypes ← unpackOr bigEndian
  let mechUsed ← mechInternalize
  let (here, kret) ← attempt (principalInternalize defaultRealm)
  let (there, kret) ← attemptUnless kret (principalInternalize defaultRealm)
  let (subkey, kret) ← attemptUnless kret keyblockInternalize
  let (enc, kret) ← attemptUnless kret keyblockInternalize
  let (seq, kret) ← attemptUnless kret keyblockInternalize
  match kret with
  | some code => throw code
  | none =>
    let seqstate ← kgQueueInternalize big
    let (authContext, ctypes) ← restInternalize actx nctypes
    return { initiate, gssFlags := gssFlags.toUInt32, seedInit, seed, here, there, subkey,
             signalg, cksumSize, sealalg, enc, seq, endtime, krbFlags := krbFlags.toBitVec,
             seqSend := seqSend.toUInt32, seqRecv := seqRecv.toUInt32, seqstate, established,
             bigEndian, authContext, mechUsed, ctypes }

end Ctx

end Krb5.Ser
