import Krb5.Gss.Seal

/-!
# Unsealing (`k5unseal.c`)

The local variable `token.value` is set only where the message has octets. On
every way out that gives the message up it is freed, so for an empty message the
call frees a pointer that was never set.
-/

namespace Krb5.Gss

open Lib

/-- What `message_buffer` holds afterwards. -/
inductive MessageBuffer
  | untouched
  | null
  | holds (message : Octets)
  | freed
deriving DecidableEq, Repr

/-- What `kg_unseal` returns and stores. `qop_state` is set to its default where
`conf_state` is set. -/
structure Unsealed where
  major : Major
  minor : Minor
  message : MessageBuffer
  confState : Option Int32
  ctx : Option Ctx

/-- Why the checks of a token end early: a status, or an access to memory that
is not there. -/
inductive Refusal
  | fault
  | status (major : Major) (minor : Minor)
deriving DecidableEq, Repr

/-- `xfree(token.value)` on the way out, if the token is one that seals. -/
def releasing (toktype : Toktype) (text : Octets) (refusal : Refusal) : Refusal :=
  if toktype = .sealMsg ∧ text = [] then .fault else refusal

def checkAlgorithms (ctx : Ctx) (toktype : Toktype) (signalg sealalg : Nat) (filler : Octets) :
    Except Refusal Nat :=
  if filler ≠ [0xff, 0xff] then .error (.status .defectiveToken .zero)
  else if toktype ≠ .sealMsg ∧ sealalg ≠ 0xffff then .error (.status .defectiveToken .zero)
  else if toktype = .sealMsg ∧ ¬(sealalg = 0xffff ∨ sealalg = ctx.sealalg) then
    .error (.status .defectiveToken .zero)
  else if ctx.sealalg = sealAlgNone ∧ signalg > 1 ∨ ctx.sealalg = sealAlg1 ∧ signalg ≠ sgnAlg3 ∨
      ctx.sealalg = sealAlgDes3Kd ∧ signalg ≠ sgnAlgHmacSha1Des3Kd then
    .error (.status .defectiveToken .zero)
  else if signalg = sgnAlgDesMacMd5 ∨ signalg = sgnAlgMd25 then .ok 8
  else if signalg = sgnAlg3 then .ok 16
  else if signalg = sgnAlgHmacSha1Des3Kd then .ok 20
  else .error (.status .defectiveToken .zero)

/-- The octets of the padding and of the confounder taken off. `last` is
`plain[tmsglen-1]` and `plain` what `tmsglen` counts. -/
def stripped (enc : Keyblock) (tmsglen : Int) (plain : Octets) (last : UInt8) :
    Except Refusal Octets :=
  match cBlockSize enc.enctype with
  -- `kg_confounder_size` is -1, and the octets are taken from in front of `plain`.
  | .error _ => .error .fault
  | .ok conflen =>
    let length := tmsglen - conflen - last.toNat
    if length < 0 then .error (.status .failure (.code .enomem))
    else .ok ((plain.drop conflen).take length.toNat)

/-- The message of a sealed token, `token`, and the octets it was taken from,
`plain`. No memory is found for a negative length. -/
def unsealMessage (crypto : Crypto) (ctx : Ctx) (sealalg cksumLen : Nat) (body : Octets) :
    Except Refusal (Octets × Octets) :=
  let tmsglen : Int := body.length - (14 + cksumLen)
  let message := body.drop (14 + cksumLen)
  if sealalg ≠ 0xffff then
    if tmsglen < 0 then .error (.status .failure (.code .enomem))
    else do
      let plain ← (kgDecrypt crypto ctx.enc usageSeal none message).mapError
        fun code => .status .failure (.code code)
      match plain.getLast? with
      | none => throw .fault
      | some last => return (← stripped ctx.enc tmsglen plain last, plain)
  else if ctx.bigEndian then
    if tmsglen < 0 then .error (.status .failure (.code .enomem)) else .ok (message, message)
  else do
    -- The octet in front of the end of the token, also where the message is empty.
    match body.getLast? with
    | none => throw .fault
    | some last => return (← stripped ctx.enc tmsglen message last, message)

/-- The checksum that a token should have, for the algorithms that get this far. -/
def expectedCksum (crypto : Crypto) (ctx : Ctx) (signalg : Nat) (signed : Octets) :
    Except Code Octets :=
  if signalg = sgnAlgHmacSha1Des3Kd then crypto.makeChecksum .hmacSha1Des3 ctx.seq usageSign signed
  else do
    let sum ← crypto.makeChecksum .rsaMd5 ctx.seq usageSign signed
    let sum ← encryptCksum crypto ctx.seq ctx.mechUsed sum
    return if signalg = sgnAlgDesMacMd5 then sum.drop 8 else sum

/-- `token` and `plain` for each kind of token. -/
def tokenText (crypto : Crypto) (ctx : Ctx) (toktype : Toktype) (sealalg cksumLen : Nat)
    (body message : Octets) : Except Refusal (Octets × Octets) :=
  match toktype with
  | .sealMsg => unsealMessage crypto ctx sealalg cksumLen body
  | .signMsg => .ok (message, message)
  | .delCtx => .ok ([], [])

/-- The checks of a body with these numbers in its first six octets: the message. -/
def checkBody (crypto : Crypto) (ctx : Ctx) (toktype : Toktype) (signalg sealalg : Nat)
    (filler body message : Octets) : Except Refusal Octets := do
  let cksumLen ← checkAlgorithms ctx toktype signalg sealalg filler
  let (text, plain) ← tokenText crypto ctx toktype sealalg cksumLen body message
  -- `SGN_ALG_MD2_5` frees the contents of a checksum that was never made.
  if signalg = sgnAlgMd25 then throw .fault
  else
    let signed := tokTypeOctets toktype.number ++ body.take 6 ++
      (if ctx.bigEndian then text else plain)
    let cksum ← (expectedCksum crypto ctx signalg signed).mapError
      fun code => releasing toktype text (.status .failure (.code code))
    if body.length < 14 + cksumLen then throw .fault
    else if cksum ≠ (body.drop 14).take cksumLen then
      throw (releasing toktype text (.status .badSig .zero))
    else return text

/-- The part of `kg_unseal_v1` up to the verdict on the checksum: the message and
the sealing algorithm. -/
def checkSignature (crypto : Crypto) (ctx : Ctx) (toktype : Toktype) (body message : Octets) :
    Except Refusal (Octets × Nat) :=
  match body with
  | a :: b :: c :: d :: e :: f :: _ => do
      let signalg := a.toNat + b.toNat * 2 ^ 8
      let sealalg := c.toNat + d.toNat * 2 ^ 8
      return (← checkBody crypto ctx toktype signalg sealalg [e, f] body message, sealalg)
  -- `ptr[5]` is looked at only behind a `ptr[4]` that is right.
  | [_, _, _, _, e] => .error (if e ≠ 0xff then .status .defectiveToken .zero else .fault)
  | _ => .error .fault

def OrderStatus.major : OrderStatus → Major
  | .complete => .complete
  | .gapToken => .gapToken
  | .unseqToken => .unseqToken
  | .oldToken => .oldToken
  | .duplicateToken => .duplicateToken
  | .failure => .failure

def Toktype.buffer (toktype : Toktype) (buffer : MessageBuffer) : MessageBuffer :=
  if toktype = .sealMsg then buffer else .untouched

/-- `kg_unseal_v1`; `none` is an access to memory that is not there. -/
def kgUnsealV1 (crypto : Crypto) (clock : Except Code Timestamp) (ctx : Ctx) (body message : Octets)
    (toktype : Toktype) : Option Unsealed :=
  match checkSignature crypto ctx toktype body message with
  | .error .fault => none
  | .error (.status major minor) => some ⟨major, minor, toktype.buffer .null, none, ctx⟩
  | .ok (text, sealalg) =>
    let confState : Int32 := if sealalg ≠ 0xffff then 1 else 0
    let returns (major : Major) (minor : Minor) (ctx : Ctx) : Option Unsealed :=
      some ⟨major, minor, toktype.buffer (.holds text), confState, ctx⟩
    let release (minor : Minor) : Option Unsealed :=
      if releasing toktype text (.status .badSig minor) = .fault then none
      else some ⟨.badSig, minor, toktype.buffer .freed, confState, ctx⟩
    match clock with
    | .error code => returns .failure (.code code) ctx
    | .ok now =>
      if now > ctx.endtime then returns .contextExpired .zero ctx
      else
        match kgGetSeqNum crypto ctx.seq (body.drop 14) ((body.drop 6).take 8) with
        | .error code => release (.code code)
        | .ok (direction, seqnum) =>
          if ctx.initiate && direction != 0xff || !ctx.initiate && direction != 0 then
            release .badDirection
          else
            let r := gOrderCheck ctx.seqstate seqnum
            returns r.status.major .zero { ctx with seqstate := r.queue }

def kgUnseal (crypto : Crypto) (clock : Except Code Timestamp) (handle : Option Ctx)
    (token message : Octets) (toktype : Toktype) : Option Unsealed :=
  match handle with
  | none => some ⟨.noContext, .validateFailed, .untouched, none, handle⟩
  | some ctx =>
    if !ctx.established then some ⟨.noContext, .ctxIncomplete, .untouched, none, handle⟩
    else
      match gVerifyTokenHeader ctx.mechUsed toktype.number token with
      | .error error => some ⟨.defectiveToken, .header error, .untouched, none, handle⟩
      | .ok body => kgUnsealV1 crypto clock ctx body message toktype

end Krb5.Gss
