import Krb5.Auth.Context

/-!
# Safe messages (`mk_safe.c`, `rd_safe.c`)

A safe message carries the user's data in the clear, with a checksum over the
message as it is encoded with an empty checksum in its place.
-/

namespace Krb5.Auth

open Lib Asn1 Crypto

structure Output where
  outbuf : Octets
  outdata : Option ReplayData
deriving DecidableEq, Repr

/-- The checks for `KRB5_RC_REQUIRED`: there is room for what is to be returned,
and a replay cache where one is used. -/
def checkRequired (ctx : AuthContext) (outdata : Option ReplayData) : Except Code Unit :=
  runGuards [
    ⟨(ctx.retTime || ctx.retSequence) && outdata.isNone, .rcRequired⟩,
    ⟨ctx.doTime && !ctx.rcache, .rcRequired⟩]

def sendTime (host : Host) (ctx : AuthContext) : Except Code (Timestamp × Int32) :=
  if ctx.doTime || ctx.retTime then host.usTimeofday else .ok (0, 0)

/-- The time in a message, and whether it was seen before. -/
def checkTime (host : Host) (ctx : AuthContext) (uniq : CString) (data : ReplayData) :
    Except Code Unit :=
  if ctx.doTime then do
    let currenttime ← host.timeofday
    if !inClockSkew host currenttime data.timestamp then .error .apErrSkew
    else storeReplay host ctx.remoteAddr uniq data
  else .ok ()

def checkSequence (ctx : AuthContext) (data : ReplayData) : Except Code Unit :=
  if ctx.doSequence && ctx.remoteSeqNumber != data.seq then .error .apErrBadorder else .ok ()

/-- `auth_context->remote_seq_number++`, where numbers are checked. -/
def AuthContext.received (ctx : AuthContext) : AuthContext :=
  if ctx.doSequence then { ctx with remoteSeqNumber := ctx.remoteSeqNumber + 1 } else ctx

/-- The last part of `krb5_rd_safe` and `krb5_rd_priv`, with a message whose
contents are fine. -/
def finishRead (host : Host) (uniq : CString) (outdata : Option ReplayData)
    (data : ReplayData) (userData : Octets) : Action AuthContext Code Output := do
  let ctx ← .get
  .ofExcept (checkTime host ctx uniq data)
  .ofExcept (checkSequence ctx data)
  .modify AuthContext.received
  return ⟨userData, if ctx.retTime || ctx.retSequence then outdata.map fun _ => data else outdata⟩

/-! ## Making safe messages -/

def keyusageKrbSafeCksum : Int32 := 15

/-- An encoder's result. There is no memory for `2^31` octets. -/
def alloc (code : Except EncodeStop Octets) : Except Code Octets :=
  match code with
  | .error stop => .error (.encode stop)
  | .ok octets => if octets.length < 2 ^ 31 then .ok octets else .error .enomem

def zeroCksum : Checksum := ⟨0, []⟩

/-- `valid_cksumtype`, `is_coll_proof_cksum` and `is_keyed_cksum`. -/
def checkCksumtype (sumtype : Int32) : Except Code Unit :=
  if !validCksumtype sumtype then .error .progSumtypeNosupp
  else if !isCollProofCksum sumtype || !isKeyedCksum sumtype then .error .apErrInappCksum
  else .ok ()

/-- `krb5_mk_safe_basic`. Without a sender address the encoder of the body frees
the buffer of the message, which is then freed again. -/
def mkSafeBasic (lib : Primitives) (host : Host) (userdata : Octets) (keyblock : Option Keyblock)
    (data : ReplayData) (localAddr remoteAddr : Option Address) (sumtype : Int32) :
    Except Code Octets := do
  checkCksumtype sumtype
  match localAddr with
  | none => .error .fault
  | some sAddress =>
    let safemsg (checksum : Checksum) : Safe :=
      ⟨userdata, data.timestamp, data.usec, data.seq, sAddress, remoteAddr, checksum⟩
    let scratch1 ← alloc (encodeKrb5Safe (safemsg zeroCksum))
    let contents ← (cMakeChecksum lib host.random sumtype keyblock keyusageKrbSafeCksum
      scratch1).mapError .crypto
    alloc (encodeKrb5Safe (safemsg ⟨sumtype, contents⟩))

/-- The checksum type of a context, if it is one for its key, and else the first
that is. -/
def chooseSumtype (ctx : AuthContext) (keyblock : Keyblock) : Except Code Int32 :=
  let sumtypes := cKeyedChecksumTypes keyblock.enctype
  if ctx.safeCksumtype ∈ sumtypes then .ok ctx.safeCksumtype
  else
    match sumtypes with
    | [] => .error .badEnctype
    | sumtype :: _ => .ok sumtype

/-- `auth_context->local_seq_number++`, where a number is sent or returned. -/
def AuthContext.countSafe (ctx : AuthContext) : AuthContext :=
  if ctx.doSequence || ctx.retSequence then
    { ctx with localSeqNumber := ctx.localSeqNumber + 1 } else ctx

/-- The label `error` of `krb5_mk_safe` and `krb5_mk_priv`. -/
def AuthContext.uncount (ctx : AuthContext) : AuthContext :=
  if ctx.doSequence || ctx.retSequence then
    { ctx with localSeqNumber := ctx.localSeqNumber - 1 } else ctx

def AuthContext.sendData (ctx : AuthContext) (time : Timestamp × Int32) : ReplayData :=
  ⟨time.1, time.2, if ctx.doSequence || ctx.retSequence then ctx.localSeqNumber else 0⟩

/-- The message is made known to the sender's own replay cache. -/
def finishSend (host : Host) (ctx : AuthContext) (uniq : CString) (data : ReplayData) :
    Except Code Unit :=
  if ctx.doTime then storeReplay host ctx.localAddr uniq data else .ok ()

/-- The part of `krb5_mk_safe` behind which the number is taken back. Where the replay cache fails
it frees `outbuf`, which is the caller's. -/
def sendSafe (lib : Primitives) (host : Host) (userdata : Octets) (ctx : AuthContext)
    (data : ReplayData) : Except Code Octets :=
  match ctx.sendKey with
  | none => .error .fault
  | some keyblock => do
      let sumtype ← chooseSumtype ctx keyblock
      let outbuf ← mkSafeBasic lib host userdata keyblock data
        (fulladdr ctx.localAddr ctx.localPort) (fulladdr ctx.remoteAddr ctx.remotePort) sumtype
      (finishSend host ctx uniqSafe data).mapError fun _ => .fault
      return outbuf

def mkSafe (lib : Primitives) (host : Host) (userdata : Octets) (outdata : Option ReplayData) :
    Action AuthContext Code Output := do
  let ctx ← .get
  .ofExcept (checkRequired ctx outdata)
  let time ← .ofExcept (sendTime host ctx)
  let data := ctx.sendData time
  .modify AuthContext.countSafe
  let outbuf ← (Action.ofExcept (sendSafe lib host userdata ctx data)).onError AuthContext.uncount
  return ⟨outbuf, outdata.map fun out =>
    ⟨if ctx.retTime then data.timestamp else out.timestamp,
      if ctx.retTime then data.usec else out.usec,
      if ctx.retSequence then data.seq else out.seq⟩⟩

def isKrbSafe (dat : Octets) : Bool := dat.head? == some 0x74 || dat.head? == some 0x54

/-- `encode_krb5_safe` on a decoded message. The contents of an address that was
decoded from no octets are a null pointer, which the encoder refuses. After any
error the checksum on the stack is freed. -/
def reencode (message : Safe) : Except Code Octets :=
  if message.sAddress.contents = [] ∨ message.rAddress.any (·.contents = []) then .error .fault
  else
    match encodeKrb5Safe { message with checksum := zeroCksum } with
    | .error _ => .error .fault
    | .ok scratch => .ok scratch

/-- The variable `valid` behind the call of `krb5_c_verify_checksum`, whose
return value is not looked at. -/
def validAfter (host : Host) (verdict : Except Crypto.Code Bool) : Except Code Bool :=
  match verdict with
  | .error .fault => .error .fault
  | .error _ => .ok host.unset
  | .ok valid => .ok valid

def rdSafeBasic (lib : Primitives) (host : Host) (inbuf : Octets) (keyblock : Option Keyblock)
    (recvAddr senderAddr : Option Address) : Except Code (ReplayData × Octets) :=
  if !isKrbSafe inbuf then .error .apErrMsgType
  else do
    let message ← (decodeKrb5Safe (inbuf.length + 1) inbuf).mapError .decode
    checkCksumtype message.checksum.checksumType
    checkAddresses host recvAddr senderAddr message.sAddress message.rAddress
    let scratch ← reencode message
    let valid ← validAfter host (cVerifyChecksum lib host.random keyblock keyusageKrbSafeCksum
      scratch message.checksum)
    if !valid then .error .apErrModified
    else return (⟨message.timestamp, message.usec, message.seqNumber⟩, message.userData)

def rdSafe (lib : Primitives) (host : Host) (inbuf : Octets) (outdata : Option ReplayData) :
    Action AuthContext Code Output := do
  let ctx ← .get
  .ofExcept (checkRequired ctx outdata)
  let (data, userData) ← .ofExcept (rdSafeBasic lib host inbuf ctx.recvKey
    (fulladdr ctx.localAddr ctx.localPort) (fulladdr ctx.remoteAddr ctx.remotePort))
  finishRead host uniqSafe outdata data userData

end Krb5.Auth
