import Krb5.Asn1.Encode
import Krb5.Messages

/-!
# Encoders of structures (`asn1_k_encode.c`)

The fields of a structure are encoded from the last to the first, and stand here in that order. A
field whose encoder fails frees the buffer before the error is handed up; inside a structure that
is itself a field the buffer is then freed a second time. A pointer beside a length is taken to be
set even when the length is zero.
-/

namespace Krb5.Asn1

open Lib

/-- `asn1buf_destroy`, on the way out with an error. -/
def EncodeStop.destroy : EncodeStop → EncodeStop
  | .error e => .destroyed e
  | .destroyed _ | .fault => .fault

def destroying {α : Type} (encoder : Encoder α) : Encoder α :=
  fun buf => (encoder buf).mapError EncodeStop.destroy

/-- `asn1_addfield` and `asn1_addlenfield`, and their twins of `krb5_encode.c`. -/
def addfield (tag : Nat) (encoder : Encoder Nat) : Encoder Nat := do
  let length ← destroying encoder
  return length + (← destroying (asn1MakeEtag .contextSpecific tag length))

def addWhen (present : Bool) (field : Encoder Nat) : Encoder Nat :=
  if present then field else return 0

def addOpt {α : Type} (val : Option α) (field : α → Encoder Nat) : Encoder Nat :=
  match val with
  | some val => field val
  | none => return 0

/-- `val != NULL && val[0] != NULL`: an array without elements counts as none. -/
def nonempty {α : Type} (val : Option (List α)) : Option (List α) := val.filter (!·.isEmpty)

def inTurn : List (Encoder Nat) → Encoder Nat
  | [] => return 0
  | encoder :: encoders => do
      let length ← encoder
      return length + (← inTurn encoders)

def makeseq (fields : List (Encoder Nat)) : Encoder Nat := do
  let sum ← inTurn fields
  return sum + (← destroying (asn1MakeSequence sum))

/-- The loop over an array, from its end, and `asn1_makeseq`. -/
def makeseqOf {α : Type} (encoder : α → Encoder Nat) (vals : List α) : Encoder Nat :=
  makeseq (vals.reverse.map encoder)

def apptag (num : Nat) (encoder : Encoder Nat) : Encoder Nat := do
  let sum ← encoder
  return sum + (← destroying (asn1MakeEtag .application num sum))

/-! ## Parts of messages -/

abbrev asn1EncodeUi4 (val : UInt32) : Encoder Nat := asn1EncodeUnsignedInteger val
abbrev asn1EncodeKerberosTime (val : Timestamp) : Encoder Nat := asn1EncodeGeneraltime val
abbrev asn1EncodeApOptions (val : Flags) : Encoder Nat := asn1EncodeKrb5Flags val
abbrev asn1EncodeTicketFlags (val : Flags) : Encoder Nat := asn1EncodeKrb5Flags val
abbrev asn1EncodeKdcOptions (val : Flags) : Encoder Nat := asn1EncodeKrb5Flags val
abbrev asn1EncodeSamFlags (val : Flags) : Encoder Nat := asn1EncodeKrb5Flags val

/-- An octet where the prototype of the encoder has a `long`. -/
def octetInteger (val : UInt8) : Int32 := Int32.ofNat val.toNat

def kvnoField (tag : Nat) : Encoder Nat := addfield tag (asn1EncodeInteger 5)

abbrev asn1EncodeRealm (val : Principal) : Encoder Nat := asn1EncodeGeneralstring val.realm

def asn1EncodePrincipalName (val : Principal) : Encoder Nat := makeseq [
  do
    let sum ← makeseqOf asn1EncodeGeneralstring val.data
    return sum + (← asn1MakeEtag .contextSpecific 1 sum),
  addfield 0 (asn1EncodeInteger val.type)]

/-- A type and a string of octets: `asn1_encode_host_address`,
`asn1_encode_encryption_key` and others are alike but for the members they take. -/
def typedString (tag : Nat) (type : Int32) (contents : Octets) : Encoder Nat := makeseq [
  addfield (tag + 1) (asn1EncodeOctetstring contents),
  addfield tag (asn1EncodeInteger type)]

def asn1EncodeHostAddress (val : Address) : Encoder Nat :=
  typedString 0 val.addrtype val.contents

def someOf {α : Type} (encoder : α → Encoder Nat) (val : List α) : Encoder Nat :=
  if val = [] then refuse .missingField else makeseqOf encoder val

abbrev asn1EncodeHostAddresses (val : List Address) : Encoder Nat := someOf asn1EncodeHostAddress val

def asn1EncodeEncryptedData (val : EncData) : Encoder Nat := makeseq [
  addfield 2 (asn1EncodeOctetstring (val.ciphertext.getD [])),
  addWhen (val.kvno ≠ 0) (addfield 1 (asn1EncodeInteger val.kvno)),
  addfield 0 (asn1EncodeInteger val.enctype)]

def asn1EncodeKrb5AuthdataElt (val : Authdata) : Encoder Nat :=
  typedString 0 val.adType val.contents

abbrev asn1EncodeAuthorizationData (val : List Authdata) : Encoder Nat :=
  someOf asn1EncodeKrb5AuthdataElt val

def asn1EncodeEncryptionKey (val : Keyblock) : Encoder Nat :=
  typedString 0 val.enctype val.contents

def asn1EncodeChecksum (val : Checksum) : Encoder Nat :=
  typedString 0 val.checksumType val.contents

def asn1EncodeTransitedEncoding (val : Transited) : Encoder Nat :=
  typedString 0 (octetInteger val.trType) val.trContents

def asn1EncodePaData (val : PaData) : Encoder Nat := typedString 1 val.paType val.contents

/-- `asn1_encode_sequence_of_pa_data`: the array may be empty. -/
abbrev asn1EncodeSequenceOfPaData (val : List PaData) : Encoder Nat := makeseqOf asn1EncodePaData val

def asn1EncodeLastReqEntry (val : LastReqEntry) : Encoder Nat := makeseq [
  addfield 1 (asn1EncodeKerberosTime val.value),
  addfield 0 (asn1EncodeInteger (octetInteger val.lrType))]

abbrev asn1EncodeLastReq (val : List LastReqEntry) : Encoder Nat := someOf asn1EncodeLastReqEntry val

def asn1EncodeTicket (val : SealedTicket) : Encoder Nat := apptag 1 (makeseq [
  addfield 3 (asn1EncodeEncryptedData val.encPart),
  addfield 2 (asn1EncodePrincipalName val.server),
  addfield 1 (asn1EncodeRealm val.server),
  kvnoField 0])

abbrev asn1EncodeSequenceOfTicket (val : List SealedTicket) : Encoder Nat := someOf asn1EncodeTicket val

/-- `asn1_encode_sequence_of_enctype`: the array may be empty. -/
abbrev asn1EncodeSequenceOfEnctype (val : List Int32) : Encoder Nat := makeseqOf asn1EncodeInteger val

/-! ## Requests and replies of the KDC -/

def asn1EncodeKdcRep (msgType : Int32) (val : KdcRep) : Encoder Nat := makeseq [
  addfield 6 (asn1EncodeEncryptedData val.encPart),
  addfield 5 (asn1EncodeTicket val.ticket),
  addfield 4 (asn1EncodePrincipalName val.client),
  addfield 3 (asn1EncodeRealm val.client),
  addOpt (nonempty val.padata) (fun padata => addfield 2 (asn1EncodeSequenceOfPaData padata)),
  if msgType ≠ 11 ∧ msgType ≠ 13 then refuse .badMsgtype
  else addfield 1 (asn1EncodeInteger msgType),
  kvnoField 0]

def asn1EncodeEncKdcRepPart (val : EncKdcRepPart) : Encoder Nat := makeseq [
  addOpt (nonempty val.caddrs) (fun caddrs => addfield 11 (asn1EncodeHostAddresses caddrs)),
  addfield 10 (asn1EncodePrincipalName val.server),
  addfield 9 (asn1EncodeRealm val.server),
  addWhen (isflagset val.flags tktFlgRenewable)
    (addfield 8 (asn1EncodeKerberosTime val.times.renewTill)),
  addfield 7 (asn1EncodeKerberosTime val.times.endtime),
  addWhen (val.times.starttime ≠ 0) (addfield 6 (asn1EncodeKerberosTime val.times.starttime)),
  addfield 5 (asn1EncodeKerberosTime val.times.authtime),
  addfield 4 (asn1EncodeTicketFlags val.flags),
  addWhen (val.keyExp ≠ 0) (addfield 3 (asn1EncodeKerberosTime val.keyExp)),
  addfield 2 (asn1EncodeInteger val.nonce),
  addfield 1 (asn1EncodeLastReq val.lastReq),
  addfield 0 (asn1EncodeEncryptionKey val.session)]

/-- The realm of `asn1_encode_kdc_req_body`: with `ENC_TKT_IN_SKEY` it is that of
the first additional ticket. -/
def encodeReqRealm (rep : KdcReq) : Encoder Nat :=
  if isflagset rep.kdcOptions kdcOptEncTktInSkey then
    match nonempty rep.secondTicket with
    | some (ticket :: _) => addfield 2 (asn1EncodeRealm ticket.server)
    | _ => refuse .missingField
  else
    match rep.server with
    | some server => addfield 2 (asn1EncodeRealm server)
    | none => refuse .missingField

def asn1EncodeKdcReqBody (rep : KdcReq) : Encoder Nat := makeseq [
  addOpt (nonempty rep.secondTicket)
    (fun tickets => addfield 11 (asn1EncodeSequenceOfTicket tickets)),
  addWhen (rep.authorizationData.ciphertext.isSome)
    (addfield 10 (asn1EncodeEncryptedData rep.authorizationData)),
  addOpt (nonempty rep.addresses) (fun addrs => addfield 9 (asn1EncodeHostAddresses addrs)),
  addfield 8 (asn1EncodeSequenceOfEnctype rep.ktype),
  addfield 7 (asn1EncodeInteger rep.nonce),
  addWhen (rep.rtime ≠ 0) (addfield 6 (asn1EncodeKerberosTime rep.rtime)),
  addfield 5 (asn1EncodeKerberosTime rep.till),
  addWhen (rep.fromTime ≠ 0) (addfield 4 (asn1EncodeKerberosTime rep.fromTime)),
  addOpt rep.server (fun server => addfield 3 (asn1EncodePrincipalName server)),
  encodeReqRealm rep,
  addOpt rep.client (fun client => addfield 1 (asn1EncodePrincipalName client)),
  addfield 0 (asn1EncodeKdcOptions rep.kdcOptions)]

def asn1EncodeKdcReq (msgType : Int32) (val : KdcReq) : Encoder Nat := makeseq [
  addfield 4 (asn1EncodeKdcReqBody val),
  addOpt (nonempty val.padata) (fun padata => addfield 3 (asn1EncodeSequenceOfPaData padata)),
  if msgType ≠ 10 ∧ msgType ≠ 12 then refuse .badMsgtype
  else addfield 2 (asn1EncodeInteger msgType),
  kvnoField 1]

def asn1EncodeKrbSafeBody (val : Safe) : Encoder Nat := makeseq [
  addOpt val.rAddress (fun addr => addfield 5 (asn1EncodeHostAddress addr)),
  addfield 4 (asn1EncodeHostAddress val.sAddress),
  addWhen (val.seqNumber ≠ 0) (addfield 3 (asn1EncodeInteger val.seqNumber)),
  addWhen (val.timestamp ≠ 0) (addfield 2 (asn1EncodeInteger val.usec)),
  addWhen (val.timestamp ≠ 0) (addfield 1 (asn1EncodeKerberosTime val.timestamp)),
  addfield 0 (asn1EncodeOctetstring val.userData)]

def asn1EncodeKrbCredInfo (val : CredInfo) : Encoder Nat := makeseq [
  addOpt (nonempty val.caddrs) (fun caddrs => addfield 10 (asn1EncodeHostAddresses caddrs)),
  addOpt val.server (fun server => addfield 9 (asn1EncodePrincipalName server)),
  addOpt val.server (fun server => addfield 8 (asn1EncodeRealm server)),
  addWhen (val.times.renewTill ≠ 0) (addfield 7 (asn1EncodeKerberosTime val.times.renewTill)),
  addWhen (val.times.endtime ≠ 0) (addfield 6 (asn1EncodeKerberosTime val.times.endtime)),
  addWhen (val.times.starttime ≠ 0) (addfield 5 (asn1EncodeKerberosTime val.times.starttime)),
  addWhen (val.times.authtime ≠ 0) (addfield 4 (asn1EncodeKerberosTime val.times.authtime)),
  addWhen (val.flags ≠ 0) (addfield 3 (asn1EncodeTicketFlags val.flags)),
  addOpt val.client (fun client => addfield 2 (asn1EncodePrincipalName client)),
  addOpt val.client (fun client => addfield 1 (asn1EncodeRealm client)),
  addfield 0 (asn1EncodeEncryptionKey val.session)]

/-- `asn1_encode_sequence_of_krb_cred_info`: the array may be empty. -/
abbrev asn1EncodeSequenceOfKrbCredInfo (val : List CredInfo) : Encoder Nat :=
  makeseqOf asn1EncodeKrbCredInfo val

def asn1EncodeEtypeInfoEntry (val : EtypeInfoEntry) : Encoder Nat := makeseq [
  addOpt val.salt (fun salt => addfield 1 (asn1EncodeOctetstring salt)),
  addfield 0 (asn1EncodeInteger val.etype)]

/-- `asn1_encode_etype_info`: the array may be empty. -/
abbrev asn1EncodeEtypeInfo (val : List EtypeInfoEntry) : Encoder Nat :=
  makeseqOf asn1EncodeEtypeInfoEntry val

def asn1EncodePasswdsequence (val : PasswdPhraseElement) : Encoder Nat := makeseq [
  addfield 1 (asn1EncodeOctetstring val.phrase),
  addfield 0 (asn1EncodeOctetstring val.passwd)]

abbrev asn1EncodeSequenceOfPasswdsequence (val : List PasswdPhraseElement) : Encoder Nat :=
  someOf asn1EncodePasswdsequence val

abbrev addOptstring (val : Option Octets) (n : Nat) : Encoder Nat :=
  addOpt val (fun data => addfield n (asn1EncodeOctetstring data))

def asn1EncodeSamChallenge (val : SamChallenge) : Encoder Nat := makeseq [
  addWhen (val.samCksum.contents ≠ []) (addfield 9 (asn1EncodeChecksum val.samCksum)),
  addWhen (val.samNonce ≠ 0) (addfield 8 (asn1EncodeInteger val.samNonce)),
  addOptstring val.samPkForSad 7,
  addOptstring val.samResponsePrompt 6,
  addOptstring val.samChallenge 5,
  addOptstring val.samChallengeLabel 4,
  addOptstring val.samTrackId 3,
  addOptstring val.samTypeName 2,
  addfield 1 (asn1EncodeSamFlags val.samFlags),
  addfield 0 (asn1EncodeInteger val.samType)]

def asn1EncodeSamKey (val : SamKey) : Encoder Nat := makeseq [
  addfield 0 (asn1EncodeEncryptionKey val.samKey)]

def asn1EncodeEncSamResponseEnc (val : EncSamResponseEnc) : Encoder Nat := makeseq [
  addOptstring val.samSad 3,
  addfield 2 (asn1EncodeInteger val.samUsec),
  addfield 1 (asn1EncodeKerberosTime val.samTimestamp),
  addfield 0 (asn1EncodeInteger val.samNonce)]

def asn1EncodeSamResponse (val : SamResponse) : Encoder Nat := makeseq [
  addWhen (val.samPatimestamp ≠ 0) (addfield 6 (asn1EncodeKerberosTime val.samPatimestamp)),
  addWhen (val.samNonce ≠ 0) (addfield 5 (asn1EncodeInteger val.samNonce)),
  addfield 4 (asn1EncodeEncryptedData val.samEncNonceOrTs),
  addWhen (val.samEncKey.ciphertext.getD [] ≠ [])
    (addfield 3 (asn1EncodeEncryptedData val.samEncKey)),
  addOptstring val.samTrackId 2,
  addfield 1 (asn1EncodeSamFlags val.samFlags),
  addfield 0 (asn1EncodeInteger val.samType)]

def asn1EncodePredictedSamResponse (val : PredictedSamResponse) : Encoder Nat := makeseq [
  addOptstring val.msd 6,
  addfield 5 (asn1EncodePrincipalName val.client),
  addfield 4 (asn1EncodeRealm val.client),
  addfield 3 (asn1EncodeInteger val.susec),
  addfield 2 (asn1EncodeKerberosTime val.stime),
  addfield 1 (asn1EncodeSamFlags val.samFlags),
  addfield 0 (asn1EncodeEncryptionKey val.samKey)]

end Krb5.Asn1
