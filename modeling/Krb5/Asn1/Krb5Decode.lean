import Krb5.Asn1.KDecode

/-!
# Decoders of messages (`krb5_decode.c`)

The macros of this file have the names of those of `asn1_k_decode.c`, and are not
the same: an optional field takes an explicit tag to be in front, also where the
structure is at its end, and whether a tag was indefinite is read from `indef`
alone. The members of a structure that a decoder does not set are zero.
-/

namespace Krb5.Asn1

open Lib

variable {α : Type}

namespace Message

/-- `get_field_body` and `get_lenfield_body`. -/
def getFieldBody (decoder : Decoder α) : Fields α := do
  let tag := (← get).tag
  let val ← onSubbuf decoder
  if tag.indef then getEoc
  nextTag
  return val

def isField (tag : TagVars) : Bool := tag.cls = .contextSpecific ∧ tag.constructed

/-- `get_field` and `get_lenfield`. -/
def getField (tagexpect : Int) (decoder : Decoder α) : Fields α := do
  let tag := (← get).tag
  if tag.tagnum > tagexpect then throw .missingField
  else if tag.tagnum < tagexpect then throw .misplacedField
  else if !isField tag then throw .badId
  else getFieldBody decoder

/-- `opt_field` and `opt_lenfield`. -/
def optField (tagexpect : Int) (decoder : Decoder α) : Fields (Option α) := do
  let tag := (← get).tag
  if !isField tag then throw .badId
  else if tag.tagnum = tagexpect then return some (← getFieldBody decoder)
  else return none

end Message

abbrev checkApptag (tagexpect : Int) : Decoder Unit := do
  let tag ← asn1GetTag
  if tag.cls ≠ .application ∨ !tag.constructed then throw .badId
  if tag.tagnum ≠ tagexpect then throw .badMsgtype

def decoded (decoder : Decoder α) (code : Octets) : Except DecodeError α :=
  (decoder (.wrapData code)).map Prod.fst

variable (fuel : Nat)

abbrev versionField : Fields Unit := do
  let kvno ← Message.getField 0 asn1DecodeKvno
  if kvno ≠ kvno5 then throw .badPvno

/-- The version number and the message type, which is compared with nothing. -/
abbrev versionAndType : Fields Unit := do
  versionField
  let _ ← Message.getField 1 asn1DecodeMsgtype

/-! ## Tickets and authenticators -/

def decodeKrb5Authenticator : Octets → Except DecodeError Authenticator := decoded do
  checkApptag 2
  structureOf fuel do
    versionField
    let realm ← Message.getField 1 asn1DecodeRealm
    let (type, data) ← Message.getField 2 (asn1DecodePrincipalName fuel)
    let checksum ← whenTag 3 (Message.getField 3 (asn1DecodeChecksum fuel))
    let cusec ← Message.getField 4 asn1DecodeInt32
    let ctime ← Message.getField 5 asn1DecodeKerberosTime
    let subkey ← Message.optField 6 (asn1DecodeEncryptionKey fuel)
    let seqNumber ← Message.optField 7 asn1DecodeInt32
    let authorizationData ← Message.optField 8 (asn1DecodeAuthorizationData fuel)
    return { client := ⟨realm, data, type⟩, checksum, cusec, ctime, subkey,
             seqNumber := seqNumber.getD 0, authorizationData }

def decodeKrb5Ticket : Octets → Except DecodeError SealedTicket := decoded do
  checkApptag 1
  structureOf fuel do
    versionField
    let realm ← Message.getField 1 asn1DecodeRealm
    let (type, data) ← Message.getField 2 (asn1DecodePrincipalName fuel)
    let encPart ← Message.getField 3 (asn1DecodeEncryptedData fuel)
    return ⟨⟨realm, data, type⟩, encPart⟩

def decodeKrb5EncryptionKey : Octets → Except DecodeError Keyblock := decoded <| structureOf fuel do
  let enctype ← Message.getField 0 asn1DecodeEnctype
  let contents ← Message.getField 1 asn1DecodeOctetstring
  return ⟨enctype, contents⟩

def decodeKrb5EncTktPart : Octets → Except DecodeError EncTktPart := decoded do
  checkApptag 3
  structureOf fuel do
    let flags ← Message.getField 0 asn1DecodeTicketFlags
    let session ← Message.getField 1 (asn1DecodeEncryptionKey fuel)
    let realm ← Message.getField 2 asn1DecodeRealm
    let (type, data) ← Message.getField 3 (asn1DecodePrincipalName fuel)
    let transited ← Message.getField 4 (asn1DecodeTransitedEncoding fuel)
    let authtime ← Message.getField 5 asn1DecodeKerberosTime
    let starttime ← whenTag 6 (Message.getField 6 asn1DecodeKerberosTime)
    let endtime ← Message.getField 7 asn1DecodeKerberosTime
    let renewTill ← Message.optField 8 asn1DecodeKerberosTime
    let caddrs ← Message.optField 9 (asn1DecodeHostAddresses fuel)
    let authorizationData ← Message.optField 10 (asn1DecodeAuthorizationData fuel)
    return { flags, session, client := ⟨realm, data, type⟩, transited,
             times := ⟨authtime, starttime.getD authtime, endtime, renewTill.getD 0⟩,
             caddrs, authorizationData }

def decodeKrb5EncKdcRepPart : Octets → Except DecodeError EncKdcRepPart := decoded do
  let tag ← asn1GetTag
  if tag.cls ≠ .application ∨ !tag.constructed then throw .badId
  if tag.tagnum = 25 then asn1DecodeEncKdcRepPart fuel 11
  else if tag.tagnum = 26 then asn1DecodeEncKdcRepPart fuel 13
  else throw .badMsgtype

def decodeKrb5AsRep : Octets → Except DecodeError KdcRep := decoded do
  checkApptag 11
  asn1DecodeKdcRep fuel

def decodeKrb5TgsRep : Octets → Except DecodeError KdcRep := decoded do
  checkApptag 13
  asn1DecodeKdcRep fuel

def decodeKrb5AsReq : Octets → Except DecodeError (KdcReq × Int) := decoded do
  checkApptag 10
  asn1DecodeKdcReq fuel

def decodeKrb5KdcReqBody : Octets → Except DecodeError KdcReq := decoded (asn1DecodeKdcReqBody fuel)

/-! ## Exchanges with a server -/

def decodeKrb5ApReq : Octets → Except DecodeError ApReq := decoded do
  checkApptag 14
  structureOf fuel do
    versionAndType
    let apOptions ← Message.getField 2 asn1DecodeApOptions
    let ticket ← Message.getField 3 (asn1DecodeTicket fuel)
    let authenticator ← Message.getField 4 (asn1DecodeEncryptedData fuel)
    return ⟨apOptions, ticket, authenticator⟩

def decodeKrb5ApRep : Octets → Except DecodeError ApRep := decoded do
  checkApptag 15
  structureOf fuel do
    versionAndType
    let encPart ← Message.getField 2 (asn1DecodeEncryptedData fuel)
    return ⟨encPart⟩

def decodeKrb5ApRepEncPart : Octets → Except DecodeError ApRepEncPart := decoded do
  checkApptag 27
  structureOf fuel do
    let ctime ← Message.getField 0 asn1DecodeKerberosTime
    let cusec ← Message.getField 1 asn1DecodeInt32
    let subkey ← Message.optField 2 (asn1DecodeEncryptionKey fuel)
    let seqNumber ← Message.optField 3 asn1DecodeInt32
    return ⟨ctime, cusec, subkey, seqNumber.getD 0⟩

def decodeKrb5Safe : Octets → Except DecodeError Safe := decoded do
  checkApptag 20
  structureOf fuel do
    versionAndType
    let body ← Message.getField 2 (asn1DecodeKrbSafeBody fuel)
    let checksum ← Message.getField 3 (asn1DecodeChecksum fuel)
    return body checksum

def decodeKrb5Priv : Octets → Except DecodeError Priv := decoded do
  checkApptag 21
  structureOf fuel do
    versionAndType
    let encPart ← Message.getField 3 (asn1DecodeEncryptedData fuel)
    return ⟨encPart⟩

def decodeKrb5EncPrivPart : Octets → Except DecodeError PrivEncPart := decoded do
  checkApptag 28
  structureOf fuel do
    let userData ← Message.getField 0 asn1DecodeOctetstring
    let timestamp ← Message.optField 1 asn1DecodeKerberosTime
    let usec ← Message.optField 2 asn1DecodeInt32
    let seqNumber ← Message.optField 3 asn1DecodeInt32
    let sAddress ← Message.getField 4 (asn1DecodeHostAddress fuel)
    let rAddress ← Message.optField 5 (asn1DecodeHostAddress fuel)
    return ⟨userData, timestamp.getD 0, usec.getD 0, seqNumber.getD 0, sAddress, rAddress⟩

def decodeKrb5Cred : Octets → Except DecodeError Cred := decoded do
  checkApptag 22
  structureOf fuel do
    versionAndType
    let tickets ← Message.getField 2 (asn1DecodeSequenceOfTicket fuel)
    let encPart ← Message.getField 3 (asn1DecodeEncryptedData fuel)
    return ⟨tickets, encPart⟩

def decodeKrb5EncCredPart : Octets → Except DecodeError CredEncPart := decoded do
  checkApptag 29
  structureOf fuel do
    let ticketInfo ← Message.getField 0 (asn1DecodeSequenceOfKrbCredInfo fuel)
    let nonce ← Message.optField 1 asn1DecodeInt32
    let timestamp ← Message.optField 2 asn1DecodeKerberosTime
    let usec ← Message.optField 3 asn1DecodeInt32
    let sAddress ← Message.optField 4 (asn1DecodeHostAddress fuel)
    let rAddress ← Message.optField 5 (asn1DecodeHostAddress fuel)
    return ⟨nonce.getD 0, timestamp.getD 0, usec.getD 0, sAddress, rAddress, ticketInfo⟩

/-- `asn1_decode_principal_name` on a null pointer: the name type is decoded, and
then stored through it. -/
def principalNameAtNull : Decoder (Int32 × List Octets) := structureOf fuel <|
  getField 0 do
    let _ ← asn1DecodeInt32
    throw .fault

/-- `decode_krb5_error`. The client is allocated when its realm is there: a realm
without a name leaves it without components, and a name without a realm is decoded
into a null pointer. -/
def decodeKrb5Error : Octets → Except DecodeError KrbError := decoded do
  checkApptag 30
  structureOf fuel do
    versionAndType
    let ctime ← Message.optField 2 asn1DecodeKerberosTime
    let cusec ← Message.optField 3 asn1DecodeInt32
    let stime ← Message.getField 4 asn1DecodeKerberosTime
    let susec ← Message.getField 5 asn1DecodeInt32
    let error ← Message.getField 6 asn1DecodeUi4
    let crealm ← Message.optField 7 asn1DecodeRealm
    let cname ← Message.optField 8
      (if crealm.isSome then asn1DecodePrincipalName fuel else principalNameAtNull fuel)
    let realm ← Message.getField 9 asn1DecodeRealm
    let (type, data) ← Message.getField 10 (asn1DecodePrincipalName fuel)
    let text ← Message.optField 11 asn1DecodeGeneralstring
    let eData ← Message.optField 12 asn1DecodeOctetstring
    let client := crealm.map fun crealm =>
      let name := cname.getD (0, [])
      (⟨crealm, name.2, name.1⟩ : Principal)
    return { ctime := ctime.getD 0, cusec := cusec.getD 0, susec, stime, error, client,
             server := ⟨realm, data, type⟩, text := text.getD [], eData := eData.getD [] }

def decodeKrb5Authdata : Octets → Except DecodeError (List Authdata) :=
  decoded (asn1DecodeAuthorizationData fuel)

def decodeKrb5PwdSequence : Octets → Except DecodeError PasswdPhraseElement :=
  decoded (asn1DecodePasswdsequence fuel)

def decodeKrb5PwdData : Octets → Except DecodeError PwdData := decoded <| structureOf fuel do
  let sequenceCount ← Message.getField 0 asn1DecodeInt
  let element ← Message.getField 1 (asn1DecodeSequenceOfPasswdsequence fuel)
  return ⟨sequenceCount, element⟩

def decodeKrb5PadataSequence : Octets → Except DecodeError (List PaData) :=
  decoded (asn1DecodeSequenceOfPaData fuel)

def decodeKrb5AltMethod : Octets → Except DecodeError AltMethod := decoded <| structureOf fuel do
  let method ← Message.getField 0 asn1DecodeInt32
  let data ← whenTag 1 (Message.getField 1 asn1DecodeOctetstring)
  return ⟨method, data.getD []⟩

def decodeKrb5EtypeInfo : Octets → Except DecodeError (List EtypeInfoEntry) :=
  decoded (asn1DecodeEtypeInfo fuel)

def decodeKrb5EncData : Octets → Except DecodeError EncData :=
  decoded (asn1DecodeEncryptedData fuel)

def decodeKrb5PaEncTs : Octets → Except DecodeError PaEncTs := decoded <| structureOf fuel do
  let patimestamp ← Message.getField 0 asn1DecodeKerberosTime
  let pausec ← whenTag 1 (Message.getField 1 asn1DecodeInt32)
  return ⟨patimestamp, pausec.getD 0⟩

def decodeKrb5SamChallenge : Octets → Except DecodeError SamChallenge :=
  decoded (asn1DecodeSamChallenge fuel)

def decodeKrb5EncSamKey : Octets → Except DecodeError SamKey := decoded (asn1DecodeEncSamKey fuel)

def decodeKrb5EncSamResponseEnc : Octets → Except DecodeError EncSamResponseEnc :=
  decoded (asn1DecodeEncSamResponseEnc fuel)

def decodeKrb5SamResponse : Octets → Except DecodeError SamResponse :=
  decoded (asn1DecodeSamResponse fuel)

def decodeKrb5PredictedSamResponse : Octets → Except DecodeError PredictedSamResponse :=
  decoded (asn1DecodePredictedSamResponse fuel)

end Krb5.Asn1
