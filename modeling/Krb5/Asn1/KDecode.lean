import Krb5.Asn1.Decode
import Krb5.Messages

/-!
# Structures (`asn1_k_decode.c`) and the TGS request (`krb5_decode.c`)

The macros of `asn1_k_decode.c` are functions on the sub-buffer and the tag
variables of a structure: when a field is decoded, its explicit tag has already
been read, and the tag behind it is read next. The length of an explicit tag is
compared with nothing.
-/

namespace Krb5.Asn1

open Lib

/-! ## Fields -/

structure FieldState where
  subbuf : Asn1Buf
  tag : TagVars
deriving DecidableEq, Repr

abbrev Fields := StateT FieldState (Except DecodeError)

variable {α : Type}

def nextTag : Fields Unit := do
  let st ← get
  let (tag, subbuf) ← asn1GetTagIndef st.tag st.subbuf
  set (⟨subbuf, tag⟩ : FieldState)

def getEoc : Fields Unit := do
  nextTag
  let tag := (← get).tag
  if tag.cls ≠ .universal ∨ tag.tagnum ≠ 0 ∨ tag.indef then throw .missingEoc

def onSubbuf (decoder : Decoder α) : Fields α := do
  let st ← get
  let (val, subbuf) ← decoder st.subbuf
  set { st with subbuf := subbuf }
  return val

/-- `get_field_body` and `get_lenfield_body`. -/
def getFieldBody (decoder : Decoder α) : Fields α := do
  let tag := (← get).tag
  let val ← onSubbuf decoder
  if tag.taglen = 0 ∧ tag.indef then getEoc
  nextTag
  return val

/-- An explicit tag, or the end-of-contents. -/
def TagVars.isField (tag : TagVars) : Bool :=
  (tag.cls = .contextSpecific ∧ tag.constructed) ∨
    (tag.tagnum = 0 ∧ tag.taglen = 0 ∧ tag.cls = .universal)

/-- `get_field` and `get_lenfield`. -/
def getField (tagexpect : Int) (decoder : Decoder α) : Fields α := do
  let tag := (← get).tag
  if tag.tagnum > tagexpect then throw .missingField
  else if tag.tagnum < tagexpect then throw .misplacedField
  else if !tag.isField then throw .badId
  else getFieldBody decoder

def optField (tagexpect : Int) (decoder : Decoder α) : Fields (Option α) := do
  let tag := (← get).tag
  if !tag.isField then throw .badId
  else if tag.tagnum = tagexpect then return some (← getFieldBody decoder)
  else return none

def whenTag (tagexpect : Int) (field : Fields α) : Fields (Option α) := do
  if (← get).tag.tagnum = tagexpect then return some (← field) else return none

/-- `opt_lenfield` and `opt_cksum`: the class is not looked at. -/
def optLenfield (tagexpect : Int) (decoder : Decoder α) : Fields (Option α) :=
  whenTag tagexpect (getFieldBody decoder)

/-- `begin_structure` to `end_structure`. The fields give the value and what is left in the variable
`length`. -/
def structureWith (fuel : Nat) (fields : Int → Fields (α × Int)) : Decoder α := do
  let (length, seqindef) ← asn1GetSequence
  let buf ← get
  let subbuf ← asn1bufImbed buf length seqindef
  let ((val, length), st) ← (do nextTag; fields length : Fields (α × Int)) ⟨subbuf, .unset⟩
  let buf ← asn1bufSync fuel buf st.subbuf st.tag length seqindef
  set buf
  return val

/-- A structure whose fields leave `length` as it is. -/
abbrev structureOf (fuel : Nat) (fields : Fields α) : Decoder α :=
  structureWith fuel fun length => (·, length) <$> fields

/-- The `while` loop of a `SEQUENCE OF`. -/
def elements (decoder : Decoder α) (indef : Bool) : Nat → Decoder (List α)
  | 0 => throw .fault
  | fuel + 1 => do
      if asn1bufRemains (← get) indef ≤ 0 then return []
      else
        let elt ← decoder
        return elt :: (← elements decoder indef fuel)

/-- `sequence_of` to its end, whichever length is handed on and whatever is kept. -/
def sequenceOfWith {β : Type} (g : Int → TagVars → Int) (f : Int → List α → β) (fuel : Nat)
    (decoder : Decoder α) : Decoder β := do
  let (length, seqofindef) ← asn1GetSequence
  let buf ← get
  let seqbuf ← asn1bufImbed buf length seqofindef
  let (vals, seqbuf) ← elements decoder seqofindef fuel seqbuf
  let (tag, seqbuf) ← asn1GetTag seqbuf
  let buf ← asn1bufSync fuel buf seqbuf tag (g length tag) seqofindef
  set buf
  return f length vals

/-- `sequence_of` to `end_sequence_of`. -/
abbrev sequenceOf : Nat → Decoder α → Decoder (List α) :=
  sequenceOfWith (fun length _ => length) fun _ vals => vals

/-- `sequence_of_no_tagvars` to `end_sequence_of_no_tagvars`: the length that is
handed on is that of the last tag, and that of the sequence is left in `length`. -/
abbrev sequenceOfNoTagvars : Nat → Decoder α → Decoder (Int × List α) :=
  sequenceOfWith (fun _ tag => tag.taglen) Prod.mk

abbrev asn1DecodeInt32 : Decoder Int32 := asn1DecodeInteger
abbrev asn1DecodeKvno : Decoder Int32 := asn1DecodeInteger
abbrev asn1DecodeEnctype : Decoder Int32 := asn1DecodeInteger
abbrev asn1DecodeAddrtype : Decoder Int32 := asn1DecodeInteger
abbrev asn1DecodeInt : Decoder Int32 := asn1DecodeInteger
abbrev asn1DecodeCksumtype : Decoder Int32 := asn1DecodeInteger
abbrev asn1DecodeAuthdatatype : Decoder Int32 := asn1DecodeInteger
abbrev asn1DecodeOctet : Decoder UInt8 := do return UInt8.ofNat (← asn1DecodeInteger).toUInt32.toNat
abbrev asn1DecodeUi4 : Decoder UInt32 := asn1DecodeUnsignedInteger
abbrev asn1DecodeMsgtype : Decoder UInt32 := asn1DecodeUnsignedInteger
abbrev asn1DecodeKerberosTime : Decoder Timestamp := asn1DecodeGeneraltime
abbrev asn1DecodeKdcOptions : Decoder Flags := asn1DecodeKrb5Flags
abbrev asn1DecodeTicketFlags : Decoder Flags := asn1DecodeKrb5Flags
abbrev asn1DecodeApOptions : Decoder Flags := asn1DecodeKrb5Flags
abbrev asn1DecodeSamFlags : Decoder Flags := asn1DecodeKrb5Flags
abbrev asn1DecodeRealm : Decoder Octets := asn1DecodeGeneralstring

def kvno5 : Int32 := 5

variable (fuel : Nat)

/-- `asn1_decode_principal_name`: the name type and the components. The tag of
the components is read and not looked at, and the structure is left with their length. -/
abbrev asn1DecodePrincipalName : Decoder (Int32 × List Octets) := structureWith fuel fun _ => do
  let type ← getField 0 asn1DecodeInt32
  let (length, data) ← onSubbuf (sequenceOfNoTagvars fuel asn1DecodeGeneralstring)
  if (← get).tag.indef then getEoc
  nextTag
  return ((type, data), length)

/-- `asn1_decode_encrypted_data`. An empty string leaves the pointer null. -/
abbrev asn1DecodeEncryptedData : Decoder EncData := structureOf fuel do
  let enctype ← getField 0 asn1DecodeEnctype
  let kvno ← optField 1 asn1DecodeKvno
  let ciphertext ← getField 2 asn1DecodeOctetstring
  return ⟨enctype, kvno.getD 0, if ciphertext = [] then none else some ciphertext⟩

abbrev asn1DecodeHostAddress : Decoder Address := structureOf fuel do
  let addrtype ← getField 0 asn1DecodeAddrtype
  let contents ← getField 1 asn1DecodeOctetstring
  return ⟨addrtype, contents⟩

abbrev asn1DecodePaData : Decoder PaData := structureOf fuel do
  let paType ← getField 1 asn1DecodeInt32
  let contents ← getField 2 asn1DecodeOctetstring
  return ⟨paType, contents⟩

abbrev asn1DecodeTicket : Decoder SealedTicket := do
  let apptag ← asn1GetTag
  if apptag.cls ≠ .application ∨ !apptag.constructed ∨ apptag.tagnum ≠ 1 then throw .badId
  let ticket ← structureOf fuel do
    let vno ← getField 0 asn1DecodeKvno
    if vno ≠ kvno5 then throw .badPvno
    let realm ← getField 1 asn1DecodeRealm
    let (type, data) ← getField 2 (asn1DecodePrincipalName fuel)
    let encPart ← getField 3 (asn1DecodeEncryptedData fuel)
    return (⟨⟨realm, data, type⟩, encPart⟩ : SealedTicket)
  if apptag.taglen = 0 then
    let _ ← asn1GetTag
  return ticket

abbrev asn1DecodeSequenceOfPaData : Decoder (List PaData) :=
  sequenceOf fuel (asn1DecodePaData fuel)

abbrev asn1DecodeHostAddresses : Decoder (List Address) :=
  sequenceOf fuel (asn1DecodeHostAddress fuel)

abbrev asn1DecodeSequenceOfTicket : Decoder (List SealedTicket) :=
  sequenceOf fuel (asn1DecodeTicket fuel)

abbrev asn1DecodeSequenceOfEnctype : Decoder (List Int32) := sequenceOf fuel asn1DecodeEnctype

def noAuthorizationData : EncData := ⟨0, 0, none⟩

/-- `asn1_decode_kdc_req_body`; the members of the request outside the body are
those of a fresh structure. -/
abbrev asn1DecodeKdcReqBody : Decoder KdcReq := structureOf fuel do
  let kdcOptions ← getField 0 asn1DecodeKdcOptions
  let client ← optField 1 (asn1DecodePrincipalName fuel)
  let realm ← getField 2 asn1DecodeRealm
  let server ← optField 3 (asn1DecodePrincipalName fuel)
  let fromTime ← optField 4 asn1DecodeKerberosTime
  let till ← getField 5 asn1DecodeKerberosTime
  let rtime ← optField 6 asn1DecodeKerberosTime
  let nonce ← getField 7 asn1DecodeInt32
  let ktype ← getField 8 (asn1DecodeSequenceOfEnctype fuel)
  let addresses ← optField 9 (asn1DecodeHostAddresses fuel)
  let authorizationData ←
    if (← get).tag.tagnum = 10 then getField 10 (asn1DecodeEncryptedData fuel)
    else pure noAuthorizationData
  let secondTicket ← optField 11 (asn1DecodeSequenceOfTicket fuel)
  let principal (name : Int32 × List Octets) : Principal := ⟨realm, name.2, name.1⟩
  return { msgType := 0, padata := none, kdcOptions, client := client.map principal,
           server := server.map principal, fromTime := fromTime.getD 0, till,
           rtime := rtime.getD 0, nonce, ktype, addresses, authorizationData, secondTicket }

/-- `asn1_decode_kdc_req`. The result keeps the offset at which
`asn1_decode_kdc_req_body` was entered. -/
abbrev asn1DecodeKdcReq : Decoder (KdcReq × Int) := structureOf fuel do
  let kvno ← getField 1 asn1DecodeKvno
  if kvno ≠ kvno5 then throw .badPvno
  let msgType ← getField 2 asn1DecodeMsgtype
  let padata ← optField 3 (asn1DecodeSequenceOfPaData fuel)
  let bodyAt := (← get).subbuf.next
  let body ← getField 4 (asn1DecodeKdcReqBody fuel)
  return ({ body with msgType, padata }, bodyAt)

/-- `decode_krb5_tgs_req`, with where the body was. `KRB5_MSGTYPE_STRICT` is not
defined: the message type is not compared. -/
def decodeKrb5TgsReq (code : Octets) : Except DecodeError (KdcReq × Int) := do
  let (apptag, buf) ← asn1GetTag (.wrapData code)
  if apptag.cls ≠ .application ∨ !apptag.constructed then throw .badId
  if apptag.tagnum ≠ 12 then throw .badMsgtype
  let (rep, _) ← asn1DecodeKdcReq fuel buf
  return rep

abbrev asn1DecodeEncryptionKey : Decoder Keyblock := structureOf fuel do
  let enctype ← getField 0 asn1DecodeEnctype
  let contents ← getField 1 asn1DecodeOctetstring
  return ⟨enctype, contents⟩

abbrev asn1DecodeLastReqEntry : Decoder LastReqEntry := structureOf fuel do
  let lrType ← getField 0 asn1DecodeOctet
  let value ← getField 1 asn1DecodeKerberosTime
  return ⟨lrType, value⟩

abbrev asn1DecodeLastReq : Decoder (List LastReqEntry) :=
  sequenceOf fuel (asn1DecodeLastReqEntry fuel)

/-- `asn1_decode_enc_kdc_rep_part`, for the message type that the caller has set. A
start time that is missing is set to the authentication time. -/
abbrev asn1DecodeEncKdcRepPart (msgType : UInt32) : Decoder EncKdcRepPart := structureOf fuel do
  let session ← getField 0 (asn1DecodeEncryptionKey fuel)
  let lastReq ← getField 1 (asn1DecodeLastReq fuel)
  let nonce ← getField 2 asn1DecodeInt32
  let keyExp ← optField 3 asn1DecodeKerberosTime
  let flags ← getField 4 asn1DecodeTicketFlags
  let authtime ← getField 5 asn1DecodeKerberosTime
  let starttime ← optField 6 asn1DecodeKerberosTime
  let endtime ← getField 7 asn1DecodeKerberosTime
  let renewTill ← optField 8 asn1DecodeKerberosTime
  let realm ← getField 9 asn1DecodeRealm
  let (type, data) ← getField 10 (asn1DecodePrincipalName fuel)
  let caddrs ← optField 11 (asn1DecodeHostAddresses fuel)
  return { msgType, session, lastReq, nonce, keyExp := keyExp.getD 0, flags,
           times := ⟨authtime, starttime.getD authtime, endtime, renewTill.getD 0⟩,
           server := ⟨realm, data, type⟩, caddrs }

abbrev asn1DecodeKdcRep : Decoder KdcRep := structureOf fuel do
  let pvno ← getField 0 asn1DecodeKvno
  if pvno ≠ kvno5 then throw .badPvno
  let msgType ← getField 1 asn1DecodeMsgtype
  let padata ← optField 2 (asn1DecodeSequenceOfPaData fuel)
  let realm ← getField 3 asn1DecodeRealm
  let (type, data) ← getField 4 (asn1DecodePrincipalName fuel)
  let ticket ← getField 5 (asn1DecodeTicket fuel)
  let encPart ← getField 6 (asn1DecodeEncryptedData fuel)
  return ⟨msgType, padata, ⟨realm, data, type⟩, ticket, encPart⟩

abbrev asn1DecodeChecksum : Decoder Checksum := structureOf fuel do
  let checksumType ← getField 0 asn1DecodeCksumtype
  let contents ← getField 1 asn1DecodeOctetstring
  return ⟨checksumType, contents⟩

abbrev asn1DecodeTransitedEncoding : Decoder Transited := structureOf fuel do
  let trType ← getField 0 asn1DecodeOctet
  let trContents ← getField 1 asn1DecodeOctetstring
  return ⟨trType, trContents⟩

abbrev asn1DecodeAuthdataElt : Decoder Authdata := structureOf fuel do
  let adType ← getField 0 asn1DecodeAuthdatatype
  let contents ← getField 1 asn1DecodeOctetstring
  return ⟨adType, contents⟩

abbrev asn1DecodeAuthorizationData : Decoder (List Authdata) :=
  sequenceOf fuel (asn1DecodeAuthdataElt fuel)

/-- `asn1_decode_krb_safe_body`; the checksum is that of the caller. -/
abbrev asn1DecodeKrbSafeBody : Decoder (Checksum → Safe) := structureOf fuel do
  let userData ← getField 0 asn1DecodeOctetstring
  let timestamp ← optField 1 asn1DecodeKerberosTime
  let usec ← optField 2 asn1DecodeInt32
  let seqNumber ← optField 3 asn1DecodeInt32
  let sAddress ← getField 4 (asn1DecodeHostAddress fuel)
  let rAddress ← whenTag 5 (getField 5 (asn1DecodeHostAddress fuel))
  return fun checksum =>
    ⟨userData, timestamp.getD 0, usec.getD 0, seqNumber.getD 0, sAddress, rAddress, checksum⟩

/-- The client or the server of `asn1_decode_krb_cred_info`. When a realm comes
without a name, `opt_field` sets the pointer back to null. -/
abbrev credInfoPrincipal (tagexpect : Int) : Fields (Option Principal) := do
  let princ ← whenTag tagexpect do
    let realm ← optField tagexpect asn1DecodeRealm
    let name ← optField (tagexpect + 1) (asn1DecodePrincipalName fuel)
    return name.map fun name => (⟨realm.getD [], name.2, name.1⟩ : Principal)
  return princ.join

abbrev asn1DecodeKrbCredInfo : Decoder CredInfo := structureOf fuel do
  let session ← getField 0 (asn1DecodeEncryptionKey fuel)
  let client ← credInfoPrincipal fuel 1
  let flags ← optField 3 asn1DecodeTicketFlags
  let authtime ← optField 4 asn1DecodeKerberosTime
  let starttime ← optField 5 asn1DecodeKerberosTime
  let endtime ← optField 6 asn1DecodeKerberosTime
  let renewTill ← optField 7 asn1DecodeKerberosTime
  let server ← credInfoPrincipal fuel 8
  let caddrs ← optField 10 (asn1DecodeHostAddresses fuel)
  return ⟨session, client, server, flags.getD 0,
    ⟨authtime.getD 0, starttime.getD 0, endtime.getD 0, renewTill.getD 0⟩, caddrs⟩

abbrev asn1DecodeSequenceOfKrbCredInfo : Decoder (List CredInfo) :=
  sequenceOf fuel (asn1DecodeKrbCredInfo fuel)

/-! ## Preauthentication -/

abbrev asn1DecodeEtypeInfoEntry : Decoder EtypeInfoEntry := structureOf fuel do
  let etype ← getField 0 asn1DecodeEnctype
  let salt ← whenTag 1 (getField 1 asn1DecodeOctetstring)
  return ⟨etype, salt⟩

abbrev asn1DecodeEtypeInfo : Decoder (List EtypeInfoEntry) :=
  sequenceOf fuel (asn1DecodeEtypeInfoEntry fuel)

abbrev asn1DecodePasswdsequence : Decoder PasswdPhraseElement := structureOf fuel do
  let passwd ← getField 0 asn1DecodeOctetstring
  let phrase ← getField 1 asn1DecodeOctetstring
  return ⟨passwd, phrase⟩

abbrev asn1DecodeSequenceOfPasswdsequence : Decoder (List PasswdPhraseElement) :=
  sequenceOf fuel (asn1DecodePasswdsequence fuel)

/-- `opt_string`: a string that is absent has length zero. -/
abbrev optString (n : Int) : Fields (Option Octets) := do
  return some ((← optLenfield n asn1DecodeOctetstring).getD [])

abbrev asn1DecodeSamChallenge : Decoder SamChallenge := structureOf fuel do
  let samType ← getField 0 asn1DecodeInt32
  let samFlags ← getField 1 asn1DecodeSamFlags
  let samTypeName ← optString 2
  let samTrackId ← optString 3
  let samChallengeLabel ← optString 4
  let samChallenge ← optString 5
  let samResponsePrompt ← optString 6
  let samPkForSad ← optString 7
  let samNonce ← optField 8 asn1DecodeInt32
  let samCksum ← optLenfield 9 (asn1DecodeChecksum fuel)
  return ⟨samType, samFlags, samTypeName, samTrackId, samChallengeLabel, samChallenge,
    samResponsePrompt, samPkForSad, samNonce.getD 0, samCksum.getD ⟨0, []⟩⟩

abbrev asn1DecodeEncSamKey : Decoder SamKey := structureOf fuel do
  let samKey ← getField 0 (asn1DecodeEncryptionKey fuel)
  return ⟨samKey⟩

abbrev asn1DecodeEncSamResponseEnc : Decoder EncSamResponseEnc := structureOf fuel do
  let samNonce ← optField 0 asn1DecodeInt32
  let samTimestamp ← optField 1 asn1DecodeKerberosTime
  let samUsec ← optField 2 asn1DecodeInt32
  let samSad ← optString 3
  return ⟨samNonce.getD 0, samTimestamp.getD 0, samUsec.getD 0, samSad⟩

abbrev asn1DecodeSamResponse : Decoder SamResponse := structureOf fuel do
  let samType ← getField 0 asn1DecodeInt32
  let samFlags ← getField 1 asn1DecodeSamFlags
  let samTrackId ← optString 2
  let samEncKey ← whenTag 3 (getField 3 (asn1DecodeEncryptedData fuel))
  let samEncNonceOrTs ← getField 4 (asn1DecodeEncryptedData fuel)
  let samNonce ← optField 5 asn1DecodeInt32
  let samPatimestamp ← optField 6 asn1DecodeKerberosTime
  return ⟨samType, samFlags, samTrackId, samEncKey.getD ⟨0, 0, none⟩, samEncNonceOrTs,
    samNonce.getD 0, samPatimestamp.getD 0⟩

abbrev asn1DecodePredictedSamResponse : Decoder PredictedSamResponse := structureOf fuel do
  let samKey ← getField 0 (asn1DecodeEncryptionKey fuel)
  let samFlags ← getField 1 asn1DecodeSamFlags
  let stime ← getField 2 asn1DecodeKerberosTime
  let susec ← getField 3 asn1DecodeInt32
  let realm ← getField 4 asn1DecodeRealm
  let (type, data) ← getField 5 (asn1DecodePrincipalName fuel)
  let msd ← optString 6
  return ⟨samKey, samFlags, stime, susec, ⟨realm, data, type⟩, msd⟩

end Krb5.Asn1
