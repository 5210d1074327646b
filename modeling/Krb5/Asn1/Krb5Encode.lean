import Krb5.Asn1.KEncode

/-!
# Encoders of messages (`krb5_encode.c`)

Each takes a structure and gives the octets of a whole message.
-/

namespace Krb5.Asn1

open Lib

/-- `krb5_setup` to `krb5_cleanup`. -/
def encoded (encoder : Encoder Nat) : Except EncodeStop Octets := (encoder []).map Prod.snd

/-- A message under an application tag, with `KVNO` and its type in front. -/
def typedMessage (num : Nat) (fields : List (Encoder Nat)) : Encoder Nat :=
  apptag num (makeseq (fields ++ [addfield 1 (asn1EncodeInteger (Int32.ofNat num)), kvnoField 0]))

def encodeKrb5Authenticator (rep : Authenticator) : Except EncodeStop Octets :=
  encoded <| apptag 2 <| makeseq [
    addOpt (nonempty rep.authorizationData)
      (fun data => addfield 8 (asn1EncodeAuthorizationData data)),
    addWhen (rep.seqNumber ≠ 0) (addfield 7 (asn1EncodeInteger rep.seqNumber)),
    addOpt rep.subkey (fun subkey => addfield 6 (asn1EncodeEncryptionKey subkey)),
    addfield 5 (asn1EncodeKerberosTime rep.ctime),
    addfield 4 (asn1EncodeInteger rep.cusec),
    addOpt rep.checksum (fun checksum => addfield 3 (asn1EncodeChecksum checksum)),
    addfield 2 (asn1EncodePrincipalName rep.client),
    addfield 1 (asn1EncodeRealm rep.client),
    kvnoField 0]

def encodeKrb5Ticket (rep : SealedTicket) : Except EncodeStop Octets :=
  encoded (asn1EncodeTicket rep)

def encodeKrb5EncryptionKey (rep : Keyblock) : Except EncodeStop Octets :=
  encoded (asn1EncodeEncryptionKey rep)

def encodeKrb5EncTktPart (rep : EncTktPart) : Except EncodeStop Octets :=
  encoded <| apptag 3 <| makeseq [
    addOpt (nonempty rep.authorizationData)
      (fun data => addfield 10 (asn1EncodeAuthorizationData data)),
    addOpt (nonempty rep.caddrs) (fun caddrs => addfield 9 (asn1EncodeHostAddresses caddrs)),
    addWhen (rep.times.renewTill ≠ 0) (addfield 8 (asn1EncodeKerberosTime rep.times.renewTill)),
    addfield 7 (asn1EncodeKerberosTime rep.times.endtime),
    addWhen (rep.times.starttime ≠ 0) (addfield 6 (asn1EncodeKerberosTime rep.times.starttime)),
    addfield 5 (asn1EncodeKerberosTime rep.times.authtime),
    addfield 4 (asn1EncodeTransitedEncoding rep.transited),
    addfield 3 (asn1EncodePrincipalName rep.client),
    addfield 2 (asn1EncodeRealm rep.client),
    addfield 1 (asn1EncodeEncryptionKey rep.session),
    addfield 0 (asn1EncodeTicketFlags rep.flags)]

/-- `encode_krb5_enc_kdc_rep_part`. `KRB5_ENCKRB5KDCREPPART_COMPAT` is defined: the
tag does not depend on the message type. -/
def encodeKrb5EncKdcRepPart (rep : EncKdcRepPart) : Except EncodeStop Octets :=
  encoded (apptag 26 (asn1EncodeEncKdcRepPart rep))

def encodeKrb5AsRep (rep : KdcRep) : Except EncodeStop Octets :=
  encoded (apptag 11 (asn1EncodeKdcRep 11 rep))

def encodeKrb5TgsRep (rep : KdcRep) : Except EncodeStop Octets :=
  encoded (apptag 13 (asn1EncodeKdcRep 13 rep))

def encodeKrb5ApReq (rep : ApReq) : Except EncodeStop Octets :=
  encoded <| typedMessage 14 [
    addfield 4 (asn1EncodeEncryptedData rep.authenticator),
    addfield 3 (asn1EncodeTicket rep.ticket),
    addfield 2 (asn1EncodeApOptions rep.apOptions)]

def encodeKrb5ApRep (rep : ApRep) : Except EncodeStop Octets :=
  encoded <| typedMessage 15 [addfield 2 (asn1EncodeEncryptedData rep.encPart)]

def encodeKrb5ApRepEncPart (rep : ApRepEncPart) : Except EncodeStop Octets :=
  encoded <| apptag 27 <| makeseq [
    addWhen (rep.seqNumber ≠ 0) (addfield 3 (asn1EncodeInteger rep.seqNumber)),
    addOpt rep.subkey (fun subkey => addfield 2 (asn1EncodeEncryptionKey subkey)),
    addfield 1 (asn1EncodeInteger rep.cusec),
    addfield 0 (asn1EncodeKerberosTime rep.ctime)]

def encodeKrb5AsReq (rep : KdcReq) : Except EncodeStop Octets :=
  encoded (apptag 10 (asn1EncodeKdcReq 10 rep))

def encodeKrb5TgsReq (rep : KdcReq) : Except EncodeStop Octets :=
  encoded (apptag 12 (asn1EncodeKdcReq 12 rep))

def encodeKrb5KdcReqBody (rep : KdcReq) : Except EncodeStop Octets :=
  encoded (asn1EncodeKdcReqBody rep)

def encodeKrb5Safe (rep : Safe) : Except EncodeStop Octets :=
  encoded <| typedMessage 20 [
    addfield 3 (asn1EncodeChecksum rep.checksum),
    addfield 2 (asn1EncodeKrbSafeBody rep)]

def encodeKrb5Priv (rep : Priv) : Except EncodeStop Octets :=
  encoded <| typedMessage 21 [addfield 3 (asn1EncodeEncryptedData rep.encPart)]

def encodeKrb5EncPrivPart (rep : PrivEncPart) : Except EncodeStop Octets :=
  encoded <| apptag 28 <| makeseq [
    addOpt rep.rAddress (fun addr => addfield 5 (asn1EncodeHostAddress addr)),
    addfield 4 (asn1EncodeHostAddress rep.sAddress),
    addWhen (rep.seqNumber ≠ 0) (addfield 3 (asn1EncodeInteger rep.seqNumber)),
    addWhen (rep.timestamp ≠ 0) (addfield 2 (asn1EncodeInteger rep.usec)),
    addWhen (rep.timestamp ≠ 0) (addfield 1 (asn1EncodeKerberosTime rep.timestamp)),
    addfield 0 (asn1EncodeOctetstring rep.userData)]

def encodeKrb5Cred (rep : Cred) : Except EncodeStop Octets :=
  encoded <| typedMessage 22 [
    addfield 3 (asn1EncodeEncryptedData rep.encPart),
    addfield 2 (asn1EncodeSequenceOfTicket rep.tickets)]

def encodeKrb5EncCredPart (rep : CredEncPart) : Except EncodeStop Octets :=
  encoded <| apptag 29 <| makeseq [
    addOpt rep.rAddress (fun addr => addfield 5 (asn1EncodeHostAddress addr)),
    addOpt rep.sAddress (fun addr => addfield 4 (asn1EncodeHostAddress addr)),
    addWhen (rep.timestamp ≠ 0) (addfield 3 (asn1EncodeInteger rep.usec)),
    addWhen (rep.timestamp ≠ 0) (addfield 2 (asn1EncodeKerberosTime rep.timestamp)),
    addWhen (rep.nonce ≠ 0) (addfield 1 (asn1EncodeInteger rep.nonce)),
    addfield 0 (asn1EncodeSequenceOfKrbCredInfo rep.ticketInfo)]

def encodeKrb5Error (rep : KrbError) : Except EncodeStop Octets :=
  encoded <| typedMessage 30 [
    addWhen (rep.eData ≠ []) (addfield 12 (asn1EncodeOctetstring rep.eData)),
    addWhen (rep.text ≠ []) (addfield 11 (asn1EncodeGeneralstring rep.text)),
    addfield 10 (asn1EncodePrincipalName rep.server),
    addfield 9 (asn1EncodeRealm rep.server),
    addOpt rep.client (fun client => addfield 8 (asn1EncodePrincipalName client)),
    addOpt rep.client (fun client => addfield 7 (asn1EncodeRealm client)),
    addfield 6 (asn1EncodeUi4 rep.error),
    addfield 5 (asn1EncodeInteger rep.susec),
    addfield 4 (asn1EncodeKerberosTime rep.stime),
    addWhen (rep.cusec ≠ 0) (addfield 3 (asn1EncodeInteger rep.cusec)),
    addWhen (rep.ctime ≠ 0) (addfield 2 (asn1EncodeKerberosTime rep.ctime))]

def encodeKrb5Authdata (rep : List Authdata) : Except EncodeStop Octets :=
  encoded (asn1EncodeAuthorizationData rep)

def encodeKrb5AltMethod (rep : AltMethod) : Except EncodeStop Octets :=
  encoded <| makeseq [
    addWhen (rep.data ≠ []) (addfield 1 (asn1EncodeOctetstring rep.data)),
    addfield 0 (asn1EncodeInteger rep.method)]

def encodeKrb5EtypeInfo (rep : List EtypeInfoEntry) : Except EncodeStop Octets :=
  encoded (asn1EncodeEtypeInfo rep)

def encodeKrb5EncData (rep : EncData) : Except EncodeStop Octets :=
  encoded (asn1EncodeEncryptedData rep)

def encodeKrb5PaEncTs (rep : PaEncTs) : Except EncodeStop Octets :=
  encoded <| makeseq [
    addWhen (rep.pausec ≠ 0) (addfield 1 (asn1EncodeInteger rep.pausec)),
    addfield 0 (asn1EncodeKerberosTime rep.patimestamp)]

def encodeKrb5PwdSequence (rep : PasswdPhraseElement) : Except EncodeStop Octets :=
  encoded (asn1EncodePasswdsequence rep)

def encodeKrb5PwdData (rep : PwdData) : Except EncodeStop Octets :=
  encoded <| makeseq [
    addfield 1 (asn1EncodeSequenceOfPasswdsequence rep.element),
    addfield 0 (asn1EncodeInteger rep.sequenceCount)]

def encodeKrb5PadataSequence (rep : List PaData) : Except EncodeStop Octets :=
  encoded (asn1EncodeSequenceOfPaData rep)

def encodeKrb5SamChallenge (rep : SamChallenge) : Except EncodeStop Octets :=
  encoded (asn1EncodeSamChallenge rep)

def encodeKrb5SamKey (rep : SamKey) : Except EncodeStop Octets := encoded (asn1EncodeSamKey rep)

def encodeKrb5EncSamResponseEnc (rep : EncSamResponseEnc) : Except EncodeStop Octets :=
  encoded (asn1EncodeEncSamResponseEnc rep)

def encodeKrb5SamResponse (rep : SamResponse) : Except EncodeStop Octets :=
  encoded (asn1EncodeSamResponse rep)

def encodeKrb5PredictedSamResponse (rep : PredictedSamResponse) : Except EncodeStop Octets :=
  encoded (asn1EncodePredictedSamResponse rep)

end Krb5.Asn1
