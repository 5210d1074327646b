import Krb5.Asn1.Codec

/-!
# The codec of tickets and authenticators
-/

namespace Krb5.Asn1

open Lib Lib.Ber Elem

variable {fuel : Nat}

theorem readsAs_ticket (x : SealedTicket) :
    ReadsAs fuel (decodeKrb5Ticket fuel) (.each .any) (ticketElem x)
      (SealedTicket.received x) := by
  refine readsAs_application ?_
  refine .simple .outer ?_
  refine .version ?_
  refine .req (.string _) ?_
  refine .req (.principalName _) ?_
  refine .req (.encData _) ?_
  exact .value _

/-! ## Encrypted parts of tickets -/

def encTktPartElem (x : EncTktPart) : Elem := .record [
  (0, some (flagsElem x.flags)),
  (1, some (encryptionKeyElem x.session)),
  (2, some (stringElem x.client.realm)),
  (3, some (principalNameElem x.client)),
  (4, some (transitedElem x.transited)),
  (5, some (timeElem x.times.authtime)),
  (6, (given (x.times.starttime ≠ 0) x.times.starttime).map timeElem),
  (7, some (timeElem x.times.endtime)),
  (8, (given (x.times.renewTill ≠ 0) x.times.renewTill).map timeElem),
  (9, (nonempty x.caddrs).map (arrayElem hostAddressElem)),
  (10, (nonempty x.authorizationData).map (arrayElem authdataElem))]

instance writes_encTktPart (x : EncTktPart) :
    Writes (encodeKrb5EncTktPart x) (.application 3 (encTktPartElem x)) := by
  exact writes_encoded (emits_apptag emits_record)

def EncTktPart.received (x : EncTktPart) : EncTktPart :=
  { x with
    times := { x.times with
      starttime := if x.times.starttime ≠ 0 then x.times.starttime else x.times.authtime }
    caddrs := nonempty x.caddrs
    authorizationData := nonempty x.authorizationData }

def encTktPartShape : Shape := .record .outer [8, 9, 10] (timesAt [5, 6, 7, 8])

theorem readsAs_encTktPart (x : EncTktPart) :
    ReadsAs fuel (decodeKrb5EncTktPart fuel) (.each encTktPartShape)
      (.application 3 (encTktPartElem x)) (EncTktPart.received x) := by
  refine readsAs_application (.record ?_)
  refine .req (.flags _) ?_
  refine .req (.encryptionKey _) ?_
  refine .req (.string _) ?_
  refine .req (.principalName _) ?_
  refine .req (.transited _) ?_
  refine .req (.time _) ?_
  refine .tagged .time ?_
  refine .req (.time _) ?_
  refine .opt .time ?_
  refine .opt .hostAddresses ?_
  refine .opt .authorizationData ?_
  refine .of_eq ?_
  rw [given_ne_zero_getD]
  simp [EncTktPart.received]

def authenticatorElem (x : Authenticator) : Elem := .record [
  (0, some kvnoElem),
  (1, some (stringElem x.client.realm)),
  (2, some (principalNameElem x.client)),
  (3, x.checksum.map checksumElem),
  (4, some (int32Elem x.cusec)),
  (5, some (timeElem x.ctime)),
  (6, x.subkey.map encryptionKeyElem),
  (7, (given (x.seqNumber ≠ 0) x.seqNumber).map int32Elem),
  (8, (nonempty x.authorizationData).map (arrayElem authdataElem))]

instance writes_authenticator (x : Authenticator) :
    Writes (encodeKrb5Authenticator x) (.application 2 (authenticatorElem x)) := by
  exact writes_encoded (emits_apptag emits_record)

def Authenticator.received (x : Authenticator) : Authenticator :=
  { x with authorizationData := nonempty x.authorizationData }

def authenticatorShape : Shape := .record .outer [6, 7, 8] (timesAt [5])

theorem readsAs_authenticator (x : Authenticator) :
    ReadsAs fuel (decodeKrb5Authenticator fuel) (.each authenticatorShape)
      (.application 2 (authenticatorElem x)) (Authenticator.received x) := by
  refine readsAs_application (.record ?_)
  refine .version ?_
  refine .req (.string _) ?_
  refine .req (.principalName _) ?_
  refine .tagged .checksum ?_
  refine .req (.integer _) ?_
  refine .req (.time _) ?_
  refine .opt .encryptionKey ?_
  refine .opt .integer ?_
  refine .opt .authorizationData ?_
  refine .of_eq ?_
  rw [given_ne_zero_getD]
  rfl

theorem good_encTktPart {x : EncTktPart} (h : TicketTimes.Dated x.times) :
    encTktPartShape.Good (encTktPartElem x).der := by
  refine good_record (by simp [fields]) ?_
  simp [timesAt, h.authtime, h.starttime, h.endtime, h.renewTill]

theorem good_authenticator {x : Authenticator} (h : 0 ≤ x.ctime) :
    authenticatorShape.Good (authenticatorElem x).der := by
  refine good_record (by simp [fields]) ?_
  simp [timesAt, h]

/-- Tickets, their encrypted parts and authenticators come back: a start time of zero as
the authentication time, an empty list as none, and an empty ciphertext with a null
pointer. -/
theorem decode_encode_ticket (tkt : SealedTicket) (part : EncTktPart) (auth : Authenticator)
    (hpart : TicketTimes.Dated part.times) (hauth : 0 ≤ auth.ctime) :
    RoundTrip (encodeKrb5Ticket tkt) decodeKrb5Ticket (SealedTicket.received tkt) ∧
    RoundTrip (encodeKrb5EncTktPart part) decodeKrb5EncTktPart (EncTktPart.received part) ∧
    RoundTrip (encodeKrb5Authenticator auth) decodeKrb5Authenticator
      (Authenticator.received auth) := by
  refine ⟨?_, ?_, ?_⟩
  · exact roundTrip_of_reads (writes_encoded (emits_ticket tkt)) (fun _ => readsAs_ticket tkt)
      (good_application (good_any _))
  · exact roundTrip_of_reads (writes_encTktPart part) (fun _ => readsAs_encTktPart part)
      (good_application (good_encTktPart hpart))
  · exact roundTrip_of_reads (writes_authenticator auth) (fun _ => readsAs_authenticator auth)
      (good_application (good_authenticator hauth))

def sampleTicket : SealedTicket where
  server := ⟨ascii "R", [ascii "h", ascii "s"], 3⟩
  encPart := ⟨1, 2, some [1, 2, 3]⟩

def sampleEncTktPart : EncTktPart where
  flags := 0xffffffff#32
  session := ⟨1, [1, 2, 3, 4, 5, 6, 7, 8]⟩
  client := ⟨ascii "R", [ascii "c"], 1⟩
  transited := ⟨1, ascii "EDU,MIT."⟩
  times := ⟨1000, 0, 2147483647, 0⟩
  caddrs := some [⟨2, [10, 0, 0, 1]⟩, ⟨2, []⟩]
  authorizationData := some []

def sampleAuthenticator : Authenticator where
  client := ⟨ascii "R", [ascii "c"], 1⟩
  checksum := some ⟨1, [1, 2, 3, 4]⟩
  cusec := 999999
  ctime := 1000000000
  subkey := none
  seqNumber := -1
  authorizationData := some [⟨1, [7]⟩]

theorem decode_encode_sampleTicket :
    RoundTrip (encodeKrb5Ticket sampleTicket) decodeKrb5Ticket sampleTicket ∧
    RoundTrip (encodeKrb5EncTktPart sampleEncTktPart) decodeKrb5EncTktPart
      { sampleEncTktPart with times := ⟨1000, 1000, 2147483647, 0⟩, authorizationData := none } ∧
    RoundTrip (encodeKrb5Authenticator sampleAuthenticator) decodeKrb5Authenticator
      sampleAuthenticator :=
  decode_encode_ticket sampleTicket sampleEncTktPart sampleAuthenticator
    ⟨by decide, by decide, by decide, by decide⟩ (by decide)

end Krb5.Asn1
