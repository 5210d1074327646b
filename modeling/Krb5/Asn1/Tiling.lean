import Krb5.Asn1.LengthForm

/-!
# Lengths that encoders return

Every encoder of `asn1_k_encode.c` adds up by hand the lengths of what it inserts. `Part` lists
these encoders. Each of them that succeeds has put one element in front of the buffer and returns
how many octets that element has.
-/

namespace Krb5.Asn1

open Lib Lib.Ber List

variable {msgType : Int32} {x : KdcReq}

/-! ## The encoders of `asn1_k_encode.c` -/

inductive Part
  | ui4
  | realm
  | principalName
  | kerberosTime
  | hostAddress
  | hostAddresses
  | encryptedData
  | krb5Flags
  | apOptions
  | ticketFlags
  | kdcOptions
  | authorizationData
  | krb5AuthdataElt
  | kdcRep
  | encKdcRepPart
  | kdcReqBody
  | encryptionKey
  | checksum
  | transitedEncoding
  | lastReq
  | lastReqEntry
  | sequenceOfPaData
  | paData
  | sequenceOfTicket
  | ticket
  | sequenceOfEnctype
  | kdcReq
  | krbSafeBody
  | sequenceOfKrbCredInfo
  | krbCredInfo
  | etypeInfoEntry
  | etypeInfo
  | sequenceOfPasswdsequence
  | passwdsequence
  | samFlags
  | samChallenge
  | samKey
  | encSamResponseEnc
  | samResponse
  | predictedSamResponse
deriving DecidableEq, Repr

namespace Part

abbrev Structure : Part → Type
  | ui4 => UInt32
  | realm | principalName => Principal
  | kerberosTime => Timestamp
  | hostAddress => Address
  | hostAddresses => List Address
  | encryptedData => EncData
  | krb5Flags | apOptions | ticketFlags | kdcOptions | samFlags => Flags
  | authorizationData => List Authdata
  | krb5AuthdataElt => Authdata
  | kdcRep => Int32 × KdcRep
  | encKdcRepPart => EncKdcRepPart
  | kdcReqBody => KdcReq
  | encryptionKey => Keyblock
  | checksum => Checksum
  | transitedEncoding => Transited
  | lastReq => List LastReqEntry
  | lastReqEntry => LastReqEntry
  | sequenceOfPaData => List PaData
  | paData => PaData
  | sequenceOfTicket => List SealedTicket
  | ticket => SealedTicket
  | sequenceOfEnctype => List Int32
  | kdcReq => Int32 × KdcReq
  | krbSafeBody => Safe
  | sequenceOfKrbCredInfo => List CredInfo
  | krbCredInfo => CredInfo
  | etypeInfoEntry => EtypeInfoEntry
  | etypeInfo => List EtypeInfoEntry
  | sequenceOfPasswdsequence => List PasswdPhraseElement
  | passwdsequence => PasswdPhraseElement
  | samChallenge => SamChallenge
  | samKey => SamKey
  | encSamResponseEnc => EncSamResponseEnc
  | samResponse => SamResponse
  | predictedSamResponse => PredictedSamResponse

def encode : (part : Part) → part.Structure → Encoder Nat
  | ui4 => asn1EncodeUi4
  | realm => asn1EncodeRealm
  | principalName => asn1EncodePrincipalName
  | kerberosTime => asn1EncodeKerberosTime
  | hostAddress => asn1EncodeHostAddress
  | hostAddresses => asn1EncodeHostAddresses
  | encryptedData => asn1EncodeEncryptedData
  | krb5Flags => asn1EncodeKrb5Flags
  | apOptions => asn1EncodeApOptions
  | ticketFlags => asn1EncodeTicketFlags
  | kdcOptions => asn1EncodeKdcOptions
  | authorizationData => asn1EncodeAuthorizationData
  | krb5AuthdataElt => asn1EncodeKrb5AuthdataElt
  | kdcRep => fun x => asn1EncodeKdcRep x.1 x.2
  | encKdcRepPart => asn1EncodeEncKdcRepPart
  | kdcReqBody => asn1EncodeKdcReqBody
  | encryptionKey => asn1EncodeEncryptionKey
  | checksum => asn1EncodeChecksum
  | transitedEncoding => asn1EncodeTransitedEncoding
  | lastReq => asn1EncodeLastReq
  | lastReqEntry => asn1EncodeLastReqEntry
  | sequenceOfPaData => asn1EncodeSequenceOfPaData
  | paData => asn1EncodePaData
  | sequenceOfTicket => asn1EncodeSequenceOfTicket
  | ticket => asn1EncodeTicket
  | sequenceOfEnctype => asn1EncodeSequenceOfEnctype
  | kdcReq => fun x => asn1EncodeKdcReq x.1 x.2
  | krbSafeBody => asn1EncodeKrbSafeBody
  | sequenceOfKrbCredInfo => asn1EncodeSequenceOfKrbCredInfo
  | krbCredInfo => asn1EncodeKrbCredInfo
  | etypeInfoEntry => asn1EncodeEtypeInfoEntry
  | etypeInfo => asn1EncodeEtypeInfo
  | sequenceOfPasswdsequence => asn1EncodeSequenceOfPasswdsequence
  | passwdsequence => asn1EncodePasswdsequence
  | samFlags => asn1EncodeSamFlags
  | samChallenge => asn1EncodeSamChallenge
  | samKey => asn1EncodeSamKey
  | encSamResponseEnc => asn1EncodeEncSamResponseEnc
  | samResponse => asn1EncodeSamResponse
  | predictedSamResponse => asn1EncodePredictedSamResponse

end Part

theorem not_succeeds_refuse {e : EncodeError} : ¬Succeeds (refuse e : Encoder Nat) := by
  rintro ⟨buf, r, hrun⟩
  cases hrun

theorem msgType_of_kdcRep {x : KdcRep}
    (h : Succeeds (asn1EncodeKdcRep msgType x)) : msgType = 11 ∨ msgType = 13 := by
  by_contra hnot
  have hbad : msgType ≠ 11 ∧ msgType ≠ 13 := not_or.mp hnot
  refine not_succeeds_refuse (h.makeseq (refuse .badMsgtype) ?_)
  simp [hbad]

theorem msgType_of_kdcReq (h : Succeeds (asn1EncodeKdcReq msgType x)) :
    msgType = 10 ∨ msgType = 12 := by
  by_contra hnot
  have hbad : msgType ≠ 10 ∧ msgType ≠ 12 := not_or.mp hnot
  refine not_succeeds_refuse (h.makeseq (refuse .badMsgtype) ?_)
  simp [hbad]

theorem body_of_kdcReq (h : Succeeds (asn1EncodeKdcReq msgType x)) :
    Succeeds (asn1EncodeKdcReqBody x) :=
  (h.makeseq (addfield 4 (asn1EncodeKdcReqBody x)) (by simp)).addfield

theorem lastReq_of_encKdcRepPart {x : EncKdcRepPart} (h : Succeeds (asn1EncodeEncKdcRepPart x)) :
    x.lastReq ≠ [] :=
  (h.makeseq (addfield 1 (asn1EncodeLastReq x.lastReq)) (by simp)).addfield.someOf

/-- One case for each encoder that can fail: the others emit whatever they are given. -/
theorem Part.emits (part : Part) (x : part.Structure) (h : Succeeds (part.encode x)) :
    ∃ e, Emits (part.encode x) [e] := by
  cases part with
  | hostAddresses => exact ⟨_, emits_someOf asn1EncodeHostAddress h.someOf⟩
  | authorizationData => exact ⟨_, emits_someOf asn1EncodeKrb5AuthdataElt h.someOf⟩
  | kdcRep => exact ⟨_, emits_kdcRep (msgType_of_kdcRep h) x.2⟩
  | encKdcRepPart => exact ⟨_, emits_encKdcRepPart (lastReq_of_encKdcRepPart h)⟩
  | kdcReqBody =>
    obtain ⟨realm, hrealm⟩ := reqRealm_of_body h
    exact ⟨_, emits_kdcReqBody hrealm⟩
  | lastReq => exact ⟨_, emits_someOf asn1EncodeLastReqEntry h.someOf⟩
  | sequenceOfTicket => exact ⟨_, emits_someOf asn1EncodeTicket h.someOf⟩
  | kdcReq =>
    obtain ⟨realm, hrealm⟩ := reqRealm_of_body (body_of_kdcReq h)
    exact ⟨_, emits_kdcReq (msgType_of_kdcReq h) hrealm⟩
  | sequenceOfPasswdsequence => exact ⟨_, emits_someOf asn1EncodePasswdsequence h.someOf⟩
  | _ =>
    dsimp [Part.encode]
    exact ⟨_, inferInstance⟩

theorem Part.encode_eq_ok {part : Part} {x : part.Structure} {buf buf' : Octets} {n : Nat}
    (h : part.encode x buf = .ok (n, buf')) :
    ∃ e : Elem, e.WellFormed ∧ buf' = e.der.octets ++ buf ∧ n = e.der.octets.length := by
  obtain ⟨e, he⟩ := part.emits x ⟨buf, _, h⟩
  have hrun := he.run buf
  rw [h, Except.ok.injEq, Prod.mk.injEq] at hrun
  simp only [map_cons, map_nil, Tlv.octetsAll_cons, Tlv.octetsAll_nil,
    append_nil] at hrun
  exact ⟨e, he.wf e (mem_singleton_self e), hrun.2, hrun.1⟩

theorem Kind.encode_eq_ok {kind : Kind} {x : kind.Structure} {code : Octets}
    (h : kind.encode x = .ok code) : ∃ e : Elem, e.WellFormed ∧ code = e.der.octets := by
  obtain ⟨e, a, hspeaks⟩ := kind.speaks x h
  have hrun := hspeaks.writes.run
  rw [h, Except.ok.injEq] at hrun
  exact ⟨e, hspeaks.writes.wf, hrun⟩

/-- Every encoder that succeeds returns the number of octets it inserted, which are one
element; every message is one element. Lengths are of type `int`, so that no encoding has
2^31 octets. -/
theorem encoders_count_and_tile :
    (∀ (part : Part) (x : part.Structure) (buf buf' : Octets) (n : Nat),
      part.encode x buf = .ok (n, buf') →
        ∃ written, buf' = written ++ buf ∧ n = written.length ∧
          (n < 2 ^ 31 → Tiled written)) ∧
    (∀ (kind : Kind) (x : kind.Structure) (code : Octets),
      kind.encode x = .ok code → code.length < 2 ^ 31 → Tiled code) := by
  constructor
  · intro part x buf buf' n h
    obtain ⟨e, hwf, hbuf, hn⟩ := Part.encode_eq_ok h
    exact ⟨_, hbuf, hn, fun hsmall => hwf.tiled (by omega)⟩
  · intro kind x code h hsmall
    obtain ⟨e, hwf, rfl⟩ := Kind.encode_eq_ok h
    exact hwf.tiled (by omega)

theorem encoders_count_and_tile_key :
    Part.encode .ui4 7 [] = .ok (3, [2, 1, 7]) ∧ Tiled [48, 15, 160, 3, 2, 1, 1, 161, 8, 4, 6,
      1, 2, 3, 4, 5, 6] := by
  refine ⟨rfl, encoders_count_and_tile.2 .encryptionKey
    { enctype := 1, contents := [1, 2, 3, 4, 5, 6] } _ ?_ (by decide)⟩
  decide +kernel

end Krb5.Asn1
