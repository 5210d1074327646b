import Krb5.Asn1.Codec

/-!
# The codec of preauthentication and authorization data

Keys, authorization data and the structures of hardware preauthentication, which
are messages without an application tag.
-/

namespace Krb5.Asn1

open Lib Lib.Ber Elem

variable {fuel : Nat}

theorem readsAs_encryptionKey (x : Keyblock) :
    ReadsAs fuel (decodeKrb5EncryptionKey fuel) .any (encryptionKeyElem x) x := by
  refine readsAs_decoded (.simple .outer ?_)
  refine .req (.integer _) ?_
  refine .req (.octets _) ?_
  exact .value _

def etypeInfoEntryElem (x : EtypeInfoEntry) : Elem := .record [
  (0, some (int32Elem x.etype)),
  (1, x.salt.map octetsElem)]

instance (x : EtypeInfoEntry) :
    Emits (asn1EncodeEtypeInfoEntry x) [etypeInfoEntryElem x] := by
  exact emits_record

theorem Accepts.etypeInfoEntry (x : EtypeInfoEntry) :
    Accepts fuel (asn1DecodeEtypeInfoEntry fuel) .any (etypeInfoEntryElem x) x := by
  refine .simple .inner ?_
  refine .req (.integer _) ?_
  refine .tagged .octets ?_
  exact .value _

theorem Accepts.etypeInfo (xs : List EtypeInfoEntry) :
    Accepts fuel (asn1DecodeEtypeInfo fuel) .any (arrayElem etypeInfoEntryElem xs) xs :=
  (Accepts.array fun x _ => Accepts.etypeInfoEntry x).any_of_each

def altMethodElem (x : AltMethod) : Elem := .record [
  (0, some (int32Elem x.method)),
  (1, (given (x.data ≠ []) x.data).map octetsElem)]

instance writes_altMethod (x : AltMethod) : Writes (encodeKrb5AltMethod x) (altMethodElem x) := by
  exact writes_encoded emits_record

theorem readsAs_altMethod (x : AltMethod) :
    ReadsAs fuel (decodeKrb5AltMethod fuel) .any (altMethodElem x) x := by
  refine readsAs_decoded (.simple .outer ?_)
  refine .req (.integer _) ?_
  refine .tagged .octets ?_
  refine .of_eq ?_
  rw [given_ne_nil_getD]

def paEncTsElem (x : PaEncTs) : Elem := .record [
  (0, some (timeElem x.patimestamp)),
  (1, (given (x.pausec ≠ 0) x.pausec).map int32Elem)]

instance writes_paEncTs (x : PaEncTs) : Writes (encodeKrb5PaEncTs x) (paEncTsElem x) := by
  exact writes_encoded emits_record

def paEncTsShape : Shape := .record .outer [] (timesAt [0])

theorem readsAs_paEncTs (x : PaEncTs) :
    ReadsAs fuel (decodeKrb5PaEncTs fuel) paEncTsShape (paEncTsElem x) x := by
  refine readsAs_decoded (.record ?_)
  refine .req (.time _) ?_
  refine .tagged .integer ?_
  refine .of_eq ?_
  rw [given_ne_zero_getD]

def passwdsequenceElem (x : PasswdPhraseElement) : Elem := .record [
  (0, some (octetsElem x.passwd)),
  (1, some (octetsElem x.phrase))]

instance emits_passwdsequence (x : PasswdPhraseElement) :
    Emits (asn1EncodePasswdsequence x) [passwdsequenceElem x] := by
  exact emits_record

theorem Accepts.passwdsequence (x : PasswdPhraseElement) :
    Accepts fuel (asn1DecodePasswdsequence fuel) .any (passwdsequenceElem x) x := by
  refine .simple .inner ?_
  refine .req (.octets _) ?_
  refine .req (.octets _) ?_
  exact .value _

def pwdDataElem (x : PwdData) : Elem := .record [
  (0, some (int32Elem x.sequenceCount)),
  (1, some (arrayElem passwdsequenceElem x.element))]

theorem writes_pwdData {x : PwdData} (h : x.element ≠ []) :
    Writes (encodeKrb5PwdData x) (pwdDataElem x) := by
  have hphrases := emits_someOf asn1EncodePasswdsequence h
  exact writes_encoded emits_record

theorem readsAs_pwdData (x : PwdData) :
    ReadsAs fuel (decodeKrb5PwdData fuel) .any (pwdDataElem x) x := by
  refine readsAs_decoded (.simple .outer ?_)
  refine .req (.integer _) ?_
  refine .req (Accepts.array fun y _ => Accepts.passwdsequence y).any_of_each ?_
  exact .value _

/-! ## Hardware preauthentication -/

theorem Follows.string {β : Type} {k : Nat} {style : Style} {optional : List Nat}
    {field : Nat → Shape} {fs : List (Nat × Option Elem)} {cont : Option Octets → Fields β}
    {o : Option Octets} {b : β}
    (hcont : Follows fuel style optional field (cont (some (o.getD []))) fs b)
    (hfield : field k = .any := by rfl)
    (hleads : Leads k optional fs := by simp [Leads]) :
    Follows fuel style optional field (optString k >>= cont)
      ((k, o.map octetsElem) :: fs) b := by
  rw [bind_assoc]
  have hacc : ∀ v, Accepts fuel asn1DecodeOctetstring (field k) (octetsElem v) v := by
    intro v
    rw [hfield]
    exact .octets v
  refine .tagged hacc ?_ (takes_getFieldBody _) hleads
  exact hcont

def samChallengeElem (x : SamChallenge) : Elem := .record [
  (0, some (int32Elem x.samType)),
  (1, some (flagsElem x.samFlags)),
  (2, x.samTypeName.map octetsElem),
  (3, x.samTrackId.map octetsElem),
  (4, x.samChallengeLabel.map octetsElem),
  (5, x.samChallenge.map octetsElem),
  (6, x.samResponsePrompt.map octetsElem),
  (7, x.samPkForSad.map octetsElem),
  (8, (given (x.samNonce ≠ 0) x.samNonce).map int32Elem),
  (9, (given (x.samCksum.contents ≠ []) x.samCksum).map checksumElem)]

instance emits_samChallenge (x : SamChallenge) :
    Emits (asn1EncodeSamChallenge x) [samChallengeElem x] := by
  exact emits_record

def SamChallenge.received (x : SamChallenge) : SamChallenge :=
  { x with
    samTypeName := some (x.samTypeName.getD [])
    samTrackId := some (x.samTrackId.getD [])
    samChallengeLabel := some (x.samChallengeLabel.getD [])
    samChallenge := some (x.samChallenge.getD [])
    samResponsePrompt := some (x.samResponsePrompt.getD [])
    samPkForSad := some (x.samPkForSad.getD [])
    samCksum := if x.samCksum.contents ≠ [] then x.samCksum else ⟨0, []⟩ }

def samChallengeShape : Shape := .record .inner [8] fun _ => .any

theorem Accepts.samChallenge (x : SamChallenge) :
    Accepts fuel (asn1DecodeSamChallenge fuel) samChallengeShape (samChallengeElem x)
      (SamChallenge.received x) := by
  refine .record ?_
  refine .req (.integer _) ?_
  refine .req (.flags _) ?_
  refine .string ?_
  refine .string ?_
  refine .string ?_
  refine .string ?_
  refine .string ?_
  refine .string ?_
  refine .opt .integer ?_
  refine .tagged .checksum ?_
  refine .of_eq ?_
  rw [given_ne_zero_getD]
  simp [SamChallenge.received]

def samKeyElem (x : SamKey) : Elem := .record [(0, some (encryptionKeyElem x.samKey))]

instance emits_samKey (x : SamKey) : Emits (asn1EncodeSamKey x) [samKeyElem x] :=
  emits_record

theorem Accepts.samKey (x : SamKey) :
    Accepts fuel (asn1DecodeEncSamKey fuel) .any (samKeyElem x) x := by
  refine .simple .inner ?_
  refine .req (.encryptionKey _) ?_
  exact .value _

def encSamResponseEncElem (x : EncSamResponseEnc) : Elem := .record [
  (0, some (int32Elem x.samNonce)),
  (1, some (timeElem x.samTimestamp)),
  (2, some (int32Elem x.samUsec)),
  (3, x.samSad.map octetsElem)]

instance emits_encSamResponseEnc (x : EncSamResponseEnc) :
    Emits (asn1EncodeEncSamResponseEnc x) [encSamResponseEncElem x] := by
  exact emits_record

def encSamResponseEncShape : Shape := .record .inner [] (timesAt [1])

theorem Accepts.encSamResponseEnc (x : EncSamResponseEnc) :
    Accepts fuel (asn1DecodeEncSamResponseEnc fuel) encSamResponseEncShape
      (encSamResponseEncElem x) { x with samSad := some (x.samSad.getD []) } := by
  refine .record ?_
  refine .present (.integer _) ?_
  refine .present (.time _) ?_
  refine .present (.integer _) ?_
  refine .string ?_
  exact .value _

def samResponseElem (x : SamResponse) : Elem := .record [
  (0, some (int32Elem x.samType)),
  (1, some (flagsElem x.samFlags)),
  (2, x.samTrackId.map octetsElem),
  (3, (given (x.samEncKey.ciphertext.getD [] ≠ []) x.samEncKey).map encDataElem),
  (4, some (encDataElem x.samEncNonceOrTs)),
  (5, (given (x.samNonce ≠ 0) x.samNonce).map int32Elem),
  (6, (given (x.samPatimestamp ≠ 0) x.samPatimestamp).map timeElem)]

instance emits_samResponse (x : SamResponse) :
    Emits (asn1EncodeSamResponse x) [samResponseElem x] := by
  exact emits_record

def SamResponse.received (x : SamResponse) : SamResponse :=
  { x with
    samTrackId := some (x.samTrackId.getD [])
    samEncKey := if x.samEncKey.ciphertext.getD [] ≠ [] then EncData.received x.samEncKey
      else ⟨0, 0, none⟩
    samEncNonceOrTs := EncData.received x.samEncNonceOrTs }

def samResponseShape : Shape := .record .inner [5, 6] (timesAt [6])

theorem Accepts.samResponse (x : SamResponse) :
    Accepts fuel (asn1DecodeSamResponse fuel) samResponseShape (samResponseElem x)
      (SamResponse.received x) := by
  refine .record ?_
  refine .req (.integer _) ?_
  refine .req (.flags _) ?_
  refine .string ?_
  refine .taggedWith (fun v _ => .encData v) ?_
  refine .req (.encData _) ?_
  refine .opt .integer ?_
  refine .opt .time ?_
  refine .of_eq ?_
  rw [given_ne_zero_getD, given_ne_zero_getD, given_map]
  simp [SamResponse.received]

def predictedSamResponseElem (x : PredictedSamResponse) : Elem := .record [
  (0, some (encryptionKeyElem x.samKey)),
  (1, some (flagsElem x.samFlags)),
  (2, some (timeElem x.stime)),
  (3, some (int32Elem x.susec)),
  (4, some (stringElem x.client.realm)),
  (5, some (principalNameElem x.client)),
  (6, x.msd.map octetsElem)]

instance emits_predictedSamResponse (x : PredictedSamResponse) :
    Emits (asn1EncodePredictedSamResponse x) [predictedSamResponseElem x] := by
  exact emits_record

def predictedSamResponseShape : Shape := .record .inner [] (timesAt [2])

theorem Accepts.predictedSamResponse (x : PredictedSamResponse) :
    Accepts fuel (asn1DecodePredictedSamResponse fuel) predictedSamResponseShape
      (predictedSamResponseElem x) { x with msd := some (x.msd.getD []) } := by
  refine .record ?_
  refine .req (.encryptionKey _) ?_
  refine .req (.flags _) ?_
  refine .req (.time _) ?_
  refine .req (.integer _) ?_
  refine .req (.string _) ?_
  refine .req (.principalName _) ?_
  refine .string ?_
  exact .value _

end Krb5.Asn1
