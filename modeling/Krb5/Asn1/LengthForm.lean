import Krb5.Asn1.ExchangeCodec
import Krb5.Asn1.KdcCodec
import Krb5.Asn1.PreauthCodec
import Krb5.Asn1.TicketCodec

/-!
# Messages in other length forms

The encoders of `krb5_encode.c` write definite lengths. `Kind` lists the
messages, and for each of them the exact condition under which the decoder takes
a form with some indefinite lengths for the message that it is.
-/

namespace Krb5.Asn1

open Lib Lib.Ber List

def Succeeds {α : Type} (encoder : Encoder α) : Prop := ∃ buf r, encoder buf = .ok r

variable {α : Type} {code : Octets}

section Succeeds

variable {β : Type} {k : Nat} {encoder : Encoder Nat} {encoders : List (Encoder Nat)}

theorem Succeeds.bind {x : Encoder α} {f : α → Encoder β} (h : Succeeds (x >>= f)) :
    Succeeds x ∧ ∃ a, Succeeds (f a) := by
  obtain ⟨buf, r, hrun⟩ := h
  obtain ⟨a, buf', hx, hf⟩ := stateT_bind_eq_ok.mp hrun
  exact ⟨⟨buf, _, hx⟩, a, buf', r, hf⟩

theorem Succeeds.destroying (h : Succeeds (destroying encoder)) : Succeeds encoder := by
  obtain ⟨buf, r, hrun⟩ := h
  exact ⟨buf, r, mapError_eq_ok.mp hrun⟩

theorem Succeeds.addfield (h : Succeeds (addfield k encoder)) : Succeeds encoder :=
  h.bind.1.destroying

theorem Succeeds.inTurn (h : Succeeds (inTurn encoders)) :
    ∀ encoder ∈ encoders, Succeeds encoder := by
  induction encoders with
  | nil => simp
  | cons encoder encoders ih =>
    obtain ⟨hfirst, n, hrest⟩ := h.bind
    rw [forall_mem_cons]
    exact ⟨hfirst, ih hrest.bind.1⟩

theorem Succeeds.makeseq (h : Succeeds (makeseq encoders)) :
    ∀ encoder ∈ encoders, Succeeds encoder := h.bind.1.inTurn

theorem Succeeds.apptag (h : Succeeds (apptag k encoder)) : Succeeds encoder := h.bind.1

theorem succeeds_of_encoded (h : encoded encoder = .ok code) : Succeeds encoder := by
  obtain ⟨r, hrun, -⟩ := map_eq_ok.mp h
  exact ⟨[], r, hrun⟩

theorem Succeeds.someOf {encoder : α → Encoder Nat} {vals : List α}
    (h : Succeeds (someOf encoder vals)) : vals ≠ [] := by
  rintro rfl
  obtain ⟨buf, r, hrun⟩ := h
  cases hrun

theorem Succeeds.reqRealm {x : KdcReq} (h : Succeeds (encodeReqRealm x)) :
    ∃ realm, reqRealm x = some realm := by
  obtain ⟨buf, r, hrun⟩ := h
  rw [Asn1.reqRealm]
  by_cases hskey : isflagset x.kdcOptions kdcOptEncTktInSkey
  · rw [if_pos hskey]
    cases htkts : nonempty x.secondTicket with
    | none =>
      simp only [encodeReqRealm, if_pos hskey, htkts] at hrun
      cases hrun
    | some tickets =>
      obtain ⟨ticket, rest, rfl⟩ := exists_cons_of_ne_nil (ne_nil_of_mem_nonempty htkts)
      exact ⟨ticket.server.realm, rfl⟩
  · rw [if_neg hskey]
    cases hsrv : x.server with
    | none =>
      simp only [encodeReqRealm, if_neg hskey, hsrv] at hrun
      cases hrun
    | some server => exact ⟨server.realm, rfl⟩

end Succeeds

/-! ## Messages and their codecs -/

/-- The messages of `krb5_encode.c`. -/
inductive Kind
  | authenticator
  | ticket
  | encryptionKey
  | encTktPart
  | encKdcRepPart
  | asRep
  | tgsRep
  | apReq
  | apRep
  | apRepEncPart
  | asReq
  | tgsReq
  | kdcReqBody
  | safe
  | priv
  | encPrivPart
  | cred
  | encCredPart
  | error
  | authdata
  | altMethod
  | etypeInfo
  | encData
  | paEncTs
  | pwdSequence
  | pwdData
  | padataSequence
  | samChallenge
  | samKey
  | encSamResponseEnc
  | samResponse
  | predictedSamResponse
deriving DecidableEq, Repr

namespace Kind

abbrev Structure : Kind → Type
  | authenticator => Authenticator
  | ticket => SealedTicket
  | encryptionKey => Keyblock
  | encTktPart => EncTktPart
  | encKdcRepPart => EncKdcRepPart
  | asRep | tgsRep => KdcRep
  | apReq => ApReq
  | apRep => ApRep
  | apRepEncPart => ApRepEncPart
  | asReq | tgsReq | kdcReqBody => KdcReq
  | safe => Safe
  | priv => Priv
  | encPrivPart => PrivEncPart
  | cred => Cred
  | encCredPart => CredEncPart
  | error => KrbError
  | authdata => List Authdata
  | altMethod => AltMethod
  | etypeInfo => List EtypeInfoEntry
  | encData => EncData
  | paEncTs => PaEncTs
  | pwdSequence => PasswdPhraseElement
  | pwdData => PwdData
  | padataSequence => List PaData
  | samChallenge => SamChallenge
  | samKey => SamKey
  | encSamResponseEnc => EncSamResponseEnc
  | samResponse => SamResponse
  | predictedSamResponse => PredictedSamResponse

def encode : (kind : Kind) → kind.Structure → Except EncodeStop Octets
  | authenticator => encodeKrb5Authenticator
  | ticket => encodeKrb5Ticket
  | encryptionKey => encodeKrb5EncryptionKey
  | encTktPart => encodeKrb5EncTktPart
  | encKdcRepPart => encodeKrb5EncKdcRepPart
  | asRep => encodeKrb5AsRep
  | tgsRep => encodeKrb5TgsRep
  | apReq => encodeKrb5ApReq
  | apRep => encodeKrb5ApRep
  | apRepEncPart => encodeKrb5ApRepEncPart
  | asReq => encodeKrb5AsReq
  | tgsReq => encodeKrb5TgsReq
  | kdcReqBody => encodeKrb5KdcReqBody
  | safe => encodeKrb5Safe
  | priv => encodeKrb5Priv
  | encPrivPart => encodeKrb5EncPrivPart
  | cred => encodeKrb5Cred
  | encCredPart => encodeKrb5EncCredPart
  | error => encodeKrb5Error
  | authdata => encodeKrb5Authdata
  | altMethod => encodeKrb5AltMethod
  | etypeInfo => encodeKrb5EtypeInfo
  | encData => encodeKrb5EncData
  | paEncTs => encodeKrb5PaEncTs
  | pwdSequence => encodeKrb5PwdSequence
  | pwdData => encodeKrb5PwdData
  | padataSequence => encodeKrb5PadataSequence
  | samChallenge => encodeKrb5SamChallenge
  | samKey => encodeKrb5SamKey
  | encSamResponseEnc => encodeKrb5EncSamResponseEnc
  | samResponse => encodeKrb5SamResponse
  | predictedSamResponse => encodeKrb5PredictedSamResponse

def decode (fuel : Nat) : (kind : Kind) → Octets → Except DecodeError kind.Structure
  | authenticator => decodeKrb5Authenticator fuel
  | ticket => decodeKrb5Ticket fuel
  | encryptionKey => decodeKrb5EncryptionKey fuel
  | encTktPart => decodeKrb5EncTktPart fuel
  | encKdcRepPart => decodeKrb5EncKdcRepPart fuel
  | asRep => decodeKrb5AsRep fuel
  | tgsRep => decodeKrb5TgsRep fuel
  | apReq => decodeKrb5ApReq fuel
  | apRep => decodeKrb5ApRep fuel
  | apRepEncPart => decodeKrb5ApRepEncPart fuel
  | asReq => fun code => (decodeKrb5AsReq fuel code).map Prod.fst
  | tgsReq => fun code => (decodeKrb5TgsReq fuel code).map Prod.fst
  | kdcReqBody => decodeKrb5KdcReqBody fuel
  | safe => decodeKrb5Safe fuel
  | priv => decodeKrb5Priv fuel
  | encPrivPart => decodeKrb5EncPrivPart fuel
  | cred => decodeKrb5Cred fuel
  | encCredPart => decodeKrb5EncCredPart fuel
  | error => decodeKrb5Error fuel
  | authdata => decodeKrb5Authdata fuel
  | altMethod => decodeKrb5AltMethod fuel
  | etypeInfo => decodeKrb5EtypeInfo fuel
  | encData => decodeKrb5EncData fuel
  | paEncTs => decodeKrb5PaEncTs fuel
  | pwdSequence => decodeKrb5PwdSequence fuel
  | pwdData => decodeKrb5PwdData fuel
  | padataSequence => decodeKrb5PadataSequence fuel
  | samChallenge => decodeKrb5SamChallenge fuel
  | samKey => decodeKrb5EncSamKey fuel
  | encSamResponseEnc => decodeKrb5EncSamResponseEnc fuel
  | samResponse => decodeKrb5SamResponse fuel
  | predictedSamResponse => decodeKrb5PredictedSamResponse fuel

def shape : Kind → Shape
  | authenticator => .each authenticatorShape
  | encTktPart => .each encTktPartShape
  | encKdcRepPart => .each encKdcRepPartShape
  | apRepEncPart => .each apRepEncPartShape
  | asReq | tgsReq => .each kdcReqShape
  | kdcReqBody => kdcReqBodyShape
  | safe => .each safeShape
  | encPrivPart => .each privEncPartShape
  | encCredPart => .each credEncPartShape
  | error => .each errorShape
  | paEncTs => paEncTsShape
  | samChallenge => samChallengeShape
  | encSamResponseEnc => encSamResponseEncShape
  | samResponse => samResponseShape
  | predictedSamResponse => predictedSamResponseShape
  | _ => .any

end Kind

structure Speaks (kind : Kind) (x : kind.Structure) (e : Elem) (a : kind.Structure) : Prop where
  writes : Writes (kind.encode x) e
  reads : ∀ fuel, ReadsAs fuel (kind.decode fuel) kind.shape e a

theorem ReadsAs.any_of_each {fuel : Nat} {decode : Octets → Except DecodeError α} {e : Elem} {a : α}
    (h : ReadsAs fuel decode (.each .any) e a) : ReadsAs fuel decode .any e a := by
  intro t hwf herase hfuel hsmall
  have hgood : (Shape.each .any).Good t := fun _ _ => trivial
  exact ⟨fun _ => (h hwf herase hfuel hsmall).1 hgood, fun hnot => absurd trivial hnot⟩

theorem decoded_map {β : Type} (f : α → β) (decoder : Decoder α) (code : Octets) :
    (decoded decoder code).map f = decoded (f <$> decoder) code := by
  change ((decoder (.wrapData code)).map Prod.fst).map f =
    Except.map Prod.fst ((decoder (.wrapData code)) >>= fun r => pure (f r.1, r.2))
  cases decoder (.wrapData code) <;> rfl

theorem readsAs_kdcReq {fuel num : Nat} {msgType : Int32} {type : UInt32} (hnum : num < 31)
    (htype : msgType.toInt = type.toNat) (realm : Octets) (x : KdcReq) :
    ReadsAs fuel (fun code => (decoded (checkApptag num >>= fun _ => asn1DecodeKdcReq fuel)
      code).map Prod.fst) (.each kdcReqShape) (.application num (kdcReqElem msgType realm x))
      { KdcReq.received realm x with msgType := type } := by
  simp only [decoded_map, map_bind]
  exact readsAs_application (Accepts.kdcReq htype realm x) (opens_checkApptag _) hnum

/-! What an encoder needs for its success. -/

section Needs

variable {x : KdcReq}

theorem lastReq_ne_nil {x : EncKdcRepPart} (h : encodeKrb5EncKdcRepPart x = .ok code) :
    x.lastReq ≠ [] := by
  have hfields := (succeeds_of_encoded h).apptag.makeseq
  exact (hfields (addfield 1 (asn1EncodeLastReq x.lastReq)) (by simp)).addfield.someOf

theorem tickets_ne_nil {x : Cred} (h : encodeKrb5Cred x = .ok code) : x.tickets ≠ [] := by
  have hfields := (succeeds_of_encoded h).apptag.makeseq
  exact (hfields (addfield 2 (asn1EncodeSequenceOfTicket x.tickets)) (by simp)).addfield.someOf

theorem element_ne_nil {x : PwdData} (h : encodeKrb5PwdData x = .ok code) : x.element ≠ [] := by
  have hfields := (succeeds_of_encoded h).makeseq
  exact (hfields (addfield 1 (asn1EncodeSequenceOfPasswdsequence x.element))
    (by simp)).addfield.someOf

theorem reqRealm_of_body (h : Succeeds (asn1EncodeKdcReqBody x)) :
    ∃ realm, reqRealm x = some realm :=
  (h.makeseq (encodeReqRealm x) (by simp)).reqRealm

theorem reqRealm_of_req {num : Nat} {msgType : Int32}
    (h : encoded (apptag num (asn1EncodeKdcReq msgType x)) = .ok code) :
    ∃ realm, reqRealm x = some realm := by
  have hfields := (succeeds_of_encoded h).apptag.makeseq
  exact reqRealm_of_body (hfields (addfield 4 (asn1EncodeKdcReqBody x)) (by simp)).addfield

end Needs

/-- Every message is the encoding of an element that its decoder accepts. -/
theorem Kind.speaks (kind : Kind) (x : kind.Structure) (h : kind.encode x = .ok code) :
    ∃ e a, Speaks kind x e a := by
  cases kind with
  | authenticator => exact ⟨_, _, writes_authenticator x, fun _ => readsAs_authenticator x⟩
  | ticket => exact ⟨_, _, writes_encoded (emits_ticket x), fun _ => (readsAs_ticket x).any_of_each⟩
  | encryptionKey =>
    exact ⟨_, _, writes_encoded (emits_encryptionKey x), fun _ => readsAs_encryptionKey x⟩
  | encTktPart => exact ⟨_, _, writes_encTktPart x, fun _ => readsAs_encTktPart x⟩
  | encKdcRepPart =>
    exact ⟨_, _, writes_encKdcRepPart (lastReq_ne_nil h), fun _ => readsAs_encKdcRepPart x⟩
  | asRep => exact ⟨_, _, writes_asRep x, fun _ => (readsAs_asRep x).any_of_each⟩
  | tgsRep => exact ⟨_, _, writes_tgsRep x, fun _ => (readsAs_tgsRep x).any_of_each⟩
  | apReq => exact ⟨_, _, writes_apReq x, fun _ => (readsAs_apReq x).any_of_each⟩
  | apRep => exact ⟨_, _, writes_apRep x, fun _ => (readsAs_apRep x).any_of_each⟩
  | apRepEncPart => exact ⟨_, _, writes_apRepEncPart x, fun _ => readsAs_apRepEncPart x⟩
  | asReq =>
    obtain ⟨realm, hrealm⟩ := reqRealm_of_req h
    exact ⟨_, _, writes_encoded (emits_apptag (emits_kdcReq (.inl rfl) hrealm)),
      fun _ => @readsAs_kdcReq _ 10 10 10 (by decide) rfl realm x⟩
  | tgsReq =>
    obtain ⟨realm, hrealm⟩ := reqRealm_of_req h
    refine ⟨_, { KdcReq.received realm x with msgType := 12 },
      writes_encoded (emits_apptag (emits_kdcReq (.inr rfl) hrealm)), fun _ => ?_⟩
    simp only [Kind.decode, decodeKrb5TgsReq_eq]
    exact @readsAs_kdcReq _ 12 12 12 (by decide) rfl realm x
  | kdcReqBody =>
    obtain ⟨realm, hrealm⟩ := reqRealm_of_body (succeeds_of_encoded h)
    exact ⟨_, _, writes_encoded (emits_kdcReqBody hrealm),
      fun _ => readsAs_decoded (.kdcReqBody realm x)⟩
  | safe => exact ⟨_, _, writes_safe x, fun _ => readsAs_safe x⟩
  | priv => exact ⟨_, _, writes_priv x, fun _ => (readsAs_priv x).any_of_each⟩
  | encPrivPart => exact ⟨_, _, writes_privEncPart x, fun _ => readsAs_privEncPart x⟩
  | cred => exact ⟨_, _, writes_cred (tickets_ne_nil h), fun _ => (readsAs_cred x).any_of_each⟩
  | encCredPart => exact ⟨_, _, writes_credEncPart x, fun _ => readsAs_credEncPart x⟩
  | error => exact ⟨_, _, writes_error x, fun _ => readsAs_error x⟩
  | authdata =>
    have hne : x ≠ [] := (succeeds_of_encoded h).someOf
    exact ⟨_, _, writes_encoded (emits_someOf asn1EncodeKrb5AuthdataElt hne),
      fun _ => readsAs_decoded (.authorizationData x)⟩
  | altMethod => exact ⟨_, _, writes_altMethod x, fun _ => readsAs_altMethod x⟩
  | etypeInfo =>
    exact ⟨_, _, writes_encoded emits_array, fun _ => readsAs_decoded (.etypeInfo x)⟩
  | encData =>
    exact ⟨_, _, writes_encoded (emits_encData x), fun _ => readsAs_decoded (.encData x)⟩
  | paEncTs => exact ⟨_, _, writes_paEncTs x, fun _ => readsAs_paEncTs x⟩
  | pwdSequence =>
    exact ⟨_, _, writes_encoded (emits_passwdsequence x),
      fun _ => readsAs_decoded (.passwdsequence x)⟩
  | pwdData => exact ⟨_, _, writes_pwdData (element_ne_nil h), fun _ => readsAs_pwdData x⟩
  | padataSequence =>
    exact ⟨_, _, writes_encoded emits_array, fun _ => readsAs_decoded (.sequenceOfPaData x)⟩
  | samChallenge =>
    exact ⟨_, _, writes_encoded (emits_samChallenge x), fun _ => readsAs_decoded (.samChallenge x)⟩
  | samKey =>
    exact ⟨_, _, writes_encoded (emits_samKey x), fun _ => readsAs_decoded (.samKey x)⟩
  | encSamResponseEnc =>
    exact ⟨_, _, writes_encoded (emits_encSamResponseEnc x),
      fun _ => readsAs_decoded (.encSamResponseEnc x)⟩
  | samResponse =>
    exact ⟨_, _, writes_encoded (emits_samResponse x), fun _ => readsAs_decoded (.samResponse x)⟩
  | predictedSamResponse =>
    exact ⟨_, _, writes_encoded (emits_predictedSamResponse x),
      fun _ => readsAs_decoded (.predictedSamResponse x)⟩

/-- Definite lengths do no harm: what is good stays so with distinguished ones. -/
theorem Shape.Good.der {shape : Shape} {t : Tlv} (h : shape.Good t) : shape.Good t.erase.der := by
  induction shape generalizing t with
  | any => trivial
  | time =>
    cases t with
    | primitive id len contents => exact h
    | definite id len children => exact h.elim
    | indefinite id children => exact h.elim
  | each elem ih =>
    intro c hc
    rw [Tlv.children_der_erase] at hc
    obtain ⟨d, hd, rfl⟩ := mem_map.mp hc
    exact ih (h d hd)
  | record style optional field ih =>
    obtain ⟨hne, hfields, -⟩ := h
    have hlast : ∃ w ∈ t.erase.der.children.getLast?, w.isIndefinite = false := by
      rw [Tlv.children_der_erase, getLast?_map, getLast?_eq_some_getLast hne]
      exact ⟨_, rfl, Elem.isIndefinite_der _⟩
    refine ⟨?_, ?_, ?_⟩
    · rw [Tlv.children_der_erase]
      simpa using hne
    · intro w hw c hc
      rw [Tlv.children_der_erase] at hw
      obtain ⟨v, hv, rfl⟩ := mem_map.mp hw
      rw [Tlv.children_der_erase] at hc
      obtain ⟨d, hd, rfl⟩ := mem_map.mp hc
      rw [Tlv.number, Tlv.id_der_erase]
      exact ih _ (hfields v hv d hd)
    · intro _
      cases style with
      | inner => exact .inr hlast
      | outer => exact ⟨Elem.isIndefinite_der _, hlast⟩

/-- The decoder takes another form of a message for that message exactly when the form is
one of those it can read. -/
theorem decode_lengthForm_iff (kind : Kind) (x : kind.Structure) {code : Octets} {t : Tlv}
    {fuel : Nat} (hcode : kind.encode x = .ok code) (hwf : t.WellFormed)
    (hsame : t.erase.der.octets = code) (hsmall : code.length < 2 ^ 31 ∧ t.octets.length < 2 ^ 31)
    (hfuel : code.length < fuel ∧ t.octets.length < fuel) :
    (∃ val, kind.decode fuel code = .ok val ∧ kind.decode fuel t.octets = .ok val) ↔
      kind.shape.Good t := by
  obtain ⟨e, a, hspeaks⟩ := kind.speaks x hcode
  have hrun := hspeaks.writes.run
  rw [hcode, Except.ok.injEq] at hrun
  subst hrun
  have herase : t.erase = e := by
    have heq : t.erase.der.octets ++ [] = e.der.octets ++ [] := by rw [hsame]
    exact (hwf.erase.octets_append_inj hspeaks.writes.wf (by rw [hsame]; omega) (by omega) heq).1
  have hdef := hspeaks.reads fuel (hspeaks.writes.wf.der (by omega)) e.erase_der hfuel.1 hsmall.1
  have hform := hspeaks.reads fuel hwf herase hfuel.2 hsmall.2
  constructor
  · rintro ⟨val, -, hval⟩
    by_contra hnot
    obtain ⟨err, herr⟩ := hform.2 hnot
    rw [hval] at herr
    cases herr
  · intro hgood
    have hgood' := hgood.der
    rw [herase] at hgood'
    exact ⟨a, hdef.1 hgood', hform.1 hgood⟩

/-! ## Messages one behind the other -/

def IsMessage (code : Octets) : Prop :=
  code.length < 2 ^ 32 ∧ ∃ (kind : Kind) (x : kind.Structure), kind.encode x = .ok code

theorem IsMessage.exists_elem (h : IsMessage code) :
    ∃ e : Elem, e.WellFormed ∧ e.der.octets = code := by
  obtain ⟨-, kind, x, hcode⟩ := h
  obtain ⟨e, a, hspeaks⟩ := kind.speaks x hcode
  exact ⟨e, hspeaks.writes.wf, Except.ok.inj (hspeaks.writes.run.symm.trans hcode)⟩

theorem IsMessage.ne_nil (h : IsMessage code) : code ≠ [] := by
  obtain ⟨e, -, rfl⟩ := h.exists_elem
  simp [Tlv.octets_eq]

/-- No message is a proper beginning of another. -/
theorem IsMessage.append_inj {code' r r' : Octets} (h : IsMessage code) (h' : IsMessage code')
    (heq : code ++ r = code' ++ r') : code = code' ∧ r = r' := by
  obtain ⟨e, hwf, rfl⟩ := h.exists_elem
  obtain ⟨e', hwf', rfl⟩ := h'.exists_elem
  obtain ⟨rfl, hr⟩ := hwf.octets_append_inj hwf' h.1 h'.1 heq
  exact ⟨rfl, hr⟩

/-- Messages of any kinds that follow each other can be cut apart in one way only. -/
theorem messages_flatten_inj {ms ms' : List Octets} (h : ∀ m ∈ ms, IsMessage m)
    (h' : ∀ m ∈ ms', IsMessage m) (heq : ms.flatten = ms'.flatten) : ms = ms' := by
  induction ms generalizing ms' with
  | nil =>
    cases ms' with
    | nil => rfl
    | cons m' ms' => simp [(h' m' mem_cons_self).ne_nil] at heq
  | cons m ms ih =>
    cases ms' with
    | nil => simp [(h m mem_cons_self).ne_nil] at heq
    | cons m' ms' =>
      -- where the first message ends is read off its own octets
      rw [forall_mem_cons] at h h'
      obtain ⟨rfl, hrest⟩ := h.1.append_inj h'.1 heq
      rw [ih h.2 h'.2 hrest]

theorem messages_flatten_inj_keys : ∃ m, IsMessage m ∧ ∀ ms', (∀ m' ∈ ms', IsMessage m') →
    [m, m].flatten = ms'.flatten → [m, m] = ms' := by
  have hkey : IsMessage [0x30, 11, 0xa0, 3, 2, 1, 1, 0xa1, 4, 4, 2, 7, 7] :=
    ⟨by decide, .encryptionKey, ⟨1, [7, 7]⟩, by decide +kernel⟩
  exact ⟨_, hkey, fun ms' => messages_flatten_inj (by simp [hkey])⟩

/-! ## Forms that are read and forms that are not -/

instance (style : Style) (indef : Bool) (last : Option Tlv) :
    Decidable (style.Fits indef last) :=
  match style with
  | .inner => inferInstanceAs (Decidable (_ ∨ _))
  | .outer => inferInstanceAs (Decidable (_ ∧ _))

instance Shape.decidableGood : (shape : Shape) → (t : Tlv) → Decidable (shape.Good t)
  | any, _ => isTrue trivial
  | time, .primitive _ _ _ => inferInstanceAs (Decidable (_ = true))
  | time, .definite _ _ _ => isFalse id
  | time, .indefinite _ _ => isFalse id
  | each elem, t =>
    have : ∀ c, Decidable (elem.Good c) := elem.decidableGood
    inferInstanceAs (Decidable (∀ c ∈ t.children, elem.Good c))
  | record style optional field, t =>
    have : ∀ k c, Decidable ((field k).Good c) := fun k => (field k).decidableGood
    have : Decidable (t.children ≠ []) :=
      decidable_of_iff (t.children.isEmpty = false) (by simp)
    inferInstanceAs (Decidable (_ ∧ _ ∧ (_ → _)))

def reform (choose : UInt8 → Bool) : Elem → Tlv
  | .prim id contents => .primitive id (derLength contents.length) contents
  | .cons id children =>
    if choose id then .indefinite id (reformAll children)
    else .definite id (derLength (Tlv.octetsAll (reformAll children)).length)
      (reformAll children)
where
  reformAll : List Elem → List Tlv
    | [] => []
    | e :: es => reform choose e :: reformAll es

def sampleReqForm : Tlv :=
  reform (fun _ => true) (.application 12 (kdcReqElem 12 (ascii "R") sampleTgsReq))

theorem decode_sampleReqForm : ∃ val,
    Kind.tgsReq.decode 400 sampleReqForm.erase.der.octets = .ok val ∧
    Kind.tgsReq.decode 400 sampleReqForm.octets = .ok val :=
  (decode_lengthForm_iff .tgsReq sampleTgsReq (by decide +kernel)
    (Tlv.wellFormed_sound _ (by decide +kernel)) rfl (by decide +kernel) (by decide +kernel)).mpr
    (by decide +kernel)

/-- An authenticator that ends before its optional fields, with indefinite sequences. -/
def sampleAuthForm : Tlv :=
  reform (· = 0x30) (.application 2
    (authenticatorElem { sampleAuthenticator with seqNumber := 0, authorizationData := none }))

def sampleRepForm : Tlv :=
  reform (· = 0xaa) (.application 26 (encKdcRepPartElem sampleEncKdcRepPart))

theorem lengthForm_refused :
    (sampleAuthForm.WellFormed ∧
      Kind.authenticator.encode
        { sampleAuthenticator with seqNumber := 0, authorizationData := none } =
        .ok sampleAuthForm.erase.der.octets ∧
      Kind.authenticator.decode 300 sampleAuthForm.erase.der.octets =
        .ok { sampleAuthenticator with seqNumber := 0, authorizationData := none } ∧
      Kind.authenticator.decode 300 sampleAuthForm.octets = .error .badId) ∧
    (sampleRepForm.WellFormed ∧
      Kind.encKdcRepPart.encode sampleEncKdcRepPart = .ok sampleRepForm.erase.der.octets ∧
      Kind.encKdcRepPart.decode 300 sampleRepForm.erase.der.octets =
        .ok (EncKdcRepPart.received 13 sampleEncKdcRepPart) ∧
      Kind.encKdcRepPart.decode 300 sampleRepForm.octets = .error .badId) := by
  refine ⟨⟨Tlv.wellFormed_sound _ (by decide +kernel), ?_⟩,
    Tlv.wellFormed_sound _ (by decide +kernel), ?_⟩
  · decide +kernel
  · decide +kernel

end Krb5.Asn1
