import Krb5.Asn1.Codec

/-!
# The codec of messages between client and server

Authentication, safe and private messages, credentials and errors.
-/

namespace Krb5.Asn1

open Lib Lib.Ber Elem List

variable {fuel : Nat}

def apReqElem (x : ApReq) : Elem := .record [
  (0, some kvnoElem),
  (1, some (int32Elem 14)),
  (2, some (flagsElem x.apOptions)),
  (3, some (ticketElem x.ticket)),
  (4, some (encDataElem x.authenticator))]

instance writes_apReq (x : ApReq) : Writes (encodeKrb5ApReq x) (.application 14 (apReqElem x)) := by
  exact writes_encoded emits_typedMessage

def ApReq.received (x : ApReq) : ApReq :=
  { x with
    ticket := SealedTicket.received x.ticket
    authenticator := EncData.received x.authenticator }

theorem readsAs_apReq (x : ApReq) :
    ReadsAs fuel (decodeKrb5ApReq fuel) (.each .any) (.application 14 (apReqElem x))
      (ApReq.received x) := by
  refine readsAs_application (.simple .outer ?_)
  refine .versionType (rfl : _ = ((14 : UInt32).toNat : Int)) ?_
  refine .req (.flags _) ?_
  refine .req (.ticket _) ?_
  refine .req (.encData _) ?_
  exact .value _

def apRepElem (x : ApRep) : Elem := .record [
  (0, some kvnoElem),
  (1, some (int32Elem 15)),
  (2, some (encDataElem x.encPart))]

instance writes_apRep (x : ApRep) : Writes (encodeKrb5ApRep x) (.application 15 (apRepElem x)) := by
  exact writes_encoded emits_typedMessage

theorem readsAs_apRep (x : ApRep) :
    ReadsAs fuel (decodeKrb5ApRep fuel) (.each .any) (.application 15 (apRepElem x))
      ⟨EncData.received x.encPart⟩ := by
  refine readsAs_application (.simple .outer ?_)
  refine .versionType (rfl : _ = ((15 : UInt32).toNat : Int)) ?_
  refine .req (.encData _) ?_
  exact .value _

def apRepEncPartElem (x : ApRepEncPart) : Elem := .record [
  (0, some (timeElem x.ctime)),
  (1, some (int32Elem x.cusec)),
  (2, x.subkey.map encryptionKeyElem),
  (3, (given (x.seqNumber ≠ 0) x.seqNumber).map int32Elem)]

instance writes_apRepEncPart (x : ApRepEncPart) :
    Writes (encodeKrb5ApRepEncPart x) (.application 27 (apRepEncPartElem x)) := by
  exact writes_encoded (emits_apptag emits_record)

def apRepEncPartShape : Shape := .record .outer [2, 3] (timesAt [0])

theorem readsAs_apRepEncPart (x : ApRepEncPart) :
    ReadsAs fuel (decodeKrb5ApRepEncPart fuel) (.each apRepEncPartShape)
      (.application 27 (apRepEncPartElem x)) x := by
  refine readsAs_application (.record ?_)
  refine .req (.time _) ?_
  refine .req (.integer _) ?_
  refine .opt .encryptionKey ?_
  refine .opt .integer ?_
  refine .of_eq ?_
  rw [given_ne_zero_getD]

def safeBodyElem (x : Safe) : Elem := .record [
  (0, some (octetsElem x.userData)),
  (1, (given (x.timestamp ≠ 0) x.timestamp).map timeElem),
  (2, (given (x.timestamp ≠ 0) x.usec).map int32Elem),
  (3, (given (x.seqNumber ≠ 0) x.seqNumber).map int32Elem),
  (4, some (hostAddressElem x.sAddress)),
  (5, x.rAddress.map hostAddressElem)]

instance (x : Safe) : Emits (asn1EncodeKrbSafeBody x) [safeBodyElem x] := by
  exact emits_record

/-- A safe message as it comes back: microseconds are sent with a timestamp only. -/
def Safe.received (x : Safe) : Safe :=
  { x with usec := if x.timestamp ≠ 0 then x.usec else 0 }

def safeBodyShape : Shape := .record .inner [1, 2, 3] (timesAt [1])

theorem Accepts.safeBody (x : Safe) :
    Accepts fuel (asn1DecodeKrbSafeBody fuel) safeBodyShape (safeBodyElem x)
      (fun checksum => { Safe.received x with checksum }) := by
  refine .record ?_
  refine .req (.octets _) ?_
  refine .opt .time ?_
  refine .opt .integer ?_
  refine .opt .integer ?_
  refine .req (.hostAddress _) ?_
  refine .tagged .hostAddress ?_
  refine .of_eq ?_
  rw [given_ne_zero_getD, given_ne_zero_getD]
  simp [Safe.received]

def safeElem (x : Safe) : Elem := .record [
  (0, some kvnoElem),
  (1, some (int32Elem 20)),
  (2, some (safeBodyElem x)),
  (3, some (checksumElem x.checksum))]

instance writes_safe (x : Safe) : Writes (encodeKrb5Safe x) (.application 20 (safeElem x)) := by
  exact writes_encoded emits_typedMessage

def safeShape : Shape := .record .outer [] fun k => if k = 2 then safeBodyShape else .any

theorem readsAs_safe (x : Safe) :
    ReadsAs fuel (decodeKrb5Safe fuel) (.each safeShape) (.application 20 (safeElem x))
      (Safe.received x) := by
  refine readsAs_application (.record ?_)
  refine .versionType (rfl : _ = ((20 : UInt32).toNat : Int)) ?_
  refine .req (.safeBody x) ?_
  refine .req (.checksum _) ?_
  exact .value _

def privElem (x : Priv) : Elem := .record [
  (0, some kvnoElem),
  (1, some (int32Elem 21)),
  (3, some (encDataElem x.encPart))]

instance writes_priv (x : Priv) : Writes (encodeKrb5Priv x) (.application 21 (privElem x)) := by
  exact writes_encoded emits_typedMessage

theorem readsAs_priv (x : Priv) :
    ReadsAs fuel (decodeKrb5Priv fuel) (.each .any) (.application 21 (privElem x))
      ⟨EncData.received x.encPart⟩ := by
  refine readsAs_application (.simple .outer ?_)
  refine .versionType (rfl : _ = ((21 : UInt32).toNat : Int)) ?_
  refine .req (.encData _) ?_
  exact .value _

def privEncPartElem (x : PrivEncPart) : Elem := .record [
  (0, some (octetsElem x.userData)),
  (1, (given (x.timestamp ≠ 0) x.timestamp).map timeElem),
  (2, (given (x.timestamp ≠ 0) x.usec).map int32Elem),
  (3, (given (x.seqNumber ≠ 0) x.seqNumber).map int32Elem),
  (4, some (hostAddressElem x.sAddress)),
  (5, x.rAddress.map hostAddressElem)]

instance writes_privEncPart (x : PrivEncPart) :
    Writes (encodeKrb5EncPrivPart x) (.application 28 (privEncPartElem x)) := by
  exact writes_encoded (emits_apptag emits_record)

def PrivEncPart.received (x : PrivEncPart) : PrivEncPart :=
  { x with usec := if x.timestamp ≠ 0 then x.usec else 0 }

def privEncPartShape : Shape := .record .outer [1, 2, 3, 5] (timesAt [1])

theorem readsAhead_privEncPart (x : PrivEncPart) :
    ReadsAhead fuel (decodeKrb5EncPrivPart fuel) (.each privEncPartShape)
      (.application 28 (privEncPartElem x)) (PrivEncPart.received x) := by
  refine readsAhead_application (by decide) (opens_checkApptag _)
    (.record ?_)
  refine .req (.octets _) ?_
  refine .opt .time ?_
  refine .opt .integer ?_
  refine .opt .integer ?_
  refine .req (.hostAddress _) ?_
  refine .opt .hostAddress ?_
  refine .of_eq ?_
  rw [given_ne_zero_getD, given_ne_zero_getD]
  simp [PrivEncPart.received]

theorem readsAs_privEncPart (x : PrivEncPart) :
    ReadsAs fuel (decodeKrb5EncPrivPart fuel) (.each privEncPartShape)
      (.application 28 (privEncPartElem x)) (PrivEncPart.received x) :=
  (readsAhead_privEncPart x).readsAs

/-! ## Credentials -/

def credElem (x : Cred) : Elem := .record [
  (0, some kvnoElem),
  (1, some (int32Elem 22)),
  (2, some (arrayElem ticketElem x.tickets)),
  (3, some (encDataElem x.encPart))]

theorem writes_cred {x : Cred} (h : x.tickets ≠ []) :
    Writes (encodeKrb5Cred x) (.application 22 (credElem x)) := by
  have htkts := emits_someOf asn1EncodeTicket h
  exact writes_encoded emits_typedMessage

theorem readsAs_cred (x : Cred) :
    ReadsAs fuel (decodeKrb5Cred fuel) (.each .any) (.application 22 (credElem x))
      ⟨x.tickets.map SealedTicket.received, EncData.received x.encPart⟩ := by
  refine readsAs_application (.simple .outer ?_)
  refine .versionType (rfl : _ = ((22 : UInt32).toNat : Int)) ?_
  refine .req (.sequenceOfTicket _) ?_
  refine .req (.encData _) ?_
  exact .value _

/-- Realm and name are two fields, and a principal needs both. -/
theorem Follows.principal {β : Type} {k : Nat} {optional : List Nat}
    {field : Nat → Shape} {fs : List (Nat × Option Elem)} {cont : Option Principal → Fields β}
    {o : Option Principal} {b : β} (hcont : Follows fuel .inner optional field (cont o) fs b)
    (hk : 0 < k ∧ k + 1 < 31 := by decide)
    (hfield : field k = .any ∧ field (k + 1) = .any := by exact ⟨rfl, rfl⟩)
    (hopt : ∀ j ∈ optional, k + 1 < j := by decide)
    (hfs : ∀ f ∈ fs, k + 1 < f.1 ∧ f.1 < 31 := by simp) :
    Follows fuel .inner optional field (credInfoPrincipal fuel k >>= cont)
      ((k, o.map fun x => stringElem x.realm) :: (k + 1, o.map principalNameElem) :: fs) b := by
  have hless : k < 31 := Nat.lt_of_succ_lt hk.2
  have hbefore : ∀ j ∈ optional, k < j := fun j hj => Nat.lt_of_succ_lt (hopt j hj)
  intro indef last e ws st hat hws hfuel
  cases o with
  | none =>
    have hfields : ws.map Tlv.erase = fields fs := hws
    -- The next field, or the end of the structure, has another number.
    have hnum : st.tag.tagnum ≠ k := by
      cases hat with
      | @field w ws _ _ _ _ _ =>
        obtain ⟨hlt, hw⟩ := number_of_fields hfields hfs w mem_cons_self
        simp only [hw.tagnum]
        omega
      | eoc h hnext => exact (At.eoc h hnext : At indef last e [] _).tagnum_ne hk.1 hless
      | ended h hbound hlast =>
        exact (At.ended h hbound hlast : At indef last e [] _).tagnum_ne hk.1 hless
    have hrun : credInfoPrincipal fuel k st = .ok (none, st) := by
      rw [credInfoPrincipal, whenTag, bind_assoc, stateT_get_bind, if_neg hnum]
      rfl
    rw [stateT_bind_of_ok hrun]
    exact hcont hat hfields hfuel
  | some x =>
    have hboth : Follows fuel .inner optional field (optField k asn1DecodeRealm >>= fun realm =>
        optField (k + 1 : Nat) (asn1DecodePrincipalName fuel) >>= fun name =>
          cont (name.map fun name => ⟨realm.getD [], name.2, name.1⟩))
        ((k, some (stringElem x.realm)) :: (k + 1, some (principalNameElem x)) :: fs) b := by
      refine .present (by rw [hfield.1]; exact .string _) ?_ (looks_optField _) hless hbefore
      refine .present (by rw [hfield.2]; exact .principalName x) ?_ (looks_optField _) hk.2 hopt
      exact hcont
    have hnum : st.tag.tagnum = k := by
      obtain ⟨w, ws, rfl, hw, -⟩ := map_eq_cons_iff.mp hws
      cases hat
      exact (isField_of_erase hless hw).1.tagnum
    have hrun : (credInfoPrincipal fuel k >>= cont) st =
        (optField k asn1DecodeRealm >>= fun realm =>
          optField (k + 1 : Nat) (asn1DecodePrincipalName fuel) >>= fun name =>
            cont (name.map fun name => ⟨realm.getD [], name.2, name.1⟩)) st := by
      rw [credInfoPrincipal, whenTag, bind_assoc, bind_assoc, stateT_get_bind, if_pos hnum]
      simp
    rw [hrun]
    exact hboth hat hws hfuel

def credInfoElem (x : CredInfo) : Elem := .record [
  (0, some (encryptionKeyElem x.session)),
  (1, x.client.map fun client => stringElem client.realm),
  (2, x.client.map principalNameElem),
  (3, (given (x.flags ≠ 0) x.flags).map flagsElem),
  (4, (given (x.times.authtime ≠ 0) x.times.authtime).map timeElem),
  (5, (given (x.times.starttime ≠ 0) x.times.starttime).map timeElem),
  (6, (given (x.times.endtime ≠ 0) x.times.endtime).map timeElem),
  (7, (given (x.times.renewTill ≠ 0) x.times.renewTill).map timeElem),
  (8, x.server.map fun server => stringElem server.realm),
  (9, x.server.map principalNameElem),
  (10, (nonempty x.caddrs).map (arrayElem hostAddressElem))]

instance (x : CredInfo) : Emits (asn1EncodeKrbCredInfo x) [credInfoElem x] := by
  exact emits_record

def CredInfo.received (x : CredInfo) : CredInfo := { x with caddrs := nonempty x.caddrs }

def credInfoShape : Shape := .record .inner [3, 4, 5, 6, 7, 10] (timesAt [4, 5, 6, 7])

theorem Accepts.credInfo (x : CredInfo) :
    Accepts fuel (asn1DecodeKrbCredInfo fuel) credInfoShape (credInfoElem x)
      (CredInfo.received x) := by
  have hflags : (given (x.flags ≠ 0) x.flags).getD 0 = x.flags := by
    rw [given_getD]
    split <;> simp_all
  refine .record ?_
  refine .req (.encryptionKey _) ?_
  refine .principal ?_
  refine .opt .flags ?_
  refine .opt .time ?_
  refine .opt .time ?_
  refine .opt .time ?_
  refine .opt .time ?_
  refine .principal ?_
  refine .opt .hostAddresses ?_
  refine .of_eq ?_
  rw [hflags, given_ne_zero_getD, given_ne_zero_getD, given_ne_zero_getD, given_ne_zero_getD]
  rfl

def credEncPartElem (x : CredEncPart) : Elem := .record [
  (0, some (arrayElem credInfoElem x.ticketInfo)),
  (1, (given (x.nonce ≠ 0) x.nonce).map int32Elem),
  (2, (given (x.timestamp ≠ 0) x.timestamp).map timeElem),
  (3, (given (x.timestamp ≠ 0) x.usec).map int32Elem),
  (4, x.sAddress.map hostAddressElem),
  (5, x.rAddress.map hostAddressElem)]

instance writes_credEncPart (x : CredEncPart) :
    Writes (encodeKrb5EncCredPart x) (.application 29 (credEncPartElem x)) := by
  exact writes_encoded (emits_apptag emits_record)

def CredEncPart.received (x : CredEncPart) : CredEncPart :=
  { x with
    usec := if x.timestamp ≠ 0 then x.usec else 0
    ticketInfo := x.ticketInfo.map CredInfo.received }

def credEncPartShape : Shape :=
  .record .outer [1, 2, 3, 4, 5] fun k => if k = 0 then .each credInfoShape else timesAt [2] k

theorem readsAs_credEncPart (x : CredEncPart) :
    ReadsAs fuel (decodeKrb5EncCredPart fuel) (.each credEncPartShape)
      (.application 29 (credEncPartElem x)) (CredEncPart.received x) := by
  refine readsAs_application (.record ?_)
  refine .req (.sequence fun y _ => .credInfo y) ?_
  refine .opt .integer ?_
  refine .opt .time ?_
  refine .opt .integer ?_
  refine .opt .hostAddress ?_
  refine .opt .hostAddress ?_
  refine .of_eq ?_
  rw [given_ne_zero_getD, given_ne_zero_getD]
  simp [CredEncPart.received]

def errorElem (x : KrbError) : Elem := .record [
  (0, some kvnoElem),
  (1, some (int32Elem 30)),
  (2, (given (x.ctime ≠ 0) x.ctime).map timeElem),
  (3, (given (x.cusec ≠ 0) x.cusec).map int32Elem),
  (4, some (timeElem x.stime)),
  (5, some (int32Elem x.susec)),
  (6, some (integerElem x.error.toNat)),
  (7, x.client.map fun client => stringElem client.realm),
  (8, x.client.map principalNameElem),
  (9, some (stringElem x.server.realm)),
  (10, some (principalNameElem x.server)),
  (11, (given (x.text ≠ []) x.text).map stringElem),
  (12, (given (x.eData ≠ []) x.eData).map octetsElem)]

instance writes_error (x : KrbError) :
    Writes (encodeKrb5Error x) (.application 30 (errorElem x)) := by
  exact writes_encoded emits_typedMessage

def errorShape : Shape := .record .outer [2, 3, 7, 8, 11, 12] (timesAt [2, 4])

theorem readsAs_error (x : KrbError) :
    ReadsAs fuel (decodeKrb5Error fuel) (.each errorShape) (.application 30 (errorElem x)) x := by
  have hname : ∀ y ∈ x.client, Accepts fuel
      (if (x.client.map Principal.realm).isSome then asn1DecodePrincipalName fuel
        else principalNameAtNull fuel) .any (principalNameElem y) (y.type, y.data) := by
    intro y hy
    rw [hy]
    exact .principalName y
  refine readsAs_application (.record ?_)
  refine .versionType (rfl : _ = ((30 : UInt32).toNat : Int)) ?_
  refine .opt .time ?_
  refine .opt .integer ?_
  refine .req (.time _) ?_
  refine .req (.integer _) ?_
  refine .req (.unsigned _) ?_
  refine .optWith (fun v _ => .string (Principal.realm v)) ?_
  refine .optWith hname ?_
  refine .req (.string _) ?_
  refine .req (.principalName _) ?_
  refine .opt .string ?_
  refine .opt .octets ?_
  refine .of_eq ?_
  rw [given_ne_zero_getD, given_ne_zero_getD, given_ne_nil_getD, given_ne_nil_getD]
  have hcli : (x.client.map Principal.realm).map (fun crealm =>
      let name := (x.client.map fun y => (y.type, y.data)).getD (0, [])
      (⟨crealm, name.2, name.1⟩ : Principal)) = x.client := by
    cases x.client <;> rfl
  rw [hcli]

/-! ## There and back -/

theorem good_safe {x : Safe} (h : 0 ≤ x.timestamp) : safeShape.Good (safeElem x).der := by
  have hbody : safeBodyShape.Good (safeBodyElem x).der := by
    refine good_record (by simp [fields]) ?_
    simp [timesAt, h]
  refine good_record (by simp [fields]) ?_
  simp [hbody]

theorem good_privEncPart {x : PrivEncPart} (h : 0 ≤ x.timestamp) :
    privEncPartShape.Good (privEncPartElem x).der := by
  refine good_record (by simp [fields]) ?_
  simp [timesAt, h]

theorem good_credEncPart {x : CredEncPart} (h : 0 ≤ x.timestamp)
    (hinfo : ∀ info ∈ x.ticketInfo, TicketTimes.Dated info.times) :
    credEncPartShape.Good (credEncPartElem x).der := by
  have hinfos : (Shape.each credInfoShape).Good (arrayElem credInfoElem x.ticketInfo).der := by
    refine good_array fun info hmem => good_record (by simp [fields]) ?_
    have htimes := hinfo info hmem
    simp [timesAt, htimes.authtime, htimes.starttime, htimes.endtime, htimes.renewTill]
  refine good_record (by simp [fields]) ?_
  simp [timesAt, hinfos, h]

theorem good_error {x : KrbError} (hctime : 0 ≤ x.ctime) (hstime : 0 ≤ x.stime) :
    errorShape.Good (errorElem x).der := by
  refine good_record (by simp [fields]) ?_
  simp [timesAt, hctime, hstime]

/-- Messages without a date before the epoch come back, but for the microseconds beside a
timestamp of zero and for empty lists of addresses. -/
theorem decode_encode_exchange (safe : Safe) (priv : PrivEncPart) (cred : CredEncPart)
    (error : KrbError) (hsafe : 0 ≤ safe.timestamp) (hpriv : 0 ≤ priv.timestamp)
    (hcred : 0 ≤ cred.timestamp ∧ ∀ info ∈ cred.ticketInfo, TicketTimes.Dated info.times)
    (herror : 0 ≤ error.ctime ∧ 0 ≤ error.stime) :
    RoundTrip (encodeKrb5Safe safe) decodeKrb5Safe (Safe.received safe) ∧
    RoundTrip (encodeKrb5EncPrivPart priv) decodeKrb5EncPrivPart (PrivEncPart.received priv) ∧
    RoundTrip (encodeKrb5EncCredPart cred) decodeKrb5EncCredPart (CredEncPart.received cred) ∧
    RoundTrip (encodeKrb5Error error) decodeKrb5Error error := by
  refine ⟨?_, ?_, ?_, ?_⟩
  · exact roundTrip_of_reads (writes_safe safe) (fun _ => readsAs_safe safe)
      (good_application (good_safe hsafe))
  · exact roundTrip_of_reads (writes_privEncPart priv) (fun _ => readsAs_privEncPart priv)
      (good_application (good_privEncPart hpriv))
  · exact roundTrip_of_reads (writes_credEncPart cred) (fun _ => readsAs_credEncPart cred)
      (good_application (good_credEncPart hcred.1 hcred.2))
  · exact roundTrip_of_reads (writes_error error) (fun _ => readsAs_error error)
      (good_application (good_error herror.1 herror.2))

def sampleSafe : Safe where
  userData := ascii "hello"
  timestamp := 1000
  usec := 7
  seqNumber := 17
  sAddress := ⟨2, [10, 0, 0, 1]⟩
  rAddress := none
  checksum := ⟨1, [1, 2, 3, 4]⟩

def samplePriv : PrivEncPart where
  userData := []
  timestamp := 0
  usec := 7
  seqNumber := 0
  sAddress := ⟨2, [10, 0, 0, 1]⟩
  rAddress := some ⟨2, [10, 0, 0, 2]⟩

def sampleCred : CredEncPart where
  nonce := 5
  timestamp := 1000
  usec := 1
  sAddress := none
  rAddress := none
  ticketInfo := [⟨⟨1, [1, 2]⟩, some ⟨ascii "R", [ascii "c"], 1⟩, none, 0, ⟨0, 0, 5000, 0⟩, none⟩]

def sampleError : KrbError where
  ctime := 0
  cusec := 0
  susec := 3
  stime := 1000
  error := 60
  client := some ⟨ascii "R", [ascii "c"], 1⟩
  server := ⟨ascii "R", [ascii "krbtgt", ascii "R"], 2⟩
  text := ascii "no"
  eData := []

theorem decode_encode_samples :
    RoundTrip (encodeKrb5Safe sampleSafe) decodeKrb5Safe sampleSafe ∧
    RoundTrip (encodeKrb5EncPrivPart samplePriv) decodeKrb5EncPrivPart
      { samplePriv with usec := 0 } ∧
    RoundTrip (encodeKrb5EncCredPart sampleCred) decodeKrb5EncCredPart sampleCred ∧
    RoundTrip (encodeKrb5Error sampleError) decodeKrb5Error sampleError :=
  decode_encode_exchange sampleSafe samplePriv sampleCred sampleError (by decide) (by decide)
    ⟨by decide, by
      intro info hinfo
      rw [mem_singleton.mp hinfo]
      exact ⟨by decide, by decide, by decide, by decide⟩⟩
    ⟨by decide, by decide⟩

/-- A date before the epoch is encoded, and the decoder refuses it. -/
theorem exchange_refused :
    (encodeKrb5Safe { sampleSafe with timestamp := -1 }).map (decodeKrb5Safe 200) =
      .ok (.error .badTimeformat) ∧
    (encodeKrb5EncPrivPart { samplePriv with timestamp := -1 }).map
      (decodeKrb5EncPrivPart 200) = .ok (.error .badTimeformat) ∧
    (encodeKrb5EncCredPart { sampleCred with timestamp := -1 }).map
      (decodeKrb5EncCredPart 200) = .ok (.error .badTimeformat) ∧
    (encodeKrb5Error { sampleError with ctime := -1 }).map (decodeKrb5Error 200) =
      .ok (.error .badTimeformat) := by
  decide +kernel

end Krb5.Asn1
