import Krb5.Asn1.Codec

/-!
# The codec of requests and replies of the KDC
-/

namespace Krb5.Asn1

open Lib Lib.Ber Elem

variable {fuel : Nat}

/-! ## Bodies of requests -/

def reqRealm (x : KdcReq) : Option Octets :=
  if isflagset x.kdcOptions kdcOptEncTktInSkey then
    (nonempty x.secondTicket).bind fun tickets => tickets.head?.map (·.server.realm)
  else x.server.map (·.realm)

variable {x : KdcReq} {realm : Octets} {msgType : Int32} {type : UInt32} {server : Principal}

theorem emits_reqRealm (h : reqRealm x = some realm) :
    EmitsField (encodeReqRealm x) (2, some (stringElem realm)) := by
  have hfield := @emits_field 2 _ _ (emits_string realm)
  rw [reqRealm] at h
  rw [encodeReqRealm]
  split at h
  · rename_i hskey
    obtain ⟨tickets, htkts, hhead⟩ := Option.bind_eq_some_iff.mp h
    obtain ⟨ticket, htkt, rfl⟩ := Option.map_eq_some_iff.mp hhead
    obtain ⟨rest, rfl⟩ := List.head?_eq_some_iff.mp htkt
    simpa only [if_pos hskey, htkts] using hfield
  · rename_i hskey
    obtain ⟨server, hsrv, rfl⟩ := Option.map_eq_some_iff.mp h
    simpa only [if_neg hskey, hsrv] using hfield

def kdcReqBodyElem (realm : Octets) (x : KdcReq) : Elem := .record [
  (0, some (flagsElem x.kdcOptions)),
  (1, x.client.map principalNameElem),
  (2, some (stringElem realm)),
  (3, x.server.map principalNameElem),
  (4, (given (x.fromTime ≠ 0) x.fromTime).map timeElem),
  (5, some (timeElem x.till)),
  (6, (given (x.rtime ≠ 0) x.rtime).map timeElem),
  (7, some (int32Elem x.nonce)),
  (8, some (arrayElem int32Elem x.ktype)),
  (9, (nonempty x.addresses).map (arrayElem hostAddressElem)),
  (10, (given x.authorizationData.ciphertext.isSome x.authorizationData).map encDataElem),
  (11, (nonempty x.secondTicket).map (arrayElem ticketElem))]

theorem emits_kdcReqBody (h : reqRealm x = some realm) :
    Emits (asn1EncodeKdcReqBody x) [kdcReqBodyElem realm x] := by
  have hrealm := emits_reqRealm h
  exact emits_record

/-- What the encoder leaves out of a request, because it is empty, is absent. -/
def KdcReq.normalised (x : KdcReq) : KdcReq :=
  { x with
    padata := nonempty x.padata
    addresses := nonempty x.addresses
    authorizationData := (given x.authorizationData.ciphertext.isSome
      (EncData.received x.authorizationData)).getD noAuthorizationData
    secondTicket := (nonempty x.secondTicket).map fun tickets =>
      tickets.map SealedTicket.received }

/-- A request as it comes back: the realm of its principals is that of the body. -/
def KdcReq.received (realm : Octets) (x : KdcReq) : KdcReq :=
  { KdcReq.normalised x with
    client := x.client.map fun client => { client with realm }
    server := x.server.map fun server => { server with realm } }

def kdcReqBodyShape : Shape := .record .inner [1, 3, 4, 6, 9, 11] (timesAt [4, 5, 6])

theorem Accepts.kdcReqBody (realm : Octets) (x : KdcReq) :
    Accepts fuel (asn1DecodeKdcReqBody fuel) kdcReqBodyShape (kdcReqBodyElem realm x)
      { KdcReq.received realm x with msgType := 0, padata := none } := by
  refine .record ?_
  refine .req (.flags _) ?_
  refine .optWith (fun v _ => .principalName v) ?_
  refine .req (.string _) ?_
  refine .optWith (fun v _ => .principalName v) ?_
  refine .opt .time ?_
  refine .req (.time _) ?_
  refine .opt .time ?_
  refine .req (.integer _) ?_
  refine .req (.sequenceOfEnctype _) ?_
  refine .opt .hostAddresses ?_
  refine .ifTag (fun v _ => .encData v) ?_
  refine .optWith (fun v _ => .sequenceOfTicket v) ?_
  refine .of_eq ?_
  rw [given_ne_zero_getD, given_ne_zero_getD]
  simp [KdcReq.received, KdcReq.normalised, Function.comp_def, given_map]

/-! ## Requests -/

def kdcReqElem (msgType : Int32) (realm : Octets) (x : KdcReq) : Elem := .record [
  (1, some kvnoElem),
  (2, some (int32Elem msgType)),
  (3, (nonempty x.padata).map (arrayElem paDataElem)),
  (4, some (kdcReqBodyElem realm x))]

theorem emits_kdcReq (htype : msgType = 10 ∨ msgType = 12) (h : reqRealm x = some realm) :
    Emits (asn1EncodeKdcReq msgType x) [kdcReqElem msgType realm x] := by
  have hknown : ¬(msgType ≠ 10 ∧ msgType ≠ 12) := by tauto
  rw [asn1EncodeKdcReq, if_neg hknown]
  have hbody := emits_kdcReqBody h
  exact emits_record

def kdcReqShape : Shape :=
  .record .inner [] fun k => if k = 4 then kdcReqBodyShape else .any

theorem Accepts.kdcReq (htype : msgType.toInt = type.toNat) (realm : Octets) (x : KdcReq) :
    Accepts fuel (Prod.fst <$> asn1DecodeKdcReq fuel) kdcReqShape (kdcReqElem msgType realm x)
      { KdcReq.received realm x with msgType := type } := by
  have hmsgType : int32Elem msgType = integerElem type.toNat := congrArg integerElem htype
  rw [structureOf_map, kdcReqElem, hmsgType]
  refine .settled .inner [3] ?_ rfl (by decide) (by decide)
  rw [map_bind]
  refine .req (.integer 5) ?_
  rw [if_neg (by decide)]
  simp only [map_bind]
  refine .req (.unsigned _) ?_
  refine .opt .sequenceOfPaData ?_
  refine .look fun st => ?_
  refine .req (.kdcReqBody realm x) ?_
  exact .value _

/-- A request that can be sent to the realm of its server. -/
structure KdcReq.Sendable (x : KdcReq) (server : Principal) : Prop where
  toServer : x.server = some server
  fromClient : ∀ client ∈ x.client, client.realm = server.realm
  enctktInSkey : isflagset x.kdcOptions kdcOptEncTktInSkey →
    ∃ ticket tickets, x.secondTicket = some (ticket :: tickets) ∧
      ticket.server.realm = server.realm
  fromTime : 0 ≤ x.fromTime
  till : 0 ≤ x.till
  rtime : 0 ≤ x.rtime

theorem KdcReq.Sendable.reqRealm_eq (h : KdcReq.Sendable x server) :
    reqRealm x = some server.realm := by
  rw [reqRealm]
  split
  · rename_i hskey
    obtain ⟨ticket, tickets, htkts, hrealm⟩ := h.enctktInSkey hskey
    simp [nonempty, htkts, Option.filter, hrealm]
  · rw [h.toServer]
    rfl

theorem KdcReq.Sendable.received_eq (h : KdcReq.Sendable x server) :
    KdcReq.received server.realm x = KdcReq.normalised x := by
  have hcli : x.client.map (fun client => { client with realm := server.realm }) = x.client := by
    cases hc : x.client with
    | none => rfl
    | some client =>
      rw [Option.map_some, ← h.fromClient client hc]
  have hsrv : x.server.map (fun princ => { princ with realm := server.realm }) = x.server := by
    rw [h.toServer]
    rfl
  rw [KdcReq.received, hcli, hsrv]
  rfl

theorem KdcReq.Sendable.good (h : KdcReq.Sendable x server) (realm : Octets) :
    kdcReqBodyShape.Good (kdcReqBodyElem realm x).der := by
  refine good_record (by simp [fields]) ?_
  simp [timesAt, h.fromTime, h.till, h.rtime]

theorem decodeKrb5TgsReq_eq (fuel : Nat) :
    decodeKrb5TgsReq fuel = decoded (checkApptag 12 >>= fun _ => asn1DecodeKdcReq fuel) := by
  funext code
  rw [decodeKrb5TgsReq]
  change _ = Except.map Prod.fst ((asn1GetTag (.wrapData code) >>= fun p => (do
    if p.1.cls ≠ .application ∨ !p.1.constructed then throw .badId
    if p.1.tagnum ≠ 12 then throw .badMsgtype : Decoder Unit) p.2) >>= fun p =>
      asn1DecodeKdcReq fuel p.2)
  cases asn1GetTag (.wrapData code) with
  | error e => rfl
  | ok r =>
    rw [ok_bind, ok_bind]
    dsimp only
    split_ifs
    · rfl
    · rfl
    · rfl
    · change (asn1DecodeKdcReq fuel r.2 >>= fun p => pure p.1) =
        Except.map Prod.fst (asn1DecodeKdcReq fuel r.2)
      cases asn1DecodeKdcReq fuel r.2 <;> rfl

theorem of_map_fst_ok {α β : Type} {decoder : Decoder (α × β)} {buf buf' : Asn1Buf} {a : α}
    (h : (Prod.fst <$> decoder) buf = .ok (a, buf')) : ∃ b, decoder buf = .ok ((a, b), buf') := by
  obtain ⟨r, hrun, hpure⟩ := bind_eq_ok.mp h
  cases hpure
  exact ⟨_, hrun⟩

/-- Both kinds of request: what is encoded can be read back, to its end. -/
theorem kdcReq_message {num : Nat} (hnum : num < 31) (hsent : msgType = 10 ∨ msgType = 12)
    (htype : msgType.toInt = type.toNat) (hx : x.msgType = type) (h : KdcReq.Sendable x server) :
    ∃ code, encoded (apptag num (asn1EncodeKdcReq msgType x)) = .ok code ∧
      (code.length < 2 ^ 31 → code.length < fuel → ∃ bodyAt buf,
        decoded (checkApptag num >>= fun _ => asn1DecodeKdcReq fuel) code =
          .ok (KdcReq.normalised x, bodyAt) ∧
        (checkApptag num >>= fun _ => asn1DecodeKdcReq fuel) (.wrapData code) =
          .ok ((KdcReq.normalised x, bodyAt), buf) ∧ buf.next = code.length) := by
  have hwrites := writes_encoded (emits_apptag (emits_kdcReq hsent h.reqRealm_eq) hnum)
  refine ⟨_, hwrites.run, fun hsmall hfuel => ?_⟩
  have hgood : (Shape.each kdcReqShape).Good
      (application num (kdcReqElem msgType server.realm x)).der := by
    refine good_application (good_record (by simp [fields]) ?_)
    simp [h.good]
  obtain ⟨buf, hrun, hbuf⟩ := (application_gives hnum (opens_checkApptag _)
    (@Accepts.kdcReq fuel _ _ htype _ x) (hwrites.wf.der (by omega)) (erase_der _) hfuel
    (placed_wrapData hsmall)).1 hgood
  rw [h.received_eq, ← map_bind] at hrun
  obtain ⟨bodyAt, hrun⟩ := of_map_fst_ok hrun
  subst hx
  refine ⟨bodyAt, buf, ?_, hrun, ?_⟩
  · rw [decoded, hrun]
    rfl
  · rw [hbuf rfl, Asn1Buf.moveTo_next, Nat.zero_add]

/-- AS and TGS requests come back as they were sent, and the decoder reads their
encodings to the end. -/
theorem decode_encode_kdcReq {x : KdcReq} {server : Principal} (h : KdcReq.Sendable x server)
    (fuel : Nat) :
    (x.msgType = 10 → ∃ code, encodeKrb5AsReq x = .ok code ∧
      (code.length < 2 ^ 31 → code.length < fuel → ∃ bodyAt buf,
        decodeKrb5AsReq fuel code = .ok (KdcReq.normalised x, bodyAt) ∧
        (checkApptag 10 >>= fun _ => asn1DecodeKdcReq fuel) (.wrapData code) =
          .ok ((KdcReq.normalised x, bodyAt), buf) ∧ buf.next = code.length)) ∧
    (x.msgType = 12 → ∃ code, encodeKrb5TgsReq x = .ok code ∧
      (code.length < 2 ^ 31 → code.length < fuel → ∃ bodyAt buf,
        decodeKrb5TgsReq fuel code = .ok (KdcReq.normalised x, bodyAt) ∧
        (checkApptag 12 >>= fun _ => asn1DecodeKdcReq fuel) (.wrapData code) =
          .ok ((KdcReq.normalised x, bodyAt), buf) ∧ buf.next = code.length)) := by
  constructor
  · intro hx
    exact @kdcReq_message fuel x 10 10 server 10 (by decide) (.inl rfl) rfl hx h
  · intro hx
    rw [decodeKrb5TgsReq_eq]
    exact @kdcReq_message fuel x 12 12 server 12 (by decide) (.inr rfl) rfl hx h

/-- A request for a user-to-user ticket, with all its optional members. -/
def sampleTgsReq : KdcReq where
  msgType := 12
  padata := some [⟨1, [7, 7, 7]⟩]
  kdcOptions := kdcOptEncTktInSkey
  client := some ⟨ascii "R", [ascii "c"], 1⟩
  server := some ⟨ascii "R", [ascii "h", ascii "s"], 3⟩
  fromTime := 0
  till := 1000000000
  rtime := 2147483647
  nonce := -5
  ktype := [1, 3]
  addresses := some [⟨2, [10, 0, 0, 1]⟩]
  authorizationData := ⟨1, 2, some [9]⟩
  secondTicket := some [⟨⟨ascii "R", [ascii "h"], 3⟩, ⟨1, 0, some [1, 2, 3]⟩⟩]

theorem decode_encode_sampleTgsReq : ∃ code, encodeKrb5TgsReq sampleTgsReq = .ok code ∧
    (code.length < 2 ^ 31 → code.length < 400 → ∃ bodyAt buf,
      decodeKrb5TgsReq 400 code = .ok (sampleTgsReq, bodyAt) ∧
      (checkApptag 12 >>= fun _ => asn1DecodeKdcReq 400) (.wrapData code) =
        .ok ((sampleTgsReq, bodyAt), buf) ∧ buf.next = code.length) := by
  have h : KdcReq.Sendable sampleTgsReq ⟨ascii "R", [ascii "h", ascii "s"], 3⟩ :=
    ⟨rfl, by decide, fun _ => ⟨_, _, rfl, rfl⟩, by decide, by decide, by decide⟩
  exact (decode_encode_kdcReq h 400).2 rfl

def kdcRepElem (msgType : Int32) (x : KdcRep) : Elem := .record [
  (0, some kvnoElem),
  (1, some (int32Elem msgType)),
  (2, (nonempty x.padata).map (arrayElem paDataElem)),
  (3, some (stringElem x.client.realm)),
  (4, some (principalNameElem x.client)),
  (5, some (ticketElem x.ticket)),
  (6, some (encDataElem x.encPart))]

theorem emits_kdcRep (htype : msgType = 11 ∨ msgType = 13) (x : KdcRep) :
    Emits (asn1EncodeKdcRep msgType x) [kdcRepElem msgType x] := by
  have hknown : ¬(msgType ≠ 11 ∧ msgType ≠ 13) := by tauto
  rw [asn1EncodeKdcRep, if_neg hknown]
  exact emits_record

def KdcRep.received (msgType : UInt32) (x : KdcRep) : KdcRep :=
  { x with
    msgType
    padata := nonempty x.padata
    ticket := SealedTicket.received x.ticket
    encPart := EncData.received x.encPart }

theorem Accepts.kdcRep (htype : msgType.toInt = type.toNat) (x : KdcRep) :
    Accepts fuel (asn1DecodeKdcRep fuel) .any (kdcRepElem msgType x) (KdcRep.received type x) := by
  have hmsgType : int32Elem msgType = integerElem type.toNat := congrArg integerElem htype
  rw [kdcRepElem, hmsgType]
  refine .plain .inner [2] ?_ rfl (by decide) (by decide)
  refine .req (.integer 5) ?_
  refine .req (.unsigned _) ?_
  refine .opt .sequenceOfPaData ?_
  refine .req (.string _) ?_
  refine .req (.principalName _) ?_
  refine .req (.ticket _) ?_
  refine .req (.encData _) ?_
  exact .value _

instance writes_asRep (x : KdcRep) :
    Writes (encodeKrb5AsRep x) (.application 11 (kdcRepElem 11 x)) :=
  writes_encoded (emits_apptag (emits_kdcRep (.inl rfl) x))

theorem readsAs_asRep (x : KdcRep) :
    ReadsAs fuel (decodeKrb5AsRep fuel) (.each .any) (.application 11 (kdcRepElem 11 x))
      (KdcRep.received 11 x) :=
  readsAs_application (Accepts.kdcRep rfl x)

instance writes_tgsRep (x : KdcRep) :
    Writes (encodeKrb5TgsRep x) (.application 13 (kdcRepElem 13 x)) :=
  writes_encoded (emits_apptag (emits_kdcRep (.inr rfl) x))

theorem readsAs_tgsRep (x : KdcRep) :
    ReadsAs fuel (decodeKrb5TgsRep fuel) (.each .any) (.application 13 (kdcRepElem 13 x))
      (KdcRep.received 13 x) :=
  readsAs_application (Accepts.kdcRep rfl x)

/-! ## Encrypted parts of replies -/

def lastReqEntryElem (x : LastReqEntry) : Elem := .record [
  (0, some (int32Elem (octetInteger x.lrType))),
  (1, some (timeElem x.value))]

instance (x : LastReqEntry) :
    Emits (asn1EncodeLastReqEntry x) [lastReqEntryElem x] := by
  exact emits_record

def lastReqEntryShape : Shape := .record .inner [] (timesAt [1])

theorem Accepts.lastReqEntry (x : LastReqEntry) :
    Accepts fuel (asn1DecodeLastReqEntry fuel) lastReqEntryShape (lastReqEntryElem x) x := by
  refine .record ?_
  refine .req (.octet _) ?_
  refine .req (.time _) ?_
  exact .value _

def encKdcRepPartElem (x : EncKdcRepPart) : Elem := .record [
  (0, some (encryptionKeyElem x.session)),
  (1, some (arrayElem lastReqEntryElem x.lastReq)),
  (2, some (int32Elem x.nonce)),
  (3, (given (x.keyExp ≠ 0) x.keyExp).map timeElem),
  (4, some (flagsElem x.flags)),
  (5, some (timeElem x.times.authtime)),
  (6, (given (x.times.starttime ≠ 0) x.times.starttime).map timeElem),
  (7, some (timeElem x.times.endtime)),
  (8, (given (isflagset x.flags tktFlgRenewable) x.times.renewTill).map timeElem),
  (9, some (stringElem x.server.realm)),
  (10, some (principalNameElem x.server)),
  (11, (nonempty x.caddrs).map (arrayElem hostAddressElem))]

theorem emits_encKdcRepPart {x : EncKdcRepPart} (h : x.lastReq ≠ []) :
    Emits (asn1EncodeEncKdcRepPart x) [encKdcRepPartElem x] := by
  have hlast := emits_someOf asn1EncodeLastReqEntry h
  exact emits_record

/-- The encrypted part of a reply as it comes back: the message type is that of the
application tag, and the end of renewal is sent with the flag only. -/
def EncKdcRepPart.received (msgType : UInt32) (x : EncKdcRepPart) : EncKdcRepPart :=
  { x with
    msgType
    times := { x.times with
      starttime := if x.times.starttime ≠ 0 then x.times.starttime else x.times.authtime
      renewTill := if isflagset x.flags tktFlgRenewable then x.times.renewTill else 0 }
    caddrs := nonempty x.caddrs }

def encKdcRepPartShape : Shape :=
  .record .inner [3, 6, 8, 11] fun k =>
    if k = 1 then .each lastReqEntryShape else timesAt [3, 5, 6, 7, 8] k

theorem Accepts.encKdcRepPart (msgType : UInt32) (x : EncKdcRepPart) :
    Accepts fuel (asn1DecodeEncKdcRepPart fuel msgType) encKdcRepPartShape (encKdcRepPartElem x)
      (EncKdcRepPart.received msgType x) := by
  refine .record ?_
  refine .req (.encryptionKey _) ?_
  refine .req (.array fun y _ => .lastReqEntry y) ?_
  refine .req (.integer _) ?_
  refine .opt .time ?_
  refine .req (.flags _) ?_
  refine .req (.time _) ?_
  refine .opt .time ?_
  refine .req (.time _) ?_
  refine .opt .time ?_
  refine .req (.string _) ?_
  refine .req (.principalName _) ?_
  refine .opt .hostAddresses ?_
  refine .of_eq ?_
  rw [given_ne_zero_getD]
  simp [EncKdcRepPart.received]

theorem opens_encKdcRepPart (fuel : Nat) : Opens 26 (do
    let tag ← asn1GetTag
    if tag.cls ≠ .application ∨ !tag.constructed then throw .badId
    if tag.tagnum = 25 then asn1DecodeEncKdcRepPart fuel 11
    else if tag.tagnum = 26 then asn1DecodeEncKdcRepPart fuel 13
    else throw .badMsgtype) (asn1DecodeEncKdcRepPart fuel 13) := by
  intro buf buf' tag hget hcls hcons hnum
  rw [stateT_bind_of_ok hget, hcls, hcons, hnum, if_neg (by decide), if_neg (by decide),
    if_pos (by decide)]

theorem writes_encKdcRepPart {x : EncKdcRepPart} (h : x.lastReq ≠ []) :
    Writes (encodeKrb5EncKdcRepPart x) (.application 26 (encKdcRepPartElem x)) :=
  writes_encoded (emits_apptag (emits_encKdcRepPart h))

theorem readsAs_encKdcRepPart (x : EncKdcRepPart) :
    ReadsAs fuel (decodeKrb5EncKdcRepPart fuel) (.each encKdcRepPartShape)
      (.application 26 (encKdcRepPartElem x)) (EncKdcRepPart.received 13 x) :=
  readsAs_application (Accepts.encKdcRepPart 13 x) (opens_encKdcRepPart fuel)

structure EncKdcRepPart.Dated (x : EncKdcRepPart) : Prop where
  lastReq : ∀ entry ∈ x.lastReq, 0 ≤ entry.value
  keyExp : 0 ≤ x.keyExp
  authtime : 0 ≤ x.times.authtime
  starttime : 0 ≤ x.times.starttime
  endtime : 0 ≤ x.times.endtime
  renewTill : isflagset x.flags tktFlgRenewable → 0 ≤ x.times.renewTill

theorem EncKdcRepPart.Dated.good {x : EncKdcRepPart} (h : EncKdcRepPart.Dated x) :
    encKdcRepPartShape.Good (encKdcRepPartElem x).der := by
  have hlast : (Shape.each lastReqEntryShape).Good (arrayElem lastReqEntryElem x.lastReq).der := by
    refine good_array fun entry hentry => good_record (by simp [fields]) ?_
    simp [timesAt, h.lastReq entry hentry]
  refine good_record (by simp [fields]) ?_
  simpa [timesAt, hlast, h.keyExp, h.authtime, h.starttime, h.endtime] using h.renewTill

/-- A reply whose dates are not before the epoch, and which has an entry in its last
requests, comes back. -/
theorem decode_encode_kdcRep (x : KdcRep) (part : EncKdcRepPart) (hne : part.lastReq ≠ [])
    (hdated : EncKdcRepPart.Dated part) :
    RoundTrip (encodeKrb5EncKdcRepPart part) decodeKrb5EncKdcRepPart
      (EncKdcRepPart.received 13 part) ∧
    RoundTrip (encodeKrb5AsRep x) decodeKrb5AsRep (KdcRep.received 11 x) ∧
    RoundTrip (encodeKrb5TgsRep x) decodeKrb5TgsRep (KdcRep.received 13 x) := by
  refine ⟨?_, ?_, ?_⟩
  · exact roundTrip_of_reads (writes_encKdcRepPart hne) (fun _ => readsAs_encKdcRepPart part)
      (good_application hdated.good)
  · exact roundTrip_of_reads (writes_asRep x) (fun _ => readsAs_asRep x)
      (good_application (good_any _))
  · exact roundTrip_of_reads (writes_tgsRep x) (fun _ => readsAs_tgsRep x)
      (good_application (good_any _))

/-- The encrypted part of a reply that grants a renewable ticket. -/
def sampleEncKdcRepPart : EncKdcRepPart where
  msgType := 11
  session := ⟨1, [1, 2, 3, 4, 5, 6, 7, 8]⟩
  lastReq := [⟨0, 1000⟩, ⟨5, 2000⟩]
  nonce := 42
  keyExp := 0
  flags := tktFlgRenewable
  times := ⟨1000, 0, 5000, 9000⟩
  server := ⟨ascii "R", [ascii "krbtgt", ascii "R"], 2⟩
  caddrs := none

def sampleKdcRep : KdcRep where
  msgType := 11
  padata := some [⟨3, ascii "salt"⟩]
  client := ⟨ascii "R", [ascii "c"], 1⟩
  ticket := ⟨⟨ascii "R", [ascii "krbtgt", ascii "R"], 2⟩, ⟨1, 1, some [1, 2, 3]⟩⟩
  encPart := ⟨1, 0, some [4, 5, 6]⟩

theorem decode_encode_sampleKdcRep :
    RoundTrip (encodeKrb5EncKdcRepPart sampleEncKdcRepPart) decodeKrb5EncKdcRepPart
      { sampleEncKdcRepPart with msgType := 13, times := ⟨1000, 1000, 5000, 9000⟩ } ∧
    RoundTrip (encodeKrb5AsRep sampleKdcRep) decodeKrb5AsRep sampleKdcRep ∧
    RoundTrip (encodeKrb5TgsRep sampleKdcRep) decodeKrb5TgsRep
      { sampleKdcRep with msgType := 13 } :=
  decode_encode_kdcRep sampleKdcRep sampleEncKdcRepPart (by decide)
    ⟨by decide, by decide, by decide, by decide, by decide, by decide⟩

/-- Without a last request there is no encoding, a date before the epoch is refused by
the decoder, and an empty list of addresses comes back as none. -/
theorem encKdcRepPart_refused :
    encodeKrb5EncKdcRepPart { sampleEncKdcRepPart with lastReq := [] } =
      .error (.destroyed .missingField) ∧
    (encodeKrb5EncKdcRepPart { sampleEncKdcRepPart with keyExp := -1 }).map
      (decodeKrb5EncKdcRepPart 300) = .ok (.error .badTimeformat) ∧
    (encodeKrb5EncKdcRepPart { sampleEncKdcRepPart with caddrs := some [] }).map
      (decodeKrb5EncKdcRepPart 300) = .ok (.ok
        { sampleEncKdcRepPart with msgType := 13, times := ⟨1000, 1000, 5000, 9000⟩ }) := by
  decide +kernel

end Krb5.Asn1
