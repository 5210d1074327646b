import Krb5.Kdc.AsReq
import Krb5.Kdc.TgsFacts

/-!
# Flags and database attributes

An entry can forbid tickets with certain flags. The policy guards look at the
options as received; the flags are set later, from options the handlers have
changed themselves. This leaves a gap: `RENEWABLE_OK` turns on a renewable
ticket without a look at the server's entry, and in a TGS request `POSTDATED` is
not held against it either.
-/

namespace Krb5.Kdc

open Lib

/-- The ticket flags an entry can forbid, with the attribute that does. -/
def guardedFlags : List (Flags × Flags) :=
  [(tktFlgForwardable, kdbDisallowForwardable), (tktFlgProxiable, kdbDisallowProxiable),
    (tktFlgRenewable, kdbDisallowRenewable), (tktFlgMayPostdate, kdbDisallowPostdated),
    (tktFlgPostdated, kdbDisallowPostdated)]

/-- No flag is set that the entry forbids. -/
def Respects (flags : Flags) (entry : DbEntry) : Prop :=
  ∀ p ∈ guardedFlags, isflagset flags p.1 → isflagset entry.attributes p.2 = false

theorem respects_iff (flags : Flags) (entry : DbEntry) :
    Respects flags entry ↔
      (isflagset flags tktFlgForwardable →
        isflagset entry.attributes kdbDisallowForwardable = false) ∧
      (isflagset flags tktFlgProxiable →
        isflagset entry.attributes kdbDisallowProxiable = false) ∧
      (isflagset flags tktFlgRenewable →
        isflagset entry.attributes kdbDisallowRenewable = false) ∧
      (isflagset flags tktFlgMayPostdate →
        isflagset entry.attributes kdbDisallowPostdated = false) ∧
      (isflagset flags tktFlgPostdated →
        isflagset entry.attributes kdbDisallowPostdated = false) := by
  simp [Respects, guardedFlags]

/-- What the server's entry does not forbid where the guards do not look. -/
def TgsGapsClosed (kdc : Env) (request : KdcReq) (server : DbEntry) (ticket : EncTktPart)
    (kdcTime : Timestamp) : Prop :=
  (renewableOkApplies kdc request server (headerPart ticket) kdcTime →
    isflagset server.attributes kdbDisallowRenewable = false) ∧
  (isflagset request.kdcOptions kdcOptPostdated →
    isflagset server.attributes kdbDisallowPostdated = false)

variable {kdc : Env} {request : KdcReq} {client server : DbEntry} {issued : AsIssued} {m : Flags}
  {kdcTime : Timestamp}

/-- For a ticket that is neither renewed nor validated the gaps are all there is. -/
theorem IssuedFrom.respects_iff_gapsClosed {issued : Issued} (h : IssuedFrom kdc request issued)
    (hrenew : isflagset request.kdcOptions kdcOptRenew = false)
    (hvalidate : isflagset request.kdcOptions kdcOptValidate = false) :
    Respects issued.ticket.encPart2.flags issued.server ↔
      TgsGapsClosed kdc request issued.server issued.header.encPart2 issued.kdcTime := by
  have hallowed := validateTgsRequest_eq_ok h.validated
  obtain ⟨hfwd, hprx, -, hmay, hpost, -⟩ :=
    isflagset_optionFlags request.kdcOptions issued.header.encPart2.flags
  have hcopied : copiedFlags request issued.header.encPart2 =
      optionFlags request.kdcOptions issued.header.encPart2.flags := by
    simp [copiedFlags, hrenew, hvalidate]
  rw [respects_iff, h.flags, isflagset_tgsDraft_renewable,
    isflagset_tgsDraft_of_disjoint _ _ _ _ _ (by decide),
    isflagset_tgsDraft_of_disjoint _ _ _ _ _ (by decide),
    isflagset_tgsDraft_of_disjoint _ _ _ _ _ (by decide),
    isflagset_tgsDraft_of_disjoint _ _ _ _ _ (by decide), hcopied, hfwd, hprx, hmay, hpost]
  have hentry := hallowed.entryRenewable
  simp only [renewableAsked, hrenew, hvalidate, Bool.or_false, Bool.false_and, Bool.or_eq_true]
  constructor
  · rintro ⟨-, -, hren, -, hpost⟩
    exact ⟨fun h => hren (.inr h), hpost⟩
  · rintro ⟨hok, hpost⟩
    exact ⟨hallowed.entryForwardable, hallowed.entryProxiable,
      fun h => h.elim hentry hok, hallowed.entryPostdate, hpost⟩

/-! ## AS requests -/

/-- The facts about an initial ticket that concern its flags. -/
structure AsIssuedFrom (kdc : Env) (request : KdcReq) (issued : AsIssued) : Prop where
  validated : validateAsRequest request issued.client issued.server issued.kdcTime = .ok ()
  flags : checkPadata kdc issued.client
      (asRequest kdc request issued.client issued.server issued.kdcTime)
      (asFlags (asRequest kdc request issued.client issued.server issued.kdcTime).kdcOptions) =
    .ok issued.ticket.encPart2.flags

theorem processAsReq_eq_ok (h : processAsReq kdc request = .ok issued) :
    AsIssuedFrom kdc request issued := by
  obtain ⟨cname, -, h⟩ := bind_eq_ok.mp h
  obtain ⟨sname, -, h⟩ := bind_eq_ok.mp h
  obtain ⟨client, -, h⟩ := bind_eq_ok.mp h
  obtain ⟨server, -, h⟩ := bind_eq_ok.mp h
  obtain ⟨kdcTime, -, h⟩ := bind_eq_ok.mp h
  obtain ⟨_, hvalid, h⟩ := bind_eq_ok.mp h
  obtain ⟨session, -, h⟩ := bind_eq_ok.mp h
  obtain ⟨flags, hflags, h⟩ := bind_eq_ok.mp h
  obtain ⟨_, -, h⟩ := bind_eq_ok.mp h
  obtain ⟨key, -, h⟩ := bind_eq_ok.mp h
  obtain ⟨enc, -, h⟩ := bind_eq_ok.mp h
  obtain ⟨replyKey, -, h⟩ := bind_eq_ok.mp h
  obtain ⟨_, -, h⟩ := bind_eq_ok.mp h
  obtain ⟨response, -, h⟩ := bind_eq_ok.mp h
  cases h
  exact ⟨hvalid, withStatus_eq_ok.mp hflags⟩

theorem padataLoop_flags (kdc : Env) (client : DbEntry) (request : KdcReq) (s : Bool × Bool × Flags)
    (padata : List PaData) (hpre : isflagset tktFlgPreAuth m = false)
    (hhw : isflagset tktFlgHwAuth m = false) :
    isflagset (padataLoop kdc client request s padata).2.2 m = isflagset s.2.2 m := by
  induction padata generalizing s with
  | nil => rfl
  | cons pa rest ih =>
    simp only [padataLoop]
    split
    · rw [ih]
      simp [isSet_raiseIf, hpre]
    split
    · rw [ih]
      simp [isSet_raiseIf, hhw]
    · rw [ih]

theorem checkPadata_flags {flags flags' : Flags}
    (h : checkPadata kdc client request flags = .ok flags')
    (hpre : isflagset tktFlgPreAuth m = false) (hhw : isflagset tktFlgHwAuth m = false) :
    isflagset flags' m = isflagset flags m := by
  unfold checkPadata at h
  cases hpa : request.padata with
  | none =>
    rw [hpa] at h
    cases h
    rfl
  | some padata =>
    rw [hpa] at h
    simp only at h
    split at h
    · cases h
      exact padataLoop_flags kdc client request _ padata hpre hhw
    · cases h

theorem isflagset_asFlags (options : Flags) :
    isflagset (asFlags options) tktFlgForwardable = isflagset options kdcOptForwardable ∧
    isflagset (asFlags options) tktFlgProxiable = isflagset options kdcOptProxiable ∧
    isflagset (asFlags options) tktFlgMayPostdate = isflagset options kdcOptAllowPostdate ∧
    isflagset (asFlags options) tktFlgPostdated = isflagset options kdcOptPostdated ∧
    isflagset (asFlags options) tktFlgRenewable = isflagset options kdcOptRenewable := by
  simp only [asFlags, isSet_raiseIf, isSet_raise]
  refine ⟨?_, ?_, ?_, ?_, ?_⟩ <;>
    simp [isSet, tktFlgInitial, tktFlgForwardable, tktFlgProxiable, tktFlgMayPostdate,
      tktFlgPostdated, tktFlgInvalid, tktFlgRenewable]

theorem isflagset_asRequest (kdc : Env) (request : KdcReq) (client server : DbEntry)
    (kdcTime : Timestamp) (m : Flags) :
    isflagset (asRequest kdc request client server kdcTime).kdcOptions m =
      (isflagset request.kdcOptions m ||
        (asRenewableOkApplies kdc request client server kdcTime &&
          isflagset kdcOptRenewable m)) := by
  unfold asRequest
  split
  · rename_i hok
    simp [isSet_raise, hok]
  · rename_i hok
    simp [hok]

theorem asRenewableOkApplies_client (h : asRenewableOkApplies kdc request client server kdcTime) :
    isflagset client.attributes kdbDisallowRenewable = false := by
  simp only [asRenewableOkApplies, Bool.and_eq_true, Bool.not_eq_true'] at h
  exact h.1.2

theorem validateAsRequest_eq_ok (h : validateAsRequest request client server kdcTime = .ok ()) :
    (isflagset request.kdcOptions kdcOptAllowPostdate ∨
        isflagset request.kdcOptions kdcOptPostdated →
      eitherHas client server kdbDisallowPostdated = false) ∧
    (isflagset request.kdcOptions kdcOptForwardable →
      eitherHas client server kdbDisallowForwardable = false) ∧
    (isflagset request.kdcOptions kdcOptRenewable →
      eitherHas client server kdbDisallowRenewable = false) ∧
    (isflagset request.kdcOptions kdcOptProxiable →
      eitherHas client server kdbDisallowProxiable = false) := by
  simp only [validateAsRequest, runGuards_eq_ok, asGuards, List.forall_mem_cons, guardStatus] at h
  refine ⟨?_, ?_, ?_, ?_⟩ <;> grind

/-- The gap of the AS exchange is `RENEWABLE-OK`. -/
theorem AsIssuedFrom.respects_iff_gapClosed (h : AsIssuedFrom kdc request issued) :
    (Respects issued.ticket.encPart2.flags issued.client ∧
        Respects issued.ticket.encPart2.flags issued.server) ↔
      (asRenewableOkApplies kdc request issued.client issued.server issued.kdcTime →
        isflagset issued.server.attributes kdbDisallowRenewable = false) := by
  obtain ⟨hpost, hfwd, hren, hprx⟩ := validateAsRequest_eq_ok h.validated
  have hcli := @asRenewableOkApplies_client kdc request issued.client issued.server
    issued.kdcTime
  obtain ⟨ffwd, fprx, fmay, fpost, fren⟩ := isflagset_asFlags
    (asRequest kdc request issued.client issued.server issued.kdcTime).kdcOptions
  rw [isflagset_asRequest] at ffwd fprx fmay fpost fren
  simp only [eitherHas, Bool.or_eq_false_iff] at hpost hfwd hren hprx
  rw [respects_iff, respects_iff, checkPadata_flags h.flags (by decide) (by decide),
    checkPadata_flags h.flags (by decide) (by decide),
    checkPadata_flags h.flags (by decide) (by decide),
    checkPadata_flags h.flags (by decide) (by decide),
    checkPadata_flags h.flags (by decide) (by decide), ffwd, fprx, fmay, fpost, fren]
  simp only [show isflagset kdcOptRenewable kdcOptForwardable = false from by decide,
    show isflagset kdcOptRenewable kdcOptProxiable = false from by decide,
    show isflagset kdcOptRenewable kdcOptAllowPostdate = false from by decide,
    show isflagset kdcOptRenewable kdcOptPostdated = false from by decide,
    show isflagset kdcOptRenewable kdcOptRenewable = true from by decide, Bool.and_false,
    Bool.and_true, Bool.or_false, Bool.or_eq_true]
  constructor
  · rintro ⟨-, -, -, hs, -⟩ hok
    exact hs (.inr hok)
  intro hok
  exact ⟨⟨fun h => (hfwd h).1, fun h => (hprx h).1, fun h => h.elim (fun h => (hren h).1) hcli,
      fun h => (hpost (.inl h)).1, fun h => (hpost (.inr h)).1⟩,
    fun h => (hfwd h).2, fun h => (hprx h).2, fun h => h.elim (fun h => (hren h).2) hok,
    fun h => (hpost (.inl h)).2, fun h => (hpost (.inr h)).2⟩

/-- Issued tickets respect the entries exactly when the two gaps are closed. -/
theorem issued_respects_iff (kdc : Env) :
    (∀ request issued, processAsReq kdc request = .ok issued →
      ((Respects issued.ticket.encPart2.flags issued.client ∧
          Respects issued.ticket.encPart2.flags issued.server) ↔
        (asRenewableOkApplies kdc request issued.client issued.server issued.kdcTime →
          isflagset issued.server.attributes kdbDisallowRenewable = false))) ∧
    (∀ pkt request issued, processTgsReq kdc pkt request = .ok issued →
      isflagset request.kdcOptions kdcOptRenew = false →
      isflagset request.kdcOptions kdcOptValidate = false →
      (Respects issued.ticket.encPart2.flags issued.server ↔
        TgsGapsClosed kdc request issued.server issued.header.encPart2 issued.kdcTime)) :=
  ⟨fun _ _ h => (processAsReq_eq_ok h).respects_iff_gapClosed,
    fun _ _ _ h hrenew hvalidate =>
      (processTgsReq_eq_ok h).2.2.respects_iff_gapsClosed hrenew hvalidate⟩

/-- A service whose entry has the given attributes, beside a client without
restrictions. -/
def restrictedEnv (header : Ticket) (attributes : Flags) : Env :=
  { smallEnv header openEntry 100 with
    dbGetPrincipal := fun p =>
      if p = localService then .ok ⟨1, false, { openEntry with attributes := attributes }⟩
      else .ok ⟨1, false, openEntry⟩ }

/-- A forwardable and renewable ticket is asked for. -/
def renewableRequest : KdcReq :=
  smallRequest localService (kdcOptForwardable ||| kdcOptRenewable) 0 0 400

/-- The two flags, in requests of either kind to a service that allows no proxiable tickets. -/
theorem issued_respects_iff_service :
    (∃ issued, processAsReq
        (restrictedEnv (smallTicket localTgs 0#32 ⟨10, 0, 200, 0⟩) kdbDisallowProxiable)
        { renewableRequest with padata := none, client := some localTgs } = .ok issued ∧
      isflagset issued.ticket.encPart2.flags tktFlgRenewable ∧
      Respects issued.ticket.encPart2.flags issued.client ∧
      Respects issued.ticket.encPart2.flags issued.server) ∧
    (∃ issued, processTgsReq (restrictedEnv (smallTicket localTgs
          (tktFlgForwardable ||| tktFlgRenewable) ⟨10, 0, 200, 500⟩) kdbDisallowProxiable)
        smallPacket renewableRequest = .ok issued ∧
      isflagset issued.ticket.encPart2.flags tktFlgForwardable ∧
      Respects issued.ticket.encPart2.flags issued.server) := by
  constructor
  · have h : processAsReq
        (restrictedEnv (smallTicket localTgs 0#32 ⟨10, 0, 200, 0⟩) kdbDisallowProxiable)
        { renewableRequest with padata := none, client := some localTgs } = .ok _ := rfl
    exact ⟨_, h, rfl, ((issued_respects_iff _).1 _ _ h).mpr fun _ => rfl⟩
  · have h : processTgsReq (restrictedEnv (smallTicket localTgs
          (tktFlgForwardable ||| tktFlgRenewable) ⟨10, 0, 200, 500⟩) kdbDisallowProxiable)
        smallPacket renewableRequest = .ok _ := rfl
    exact ⟨_, h, rfl, ((issued_respects_iff _).2 _ _ _ h rfl rfl).mpr ⟨fun _ => rfl, fun _ => rfl⟩⟩

/-- A renewable initial ticket, a renewable ticket and a postdated ticket for a
service whose entry forbids them. -/
theorem issued_disrespects :
    (∃ issued, processAsReq
        (restrictedEnv (smallTicket localTgs 0#32 ⟨10, 0, 200, 0⟩) kdbDisallowRenewable)
        { smallRequest localService kdcOptRenewableOk 0 5000 0 with
          padata := none, client := some localTgs } = .ok issued ∧
      isflagset issued.ticket.encPart2.flags tktFlgRenewable ∧
      isflagset issued.server.attributes kdbDisallowRenewable) ∧
    (∃ issued, processTgsReq
        (restrictedEnv (smallTicket localTgs tktFlgRenewable ⟨10, 0, 200, 5000⟩)
          kdbDisallowRenewable)
        smallPacket (smallRequest localService kdcOptRenewableOk 0 5000 0) = .ok issued ∧
      isflagset issued.ticket.encPart2.flags tktFlgRenewable ∧
      isflagset issued.server.attributes kdbDisallowRenewable) ∧
    (∃ issued, processTgsReq
        (restrictedEnv (smallTicket localTgs tktFlgMayPostdate ⟨10, 0, 200, 0⟩)
          kdbDisallowPostdated)
        smallPacket (smallRequest localService kdcOptPostdated 150 0 0) = .ok issued ∧
      isflagset issued.ticket.encPart2.flags tktFlgPostdated ∧
      isflagset issued.server.attributes kdbDisallowPostdated) :=
  ⟨⟨_, rfl, rfl, rfl⟩, ⟨_, rfl, rfl, rfl⟩, ⟨_, rfl, rfl, rfl⟩⟩

end Krb5.Kdc
