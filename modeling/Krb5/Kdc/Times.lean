import Krb5.Kdc.TgsFacts

/-!
# Times against flags

In an issued ticket the flag `RENEWABLE` should go with a renewal limit, and a
postdated ticket should be invalid and start when it was asked to. The later
option blocks break both: `VALIDATE` and `RENEW` copy the flag of the presented
ticket but the limit is written anew, zero if no renewal is asked for; and the
start time `POSTDATED` wrote is overwritten with the present.
-/

namespace Krb5.Kdc

open Lib

/-- The request asks for a postdated ticket and copies nothing. -/
def asksPostdated (request : KdcReq) : Bool :=
  isflagset request.kdcOptions kdcOptPostdated &&
    !isflagset request.kdcOptions kdcOptValidate && !isflagset request.kdcOptions kdcOptRenew

/-- Times and flags of a ticket agree with each other and with the request. A ticket
without a start time starts when its client was authenticated. -/
def Consistent (request : KdcReq) (ticket : EncTktPart) : Prop :=
  (isflagset ticket.flags tktFlgRenewable ↔ ticket.times.renewTill ≠ 0) ∧
  (asksPostdated request → isflagset ticket.flags tktFlgInvalid ∧
    (fixStarttime ticket.times).starttime = request.fromTime)

/-- When flag and limit agree: the `RENEWABLE` block runs and its three limits
do not come to zero, or it does not run and no renewable ticket is copied. -/
def RenewalAgrees (kdc : Env) (request : KdcReq) (server : DbEntry) (ticket : EncTktPart)
    (kdcTime : Timestamp) : Prop :=
  if renewableAsked kdc request server ticket kdcTime then
    min32 (orInfinity (renewLimit kdc request server ticket kdcTime))
      (min32 ticket.times.renewTill
        (kdcTime + min32 server.maxRenewableLife kdc.maxRenewableLifeForRealm)) ≠ 0
  else ¬((isflagset request.kdcOptions kdcOptRenew ||
    isflagset request.kdcOptions kdcOptValidate) && isflagset ticket.flags tktFlgRenewable)

/-- And the time a postdated ticket is asked for is the present, where a present
of zero is written as no start time. -/
def ConsistentWhen (kdc : Env) (request : KdcReq) (server : DbEntry) (ticket : EncTktPart)
    (kdcTime : Timestamp) : Prop :=
  RenewalAgrees kdc request server ticket kdcTime ∧
  (asksPostdated request →
    request.fromTime = if kdcTime = 0 then ticket.times.authtime else kdcTime)

/-- Flag and limit of a drafted ticket agree exactly where `RenewalAgrees` says so. -/
theorem renewable_iff_renewTill (kdc : Env) (request : KdcReq) (server : DbEntry)
    (ticket : EncTktPart) (kdcTime : Timestamp) :
    (isflagset (tgsDraft kdc request server ticket kdcTime).flags tktFlgRenewable ↔
      (tgsDraft kdc request server ticket kdcTime).times.renewTill ≠ 0) ↔
    RenewalAgrees kdc request server ticket kdcTime := by
  rw [isflagset_tgsDraft_renewable, tgsDraft_times, RenewalAgrees]
  by_cases hasked : renewableAsked kdc request server ticket kdcTime
  · simp [hasked]
  · simp [hasked]

/-- A postdated ticket is drafted invalid, and to start at the present. -/
theorem postdated_draft {kdc : Env} {request : KdcReq} {server : DbEntry} {ticket : EncTktPart}
    {kdcTime : Timestamp} (h : asksPostdated request) :
    isflagset (tgsDraft kdc request server ticket kdcTime).flags tktFlgInvalid ∧
      (fixStarttime (tgsDraft kdc request server ticket kdcTime).times).starttime =
        if kdcTime = 0 then ticket.times.authtime else kdcTime := by
  simp only [asksPostdated, Bool.and_eq_true, Bool.not_eq_true'] at h
  obtain ⟨⟨hpost, hvalidate⟩, hrenew⟩ := h
  constructor
  · rw [isflagset_tgsDraft_of_disjoint _ _ _ _ _ (by decide)]
    simp [copiedFlags, hvalidate, hrenew, isflagset_optionFlags, hpost]
  · -- the present is left out where it is the time of the authentication, and read as left
    -- out where it is zero
    rw [tgsDraft_times, fixStarttime]
    by_cases hauth : kdcTime = ticket.times.authtime
    · simp [hauth]
    by_cases hzero : kdcTime = 0 <;> simp [hauth, hzero]

/-- Issued tickets are consistent exactly under the condition. -/
theorem issued_consistent_iff (kdc : Env) (pkt : Octets) (request : KdcReq) (issued : Issued)
    (h : processTgsReq kdc pkt request = .ok issued) :
    Consistent request issued.ticket.encPart2 ↔
      ConsistentWhen kdc request issued.server issued.header.encPart2 issued.kdcTime := by
  obtain ⟨-, -, hfrom⟩ := processTgsReq_eq_ok h
  unfold Consistent ConsistentWhen
  rw [hfrom.flags, hfrom.times, renewable_iff_renewTill]
  refine and_congr_right fun _ => imp_congr_right fun hpost => ?_
  obtain ⟨hinvalid, hstart⟩ := @postdated_draft kdc request issued.server
    issued.header.encPart2 issued.kdcTime hpost
  rw [hstart]
  exact ⟨fun h => h.2.symm, fun h => ⟨hinvalid, h.symm⟩⟩

/-- A renewable ticket that is postdated to the present. -/
theorem issued_consistent_iff_service :
    ∃ issued, processTgsReq (smallEnv (smallTicket localTgs
          (tktFlgMayPostdate ||| tktFlgRenewable) ⟨10, 0, 200, 500⟩) openEntry 100)
        smallPacket (smallRequest localService (kdcOptPostdated ||| kdcOptRenewable) 100 0 400) =
          .ok issued ∧
      Consistent (smallRequest localService (kdcOptPostdated ||| kdcOptRenewable) 100 0 400)
        issued.ticket.encPart2 := by
  have h : processTgsReq (smallEnv (smallTicket localTgs (tktFlgMayPostdate ||| tktFlgRenewable)
      ⟨10, 0, 200, 500⟩) openEntry 100) smallPacket
    (smallRequest localService (kdcOptPostdated ||| kdcOptRenewable) 100 0 400) = .ok _ := rfl
  exact ⟨_, h, (issued_consistent_iff _ _ _ _ h).mpr ⟨by unfold RenewalAgrees; decide, by decide⟩⟩

/-- A renewal that does not ask for another one leaves a renewable ticket
without a limit, and a ticket asked for from 150 on starts at 100. -/
theorem issued_inconsistent :
    (∃ issued, processTgsReq
        (smallEnv (smallTicket localTgs tktFlgRenewable ⟨10, 0, 200, 500⟩) openEntry 100)
        smallPacket (smallRequest localTgs kdcOptRenew 0 0 0) = .ok issued ∧
      isflagset issued.ticket.encPart2.flags tktFlgRenewable ∧
      issued.ticket.encPart2.times.renewTill = 0) ∧
    (∃ issued, processTgsReq
        (smallEnv (smallTicket localTgs tktFlgMayPostdate ⟨10, 0, 200, 0⟩) openEntry 100)
        smallPacket (smallRequest localService kdcOptPostdated 150 0 0) = .ok issued ∧
      (fixStarttime issued.ticket.encPart2.times).starttime = 100) :=
  ⟨⟨_, rfl, rfl, rfl⟩, ⟨_, rfl, rfl⟩⟩

end Krb5.Kdc
