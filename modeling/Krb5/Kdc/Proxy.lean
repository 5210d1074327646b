import Mathlib.Data.Set.Insert
import Krb5.Kdc.Chain

/-!
# The proxy rule

A ticket-granting ticket is not to be proxied. The guard that should see to
this, `CAN'T PROXY TGT`, is the wrong way round: it refuses the servers that are
not ticket-granting ones.
-/

namespace Krb5.Kdc

open Lib

/-- The answer has the flag `PROXY`, and not as a copy of the presented one's. -/
def SetsProxy (request : KdcReq) (presented answer : Ticket) : Prop :=
  isflagset answer.encPart2.flags tktFlgProxy ∧
    (isflagset presented.encPart2.flags tktFlgProxy = false ∨ copies request = false)

/-- No proxy ticket among the tickets is a ticket-granting one. -/
def NoProxyTgt (held : Set Ticket) : Prop :=
  ∀ t ∈ held, isflagset t.encPart2.flags tktFlgProxy → isTgsPrincipal t.server = false

/-- A request that presents one of the tickets held and adds the answer to
them. -/
def HoldStep (held : Set Ticket) (e : TgsEvent) (held' : Set Ticket) : Prop :=
  ∃ presented ∈ held, ∃ answer, TgsStep presented e answer ∧ held' = insert answer held

/-- A proxy request that is also one for a copy. -/
def ProxyCopies (e : TgsEvent) : Prop :=
  isflagset e.request.kdcOptions kdcOptProxy → copies e.request

/-! ## Requests that are granted -/

theorem isflagset_copiedFlags_proxy (request : KdcReq) (ticket : EncTktPart) :
    isflagset (copiedFlags request ticket) tktFlgProxy =
      if copies request then isflagset ticket.flags tktFlgProxy
      else isflagset request.kdcOptions kdcOptProxy := by
  unfold copiedFlags copies
  by_cases hrenew : isflagset request.kdcOptions kdcOptRenew
  · simp [hrenew]
  by_cases hvalidate : isflagset request.kdcOptions kdcOptValidate
  · simp [hrenew, hvalidate, isSet_clear_of_disjoint _ _ _
      (show tktFlgProxy &&& ~~~tktFlgInvalid = tktFlgProxy from by
        simp [tktFlgProxy, tktFlgInvalid])]
  · simp [hrenew, hvalidate, isflagset_optionFlags]

variable {request : KdcReq} {issued : Issued} {kdc : Env} {e : TgsEvent} {name : Principal}
  {server : DbEntry} {ticket : Ticket} {kdcTime : Timestamp}

theorem IssuedFrom.proxy_flag (h : IssuedFrom kdc request issued) :
    isflagset issued.ticket.encPart2.flags tktFlgProxy =
      if copies request then isflagset issued.header.encPart2.flags tktFlgProxy
      else isflagset request.kdcOptions kdcOptProxy := by
  rw [h.flags, isflagset_tgsDraft_of_disjoint _ _ _ _ _ (by decide), isflagset_copiedFlags_proxy]

theorem IssuedFrom.setsProxy_iff (h : IssuedFrom kdc request issued) :
    SetsProxy request issued.header issued.ticket ↔
      isflagset request.kdcOptions kdcOptProxy ∧ copies request = false := by
  rw [SetsProxy, h.proxy_flag]
  cases hcopies : copies request <;> simp

theorem HoldStep.noProxyTgt {held held' : Set Ticket} (hstep : HoldStep held e held')
    (he : ProxyCopies e) (h : NoProxyTgt held) : NoProxyTgt held' := by
  obtain ⟨_, hpresented, _, ⟨issued, hissued, rfl, rfl⟩, rfl⟩ := hstep
  obtain ⟨-, -, hfrom⟩ := processTgsReq_eq_ok hissued
  intro t ht hproxy
  rcases Set.mem_insert_iff.mp ht with rfl | ht
  · rw [hfrom.proxy_flag] at hproxy
    cases hcopies : copies e.request with
    | true =>
      -- a copy: server and flag are those of the presented ticket
      rw [hcopies] at hproxy
      rw [hfrom.server, if_pos hcopies]
      exact h _ hpresented hproxy
    | false =>
      rw [hcopies] at hproxy
      exact absurd (he hproxy) (by simp [hcopies])
  · exact h t ht hproxy

def proxyRefusal : Refusal := ⟨some "CAN'T PROXY TGT", .kdcErrBadoption⟩

theorem beforeProxyGuards_error :
    runGuards (beforeProxyGuards request name server ticket kdcTime) ≠ .error proxyRefusal := by
  intro h
  obtain ⟨g, hg, herr⟩ := runGuards_eq_error h
  have hother : ∀ g ∈ beforeProxyGuards request name server ticket kdcTime,
      g.error ≠ proxyRefusal := by
    unfold beforeProxyGuards ticketServerGuards ticketFlagGuards
    split <;> simp [guardStatus, proxyRefusal]
  exact hother g hg herr

theorem validateTgsRequest_proxy_iff {tgsServer : Principal}
    (hproxy : isflagset request.kdcOptions kdcOptProxy) (hname : isTgsPrincipal name = false) :
    validateTgsRequest tgsServer request name server ticket kdcTime = .error proxyRefusal ↔
      runGuards (beforeProxyGuards request name server ticket kdcTime) = .ok () := by
  have hguard : ∀ rest, runGuards (proxyGuard request name :: rest) = .error proxyRefusal := by
    simp [runGuards, proxyGuard, guardStatus, hproxy, hname, proxyRefusal]
  rw [validateTgsRequest, List.append_assoc, runGuards_append, List.cons_append, hguard]
  cases hbefore : runGuards (beforeProxyGuards request name server ticket kdcTime) with
  | ok u => simp [bind, Except.bind]
  | error err =>
    have hother := @beforeProxyGuards_error request name server ticket kdcTime
    rw [hbefore] at hother
    simpa [bind, Except.bind] using hother

/-! ## The rule over runs -/

theorem IssuedFrom.proxiesTgt_iff (h : IssuedFrom e.kdc e.request issued) :
    (isTgsPrincipal issued.ticket.server ∧ SetsProxy e.request issued.header issued.ticket) ↔
      ¬ProxyCopies e := by
  rw [h.setsProxy_iff]
  constructor
  · rintro ⟨-, hproxy, hcopies⟩ hc
    exact absurd (hc hproxy) (by simp [hcopies])
  intro hc
  obtain ⟨hproxy, hcopies⟩ := Classical.not_imp.mp hc
  have hcopies : copies e.request = false := by simpa using hcopies
  have hname := (validateTgsRequest_eq_ok h.validated).proxy hproxy
  exact ⟨by rw [h.server, hcopies]; exact hname, hproxy, hcopies⟩

/-- In every run of granted requests in which proxy requests ask for a copy, no
ticket held is a proxied ticket-granting one. Any granted request proxies one
exactly if it breaks that condition. A proxy request for an ordinary server,
whatever the ticket presented with it, is spared `CAN'T PROXY TGT` exactly if a
guard in front refuses it. -/
theorem proxy_run {held held' : Set Ticket} {es : List TgsEvent} (hheld : NoProxyTgt held)
    (hrun : Run (fun h e h' => HoldStep h e h' ∧ ProxyCopies e) held es held') :
    NoProxyTgt held' ∧
    (∀ e issued, processTgsReq e.kdc e.pkt e.request = .ok issued →
      ((isTgsPrincipal issued.ticket.server ∧
          SetsProxy e.request issued.header issued.ticket) ↔ ¬ProxyCopies e)) ∧
    (∀ tgsServer request name server ticket kdcTime,
      isflagset request.kdcOptions kdcOptProxy → isTgsPrincipal name = false →
      (validateTgsRequest tgsServer request name server ticket kdcTime ≠ .error proxyRefusal ↔
        runGuards (beforeProxyGuards request name server ticket kdcTime) ≠ .ok ())) := by
  refine ⟨?_, ?_, ?_⟩
  · exact hrun.history (fun _ h => NoProxyTgt h) hheld
      fun _ _ _ _ ih hstep => hstep.1.noProxyTgt hstep.2 ih
  · intro e issued hissued
    exact (processTgsReq_eq_ok hissued).2.2.proxiesTgt_iff
  · intro tgsServer request name server ticket kdcTime hproxy hname
    exact not_congr (validateTgsRequest_proxy_iff hproxy hname)

def proxiableTgt : Ticket :=
  smallTicket localTgs (tktFlgProxiable ||| tktFlgRenewable) ⟨10, 0, 200, 500⟩

/-- A proxy request that asks for a renewed ticket, too. -/
def proxyRenewal : TgsEvent :=
  smallEvent proxiableTgt 100 (smallRequest localTgs (kdcOptProxy ||| kdcOptRenew) 0 0 0)

theorem proxy_run_service : isflagset proxyRenewal.request.kdcOptions kdcOptProxy ∧
    ∃ held', Run (fun h e h' => HoldStep h e h' ∧ ProxyCopies e) {proxiableTgt} [proxyRenewal] held' ∧
      NoProxyTgt held' := by
  have hstep : TgsStep proxiableTgt proxyRenewal _ := ⟨_, rfl, rfl, rfl⟩
  have hheld : NoProxyTgt {proxiableTgt} := by
    rintro t rfl h
    exact absurd h (by decide)
  have hhold : HoldStep {proxiableTgt} proxyRenewal _ := ⟨_, Set.mem_singleton _, _, hstep, rfl⟩
  have hrun := @Run.snoc _ _ (fun h e h' => HoldStep h e h' ∧ ProxyCopies e) _ _ _ _ _ Run.nil
    ⟨hhold, fun _ => rfl⟩
  exact ⟨rfl, _, hrun, (proxy_run hheld hrun).1⟩

/-- A ticket-granting ticket is proxied, and a proxy for a service refused to
the holder of a proxiable ticket for it. -/
theorem proxy_reversed :
    (∃ issued, processTgsReq
        (smallEnv (smallTicket localTgs tktFlgProxiable ⟨10, 0, 200, 0⟩) openEntry 100)
        smallPacket (smallRequest localTgs kdcOptProxy 0 0 0) = .ok issued ∧
      isTgsPrincipal issued.ticket.server ∧
      isflagset issued.header.encPart2.flags tktFlgProxy = false ∧
      isflagset issued.ticket.encPart2.flags tktFlgProxy) ∧
    validateTgsRequest localTgs (smallRequest localService kdcOptProxy 0 0 0) localService
      openEntry (smallTicket localService tktFlgProxiable ⟨10, 0, 200, 0⟩) 100 =
        .error ⟨some "CAN'T PROXY TGT", .kdcErrBadoption⟩ :=
  ⟨⟨_, rfl, rfl, rfl, rfl⟩, rfl⟩

end Krb5.Kdc
