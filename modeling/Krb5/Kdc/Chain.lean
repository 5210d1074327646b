import Krb5.Kdc.TgsFacts
import Krb5.Lib.Runs

/-!
# Chains of TGS requests

A chain starts from any ticket; each request presents the ticket the request before it was answered
with, in an environment of its own. What one request can do to a ticket is `Descends`. A renewal
limit of zero stands for none.
-/

namespace Krb5.Kdc

open Lib List

/-- One TGS request and the environment it is processed in. -/
structure TgsEvent where
  kdc : Env
  pkt : Octets
  request : KdcReq

/-- The request presents the first ticket and is answered with the second. -/
def TgsStep (presented : Ticket) (e : TgsEvent) (answer : Ticket) : Prop :=
  ∃ issued, processTgsReq e.kdc e.pkt e.request = .ok issued ∧
    issued.header = presented ∧ issued.ticket = answer

/-- The flags that only the first ticket of a chain can bring in. -/
def heldFlags : List Flags :=
  [tktFlgForwardable, tktFlgProxiable, tktFlgMayPostdate, tktFlgRenewable, tktFlgPreAuth,
    tktFlgHwAuth]

theorem heldFlags_valid : ∀ f ∈ heldFlags, f &&& ~~~tktFlgInvalid = f := by
  simp [heldFlags, tktFlgInvalid, tktFlgForwardable, tktFlgProxiable, tktFlgMayPostdate,
    tktFlgRenewable, tktFlgPreAuth, tktFlgHwAuth]

theorem heldFlags_single : ∀ g ∈ heldFlags, ∀ f ∈ heldFlags, isflagset f g → f = g := by
  simp [heldFlags, isSet, tktFlgForwardable, tktFlgProxiable, tktFlgMayPostdate,
    tktFlgRenewable, tktFlgPreAuth, tktFlgHwAuth]

/-! ## One request -/

variable {request : KdcReq} {name : Principal} {server : DbEntry} {ticket : Ticket}
  {kdcTime : Timestamp} {kdc : Env} {positive : Prop}

section

variable (hallowed : TgsAllowed request name server ticket kdcTime) {m : Flags}
include hallowed

theorem copiedFlags_held (hm : m ∈ heldFlags)
    (h : isflagset (copiedFlags request ticket.encPart2) m) :
    isflagset ticket.encPart2.flags m := by
  unfold copiedFlags at h
  split at h
  · exact h
  split at h
  · rwa [isflagset, isSet_clear_of_disjoint _ _ _ (heldFlags_valid m hm)] at h
  obtain ⟨hfwd, hprx, -, hpost, -, -, hren, hpre, hhw⟩ :=
    isflagset_optionFlags request.kdcOptions ticket.encPart2.flags
  simp only [heldFlags, mem_cons, not_mem_nil, or_false] at hm
  rcases hm with rfl | rfl | rfl | rfl | rfl | rfl
  · exact hallowed.forwardable (hfwd ▸ h)
  · exact hallowed.proxiable (hprx ▸ h)
  · exact hallowed.postdate (hpost ▸ h)
  · exact absurd (hren ▸ h) (by simp)
  · exact absurd (hpre ▸ h) (by simp)
  · exact absurd (hhw ▸ h) (by simp)

theorem renewableAsked_held
    (h : renewableAsked kdc request server ticket.encPart2 kdcTime) :
    isflagset ticket.encPart2.flags tktFlgRenewable := by
  simp only [renewableAsked, renewableOkApplies, Bool.or_eq_true, Bool.and_eq_true] at h
  rcases h with h | h
  · exact hallowed.renewable h
  · exact h.2.2

theorem tgsDraft_held (hm : m ∈ heldFlags)
    (h : isflagset (tgsDraft kdc request server ticket.encPart2 kdcTime).flags m) :
    isflagset ticket.encPart2.flags m := by
  -- the held flags are single bits, so one that meets `RENEWABLE` is `RENEWABLE`
  have hsame := heldFlags_single m hm
  rw [isflagset_tgsDraft] at h
  simp only [Bool.or_eq_true, Bool.and_eq_true] at h
  rcases h with ((h | ⟨hasked, h⟩) | ⟨hpre, h⟩) | ⟨hhw, h⟩
  · exact copiedFlags_held hallowed hm h
  · rw [← hsame _ (by simp [heldFlags]) h]
    exact renewableAsked_held hallowed hasked
  · rwa [← hsame _ (by simp [heldFlags]) h]
  · rwa [← hsame _ (by simp [heldFlags]) h]

end

/-- What a request can do to the presented ticket. -/
structure Descends (kdcTime : Timestamp) (presented answer : EncTktPart) : Prop where
  flags : ∀ m ∈ heldFlags, isflagset answer.flags m → isflagset presented.flags m
  client : answer.client = presented.client
  authtime : answer.times.authtime = presented.times.authtime
  renewTill : answer.times.renewTill = 0 ∨
    answer.times.renewTill ≤ presented.times.renewTill
  endtime : answer.times.endtime ≤ presented.times.endtime ∨
    kdcTime ≤ presented.times.renewTill ∧
      answer.times.endtime ≤ presented.times.renewTill

/-- What one exchange hands down from the ticket it is shown. -/
theorem IssuedFrom.descends {issued : Issued} (h : IssuedFrom kdc request issued) :
    Descends issued.kdcTime issued.header.encPart2 issued.ticket.encPart2 := by
  have hallowed := validateTgsRequest_eq_ok h.validated
  have htimes := h.times
  rw [tgsDraft_times] at htimes
  constructor
  case flags =>
    intro m hm hset
    exact tgsDraft_held hallowed hm (h.flags ▸ hset)
  case client => exact h.client
  case authtime => rw [htimes]
  case renewTill =>
    rw [htimes]
    simp only
    split
    · -- the limit is a minimum in which the presented one takes part
      exact .inr (Int32.le_trans (min32_le_right _ _) (min32_le_left _ _))
    · exact .inl rfl
  case endtime =>
    rw [htimes]
    simp only
    split
    · rename_i hrenew
      exact .inr ⟨(hallowed.renew hrenew).2, min32_le_left _ _⟩
    left
    refine Int32.le_trans (min32_le_right _ _) (Int32.le_trans (min32_le_right _ _) ?_)
    simpa using min32_le_right (issued.kdcTime + kdc.maxLifeForRealm)
      issued.header.encPart2.times.endtime

/-! ## Chains -/

/-- What a chain leaves of its first ticket; `positive` says that the clock was
past the epoch at every request. -/
structure Bounded (first : EncTktPart) (positive : Prop) (last : EncTktPart) : Prop where
  flags : ∀ m ∈ heldFlags, isflagset last.flags m → isflagset first.flags m
  client : last.client = first.client
  authtime : last.times.authtime = first.times.authtime
  renewTill : last.times.renewTill ≤ first.times.renewTill ∨ last.times.renewTill ≤ 0
  endtime : last.times.endtime ≤ first.times.endtime ∨
    last.times.endtime ≤ first.times.renewTill ∨ ¬positive ∧ last.times.endtime ≤ 0

theorem bounded_self (first : EncTktPart) (positive : Prop) : Bounded first positive first :=
  ⟨fun _ _ h => h, rfl, rfl, .inl (Int32.le_refl _), .inl (Int32.le_refl _)⟩

/-- One exchange keeps the bounds of the first ticket. -/
theorem Bounded.step {first presented answer : EncTktPart} (h : Bounded first positive presented)
    (hstep : Descends kdcTime presented answer) (hpos : positive → 0 < kdcTime) :
    Bounded first positive answer where
  flags m hm hset := h.flags m hm (hstep.flags m hm hset)
  client := hstep.client.trans h.client
  authtime := hstep.authtime.trans h.authtime
  renewTill := by
    have hlim := h.renewTill
    rcases hstep.renewTill with h0 | hle
    · exact .inr (by grind)
    · grind
  endtime := by
    have hlim := h.renewTill
    have hend := h.endtime
    rcases hstep.endtime with hle | ⟨htime, hle⟩
    · grind
    -- a renewal: the presented limit is not below the clock
    by_cases hp : positive
    · grind
    · grind

theorem Bounded.mono {first last : EncTktPart} {positive' : Prop} (h : Bounded first positive last)
    (himp : positive' → positive) : Bounded first positive' last :=
  { h with endtime := h.endtime.imp_right (Or.imp_right (And.imp_left (mt himp))) }

/-- The clock is past the epoch in every request of the chain. -/
def ClockPositive (es : List TgsEvent) : Prop :=
  ∀ e ∈ es, ∀ t, e.kdc.timeofday = .ok t → 0 < t

/-- After any chain of requests the last ticket has no held flag, client or
authentication time that the first had not; its renewal limit is at most the
first's or at most zero, and it ends at most when the first ended or its
renewal limit is reached, or, with a clock not past the epoch, at most at
zero. -/
theorem tgsChain_bounded {first last : Ticket} {es : List TgsEvent}
    (h : Run TgsStep first es last) :
    Bounded first.encPart2 (ClockPositive es) last.encPart2 := by
  refine h.history (fun es t => Bounded first.encPart2 (ClockPositive es) t.encPart2)
    (bounded_self _ _) ?_
  intro es t e u ih hstep
  obtain ⟨issued, hissued, rfl, rfl⟩ := hstep
  obtain ⟨-, -, hfrom⟩ := processTgsReq_eq_ok hissued
  have hshorter : ClockPositive (es ++ [e]) → ClockPositive es :=
    fun hpos e' he' => hpos e' (mem_append_left _ he')
  exact (ih.mono hshorter).step hfrom.descends fun hpos => hpos e (by simp) _ hfrom.time

/-- A request for a small realm with open entries, at a time. -/
def smallEvent (presented : Ticket) (kdcTime : Timestamp) (request : KdcReq) : TgsEvent :=
  ⟨smallEnv presented openEntry kdcTime, smallPacket, request⟩

def renewableTgt (times : TicketTimes) : Ticket :=
  smallTicket localTgs (tktFlgForwardable ||| tktFlgRenewable) times

def renewalChain : List TgsEvent :=
  [smallEvent (renewableTgt ⟨10, 0, 200, 500⟩) 100
      (smallRequest localTgs (kdcOptForwardable ||| kdcOptRenewable) 0 0 400),
    smallEvent (renewableTgt ⟨10, 100, 200, 400⟩) 150 (smallRequest localTgs kdcOptRenew 0 0 0)]

/-- A renewable and forwardable ticket is asked for, and renewed beyond the end of the first one. -/
theorem tgsChain_bounded_service :
    ∃ last, Run TgsStep (renewableTgt ⟨10, 0, 200, 500⟩) renewalChain last ∧
      last.encPart2.times = ⟨10, 150, 250, 0⟩ ∧
      Bounded (renewableTgt ⟨10, 0, 200, 500⟩).encPart2 (ClockPositive renewalChain)
        last.encPart2 := by
  have hrun : Run TgsStep (renewableTgt ⟨10, 0, 200, 500⟩) renewalChain
      (renewableTgt ⟨10, 150, 250, 0⟩) :=
    Run.snoc (Run.snoc Run.nil ⟨_, rfl, rfl, rfl⟩) ⟨_, rfl, rfl, rfl⟩
  exact ⟨_, hrun, rfl, tgsChain_bounded hrun⟩

/-- A date past 2038 wraps to one before the epoch. A renewal limit of that kind is below the zero
that stands for none. And a ticket that `VALIDATE` left renewable with the limit zero can be renewed
while the clock is before the epoch, beyond both times of the first ticket. The tickets of a chain
are passed on as structures; what an encoding makes of such a date is not looked at. -/
theorem tgsChain_exceeds :
    (∃ e last, TgsStep (smallTicket localTgs 0#32 ⟨10, 0, 200, -2147483648⟩) e last ∧
      ¬last.encPart2.times.renewTill ≤ -2147483648) ∧
    (∃ e mid e' last,
      TgsStep (smallTicket localTgs (tktFlgRenewable ||| tktFlgInvalid)
        ⟨-2147483648, -2147483648, -2147483548, -2147483498⟩) e mid ∧
      TgsStep mid e' last ∧
      ¬(last.encPart2.times.endtime ≤ -2147483548 ∨
        last.encPart2.times.endtime ≤ -2147483498)) := by
  refine ⟨⟨smallEvent (smallTicket localTgs 0#32 ⟨10, 0, 200, -2147483648⟩) 100
    (smallRequest localService 0#32 0 0 0), _, ⟨_, rfl, rfl, rfl⟩, by decide⟩, ?_⟩
  exact ⟨smallEvent (smallTicket localTgs (tktFlgRenewable ||| tktFlgInvalid)
      ⟨-2147483648, -2147483648, -2147483548, -2147483498⟩) (-2147483600)
      (smallRequest localTgs kdcOptValidate 0 0 0), _,
    smallEvent (smallTicket localTgs tktFlgRenewable
      ⟨-2147483648, -2147483600, -2147483548, 0⟩) (-2147483400)
      (smallRequest localTgs kdcOptRenew 0 0 0), _,
    ⟨_, rfl, rfl, rfl⟩, ⟨_, rfl, rfl, rfl⟩, by decide⟩

end Krb5.Kdc
