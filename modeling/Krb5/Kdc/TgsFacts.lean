import Krb5.Kdc.TgsReq

/-!
# Reading a drafted ticket

The option blocks of `process_tgs_req` overwrite one another. The lemmas here
say what is left at the end, one flag and one time at a time, as a function of
the request and of the presented ticket.
-/

namespace Krb5.Kdc

open Lib

variable (kdc : Env) (request : KdcReq) (server : DbEntry) (ticket : EncTktPart)
  (kdcTime : Timestamp)

@[simp] theorem headerPart_flags : (headerPart ticket).flags = ticket.flags := rfl

@[simp] theorem headerPart_times :
    (headerPart ticket).times = fixStarttime ticket.times := rfl

variable (times : TicketTimes)

@[simp] theorem fixStarttime_authtime : (fixStarttime times).authtime = times.authtime := by
  unfold fixStarttime
  split <;> rfl

@[simp] theorem fixStarttime_endtime : (fixStarttime times).endtime = times.endtime := by
  unfold fixStarttime
  split <;> rfl

@[simp] theorem fixStarttime_renewTill : (fixStarttime times).renewTill = times.renewTill := by
  unfold fixStarttime
  split <;> rfl

/-- The `RENEWABLE` block runs: the option is in the request, or `RENEWABLE_OK`
put it there. -/
def renewableAsked : Bool :=
  isflagset request.kdcOptions kdcOptRenewable ||
    (!isflagset request.kdcOptions kdcOptRenew &&
      renewableOkApplies kdc request server (headerPart ticket) kdcTime)

def copiedFlags : Flags :=
  if isflagset request.kdcOptions kdcOptRenew then ticket.flags
  else if isflagset request.kdcOptions kdcOptValidate then clear ticket.flags tktFlgInvalid
  else optionFlags request.kdcOptions ticket.flags

/-- The time limit the `RENEWABLE` block starts from: the requested one, or
under `RENEWABLE_OK` the requested end. -/
def renewLimit : Timestamp :=
  if !isflagset request.kdcOptions kdcOptRenew &&
      renewableOkApplies kdc request server (headerPart ticket) kdcTime then
    min32 request.till ticket.times.renewTill
  else request.rtime

theorem isflagset_raise_renewable (options : Flags) :
    isflagset (raise options kdcOptRenewable) kdcOptRenewable := by
  rw [isflagset, isSet_raise]
  simp [show isSet kdcOptRenewable kdcOptRenewable = true from by decide]

theorem tgsDraft_flags :
    (tgsDraft kdc request server ticket kdcTime).flags =
      raiseIf (isflagset ticket.flags tktFlgHwAuth)
        (raiseIf (isflagset ticket.flags tktFlgPreAuth)
          (raiseIf (renewableAsked kdc request server ticket kdcTime)
            (copiedFlags request ticket) tktFlgRenewable) tktFlgPreAuth) tktFlgHwAuth := by
  unfold tgsDraft finishDraft renewableDraft renewDraft validateDraft renewableAsked copiedFlags
  by_cases hrenew : isflagset request.kdcOptions kdcOptRenew
  · by_cases hren : isflagset request.kdcOptions kdcOptRenewable <;>
      simp [hrenew, hren, raiseIf]
  by_cases hok : renewableOkApplies kdc request server (headerPart ticket) kdcTime <;>
    by_cases hval : isflagset request.kdcOptions kdcOptValidate <;>
    by_cases hren : isflagset request.kdcOptions kdcOptRenewable <;>
    simp [hrenew, hok, hval, hren, raiseIf, isflagset_raise_renewable, optionDraft]

/-- The times of the drafted ticket. The start time is the present, whatever
the `POSTDATED` and `VALIDATE` blocks wrote. -/
theorem tgsDraft_times :
    (tgsDraft kdc request server ticket kdcTime).times =
      { authtime := ticket.times.authtime
        starttime := if kdcTime = ticket.times.authtime then 0 else kdcTime
        endtime :=
          if isflagset request.kdcOptions kdcOptRenew then
            min32 ticket.times.renewTill
              (kdcTime + (ticket.times.endtime - (fixStarttime ticket.times).starttime))
          else tgsEndtime kdc request server (headerPart ticket) kdcTime
        renewTill :=
          if renewableAsked kdc request server ticket kdcTime then
            min32 (orInfinity (renewLimit kdc request server ticket kdcTime))
              (min32 ticket.times.renewTill
                (kdcTime + min32 server.maxRenewableLife kdc.maxRenewableLifeForRealm))
          else 0 } := by
  unfold tgsDraft finishDraft renewableDraft renewDraft validateDraft renewableAsked renewLimit
  by_cases hrenew : isflagset request.kdcOptions kdcOptRenew
  · by_cases hren : isflagset request.kdcOptions kdcOptRenewable <;>
      simp [hrenew, hren]
  by_cases hok : renewableOkApplies kdc request server (headerPart ticket) kdcTime <;>
    by_cases hval : isflagset request.kdcOptions kdcOptValidate <;>
    by_cases hren : isflagset request.kdcOptions kdcOptRenewable <;>
    simp [hrenew, hok, hren, isflagset_raise_renewable]

theorem isflagset_optionFlags (options header : Flags) :
    isflagset (optionFlags options header) tktFlgForwardable = isflagset options kdcOptForwardable ∧
    isflagset (optionFlags options header) tktFlgProxiable = isflagset options kdcOptProxiable ∧
    isflagset (optionFlags options header) tktFlgProxy = isflagset options kdcOptProxy ∧
    isflagset (optionFlags options header) tktFlgMayPostdate =
      isflagset options kdcOptAllowPostdate ∧
    isflagset (optionFlags options header) tktFlgPostdated = isflagset options kdcOptPostdated ∧
    isflagset (optionFlags options header) tktFlgInvalid = isflagset options kdcOptPostdated ∧
    isflagset (optionFlags options header) tktFlgRenewable = false ∧
    isflagset (optionFlags options header) tktFlgPreAuth = false ∧
    isflagset (optionFlags options header) tktFlgHwAuth = false := by
  simp only [optionFlags, isSet_raiseIf]
  refine ⟨?_, ?_, ?_, ?_, ?_, ?_, ?_, ?_, ?_⟩ <;>
    simp [isSet, tktFlgForwardable, tktFlgForwarded, tktFlgProxiable, tktFlgProxy,
      tktFlgMayPostdate, tktFlgPostdated, tktFlgInvalid, tktFlgRenewable, tktFlgPreAuth,
      tktFlgHwAuth]

theorem isflagset_tgsDraft (m : Flags) :
    isflagset (tgsDraft kdc request server ticket kdcTime).flags m =
      (isflagset (copiedFlags request ticket) m ||
        (renewableAsked kdc request server ticket kdcTime && isflagset tktFlgRenewable m) ||
        (isflagset ticket.flags tktFlgPreAuth && isflagset tktFlgPreAuth m) ||
        (isflagset ticket.flags tktFlgHwAuth && isflagset tktFlgHwAuth m)) := by
  simp [tgsDraft_flags, isSet_raiseIf]

theorem isflagset_tgsDraft_of_disjoint {m : Flags}
    (h : isflagset (tktFlgRenewable ||| tktFlgPreAuth ||| tktFlgHwAuth) m = false) :
    isflagset (tgsDraft kdc request server ticket kdcTime).flags m =
      isflagset (copiedFlags request ticket) m := by
  have hraise : ∀ a b : Flags, isflagset (a ||| b) m = (isflagset a m || isflagset b m) :=
    fun a b => isSet_raise a b m
  simp only [hraise, Bool.or_eq_false_iff] at h
  simp [isflagset_tgsDraft, h]

/-- The ticket is renewable if it was copied from a renewable one or the
`RENEWABLE` block ran. -/
theorem isflagset_tgsDraft_renewable :
    isflagset (tgsDraft kdc request server ticket kdcTime).flags tktFlgRenewable =
      (renewableAsked kdc request server ticket kdcTime ||
        ((isflagset request.kdcOptions kdcOptRenew ||
          isflagset request.kdcOptions kdcOptValidate) &&
            isflagset ticket.flags tktFlgRenewable)) := by
  have hcopied : isflagset (copiedFlags request ticket) tktFlgRenewable =
      ((isflagset request.kdcOptions kdcOptRenew ||
        isflagset request.kdcOptions kdcOptValidate) &&
          isflagset ticket.flags tktFlgRenewable) := by
    unfold copiedFlags
    split
    · simp [*]
    split
    · rw [isflagset, isSet_clear_of_disjoint _ _ _ (by decide)]
      simp [*]
    · simp [*, isflagset_optionFlags]
  rw [isflagset_tgsDraft, hcopied]
  simp [show isflagset tktFlgRenewable tktFlgRenewable = true from by decide,
    show isflagset tktFlgPreAuth tktFlgRenewable = false from by decide,
    show isflagset tktFlgHwAuth tktFlgRenewable = false from by decide, Bool.or_comm]

end Krb5.Kdc
