import Krb5.Basic
import Krb5.Lib.Checked

/-!
# Request policy (`kdc_util.c`)

`validate_as_request` and `validate_tgs_request`, as the lists of guards they
are, in the order of the source and with its status texts and codes. The two
local-policy hooks of `policy.c` and `check_hot_list` always return 0 and have
no guard.
-/

namespace Krb5.Kdc

open Lib List

/-! ## Database entries -/

/-- `krb5_key_data`, as far as the KDC looks at it itself. -/
structure KeyData where
  kvno : Int32
  contents : Octets
deriving DecidableEq, Repr

structure DbEntry where
  attributes : Flags
  maxLife : Deltat
  maxRenewableLife : Deltat
  expiration : Timestamp
  pwExpiration : Timestamp
  keyData : List KeyData
deriving DecidableEq, Repr

def kdbDisallowPostdated : Flags := 0x00000001#32
def kdbDisallowForwardable : Flags := 0x00000002#32
def kdbDisallowTgtBased : Flags := 0x00000004#32
def kdbDisallowRenewable : Flags := 0x00000008#32
def kdbDisallowProxiable : Flags := 0x00000010#32
def kdbDisallowDupSkey : Flags := 0x00000020#32
def kdbDisallowAllTix : Flags := 0x00000040#32
def kdbRequiresPreAuth : Flags := 0x00000080#32
def kdbRequiresHwAuth : Flags := 0x00000100#32
def kdbRequiresPwchange : Flags := 0x00000200#32
def kdbDisallowSvr : Flags := 0x00001000#32
def kdbPwchangeService : Flags := 0x00002000#32
def kdbSupportDesmd5 : Flags := 0x00004000#32

/-- Why a request is refused: the text for the log, if there is one, and the
code for the client. -/
structure Refusal where
  status : Option String
  code : ErrorCode
deriving DecidableEq, Repr

/-- `if (refuses) { *status = status; return code; }`. -/
def guardStatus (refuses : Bool) (status : String) (code : ErrorCode) : Guard Refusal where
  refuses := refuses
  error := ⟨some status, code⟩

def expired (expiration kdcTime : Timestamp) : Bool :=
  expiration != 0 && decide (expiration < kdcTime)

def asOptionsHandled : Flags :=
  kdcOptForwardable ||| kdcOptProxiable ||| kdcOptAllowPostdate ||| kdcOptPostdated |||
    kdcOptRenewable ||| kdcOptRenewableOk

def eitherHas (client server : DbEntry) (bit : Flags) : Bool :=
  isflagset client.attributes bit || isflagset server.attributes bit

def asGuards (request : KdcReq) (client server : DbEntry) (kdcTime : Timestamp) :
    List (Guard Refusal) :=
  let opt := isflagset request.kdcOptions
  [ guardStatus (isflagset request.kdcOptions (~~~asOptionsHandled)) "INVALID AS OPTIONS"
      .kdcErrBadoption,
    guardStatus (expired client.pwExpiration kdcTime &&
      !isflagset server.attributes kdbPwchangeService) "CLIENT KEY EXPIRED" .kdcErrKeyExp,
    guardStatus (expired client.expiration kdcTime) "CLIENT EXPIRED" .kdcErrNameExp,
    guardStatus (expired server.expiration kdcTime) "SERVICE EXPIRED" .kdcErrServiceExp,
    guardStatus (isflagset client.attributes kdbRequiresPwchange &&
      !isflagset server.attributes kdbPwchangeService) "REQUIRED PWCHANGE" .kdcErrKeyExp,
    guardStatus ((opt kdcOptAllowPostdate || opt kdcOptPostdated) &&
      eitherHas client server kdbDisallowPostdated) "POSTDATE NOT ALLOWED" .kdcErrCannotPostdate,
    guardStatus (opt kdcOptForwardable && eitherHas client server kdbDisallowForwardable)
      "FORWARDABLE NOT ALLOWED" .kdcErrPolicy,
    guardStatus (opt kdcOptRenewable && eitherHas client server kdbDisallowRenewable)
      "RENEWABLE NOT ALLOWED" .kdcErrPolicy,
    guardStatus (opt kdcOptProxiable && eitherHas client server kdbDisallowProxiable)
      "PROXIABLE NOT ALLOWED" .kdcErrPolicy,
    guardStatus (isflagset client.attributes kdbDisallowAllTix) "CLIENT LOCKED OUT"
      .kdcErrCPrincipalUnknown,
    guardStatus (isflagset server.attributes kdbDisallowAllTix) "SERVICE LOCKED OUT"
      .kdcErrSPrincipalUnknown,
    guardStatus (isflagset server.attributes kdbDisallowSvr) "SERVICE NOT ALLOWED"
      .kdcErrSPrincipalUnknown ]

def validateAsRequest (request : KdcReq) (client server : DbEntry) (kdcTime : Timestamp) :
    Except Refusal Unit :=
  runGuards (asGuards request client server kdcTime)

/-! ## TGS requests -/

def tgsOptionsHandled : Flags :=
  kdcOptForwardable ||| kdcOptForwarded ||| kdcOptProxiable ||| kdcOptProxy |||
    kdcOptAllowPostdate ||| kdcOptPostdated ||| kdcOptRenewable ||| kdcOptRenewableOk |||
    kdcOptEncTktInSkey ||| kdcOptRenew ||| kdcOptValidate

def noTgtOption : Flags :=
  kdcOptForwarded ||| kdcOptProxy ||| kdcOptRenew ||| kdcOptValidate

/-- The first component of the name is `krbtgt`. `krb5_is_tgs_principal` reads
it without looking at their number. -/
def isTgsPrincipal (principal : Principal) : Bool := principal.data.head? == some tgsName

/-- The guards on the server of the presented ticket: the requested server
itself, or the ticket-granting service for the requested server's realm. -/
def ticketServerGuards (request : KdcReq) (name : Principal) (server : DbEntry)
    (ticket : Ticket) : List (Guard Refusal) :=
  if isflagset request.kdcOptions noTgtOption then
    [ guardStatus (!principalCompare ticket.server name)
        "SERVER DIDN'T MATCH TICKET FOR RENEW/FORWARD/ETC" .kdcErrServerNomatch ]
  else
    [ guardStatus (ticket.server.data.length != 2) "BAD TGS SERVER LENGTH" .apErrNotUs,
      guardStatus (!isTgsPrincipal ticket.server) "BAD TGS SERVER NAME" .apErrNotUs,
      guardStatus (ticket.server.data[1]? != some name.realm) "BAD TGS SERVER INSTANCE"
        .apErrNotUs,
      guardStatus (isflagset server.attributes kdbDisallowTgtBased) "TGT BASED NOT ALLOWED"
        .kdcErrPolicy ]

def ticketFlagGuards (request : KdcReq) (ticket : Ticket) : List (Guard Refusal) :=
  let opt := isflagset request.kdcOptions
  let flg := isflagset ticket.encPart2.flags
  [ guardStatus ((opt kdcOptForwarded || opt kdcOptForwardable) && !flg tktFlgForwardable)
      "TGT NOT FORWARDABLE" .kdcErrBadoption,
    guardStatus ((opt kdcOptProxy || opt kdcOptProxiable) && !flg tktFlgProxiable)
      "TGT NOT PROXIABLE" .kdcErrBadoption,
    guardStatus ((opt kdcOptAllowPostdate || opt kdcOptPostdated) && !flg tktFlgMayPostdate)
      "TGT NOT POSTDATABLE" .kdcErrBadoption,
    guardStatus (opt kdcOptValidate && !flg tktFlgInvalid) "VALIDATE VALID TICKET"
      .kdcErrBadoption,
    guardStatus ((opt kdcOptRenew || opt kdcOptRenewable) && !flg tktFlgRenewable)
      "TICKET NOT RENEWABLE" .kdcErrBadoption ]

/-- `CAN'T PROXY TGT`, as the source has it: the test refuses the servers that
are not ticket-granting ones. -/
def proxyGuard (request : KdcReq) (name : Principal) : Guard Refusal :=
  guardStatus (isflagset request.kdcOptions kdcOptProxy && !isTgsPrincipal name)
    "CAN'T PROXY TGT" .kdcErrBadoption

def serverEntryGuards (request : KdcReq) (server : DbEntry) : List (Guard Refusal) :=
  let opt := isflagset request.kdcOptions
  let att := isflagset server.attributes
  [ guardStatus (opt kdcOptForwardable && att kdbDisallowForwardable) "NON-FORWARDABLE TICKET"
      .kdcErrPolicy,
    guardStatus (opt kdcOptRenewable && att kdbDisallowRenewable) "NON-RENEWABLE TICKET"
      .kdcErrPolicy,
    guardStatus (opt kdcOptProxiable && att kdbDisallowProxiable) "NON-PROXIABLE TICKET"
      .kdcErrPolicy,
    guardStatus (opt kdcOptAllowPostdate && att kdbDisallowPostdated) "NON-POSTDATABLE TICKET"
      .kdcErrCannotPostdate,
    guardStatus (opt kdcOptEncTktInSkey && att kdbDisallowDupSkey) "DUP_SKEY DISALLOWED"
      .kdcErrPolicy,
    guardStatus (att kdbDisallowAllTix) "SERVER LOCKED OUT" .kdcErrSPrincipalUnknown,
    guardStatus (att kdbDisallowSvr) "SERVER NOT ALLOWED" .kdcErrSPrincipalUnknown ]

def firstSecondTicket (request : KdcReq) : Option SealedTicket :=
  request.secondTicket.bind head?

def ticketUseGuards (tgsServer : Principal) (request : KdcReq) (server : DbEntry)
    (ticket : Ticket) (kdcTime : Timestamp) : List (Guard Refusal) :=
  let opt := isflagset request.kdcOptions
  let second := firstSecondTicket request
  [ guardStatus (opt kdcOptValidate && decide (kdcTime < ticket.encPart2.times.starttime))
      "NOT_YET_VALID" .apErrTktNyv,
    guardStatus (opt kdcOptRenew && decide (ticket.encPart2.times.renewTill < kdcTime))
      "TKT_EXPIRED" .apErrTktExpired,
    guardStatus (opt kdcOptEncTktInSkey && second.isNone) "NO_2ND_TKT" .kdcErrBadoption,
    guardStatus (opt kdcOptEncTktInSkey && second.any fun t => !principalCompare t.server tgsServer)
      "2ND_TKT_NOT_TGS" .kdcErrPolicy,
    guardStatus (isflagset server.attributes kdbRequiresHwAuth &&
      !isflagset ticket.encPart2.flags tktFlgHwAuth) "NO HW PREAUTH" .errGeneric,
    guardStatus (isflagset server.attributes kdbRequiresPreAuth &&
      !isflagset ticket.encPart2.flags tktFlgPreAuth) "NO PREAUTH" .errGeneric ]

/-- The guards in front of `CAN'T PROXY TGT`. -/
def beforeProxyGuards (request : KdcReq) (name : Principal) (server : DbEntry)
    (ticket : Ticket) (kdcTime : Timestamp) : List (Guard Refusal) :=
  [ guardStatus (isflagset request.kdcOptions (~~~tgsOptionsHandled)) "INVALID TGS OPTIONS"
      .kdcErrBadoption,
    guardStatus (expired server.expiration kdcTime) "SERVICE EXPIRED" .kdcErrServiceExp ] ++
  ticketServerGuards request name server ticket ++ ticketFlagGuards request ticket

/-- `validate_tgs_request`; `name` is `request->server`, `server` its entry. -/
def validateTgsRequest (tgsServer : Principal) (request : KdcReq) (name : Principal)
    (server : DbEntry) (ticket : Ticket) (kdcTime : Timestamp) : Except Refusal Unit :=
  runGuards (beforeProxyGuards request name server ticket kdcTime ++
    proxyGuard request name :: serverEntryGuards request server ++
    ticketUseGuards tgsServer request server ticket kdcTime)

/-- The guards of `validateTgsRequest`, read as facts about a request that
passed them. -/
structure TgsAllowed (request : KdcReq) (name : Principal) (server : DbEntry) (ticket : Ticket)
    (kdcTime : Timestamp) : Prop where
  sameServer : isflagset request.kdcOptions noTgtOption →
    principalCompare ticket.server name
  forwardable : isflagset request.kdcOptions kdcOptForwardable →
    isflagset ticket.encPart2.flags tktFlgForwardable
  proxiable : isflagset request.kdcOptions kdcOptProxiable →
    isflagset ticket.encPart2.flags tktFlgProxiable
  postdate : isflagset request.kdcOptions kdcOptAllowPostdate →
    isflagset ticket.encPart2.flags tktFlgMayPostdate
  renewable : isflagset request.kdcOptions kdcOptRenewable →
    isflagset ticket.encPart2.flags tktFlgRenewable
  renew : isflagset request.kdcOptions kdcOptRenew →
    isflagset ticket.encPart2.flags tktFlgRenewable ∧ kdcTime ≤ ticket.encPart2.times.renewTill
  proxy : isflagset request.kdcOptions kdcOptProxy → isTgsPrincipal name
  entryForwardable : isflagset request.kdcOptions kdcOptForwardable →
    isflagset server.attributes kdbDisallowForwardable = false
  entryRenewable : isflagset request.kdcOptions kdcOptRenewable →
    isflagset server.attributes kdbDisallowRenewable = false
  entryProxiable : isflagset request.kdcOptions kdcOptProxiable →
    isflagset server.attributes kdbDisallowProxiable = false
  entryPostdate : isflagset request.kdcOptions kdcOptAllowPostdate →
    isflagset server.attributes kdbDisallowPostdated = false

theorem validateTgsRequest_eq_ok {tgsServer name : Principal} {request : KdcReq}
    {server : DbEntry} {ticket : Ticket} {kdcTime : Timestamp}
    (h : validateTgsRequest tgsServer request name server ticket kdcTime = .ok ()) :
    TgsAllowed request name server ticket kdcTime := by
  simp only [validateTgsRequest, runGuards_eq_ok, beforeProxyGuards, ticketFlagGuards,
    proxyGuard, serverEntryGuards, ticketUseGuards, forall_mem_append,
    forall_mem_cons, guardStatus] at h
  obtain ⟨⟨⟨⟨-, hsrv⟩, hfwd, hprx, hpost, -, hren, -⟩, hproxy, hefwd, heren, heprx, hepost,
    -⟩, -, hrenew, -⟩ := h
  constructor
  case sameServer =>
    intro hopt
    simpa [ticketServerGuards, hopt, guardStatus] using hsrv
  all_goals grind

end Krb5.Kdc
