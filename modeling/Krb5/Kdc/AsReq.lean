import Krb5.Kdc.TgsReq

/-!
# AS requests (`process_as_req`)

Flags and times of an initial ticket, the preauthentication checks and the rest
of the function in the order of the source, with its status texts.
-/

namespace Krb5.Kdc

open Lib

variable (kdc : Env)

/-! ## Flags and times -/

def asStarttime (request : KdcReq) (kdcTime : Timestamp) : Timestamp :=
  if isflagset request.kdcOptions kdcOptPostdated then request.fromTime else kdcTime

def asEndtime (request : KdcReq) (client server : DbEntry) (kdcTime : Timestamp) : Timestamp :=
  let start := asStarttime request kdcTime
  min32 (orInfinity request.till) (min32 (start + client.maxLife)
    (min32 (start + server.maxLife) (start + kdc.maxLifeForRealm)))

/-- `RENEWABLE_OK` takes effect: the ticket would end before the time asked for.
Only the client's entry is looked at. -/
def asRenewableOkApplies (request : KdcReq) (client server : DbEntry) (kdcTime : Timestamp) :
    Bool :=
  isflagset request.kdcOptions kdcOptRenewableOk &&
    !isflagset client.attributes kdbDisallowRenewable &&
    decide (asEndtime kdc request client server kdcTime < request.till)

/-- The request as the `RENEWABLE_OK` block leaves it. -/
def asRequest (request : KdcReq) (client server : DbEntry) (kdcTime : Timestamp) : KdcReq :=
  if asRenewableOkApplies kdc request client server kdcTime then
    { request with
      kdcOptions := raise request.kdcOptions kdcOptRenewable
      rtime := request.till }
  else request

def asFlags (options : Flags) : Flags :=
  let flags := raise 0#32 tktFlgInitial
  let flags := raiseIf (isflagset options kdcOptForwardable) flags tktFlgForwardable
  let flags := raiseIf (isflagset options kdcOptProxiable) flags tktFlgProxiable
  let flags := raiseIf (isflagset options kdcOptAllowPostdate) flags tktFlgMayPostdate
  let flags := raiseIf (isflagset options kdcOptPostdated) flags tktFlgPostdated
  let flags := raiseIf (isflagset options kdcOptPostdated) flags tktFlgInvalid
  raiseIf (isflagset options kdcOptRenewable) flags tktFlgRenewable

def asTimes (request : KdcReq) (client server : DbEntry) (kdcTime : Timestamp) : TicketTimes :=
  let start := asStarttime request kdcTime
  let request' := asRequest kdc request client server kdcTime
  { authtime := kdcTime
    starttime := if start = kdcTime then 0 else start
    endtime := asEndtime kdc request client server kdcTime
    renewTill :=
      if isflagset request'.kdcOptions kdcOptRenewable then
        min32 (orInfinity request'.rtime) (start + min32 client.maxRenewableLife
          (min32 server.maxRenewableLife kdc.maxRenewableLifeForRealm))
      else 0 }

def padataEncTimestamp : Int32 := 2
def padataSamResponse : Int32 := 13

/-- The loop of `check_padata`: whether a verifier was found and whether one
succeeded, and the flags so far. No entry of `preauth_systems` is required or
sufficient, so the loop never ends early. -/
def padataLoop (client : DbEntry) (request : KdcReq) :
    Bool × Bool × Flags → List PaData → Bool × Bool × Flags
  | s, [] => s
  | (found, ok, flags), pa :: rest =>
    if pa.paType = padataEncTimestamp then
      let good := (kdc.verifyEncTimestamp client request pa).isOk
      padataLoop client request (true, ok || good, raiseIf good flags tktFlgPreAuth) rest
    else if pa.paType = padataSamResponse then
      let good := (kdc.verifySamResponse client request pa).isOk
      padataLoop client request (true, ok || good, raiseIf good flags tktFlgHwAuth) rest
    else padataLoop client request (found, ok, flags) rest

/-- `check_padata`: the flags with what preauthentication adds. -/
def checkPadata (client : DbEntry) (request : KdcReq) (flags : Flags) :
    Except ErrorCode Flags :=
  match request.padata with
  | none => .ok flags
  | some padata =>
    let (found, ok, flags) := padataLoop kdc client request (false, false, flags) padata
    let required := isflagset client.attributes kdbRequiresPreAuth ||
      isflagset client.attributes kdbRequiresHwAuth
    if ok || !found && !required then .ok flags else .error .kdcErrPreauthFailed

def missingRequiredPreauth (client : DbEntry) (flags : Flags) : List (Guard Refusal) :=
  [ guardStatus (isflagset client.attributes kdbRequiresPreAuth && !isflagset flags tktFlgPreAuth)
      "NEEDED_PREAUTH" .kdcErrPreauthRequired,
    guardStatus (isflagset client.attributes kdbRequiresHwAuth && !isflagset flags tktFlgHwAuth)
      "NEEDED_HW_PREAUTH" .kdcErrPreauthRequired ]

def uniqueEntry (principal : Principal) (lookup nonUnique notFound : String)
    (code : ErrorCode) : Except Refusal DbEntry := do
  let found ← withStatus lookup (kdc.dbGetPrincipal principal)
  if found.more then refuse nonUnique .kdcErrPrincipalNotUnique
  else if found.nprincs ≠ 1 then refuse notFound code
  else return found.entry

def namedPrincipal (principal : Option Principal) (null unparsing : String)
    (code : ErrorCode) : Except Refusal Principal :=
  match principal with
  | none => refuse null code
  | some p => do
      let _ ← withStatus unparsing (kdc.unparseName p)
      return p

/-- The client's key of the first requested type it has one of. -/
def clientKey (client : DbEntry) (ktype : List Int32) : Except Refusal Keyblock :=
  let found := ktype.findSome? fun k =>
    if kdc.validEnctype k then (kdc.dbeFindEnctype client k 0).toOption.map (k, ·) else none
  match found with
  | none => refuse "CANT_FIND_CLIENT_KEY" .kdcErrEtypeNosupp
  | some (enctype, keyData) => do
      let key ← withStatus "DECRYPT_CLIENT_KEY" (kdc.dbekdDecryptKeyData keyData)
      return { key with enctype := enctype }

/-- An initial ticket, with the entries and the clock reading it rests on. -/
structure AsIssued where
  client : DbEntry
  server : DbEntry
  kdcTime : Timestamp
  ticket : Ticket
  response : Octets

def processAsReq (request : KdcReq) : Except Refusal AsIssued := do
  let cname ← namedPrincipal kdc request.client "NULL_CLIENT" "UNPARSING_CLIENT"
    .kdcErrCPrincipalUnknown
  let sname ← namedPrincipal kdc request.server "NULL_SERVER" "UNPARSING_SERVER"
    .kdcErrSPrincipalUnknown
  let client ← uniqueEntry kdc cname "LOOKING_UP_CLIENT" "NON-UNIQUE_CLIENT" "CLIENT_NOT_FOUND"
    .kdcErrCPrincipalUnknown
  let server ← uniqueEntry kdc sname "LOOKING_UP_SERVER" "NON-UNIQUE_SERVER" "SERVER_NOT_FOUND"
    .kdcErrSPrincipalUnknown
  let kdcTime ← withStatus "TIMEOFDAY" kdc.timeofday
  validateAsRequest request client server kdcTime
  let session ← newSessionKey kdc request server none
  let request' := asRequest kdc request client server kdcTime
  let flags ← withStatus "PREAUTH_FAILED"
    (checkPadata kdc client request' (asFlags request'.kdcOptions))
  runGuards (missingRequiredPreauth client flags)
  let times := asTimes kdc request client server kdcTime
  let part : EncTktPart :=
    { flags := flags, session := session, client := cname, transited := ⟨domainX500Compress, []⟩,
      times := times, caddrs := request.addresses, authorizationData := none }
  let (keyData, key) ← serverKey kdc server
  let enc ← withStatus "ENCRYPTING_TICKET" (kdc.encryptTktPart key part)
  let ticket : Ticket :=
    { server := sname, encPart := { enc with kvno := keyData.kvno }, encPart2 := part }
  let replyKey ← clientKey kdc client request.ktype
  withStatus "KDC_RETURN_PADATA" (kdc.returnPadata client request' replyKey)
  let response ← withStatus "ENCODE_KDC_REP" (kdc.encodeKdcRep
    { client := cname, ticket := ticket, session := session, nonce := request.nonce,
      times := times, flags := flags, server := sname, caddrs := request.addresses,
      keyExp := client.expiration, replyKey := replyKey })
  return ⟨client, server, kdcTime, ticket, response⟩

end Krb5.Kdc
