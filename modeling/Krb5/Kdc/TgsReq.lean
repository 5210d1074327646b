import Krb5.Kdc.ProcessTgs

/-!
# TGS requests (`process_tgs_req`)

The flags and times of the new ticket are written by one block of the function after another.
`Draft` holds the fields of `enc_tkt_reply` these blocks write; each block is a function of its own,
and `tgsDraft` is their composition.
-/

namespace Krb5.Kdc

open Lib Transited

variable {request : KdcReq}

def kdcInfinity : Timestamp := 0x7fffffff

def domainX500Compress : UInt8 := 1

/-- A time of the request; zero stands for no limit. -/
def orInfinity (t : Timestamp) : Timestamp := if t = 0 then kdcInfinity else t

/-! ## Flags and times of the new ticket -/

/-- The fields of `enc_tkt_reply` that the option blocks write. -/
structure Draft where
  flags : Flags
  times : TicketTimes
  caddrs : Option (List Address)
deriving DecidableEq, Repr

/-- A missing start time of the presented ticket is its authentication time. -/
def fixStarttime (times : TicketTimes) : TicketTimes :=
  if times.starttime = 0 then { times with starttime := times.authtime } else times

/-- The flags the options ask for; `FORWARDED` is also handed on. -/
def optionFlags (options header : Flags) : Flags :=
  let flags := raiseIf (isflagset options kdcOptForwardable) 0#32 tktFlgForwardable
  let flags := raiseIf (isflagset options kdcOptForwarded) flags tktFlgForwarded
  let flags := raiseIf (isflagset header tktFlgForwarded) flags tktFlgForwarded
  let flags := raiseIf (isflagset options kdcOptProxiable) flags tktFlgProxiable
  let flags := raiseIf (isflagset options kdcOptProxy) flags tktFlgProxy
  let flags := raiseIf (isflagset options kdcOptAllowPostdate) flags tktFlgMayPostdate
  let flags := raiseIf (isflagset options kdcOptPostdated) flags tktFlgPostdated
  raiseIf (isflagset options kdcOptPostdated) flags tktFlgInvalid

/-- The blocks from `FORWARDABLE` to `POSTDATED`. The times not set here are
set below. -/
def optionDraft (request : KdcReq) (header : EncTktPart) (kdcTime : Timestamp) : Draft where
  flags := optionFlags request.kdcOptions header.flags
  times :=
    { authtime := 0
      starttime := if isflagset request.kdcOptions kdcOptPostdated then request.fromTime
        else kdcTime
      endtime := 0
      renewTill := 0 }
  caddrs :=
    if isflagset request.kdcOptions kdcOptForwarded || isflagset request.kdcOptions kdcOptProxy
    then request.addresses else header.caddrs

/-- The request is answered with a copy of the presented ticket. -/
def copies (request : KdcReq) : Bool :=
  isflagset request.kdcOptions kdcOptValidate || isflagset request.kdcOptions kdcOptRenew

/-- The `VALIDATE` block: a copy of the presented ticket, no longer invalid. -/
def validateDraft (request : KdcReq) (header : EncTktPart) (draft : Draft) : Draft :=
  if isflagset request.kdcOptions kdcOptValidate then
    ⟨clear header.flags tktFlgInvalid, header.times, header.caddrs⟩
  else draft

/-- The end time of a ticket that is not a renewal. -/
def tgsEndtime (kdc : Env) (request : KdcReq) (server : DbEntry) (header : EncTktPart)
    (kdcTime : Timestamp) : Timestamp :=
  min32 (orInfinity request.till) (min32 (kdcTime + server.maxLife)
    (min32 (kdcTime + kdc.maxLifeForRealm) header.times.endtime))

/-- `RENEWABLE_OK` takes effect: the ticket would end before the time asked for
and the presented one is renewable. -/
def renewableOkApplies (kdc : Env) (request : KdcReq) (server : DbEntry) (header : EncTktPart)
    (kdcTime : Timestamp) : Bool :=
  isflagset request.kdcOptions kdcOptRenewableOk &&
    decide (tgsEndtime kdc request server header kdcTime < request.till) &&
    isflagset header.flags tktFlgRenewable

/-- The `RENEW` block and its alternative. The alternative sets the start time
to the present and, under `RENEWABLE_OK`, changes the request itself. -/
def renewDraft (kdc : Env) (request : KdcReq) (server : DbEntry) (header : EncTktPart)
    (kdcTime : Timestamp) (draft : Draft) : KdcReq × Draft :=
  if isflagset request.kdcOptions kdcOptRenew then
    let oldLife := header.times.endtime - header.times.starttime
    (request,
      { flags := header.flags
        times :=
          { header.times with
            starttime := kdcTime
            endtime := min32 header.times.renewTill (kdcTime + oldLife) }
        caddrs := header.caddrs })
  else
    let draft := { draft with
      times := { draft.times with
        starttime := kdcTime
        endtime := tgsEndtime kdc request server header kdcTime } }
    if renewableOkApplies kdc request server header kdcTime then
      ({ request with
          kdcOptions := raise request.kdcOptions kdcOptRenewable
          rtime := min32 request.till header.times.renewTill }, draft)
    else (request, draft)

/-- The `RENEWABLE` block, on the request as the block before left it. -/
def renewableDraft (kdc : Env) (request : KdcReq) (server : DbEntry) (header : EncTktPart)
    (draft : Draft) : Draft :=
  if isflagset request.kdcOptions kdcOptRenewable then
    { draft with
      flags := raise draft.flags tktFlgRenewable
      times := { draft.times with
        renewTill := min32 (orInfinity request.rtime) (min32 header.times.renewTill
          (draft.times.starttime +
            min32 server.maxRenewableLife kdc.maxRenewableLifeForRealm)) } }
  else { draft with times := { draft.times with renewTill := 0 } }

/-- The last blocks: the authentication time and the preauthentication flags
are handed on, and a start time equal to the authentication time is left out. -/
def finishDraft (header : EncTktPart) (draft : Draft) : Draft where
  flags :=
    raiseIf (isflagset header.flags tktFlgHwAuth)
      (raiseIf (isflagset header.flags tktFlgPreAuth) draft.flags tktFlgPreAuth) tktFlgHwAuth
  times :=
    { draft.times with
      authtime := header.times.authtime
      starttime := if draft.times.starttime = header.times.authtime then 0
        else draft.times.starttime }
  caddrs := draft.caddrs

/-- The presented ticket's part as the option blocks see it. -/
def headerPart (ticket : EncTktPart) : EncTktPart :=
  { ticket with times := fixStarttime ticket.times }

/-- All blocks, on the presented ticket's part as decrypted. -/
def tgsDraft (kdc : Env) (request : KdcReq) (server : DbEntry) (ticket : EncTktPart)
    (kdcTime : Timestamp) : Draft :=
  let header := headerPart ticket
  let (request', draft) := renewDraft kdc request server header kdcTime
    (validateDraft request header (optionDraft request header kdcTime))
  finishDraft header (renewableDraft kdc request' server header draft)

/-! ## The request -/

/-- How a request ends when no ticket is issued: without an answer, with an
error message to the client, or in a fault. -/
inductive Failure
  | noReply (code : ErrorCode)
  | refused (refusal : Refusal)
  | fault
deriving DecidableEq, Repr

def refusing {α : Type} (x : Except Refusal α) : Except Failure α := x.mapError .refused

theorem refusing_eq_ok {α : Type} {x : Except Refusal α} {a : α} : refusing x = .ok a ↔ x = .ok a :=
  mapError_eq_ok

def refuse {α : Type} (status : String) (code : ErrorCode) : Except Refusal α :=
  .error ⟨some status, code⟩

variable (kdc : Env)

/-- The server's entry, and the server itself: for a ticket-granting server of
another realm that is not in the database one on the way there. The name's
first component is read even if it has none. -/
def tgsServerEntry (name : Principal) : Except Failure (Principal × DbEntry) := do
  let found ← refusing (withStatus "LOOKING_UP_SERVER" (kdc.dbGetPrincipal name))
  if found.more then refusing (refuse "NON_UNIQUE_PRINCIPAL" .kdcErrPrincipalNotUnique)
  else if found.nprincs = 1 then return (name, found.entry)
  else
    match name.data with
    | [] => .error .fault
    | [first, remote] =>
      if first = tgsName ∧ some remote ≠ kdc.tgsServer.data[1]? then
        match findAlternateTgs kdc name remote with
        | some alternate => return alternate
        | none => refusing (refuse "UNKNOWN_SERVER" .kdcErrSPrincipalUnknown)
      else refusing (refuse "UNKNOWN_SERVER" .kdcErrSPrincipalUnknown)
    | _ => refusing (refuse "UNKNOWN_SERVER" .kdcErrSPrincipalUnknown)

def secondTicketPart (request : KdcReq) : Except Refusal (Option EncTktPart) :=
  if isflagset request.kdcOptions kdcOptEncTktInSkey then
    match firstSecondTicket request with
    | none => return none
    | some second => do
        let key ← withStatus "2ND_TKT_SERVER" (kdcGetServerKey kdc second)
        let part ← withStatus "2ND_TKT_DECRYPT" (kdc.decryptTktPart key second)
        if !kdc.validEnctype part.session.enctype then
          refuse "BAD_ETYPE_IN_2ND_TKT" .kdcErrEtypeNosupp
        else return some part
  else return none

/-- The session key: of the second ticket's type if the client lists it, else
of the first type the server supports. -/
def newSessionKey (request : KdcReq) (server : DbEntry) (second : Option EncTktPart) :
    Except Refusal Keyblock := do
  let wanted := (second.map fun part => part.session.enctype).filter request.ktype.contains
  let enctype := match wanted with
    | some etype => if etype = 0 then selectSessionKeytype kdc server request.ktype else etype
    | none => selectSessionKeytype kdc server request.ktype
  if enctype = 0 then refuse "BAD_ENCRYPTION_TYPE" .kdcErrEtypeNosupp
  else withStatus "RANDOM_KEY_FAILED" (kdc.makeRandomKey enctype)

/-- The authorization data: what the request carries in front of what the
presented ticket has. -/
def tgsAuthorizationData (request : KdcReq) (header : EncTktPart) :
    Except Refusal (Option (List Authdata)) :=
  match request.authorizationData.ciphertext with
  | none => return header.authorizationData
  | some _ => do
      let scratch ← withStatus "AUTH_ENCRYPT_FAIL"
        (kdc.decrypt header.session request.authorizationData)
      let unenc ← withStatus "AUTH_DECODE" (kdc.decodeAuthdata scratch)
      return some (unenc ++ header.authorizationData.getD [])

/-- The transited field: the realm of the presented ticket's server is added
unless it is the local realm or the client's. -/
def tgsTransited (name : Principal) (header : Ticket) : Except Refusal Transited :=
  if realmCompare header.server kdc.tgsServer ||
      realmCompare header.server header.encPart2.client then
    return header.encPart2.transited
  else if header.encPart2.transited.trType ≠ domainX500Compress then
    refuse "BAD_TRTYPE" .kdcErrTrtypeNosupp
  else do
    let contents ← withStatus "ADD_TR_FAIL"
      (addToTransited kdc.belowNext header.encPart2.transited.trContents header.server.realm
        header.encPart2.client.realm name.realm)
    return ⟨domainX500Compress, contents⟩

/-- The new ticket, encrypted for the server or in the session key of the
second ticket. -/
def sealTicket (request : KdcReq) (name ticketServer : Principal) (server : DbEntry)
    (second : Option EncTktPart) (part : EncTktPart) : Except Refusal Ticket :=
  match isflagset request.kdcOptions kdcOptEncTktInSkey, second with
  | true, some second =>
    if !principalCompare name second.client then .error ⟨none, .kdcErrServerNomatch⟩
    else do
      let enc ← withStatus "2ND_TKT_ENCRYPT" (kdc.encryptTktPart second.session part)
      return { server := ticketServer, encPart := { enc with kvno := 0 }, encPart2 := part }
  | _, _ => do
      let (keyData, key) ← serverKey kdc server
      let enc ← withStatus "TKT_ENCRYPT" (kdc.encryptTktPart key part)
      return { server := ticketServer, encPart := { enc with kvno := keyData.kvno },
               encPart2 := part }

/-- An issued ticket, with the name it was asked for under, the server entry
and the presented ticket it rests on, and the encoded reply. -/
structure Issued where
  name : Principal
  server : DbEntry
  kdcTime : Timestamp
  header : Ticket
  ticket : Ticket
  response : Octets

/-- From the server lookup on. A validated or renewed ticket keeps the server
of the presented one. -/
def issueTgs (request : KdcReq) (name : Principal) (header : Ticket)
    (subkey : Option Keyblock) : Except Failure Issued := do
  let (name, server) ← tgsServerEntry kdc name
  let kdcTime ← refusing (withStatus "TIME_OF_DAY" kdc.timeofday)
  refusing (validateTgsRequest kdc.tgsServer request name server header kdcTime)
  let second ← refusing (secondTicketPart kdc request)
  let session ← refusing (newSessionKey kdc request server second)
  let draft := tgsDraft kdc request server header.encPart2 kdcTime
  let authdata ← refusing (tgsAuthorizationData kdc request header.encPart2)
  let transited ← refusing (tgsTransited kdc name header)
  let part : EncTktPart :=
    { flags := draft.flags, session := session, client := header.encPart2.client,
      transited := transited, times := draft.times, caddrs := draft.caddrs,
      authorizationData := authdata }
  let ticketServer := if copies request then header.server else name
  let ticket ← refusing (sealTicket kdc request name ticketServer server second part)
  let newAddresses := isflagset request.kdcOptions kdcOptForwarded ||
    isflagset request.kdcOptions kdcOptProxy
  let response ← refusing (withStatus "ENCODE_KDC_REP" (kdc.encodeKdcRep
    { client := header.encPart2.client, ticket := ticket, session := session,
      nonce := request.nonce, times := draft.times, flags := draft.flags,
      server := ticketServer, caddrs := if newAddresses then request.addresses else none,
      keyExp := 0, replyKey := subkey.getD header.encPart2.session }))
  return ⟨name, server, kdcTime, header, ticket, response⟩

/-- `request->server`, which is followed without a test. -/
def requestServer (request : KdcReq) : Except Failure Principal :=
  match request.server with
  | none => .error .fault
  | some name => .ok name

/-- `process_tgs_req`, on a packet and the request decoded from it. -/
def processTgsReq (pkt : Octets) (request : KdcReq) : Except Failure Issued := do
  let name ← requestServer request
  (kdc.setupServerRealm name).mapError .noReply
  let _ ← refusing (withStatus "UNPARSING SERVER" (kdc.unparseName name))
  let auth := kdcProcessTgsReq kdc pkt request
  match auth.retval, auth.ticket with
  | .error .fault, _ => .error .fault
  | retval, some header => do
      let _ ← refusing (withStatus "UNPARSING CLIENT" (kdc.unparseName header.encPart2.client))
      match retval with
      | .error .fault => .error .fault
      | .error (.fail code) => refusing (refuse "PROCESS_TGS" code)
      | .ok () => issueTgs kdc request name header auth.subkey
  | .error (.fail code), none => refusing (refuse "PROCESS_TGS" code)
  | .ok (), none =>
    refusing (refuse "UNEXPECTED NULL in header_ticket" .noTktSupplied)

/-! ## What an issued ticket rests on -/

/-- The facts about an issued ticket: the request passed the policy guards
against the presented ticket, and flags, times, client and server are the ones
computed from it. -/
structure IssuedFrom (request : KdcReq) (issued : Issued) : Prop where
  time : kdc.timeofday = .ok issued.kdcTime
  validated : validateTgsRequest kdc.tgsServer request issued.name issued.server issued.header
    issued.kdcTime = .ok ()
  flags : issued.ticket.encPart2.flags =
    (tgsDraft kdc request issued.server issued.header.encPart2 issued.kdcTime).flags
  times : issued.ticket.encPart2.times =
    (tgsDraft kdc request issued.server issued.header.encPart2 issued.kdcTime).times
  client : issued.ticket.encPart2.client = issued.header.encPart2.client
  server : issued.ticket.server = if copies request then issued.header.server else issued.name

variable {kdc} {issued : Issued}

theorem sealTicket_eq_ok {name ticketServer : Principal} {server : DbEntry}
    {second : Option EncTktPart} {part : EncTktPart} {ticket : Ticket}
    (h : sealTicket kdc request name ticketServer server second part = .ok ticket) :
    ticket.server = ticketServer ∧ ticket.encPart2 = part := by
  unfold sealTicket at h
  split at h
  · split at h
    · cases h
    · obtain ⟨enc, _, h⟩ := bind_eq_ok.mp h
      cases h
      exact ⟨rfl, rfl⟩
  · obtain ⟨_, _, h⟩ := bind_eq_ok.mp h
    obtain ⟨enc, _, h⟩ := bind_eq_ok.mp h
    cases h
    exact ⟨rfl, rfl⟩

/-- What is known about a ticket that is issued. -/
theorem issueTgs_eq_ok {name : Principal} {header : Ticket} {subkey : Option Keyblock}
    (h : issueTgs kdc request name header subkey = .ok issued) :
    issued.header = header ∧ IssuedFrom kdc request issued := by
  obtain ⟨⟨name, server⟩, -, h⟩ := bind_eq_ok.mp h
  obtain ⟨kdcTime, htime, h⟩ := bind_eq_ok.mp h
  obtain ⟨_, hvalid, h⟩ := bind_eq_ok.mp h
  obtain ⟨second, -, h⟩ := bind_eq_ok.mp h
  obtain ⟨session, -, h⟩ := bind_eq_ok.mp h
  obtain ⟨authdata, -, h⟩ := bind_eq_ok.mp h
  obtain ⟨transited, -, h⟩ := bind_eq_ok.mp h
  obtain ⟨ticket, hseal, h⟩ := bind_eq_ok.mp h
  obtain ⟨response, -, h⟩ := bind_eq_ok.mp h
  cases h
  obtain ⟨hsrv, hpart⟩ := sealTicket_eq_ok (refusing_eq_ok.mp hseal)
  exact ⟨rfl,
    { time := withStatus_eq_ok.mp (refusing_eq_ok.mp htime)
      validated := refusing_eq_ok.mp hvalid
      flags := by rw [hpart]
      times := by rw [hpart]
      client := by rw [hpart]
      server := hsrv }⟩

theorem processTgsReq_eq_ok {pkt : Octets} (h : processTgsReq kdc pkt request = .ok issued) :
    (kdcProcessTgsReq kdc pkt request).retval = .ok () ∧
      (kdcProcessTgsReq kdc pkt request).ticket = some issued.header ∧
      IssuedFrom kdc request issued := by
  obtain ⟨name, -, h⟩ := bind_eq_ok.mp h
  obtain ⟨_, -, h⟩ := bind_eq_ok.mp h
  obtain ⟨_, -, h⟩ := bind_eq_ok.mp h
  generalize kdcProcessTgsReq kdc pkt request = auth at h ⊢
  obtain ⟨ticket, subkey, retval, verified⟩ := auth
  cases retval with
  | error stop =>
    cases stop <;> cases ticket <;> simp [refusing, refuse, bind_eq_ok] at h
  | ok u =>
    cases ticket with
    | none => simp [refusing, refuse] at h
    | some header =>
      obtain ⟨_, -, h⟩ := bind_eq_ok.mp h
      obtain ⟨rfl, hissued⟩ := issueTgs_eq_ok h
      exact ⟨rfl, rfl, hissued⟩

/-! ## A small realm

An environment in which every routine outside the model succeeds, for concrete
runs: one database entry for every principal, one presented ticket, one clock
reading. -/

def localTgs : Principal := ⟨ascii "R", [tgsName, ascii "R"], 0⟩

def localService : Principal := ⟨ascii "R", [ascii "host"], 0⟩

def smallKey : Keyblock := ⟨1, []⟩

def openEntry : DbEntry := ⟨0#32, 1000, 1000, 0, 0, []⟩

def smallEnv (header : Ticket) (entry : DbEntry) (kdcTime : Timestamp) : Env where
  tgsServer := localTgs
  maxLifeForRealm := 1000
  maxRenewableLifeForRealm := 1000
  capaths _ _ := none
  behindPacket _ := 0
  belowNext := 0
  scanFuel := 20
  setupServerRealm _ := .ok ()
  timeofday := .ok kdcTime
  unparseName _ := .ok []
  dbGetPrincipal _ := .ok ⟨1, false, entry⟩
  validEnctype _ := true
  dbeFindEnctype _ _ _ := .ok ⟨1, []⟩
  dbekdDecryptKeyData _ := .ok smallKey
  makeRandomKey _ := .ok smallKey
  decryptTktPart _ _ := .ok header.encPart2
  encryptTktPart _ _ := .ok ⟨1, 1, some []⟩
  decrypt _ _ := .ok []
  decodeAuthdata _ := .ok []
  decodeApReq _ := .ok ⟨0#32, header.toSealedTicket, ⟨1, 1, some []⟩⟩
  authConInit := .ok ()
  rdReqDecoded _ := .ok header
  rdReqDecodedAgain _ := .ok header
  initializeRcache := .ok ()
  authConSetrcache := .ok ()
  getRemoteSubkey := .ok none
  getAuthenticator := .ok ⟨header.encPart2.client, some ⟨7, []⟩, 0, kdcTime, none, 0, none⟩
  encodeKdcReqBody _ := .ok []
  verifyChecksum _ := .ok true
  verifyEncTimestamp _ _ _ := .ok ()
  verifySamResponse _ _ _ := .ok ()
  returnPadata _ _ _ := .ok ()
  encodeKdcRep _ := .ok []

/-- A packet in which the scanner finds the request body. -/
def smallPacket : Octets :=
  [0x6c, 0x12, 0x30, 0x10, 0xa1, 3, 2, 1, 5, 0xa2, 3, 2, 1, 0xc, 0xa4, 4, 0x30, 2, 5, 0]

def smallTicket (server : Principal) (flags : Flags) (times : TicketTimes) : Ticket where
  server := server
  encPart := ⟨1, 1, some []⟩
  encPart2 := ⟨flags, smallKey, ⟨ascii "R", [ascii "u"], 1⟩, ⟨1, []⟩, times, none, none⟩

/-- A request for a ticket for `server` with the given options and times. -/
def smallRequest (server : Principal) (options : Flags) (fromTime till rtime : Timestamp) :
    KdcReq where
  msgType := 12
  padata := some [⟨1, []⟩]
  kdcOptions := options
  client := none
  server := some server
  fromTime := fromTime
  till := till
  rtime := rtime
  nonce := 0
  ktype := [1]
  addresses := none
  authorizationData := ⟨0, 0, none⟩
  secondTicket := none

end Krb5.Kdc
