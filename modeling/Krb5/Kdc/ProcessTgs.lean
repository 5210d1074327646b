import Krb5.Kdc.Realm

/-!
# Authenticating a TGS request (`kdc_process_tgs_req`)

The checksum in the authenticator of the presented ticket is verified over the octets of the
request body as `fetchAsn1Field` finds them in the packet, and if this fails over a fresh encoding
of the decoded body. The calls of `krb5_c_verify_checksum` that reported it valid are kept in
`verified`.
-/

namespace Krb5.Kdc

open Lib Asn1

/-- Why a function of the KDC does not succeed: an error code, or a fault (a
null pointer is followed, or the field scanner does not come to an end). -/
inductive Stop
  | fail (code : ErrorCode)
  | fault
deriving DecidableEq, Repr

def failing {α : Type} (x : Except ErrorCode α) : Except Stop α := x.mapError .fail

theorem failing_eq_ok {α : Type} {x : Except ErrorCode α} {a : α} : failing x = .ok a ↔ x = .ok a :=
  mapError_eq_ok

/-- `krb5_cksumtypes_list`: type and flags. -/
def cksumtypes : List (Int32 × BitVec 32) :=
  [(0x0001, 0x0002#32), (0x0002, 0#32), (0x0003, 0#32), (0x0004, 0#32), (0x0007, 0#32),
    (0x0008, 0#32), (0x0009, 0#32), (0x000c, 0x0001#32), (0x000c, 0x0001#32)]

def cksumflagNotCollProof : BitVec 32 := 0x0002#32

def validCksumtype (ctype : Int32) : Bool := cksumtypes.any fun t => t.1 == ctype

def isCollProofCksum (ctype : Int32) : Bool :=
  (cksumtypes.find? fun t => t.1 == ctype).any fun t => !isSet t.2 cksumflagNotCollProof

variable (kdc : Env)

/-- `comp_cksum`: its return value, and the verification if it reported the
checksum valid. -/
def compCksum (source : Octets) (ticket : Ticket) (hisCksum : Checksum) :
    Except ErrorCode Unit × List VerifyCall :=
  let call : VerifyCall := ⟨ticket.encPart2.session, source, hisCksum⟩
  if !validCksumtype hisCksum.checksumType then (.error .kdcErrSumtypeNosupp, [])
  else if !isCollProofCksum hisCksum.checksumType then (.error .apErrInappCksum, [])
  else
    match kdc.verifyChecksum call with
    | .error code => (.error code, [])
    | .ok false => (.error .apErrBadIntegrity, [])
    | .ok true => (.ok (), [call])

/-! ## The presented ticket -/

def padataApReq : Int32 := 1

def findApReq (request : KdcReq) : Except Stop PaData :=
  match request.padata.bind fun pas => pas.find? fun pa => pa.paType == padataApReq with
  | some pa => .ok pa
  | none => .error (.fail .kdcErrPadataTypeNosupp)

/-- `krb5_rd_req_decoded_anyflag`, tried again on a fresh replay cache if the
old one had an I/O error. If no fresh one can be made the error is dropped and
the ticket, still null, is used. -/
def readRequest (apreq : ApReq) : Except Stop Ticket :=
  match kdc.rdReqDecoded apreq with
  | .ok ticket => .ok ticket
  | .error code =>
    if code = .rcIoIo ∨ code = .rcIoUnknown then
      match kdc.initializeRcache with
      | .error _ => .error .fault
      | .ok () => do
          failing kdc.authConSetrcache
          failing (kdc.rdReqDecodedAgain apreq)
    else .error (.fail code)

/-- Up to and including the reading of the `AP_REQ`. -/
def presentedTicket (request : KdcReq) : Except Stop (ApReq × Ticket) := do
  let pa ← findApReq request
  let apreq ← failing (kdc.decodeApReq pa.contents)
  if isflagset apreq.apOptions apOptsUseSessionKey ||
      isflagset apreq.apOptions apOptsMutualRequired then
    throw (.fail .kdcErrPolicy)
  failing kdc.authConInit
  let ticket ← readRequest kdc apreq
  return (apreq, ticket)

/-- From the invalid flag to the lineage check: the subkey and the checksum. -/
def checkAuthenticator (request : KdcReq) (apreq : ApReq) (ticket : Ticket) :
    Except Stop (Option Keyblock × Checksum) := do
  let foreignServer := apreq.ticket.server.realm != kdc.tgsServer.realm
  if isflagset ticket.encPart2.flags tktFlgInvalid &&
      !isflagset request.kdcOptions kdcOptValidate then
    throw (.fail .apErrTktInvalid)
  let subkey ← failing kdc.getRemoteSubkey
  let authenticator ← failing kdc.getAuthenticator
  match authenticator.checksum with
  | none => throw (.fail .apErrInappCksum)
  | some hisCksum =>
    if foreignServer && ticket.encPart2.client.realm == kdc.tgsServer.realm then
      throw (.fail .kdcErrPolicy)
    return (subkey, hisCksum)

/-- Everything behind the lineage check. Where the scanner returns `-1` no
checksum is computed and the return value is still the 0 of the last call. -/
def checkBody (mem : Memory) (request : KdcReq) (ticket : Ticket) (hisCksum : Checksum) :
    Except Stop Unit × List VerifyCall :=
  match fetchAsn1Field kdc.scanFuel mem 1 4 with
  | none => (.error .fault, [])
  | some none => (.ok (), [])
  | some (some (start, length)) =>
    match compCksum kdc (mem.read start length) ticket hisCksum with
    | (.ok (), calls) => (.ok (), calls)
    | (.error _, _) =>
      match kdc.encodeKdcReqBody request with
      | .error code => (.error (.fail code), [])
      | .ok scratch =>
        let (retval, calls) := compCksum kdc scratch ticket hisCksum
        (failing retval, calls)

/-- What `kdc_process_tgs_req` leaves: the ticket, if it got as far as that, the
subkey, the return value and the successful verifications. -/
structure TgsAuth where
  ticket : Option Ticket
  subkey : Option Keyblock
  retval : Except Stop Unit
  verified : List VerifyCall

/-- `kdc_process_tgs_req` on a packet and the request decoded from it. -/
def kdcProcessTgsReq (pkt : Octets) (request : KdcReq) : TgsAuth :=
  match presentedTicket kdc request with
  | .error stop => ⟨none, none, .error stop, []⟩
  | .ok (apreq, ticket) =>
    match checkAuthenticator kdc request apreq ticket with
    | .error stop => ⟨some ticket, none, .error stop, []⟩
    | .ok (subkey, hisCksum) =>
      let (retval, verified) :=
        checkBody kdc (inMemory pkt kdc.behindPacket) request ticket hisCksum
      ⟨some ticket, subkey, retval, verified⟩

end Krb5.Kdc
