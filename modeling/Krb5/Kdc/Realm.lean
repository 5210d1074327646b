import Krb5.Asn1.Fetch
import Krb5.Kdc.Policy
import Krb5.Transited.Add

/-!
# The KDC and what it calls

`Env` holds the active realm's parameters and one function for each routine outside the model
(database, encryption, encoders, the clock). Every request is processed in an `Env` of its own.
-/

namespace Krb5.Kdc

open Lib Asn1 Transited

/-- What `krb5_db_get_principal` hands back. -/
structure Lookup where
  nprincs : Nat
  more : Bool
  entry : DbEntry

/-- The part of a reply that is encoded for the client: the new ticket, the
times, flags, addresses and server shown to the client, and the key the part is
encrypted in. -/
structure ReplyParts where
  client : Principal
  ticket : Ticket
  session : Keyblock
  nonce : Int32
  times : TicketTimes
  flags : Flags
  server : Principal
  caddrs : Option (List Address)
  keyExp : Timestamp
  replyKey : Keyblock
deriving DecidableEq, Repr

structure VerifyCall where
  key : Keyblock
  source : Octets
  cksum : Checksum
deriving DecidableEq, Repr

/-- The active realm and the routines outside the model. -/
structure Env where
  tgsServer : Principal
  maxLifeForRealm : Deltat
  maxRenewableLifeForRealm : Deltat
  capaths : Capaths
  /-- The octets that lie behind the packet, and below the array `next` of
  `add_to_transited`. -/
  behindPacket : Memory
  belowNext : UInt8
  /-- How long the field scanner may run. -/
  scanFuel : Nat
  setupServerRealm : Principal → Except ErrorCode Unit
  timeofday : Except ErrorCode Timestamp
  unparseName : Principal → Except ErrorCode Octets
  dbGetPrincipal : Principal → Except ErrorCode Lookup
  validEnctype : Int32 → Bool
  /-- `krb5_dbe_find_enctype`, by enctype and key version. -/
  dbeFindEnctype : DbEntry → Int32 → Int32 → Except ErrorCode KeyData
  dbekdDecryptKeyData : KeyData → Except ErrorCode Keyblock
  makeRandomKey : Int32 → Except ErrorCode Keyblock
  decryptTktPart : Keyblock → SealedTicket → Except ErrorCode EncTktPart
  encryptTktPart : Keyblock → EncTktPart → Except ErrorCode EncData
  decrypt : Keyblock → EncData → Except ErrorCode Octets
  decodeAuthdata : Octets → Except ErrorCode (List Authdata)
  decodeApReq : Octets → Except ErrorCode ApReq
  /-- The authentication context is set up: `krb5_auth_con_init`, `_setaddrs`
  and `_setrcache`. -/
  authConInit : Except ErrorCode Unit
  /-- `krb5_rd_req_decoded_anyflag`, at the first call and at the second. -/
  rdReqDecoded : ApReq → Except ErrorCode Ticket
  rdReqDecodedAgain : ApReq → Except ErrorCode Ticket
  initializeRcache : Except ErrorCode Unit
  authConSetrcache : Except ErrorCode Unit
  getRemoteSubkey : Except ErrorCode (Option Keyblock)
  getAuthenticator : Except ErrorCode Authenticator
  encodeKdcReqBody : KdcReq → Except ErrorCode Octets
  verifyChecksum : VerifyCall → Except ErrorCode Bool
  /-- The two verifiers of the table `preauth_systems`. -/
  verifyEncTimestamp : DbEntry → KdcReq → PaData → Except ErrorCode Unit
  verifySamResponse : DbEntry → KdcReq → PaData → Except ErrorCode Unit
  returnPadata : DbEntry → KdcReq → Keyblock → Except ErrorCode Unit
  encodeKdcRep : ReplyParts → Except ErrorCode Octets

/-- Attach the status text the caller reports when a routine fails. -/
def withStatus {α : Type} (status : String) (x : Except ErrorCode α) : Except Refusal α :=
  x.mapError fun code => ⟨some status, code⟩

theorem withStatus_eq_ok {α : Type} {status : String} {x : Except ErrorCode α} {a : α} :
    withStatus status x = .ok a ↔ x = .ok a :=
  mapError_eq_ok

def enctypeDesCbcCrc : Int32 := 1
def enctypeDesCbcMd5 : Int32 := 3

variable (kdc : Env)

def dbentryHasKeyForEnctype (entry : DbEntry) (enctype : Int32) : Bool :=
  (kdc.dbeFindEnctype entry enctype 0).isOk

def dbentrySupportsEnctype (entry : DbEntry) (enctype : Int32) : Bool :=
  if enctype = enctypeDesCbcMd5 then isflagset entry.attributes kdbSupportDesmd5
  else if enctype = enctypeDesCbcCrc then true
  else dbentryHasKeyForEnctype kdc entry enctype

/-- `select_session_keytype`; zero when there is none. -/
def selectSessionKeytype (server : DbEntry) (ktype : List Int32) : Int32 :=
  (ktype.find? fun k => kdc.validEnctype k && dbentrySupportsEnctype kdc server k).getD 0

/-- The key a ticket for the server is encrypted in, and its version. -/
def serverKey (server : DbEntry) : Except Refusal (KeyData × Keyblock) := do
  let keyData ← withStatus "FINDING_SERVER_KEY" (kdc.dbeFindEnctype server (-1) 0)
  let key ← withStatus "DECRYPT_SERVER_KEY" (kdc.dbekdDecryptKeyData keyData)
  let md5 := key.enctype = enctypeDesCbcCrc ∧ isflagset server.attributes kdbSupportDesmd5
  return (keyData, if md5 then { key with enctype := enctypeDesCbcMd5 } else key)

def kdcGetServerKey (ticket : SealedTicket) : Except ErrorCode Keyblock := do
  let found ← kdc.dbGetPrincipal ticket.server
  if found.more then throw .kdcErrPrincipalNotUnique
  else if found.nprincs ≠ 1 then throw .kdcErrSPrincipalUnknown
  else
    let keyData ← kdc.dbeFindEnctype found.entry ticket.encPart.enctype ticket.encPart.kvno
    kdc.dbekdDecryptKeyData keyData

/-- The loop of `find_alternate_tgs`, over the tree from its end: the first
server with a unique entry in the local realm. A failing lookup ends it. -/
def searchAlternateTgs : List Principal → Option (Principal × DbEntry)
  | [] => none
  | p :: rest =>
    let name := { p with realm := kdc.tgsServer.realm }
    match kdc.dbGetPrincipal name with
    | .error _ => none
    | .ok found =>
      if !found.more && found.nprincs == 1 then some (name, found.entry)
      else searchAlternateTgs rest

/-- `find_alternate_tgs` for a request for `krbtgt/remote`; the first entry of
the tree is the local server. -/
def findAlternateTgs (server : Principal) (remote : Octets) : Option (Principal × DbEntry) :=
  match walkRealmTree kdc.capaths server.realm remote realmBranchChar with
  | .error _ => none
  | .ok tree => searchAlternateTgs kdc tree.tail.reverse

end Krb5.Kdc
