import Krb5.Kadm5.Chpass

/-!
# Users who change their own passwords (`misc.c`, `schpw.c`, `chpass_util.c`, `chpw.c`)

In the RPC service `chpass_principal_wrapper` looks at the minimum life of the password before it
calls `kadm5_chpass_principal`. In the kpasswd service `process_chpw_request` calls it through
`kadm5_chpass_principal_util`; what the libraries and the sockets answer there is given by
`ChpwEnv`.
-/

namespace Krb5.Kadm5

open Lib Kdb

variable (handle : Handle) (io : Io)

/-- The password is too young to be changed by its owner. The difference is one of 32 bits. -/
def tooSoon (now : Timestamp) (princ : PrincipalEntRec) (pol : PolicyEnt) : Bool :=
  now - princ.lastPwdChange < pol.pwMinLife && !isSet princ.attributes Kdc.kdbRequiresPwchange

/-- The part of `chpass_principal_wrapper` for the policy. -/
def checkMinLife (now : Timestamp) (princ : PrincipalEntRec) : DbCall Unit :=
  if isSet princ.auxAttributes maskPolicy then do
    let pol ← kadm5GetPolicy princ.policy
    .failIf (tooSoon now princ pol) .passToosoon
  else pure ()

/-- `chpass_principal_wrapper`, which reads the clock for itself. -/
def chpassPrincipalWrapper (clock : Except Kdb.Code Timestamp) (principal : Option Principal)
    (password : Option CString) : DbCall Unit := do
  let now ← ofKdb clock
  let princ ← kadm5GetPrincipal handle principal maskNormal
  checkMinLife now princ
  kadm5ChpassPrincipal handle io principal password

/-! ## The kpasswd service -/

/-- `KRB5_KPASSWD_SUCCESS` and the others. -/
inductive KpasswdResult
  | success
  | malformed
  | hardError
  | authError
  | softError
deriving DecidableEq, Repr

def KpasswdResult.number : KpasswdResult → UInt8
  | success => 0
  | malformed => 1
  | hardError => 2
  | authError => 3
  | softError => 4

/-- What is used of the ticket that `krb5_rd_req` returns. -/
structure ChpwTicket where
  client : Principal
  flags : Flags

/-- What `process_chpw_request` finds in its environment. Errors are those of the libraries; none
of them comes to the client. -/
structure ChpwEnv where
  /-- `krb5_auth_con_init` -/
  init : Except Int32 Unit
  /-- `krb5_auth_con_setflags` -/
  setFlags : Except Int32 Unit
  /-- `krb5_build_principal` for `kadmin/changepw` -/
  changepw : Except Int32 Unit
  rdReq : Octets → Except Int32 ChpwTicket
  getsockname : Except Int32 Unit
  getpeername : Except Int32 Unit
  /-- `krb5_auth_con_setaddrs` for the client -/
  setRemote : Except Int32 Unit
  mkRep : Except Int32 Octets
  rdPriv : Octets → Except Int32 Octets
  /-- the text of `_kadm5_chpass_principal_util` for an error -/
  utilText : Db → Principal → Code → Octets
  /-- `krb5_auth_con_setaddrs` for the reply -/
  setLocal : Except Int32 Unit
  mkPriv : Octets → Except Int32 Octets
  /-- `krb5_timeofday` for a `KRB-ERROR` -/
  errorTime : Except Int32 Timestamp
  /-- `krb5_build_principal` for a `KRB-ERROR` -/
  errorServer : Except Int32 Unit
  mkError : Timestamp → UInt32 → Octets → Except Int32 Octets

/-- `numresult` and `strresult`, and the `AP-REP` as far as there is one. -/
structure ChpwAnswer where
  result : KpasswdResult
  text : Octets
  apRep : Octets

/-- A request that does not come to the change of a password: it is answered or dropped. -/
inductive ChpwStop
  | answer (a : ChpwAnswer)
  | drop

def ChpwStop.early (result : KpasswdResult) (text : String) : ChpwStop := .answer ⟨result, ascii text, []⟩

def stopIf (stops : Bool) (stop : ChpwStop) : Except ChpwStop Unit :=
  if stops then .error stop else .ok ()

/-- Two octets of a message. Behind its end is what was in the buffer before, of which nothing
depends on the value. -/
def octets16 (req : Octets) (i : Nat) : Nat := (req.getD i 0).toNat * 256 + (req.getD (i + 1) 0).toNat

/-- The `AP-REQ` and the `KRB-PRIV` of a request. -/
def splitRequest (req : Octets) : Except ChpwStop (Octets × Octets) := do
  stopIf (req.length < 4) (.early .malformed "Request was truncated")
  stopIf (octets16 req 0 != req.length) .drop
  stopIf (octets16 req 2 != 1) (.early .malformed
    ("Request contained unknown protocol version number " ++ toString (octets16 req 2)))
  stopIf (6 + octets16 req 4 ≥ req.length) (.early .malformed "Request was truncated in AP-REQ")
  return ((req.drop 6).take (octets16 req 4), req.drop (6 + octets16 req 4))

/-- Who asks, with the `AP-REP` for it and the new password. The ticket has to be one that was
got with a password. -/
def authenticate (env : ChpwEnv) (req : Octets) : Except ChpwStop (Principal × Octets × CString) := do
  let (apReq, cipher) ← splitRequest req
  env.init.mapError fun _ => .early .hardError "Failed initializing auth context"
  env.setFlags.mapError fun _ => .early .hardError "Failed initializing auth context"
  env.changepw.mapError fun _ => .early .hardError "Failed building kadmin/changepw principal"
  let ticket ← (env.rdReq apReq).mapError fun _ =>
    .early .authError "Failed reading application request"
  env.getsockname.mapError fun _ => .early .hardError "Failed getting server internet address"
  env.getpeername.mapError fun _ => .early .hardError "Failed getting client internet address"
  env.setRemote.mapError fun _ => .early .hardError "Failed storing client internet address"
  stopIf (!isSet ticket.flags tktFlgInitial)
    (.early .authError "Ticket must be derived from a password")
  let apRep ← env.mkRep.mapError fun _ => .early .authError "Failed replying to application request"
  let clear ← (env.rdPriv cipher).mapError fun _ =>
    .answer ⟨.hardError, ascii "Failed decrypting request", apRep⟩
  return (ticket.client, apRep, ⟨cstring clear, nul_notMem_cstring clear⟩)

def softCode (code : Code) : Bool :=
  code = .passQTooshort || code = .passReuse || code = .passQClass || code = .passQDict ||
    code = .passToosoon

/-- `kadm5_chpass_principal_util` with a password that is given, apart from its text. -/
def kadm5ChpassPrincipalUtil (princ : Principal) (newPw : CString) : DbCall Unit :=
  kadm5ChpassPrincipal handle io (some princ) (some newPw)

/-- The error of the `KRB-ERROR`: what the library has returned has been overwritten by the
result of `krb5_timeofday`, which is zero here. -/
def krbErrorCode : UInt32 :=
  let error : UInt32 := 0 - 0x96c73a00
  if error > 128 then 60 else error

/-- The `KRB-PRIV` of an answer, or else the `KRB-ERROR`, for which there is no `AP-REP`. -/
def answerParts (env : ChpwEnv) (a : ChpwAnswer) : Except Int32 (Octets × Octets) :=
  let clear := [0, a.result.number] ++ a.text
  let cipher := if a.apRep = [] then [] else
    match env.setLocal with
    | .ok () => (env.mkPriv clear).toOption.getD []
    | .error _ => []
  if cipher = [] then do
    let stime ← env.errorTime
    env.errorServer
    return ([], ← env.mkError stime krbErrorCode clear)
  else .ok (a.apRep, cipher)

def be16 (n : Nat) : Octets := [UInt8.ofNat (n / 256), UInt8.ofNat n]

/-- The reply of `process_chpw_request`. -/
def buildReply (env : ChpwEnv) (a : ChpwAnswer) : Except Int32 Octets := do
  let (apRep, cipher) ← answerParts env a
  return be16 (6 + apRep.length + cipher.length) ++ be16 1 ++ be16 apRep.length ++ apRep ++ cipher

def apErrModified : Int32 := -1765328343

/-- What is sent for a request that does not come to the change. -/
def ChpwStop.reply (env : ChpwEnv) : ChpwStop → Except Int32 Octets
  | answer a => buildReply env a
  | drop => .error apErrModified

/-- `process_chpw_request`: the reply, or the error for which there is none, and the databases. -/
def processChpwRequest (env : ChpwEnv) (req : Octets) (db : Db) : Except Int32 Octets × Db :=
  match authenticate env req with
  | .error stop => (stop.reply env, db)
  | .ok (client, apRep, password) =>
    match (kadm5ChpassPrincipalUtil handle io client password).run db with
    | (.ok (), db') => (buildReply env ⟨.success, [], apRep⟩, db')
    | (.error code, db') =>
      (buildReply env ⟨if softCode code then .softError else .hardError,
        env.utilText db' client code, apRep⟩, db')

/-! ## The octets that are read -/

/-- Two octets at `ptr`, the high one first: none where one of them is behind the packet. -/
def takeWord : Octets → Option (Nat × Octets)
  | a :: b :: ptr => some (a.toNat * 256 + b.toNat, ptr)
  | _ => none

/-- What `process_chpw_request` and `krb5_rd_chpw_rep` read before they hand the two inner messages
on, and where each of them stops. -/
def splitPacket {σ : Type} (short length truncated : σ) (version : Nat → σ) (packet : Octets) :
    Option (Except σ (Octets × Octets)) := do
  if packet.length < 4 then return .error short
  let (plen, ptr) ← takeWord packet
  if plen ≠ packet.length then return .error length
  let (vno, ptr) ← takeWord ptr
  if vno ≠ 1 then return .error (version vno)
  let (apLength, ptr) ← takeWord ptr
  if ptr.length ≤ apLength then return .error truncated
  return .ok (ptr.take apLength, ptr.drop apLength)

def readRequest : Octets → Option (Except ChpwStop (Octets × Octets)) :=
  splitPacket (.early .malformed "Request was truncated") .drop
    (.early .malformed "Request was truncated in AP-REQ") fun vno => .early .malformed
      ("Request contained unknown protocol version number " ++ toString vno)

def badPvno : Int32 := -1765328381

def rdChpwRep : Octets → Option (Except Int32 (Octets × Octets)) :=
  splitPacket apErrModified apErrModified apErrModified fun _ => badPvno

/-- Nothing is left of the packet where the length of the `AP` part is read. -/
def CutShort (packet : Octets) : Prop := packet = [0, 4, 0, 1] ∨ ∃ c, packet = [0, 5, 0, 1, c]

variable {σ : Type} {short length truncated : σ} {version : Nat → σ} {packet ap rest : Octets}

theorem word_eq {a b : UInt8} {n : Nat} (hn : n < 256) :
    a.toNat * 256 + b.toNat = n ↔ a = 0 ∧ b = UInt8.ofNat n := by
  simp only [← UInt8.toNat_inj, UInt8.toNat_ofNat', UInt8.toNat_zero]
  omega

theorem splitPacket_eq_none :
    splitPacket short length truncated version packet = none ↔ CutShort packet := by
  unfold splitPacket CutShort
  match packet with
  | [] | [_] | [_, _] | [_, _, _] => simp [pure]
  | [a, b, c, d] =>
    have hlen := @word_eq a b 4
    have hvno := @word_eq c d 1
    simp [takeWord, pure]
    grind
  | [a, b, c, d, _] =>
    have hlen := @word_eq a b 5
    have hvno := @word_eq c d 1
    simp [takeWord, pure]
    grind
  | _ :: _ :: _ :: _ :: _ :: _ :: _ =>
    simp [takeWord, pure]
    grind

theorem splitPacket_ok (h : splitPacket short length truncated version packet = some (.ok (ap, rest))) :
    packet = packet.take 6 ++ ap ++ rest := by
  unfold splitPacket at h
  match packet with
  | [] | [_] | [_, _] | [_, _, _] => simp [pure] at h
  | [_, _, _, _] | [_, _, _, _, _] => simp [takeWord, pure] at h; grind
  | _ :: _ :: _ :: _ :: _ :: _ :: ptr =>
    simp [takeWord, pure] at h
    split_ifs at h <;> simp at h
    obtain ⟨rfl, rfl⟩ := h
    simp

/-- A packet of four or five octets with the right length and version is read behind its end. Every
other one is read inside, and is its six octets of lengths and version, the `AP` part and the rest. -/
theorem chpwPackets_inside (packet : Octets) :
    (readRequest packet = none ↔ CutShort packet) ∧ (rdChpwRep packet = none ↔ CutShort packet) ∧
      ∀ ap rest, readRequest packet = some (.ok (ap, rest)) ∨
        rdChpwRep packet = some (.ok (ap, rest)) → packet = packet.take 6 ++ ap ++ rest := by
  refine ⟨splitPacket_eq_none, splitPacket_eq_none, ?_⟩
  rintro ap rest (h | h)
  · exact splitPacket_ok h
  · exact splitPacket_ok h

theorem chpwPackets_outside : readRequest [0, 4, 0, 1] = none ∧ rdChpwRep [0, 4, 0, 1] = none := by
  decide

end Krb5.Kadm5
