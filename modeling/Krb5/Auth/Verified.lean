import Krb5.Asn1.ExchangeCodec
import Krb5.Auth.Safe

/-!
# Which safe messages are verified

`krb5_rd_safe_basic` reads the verdict on a checksum from the variable `valid`
and does not look at what `krb5_c_verify_checksum` returned. With an error the
variable is never set. So a message with a checksum that the library refuses to
process is let through when the stack happens to hold something else than zero.
-/

namespace Krb5.Auth

open Lib Asn1 Crypto List

variable {lib : Primitives} {host : Host} {ctx ctx' : AuthContext} {inbuf userData : Octets}
  {outdata : Option ReplayData} {out : Output} {data : ReplayData}

/-! ## What a successful call has done -/

def replayData (message : Safe) : ReplayData := ⟨message.timestamp, message.usec, message.seqNumber⟩

theorem run_finishRead_eq_ok {uniq : CString} :
    (finishRead host uniq outdata data userData).run ctx = (.ok out, ctx') ↔
      checkTime host ctx uniq data = .ok () ∧ checkSequence ctx data = .ok () ∧
      ⟨userData, if ctx.retTime || ctx.retSequence then outdata.map fun _ => data else outdata⟩ =
        out ∧ ctx.received = ctx' := by
  simp only [finishRead, run_bind_eq_ok, run_get, run_ofExcept, run_modify, run_pure,
    Prod.mk.injEq, Except.ok.injEq]
  constructor
  · rintro ⟨_, _, ⟨rfl, rfl⟩, _, _, ⟨htime, rfl⟩, _, _, ⟨hseq, rfl⟩, _, _, ⟨-, rfl⟩, hout, hctx⟩
    exact ⟨htime, hseq, hout, hctx⟩
  · rintro ⟨htime, hseq, hout, hctx⟩
    exact ⟨_, _, ⟨rfl, rfl⟩, _, _, ⟨htime, rfl⟩, _, _, ⟨hseq, rfl⟩, (), _, ⟨trivial, rfl⟩, hout, hctx⟩

/-- All the checks that a message has passed, in their order. -/
theorem rdSafeBasic_eq_ok {keyblock : Option Keyblock} {recvAddr senderAddr : Option Address} :
    rdSafeBasic lib host inbuf keyblock recvAddr senderAddr = .ok (data, userData) ↔
      isKrbSafe inbuf ∧ ∃ message, decodeKrb5Safe (inbuf.length + 1) inbuf = .ok message ∧
        checkCksumtype message.checksum.checksumType = .ok () ∧
        checkAddresses host recvAddr senderAddr message.sAddress message.rAddress = .ok () ∧
        ∃ scratch, reencode message = .ok scratch ∧
          validAfter host (cVerifyChecksum lib host.random keyblock keyusageKrbSafeCksum scratch
            message.checksum) = .ok true ∧
          replayData message = data ∧ message.userData = userData := by
  unfold rdSafeBasic
  cases isKrbSafe inbuf with
  | false => simp
  | true =>
    simp only [Bool.not_true, Bool.false_eq_true, if_false, bind_eq_ok, mapError_eq_ok, true_and]
    constructor
    · rintro ⟨message, hdec, _, htype, _, haddr, scratch, hcode, valid, hvalid, hlast⟩
      cases valid with
      | false => cases hlast
      | true =>
        cases hlast
        exact ⟨message, hdec, htype, haddr, scratch, hcode, hvalid, rfl, rfl⟩
    · rintro ⟨message, hdec, htype, haddr, scratch, hcode, hvalid, rfl, rfl⟩
      exact ⟨message, hdec, (), htype, (), haddr, scratch, hcode, true, hvalid, rfl⟩

theorem run_rdSafe_eq_ok :
    (rdSafe lib host inbuf outdata).run ctx = (.ok out, ctx') ↔
      checkRequired ctx outdata = .ok () ∧ ∃ data userData,
        rdSafeBasic lib host inbuf ctx.recvKey (fulladdr ctx.localAddr ctx.localPort)
          (fulladdr ctx.remoteAddr ctx.remotePort) = .ok (data, userData) ∧
        (finishRead host uniqSafe outdata data userData).run ctx = (.ok out, ctx') := by
  simp only [rdSafe, run_bind_eq_ok, run_get, run_ofExcept, Prod.mk.injEq, Except.ok.injEq]
  constructor
  · rintro ⟨_, _, ⟨rfl, rfl⟩, _, _, ⟨hrequired, rfl⟩, ⟨data, userData⟩, _, ⟨hbasic, rfl⟩, hfinish⟩
    exact ⟨hrequired, data, userData, hbasic, hfinish⟩
  · rintro ⟨hrequired, data, userData, hbasic, hfinish⟩
    exact ⟨_, _, ⟨rfl, rfl⟩, _, _, ⟨hrequired, rfl⟩, (data, userData), _, ⟨hbasic, rfl⟩, hfinish⟩

def Safe.Addressed (message : Safe) : Prop :=
  message.sAddress.contents ≠ [] ∧ ∀ addr ∈ message.rAddress, addr.contents ≠ []

theorem reencode_eq_ok {message : Safe} {scratch : Octets} :
    reencode message = .ok scratch ↔
      Safe.Addressed message ∧
        encodeKrb5Safe { message with checksum := zeroCksum } = .ok scratch := by
  have hcode := (writes_safe { message with checksum := zeroCksum }).run
  have hempty : (message.sAddress.contents = [] ∨ message.rAddress.any (·.contents = [])) ↔
      ¬Safe.Addressed message := by
    cases h : message.rAddress <;> simp [Safe.Addressed, h, imp_iff_not_or]
  rw [reencode, hcode]
  by_cases haddr : Safe.Addressed message
  · rw [if_neg (by rw [hempty]; exact not_not_intro haddr)]
    simp [haddr]
  · rw [if_pos (hempty.mpr haddr)]
    simp [haddr]

/-! ## The verdict -/

/-- `krb5_c_verify_checksum` was called on the message with an empty checksum in its
place and found the checksum valid. -/
def Verified (lib : Primitives) (host : Host) (ctx : AuthContext) (inbuf : Octets) : Prop :=
  ∃ message scratch, decodeKrb5Safe (inbuf.length + 1) inbuf = .ok message ∧
    encodeKrb5Safe { message with checksum := zeroCksum } = .ok scratch ∧
    cVerifyChecksum lib host.random ctx.recvKey keyusageKrbSafeCksum scratch message.checksum =
      .ok true

def Host.holding (host : Host) (unset : Bool) : Host := { host with unset }

/-- Whatever the stack holds, a message that is let through has been verified. -/
def OnlyVerified (lib : Primitives) (host : Host) (ctx : AuthContext) (inbuf : Octets)
    (outdata : Option ReplayData) : Prop :=
  ∀ unset out ctx', (rdSafe lib (host.holding unset) inbuf outdata).run ctx = (.ok out, ctx') →
    Verified lib host ctx inbuf

structure Admitted (host : Host) (ctx : AuthContext) (outdata : Option ReplayData)
    (message : Safe) : Prop where
  required : checkRequired ctx outdata = .ok ()
  type : checkCksumtype message.checksum.checksumType = .ok ()
  addresses : checkAddresses host (fulladdr ctx.localAddr ctx.localPort)
    (fulladdr ctx.remoteAddr ctx.remotePort) message.sAddress message.rAddress = .ok ()
  addressed : Safe.Addressed message
  time : checkTime host ctx uniqSafe (replayData message) = .ok ()
  sequence : checkSequence ctx (replayData message) = .ok ()

/-- The checksum of every admitted message is one that the library processes: its
length is one of its type, and the key fits the type. -/
def Processed (host : Host) (ctx : AuthContext) (inbuf : Octets) (outdata : Option ReplayData) :
    Prop :=
  ∀ message scratch, isKrbSafe inbuf = true → decodeKrb5Safe (inbuf.length + 1) inbuf = .ok message →
    encodeKrb5Safe { message with checksum := zeroCksum } = .ok scratch →
    Admitted host ctx outdata message →
    usable ctx.recvKey message.checksum scratch.length = true

theorem validAfter_eq_true {verdict : Except Crypto.Code Bool} :
    validAfter host verdict = .ok true ↔
      verdict = .ok true ∨ Refused verdict ∧ host.unset := by
  rcases verdict with e | valid
  · cases e <;> simp [validAfter]
  · simp [validAfter]

theorem run_rdSafe_iff (lib : Primitives) (unset : Bool) :
    (∃ out ctx', (rdSafe lib (host.holding unset) inbuf outdata).run ctx = (.ok out, ctx')) ↔
      isKrbSafe inbuf ∧ ∃ message, decodeKrb5Safe (inbuf.length + 1) inbuf = .ok message ∧
        Admitted host ctx outdata message ∧
        ∃ scratch, encodeKrb5Safe { message with checksum := zeroCksum } = .ok scratch ∧
          validAfter (host.holding unset) (cVerifyChecksum lib host.random ctx.recvKey
            keyusageKrbSafeCksum scratch message.checksum) = .ok true := by
  simp only [run_rdSafe_eq_ok, rdSafeBasic_eq_ok, run_finishRead_eq_ok, reencode_eq_ok]
  constructor
  · rintro ⟨out, ctx', hrequired, data, userData, ⟨hsafe, message, hdec, htype, haddr, scratch,
      ⟨haddressed, hcode⟩, hvalid, rfl, rfl⟩, htime, hseq, -⟩
    exact ⟨hsafe, message, hdec, ⟨hrequired, htype, haddr, haddressed, htime, hseq⟩, scratch,
      hcode, hvalid⟩
  · rintro ⟨hsafe, message, hdec, hadm, scratch, hcode, hvalid⟩
    exact ⟨_, _, hadm.required, _, _, ⟨hsafe, message, hdec, hadm.type, hadm.addresses, scratch,
      ⟨hadm.addressed, hcode⟩, hvalid, rfl, rfl⟩, hadm.time, hadm.sequence, rfl, rfl⟩

/-- Only verified messages are let through exactly where no admitted message has a
checksum that the library refuses to process. -/
theorem onlyVerified_iff (lib : Primitives) (host : Host) (ctx : AuthContext) (inbuf : Octets)
    (outdata : Option ReplayData) :
    OnlyVerified lib host ctx inbuf outdata ↔ Processed host ctx inbuf outdata := by
  constructor
  · intro honly message scratch hsafe hdecode hcode hadm
    by_contra hnot
    have hrefused := (refused_cVerifyChecksum_iff lib host.random ctx.recvKey keyusageKrbSafeCksum
      scratch message.checksum).mpr (by simpa using hnot)
    -- With something else than zero on the stack the message goes through.
    obtain ⟨out, ctx', hrun⟩ := (run_rdSafe_iff lib true).mpr ⟨hsafe, message, hdecode,
      hadm, scratch, hcode, validAfter_eq_true.mpr (.inr ⟨hrefused, rfl⟩)⟩
    obtain ⟨message', scratch', hdecode', hcode', hverdict⟩ := honly true out ctx' hrun
    cases hdecode.symm.trans hdecode'
    cases hcode.symm.trans hcode'
    rw [hverdict] at hrefused
    exact not_refused_ok true hrefused
  · intro hprocessed unset out ctx' hrun
    obtain ⟨hsafe, message, hdecode, hadm, scratch, hcode, hvalid⟩ :=
      (run_rdSafe_iff lib unset).mp ⟨out, ctx', hrun⟩
    refine ⟨message, scratch, hdecode, hcode, ?_⟩
    rcases validAfter_eq_true.mp hvalid with hverdict | ⟨hrefused, -⟩
    · exact hverdict
    · have husable := hprocessed message scratch hsafe hdecode hcode hadm
      rw [refused_cVerifyChecksum_iff, husable] at hrefused
      cases hrefused

/-! ## A message that nobody verified -/

def zeroPrimitives : Primitives where
  hash provider _ := replicate provider.hashSize 0
  desCbcEncrypt _ _ input := replicate input.length 0
  desCbcDecrypt _ _ input := replicate input.length 0
  desCbcCksum _ _ := zeroblock
  deriveKey enc _ _ := replicate enc.keylength 0
  length_deriveKey enc _ _ := by simp

def quietHost : Host where
  usTimeofday := .ok (960000000, 1)
  timeofday := .ok 960000000
  osLocaladdr := .ok none
  rcStore _ := .ok ()
  random := .ok (replicate 8 0)
  clockskew := 300
  unset := false

/-- A session with a triple-DES key and a partner at 10.0.0.1, with no flag set. -/
def des3Session : AuthContext where
  authContextFlags := 0
  remoteAddr := some ⟨2, [10, 0, 0, 1]⟩
  remotePort := none
  localAddr := none
  localPort := none
  keyblock := some ⟨16, replicate 24 1⟩
  localSubkey := none
  remoteSubkey := none
  remoteSeqNumber := 0
  localSeqNumber := 0
  safeCksumtype := 12
  iVector := none
  rcache := false

def forgedSafe : Safe where
  userData := ascii "rm"
  timestamp := 0
  usec := 0
  seqNumber := 0
  sAddress := ⟨2, [10, 0, 0, 1]⟩
  rAddress := none
  checksum := ⟨12, [0]⟩

def forgedInbuf : Octets :=
  [0x74, 0x35, 0x30, 0x33, 0xa0, 0x03, 0x02, 0x01, 0x05, 0xa1, 0x03, 0x02, 0x01, 0x14, 0xa2, 0x19,
    0x30, 0x17, 0xa0, 0x04, 0x04, 0x02, 0x72, 0x6d, 0xa4, 0x0f, 0x30, 0x0d, 0xa0, 0x03, 0x02, 0x01,
    0x02, 0xa1, 0x06, 0x04, 0x04, 0x0a, 0x00, 0x00, 0x01, 0xa3, 0x0c, 0x30, 0x0a, 0xa0, 0x03, 0x02,
    0x01, 0x0c, 0xa1, 0x03, 0x04, 0x01, 0x00]

/-- The forged text is handed to the caller, and the only call of
`krb5_c_verify_checksum` ended with an error. -/
theorem forged_accepted :
    (rdSafe zeroPrimitives (quietHost.holding true) forgedInbuf none).run des3Session =
      (.ok ⟨ascii "rm", none⟩, des3Session) ∧
    decodeKrb5Safe (forgedInbuf.length + 1) forgedInbuf = .ok forgedSafe ∧
    (∀ scratch, cVerifyChecksum zeroPrimitives quietHost.random des3Session.recvKey
      keyusageKrbSafeCksum scratch forgedSafe.checksum = .error .badMsize) ∧
    ¬OnlyVerified zeroPrimitives quietHost des3Session forgedInbuf none := by
  have hverify (scratch : Octets) : cVerifyChecksum zeroPrimitives quietHost.random
      des3Session.recvKey keyusageKrbSafeCksum scratch forgedSafe.checksum =
      .error .badMsize := rfl
  simp only [← and_assoc]
  refine (and_iff_left_of_imp ?_).mpr ⟨by decide +kernel, hverify⟩
  rintro ⟨⟨hrun, hdecode⟩, -⟩ honly
  obtain ⟨message, scratch, hdecode', -, hverdict⟩ := honly true _ _ hrun
  cases hdecode.symm.trans hdecode'
  cases hverdict

end Krb5.Auth
