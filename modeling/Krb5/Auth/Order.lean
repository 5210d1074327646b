import Krb5.Auth.Priv
import Krb5.Auth.Verified
import Krb5.Lib.Runs
import Krb5.Lib.Stream

/-!
# Delivery in order

One side makes safe and private messages, the other reads them, both keeping
sequence numbers. Messages may be lost, repeated and reordered. The two counters
realise a numbered stream: what was read is the start of what was sent.
-/

namespace Krb5.Auth

open Lib Lib.Ber Asn1 Crypto List Elem

variable {lib : Primitives} {cipher : Cipher} {host : Host}
  {ctx ctx' : AuthContext} {key : Option Keyblock} {message data : Octets} {seq : Int32}
  {sends : Bool}

/-- The message has the octets of a safe or private message with these data and
this number. A private one was encrypted under the key, with or without an initial
vector. -/
inductive Contains (cipher : Cipher) (key : Option Keyblock) (sends : Bool) :
    Octets → Octets → Int32 → Prop
  | safe {x : Safe} {message : Octets} (hcode : encodeKrb5Safe x = .ok message)
      (hsmall : message.length < 2 ^ 31) :
      Contains cipher key sends message x.userData x.seqNumber
  | priv {k : Keyblock} {ivec : Option Octets} {random : Except Crypto.Code Octets}
      {x : PrivEncPart} {plain ciphertext message : Octets} (hkey : key = some k)
      (hivec : ivec.isSome = sends) (hplain : encodeKrb5EncPrivPart x = .ok plain)
      (hcipher : (cipher.encrypt k keyusageKrbPrivEncpart ivec random plain).1 = .ok ciphertext)
      (hcode : encodeKrb5Priv ⟨⟨k.enctype, 0, some ciphertext⟩⟩ = .ok message)
      (hsmall : message.length < 2 ^ 31) :
      Contains cipher key sends message x.userData x.seqNumber

/-- What was encrypted under the key comes back, with padding, if the decryption is
not refused. The vectors of the two sides may differ; whether there are any is
given. -/
def Cipher.Inverts (cipher : Cipher) (key : Keyblock) (sends receives : Bool) : Prop :=
  ∀ ⦃ivec ivec' : Option Octets⦄ ⦃random : Except Crypto.Code Octets⦄
    ⦃plain ciphertext plain' : Octets⦄, ivec.isSome = sends → ivec'.isSome = receives →
    (cipher.encrypt key keyusageKrbPrivEncpart ivec random plain).1 = .ok ciphertext →
    (cipher.decrypt key keyusageKrbPrivEncpart ivec' ciphertext).1 = .ok plain' → plain <+: plain'

theorem isKrbSafe_priv {x : Priv} (hcode : encodeKrb5Priv x = .ok message) :
    isKrbSafe message = false := by
  cases (writes_priv x).run.symm.trans hcode
  rfl

theorem isKrbPriv_safe {x : Safe} (hcode : encodeKrb5Safe x = .ok message) :
    isKrbPriv message = false := by
  cases (writes_safe x).run.symm.trans hcode
  rfl

theorem length_ciphertext_le {x : Priv} {ciphertext : Octets}
    (hx : x.encPart.ciphertext = some ciphertext) (hcode : encodeKrb5Priv x = .ok message) :
    ciphertext.length ≤ message.length := by
  cases (writes_priv x).run.symm.trans hcode
  have hprim : ciphertext.length ≤ (octetsElem ciphertext).der.octets.length := by
    rw [octets_der, length_append]
    exact Nat.le_add_left _ _
  have hencData : (octetsElem ciphertext).der.octets.length ≤
      (encDataElem x.encPart).der.octets.length := length_der_field_le (k := 2) (by simp [hx])
  have hpriv : (encDataElem x.encPart).der.octets.length ≤ (privElem x).der.octets.length :=
    length_der_field_le (k := 3) (by simp)
  have hmsg : (privElem x).der.octets.length ≤ (application 21 (privElem x)).der.octets.length :=
    length_der_child_le (mem_singleton_self _)
  exact hprim.trans (hencData.trans (hpriv.trans hmsg))

/-! ## What is read -/

variable {replay : ReplayData} {userData userdata : Octets} {k : Keyblock}
  {localAddr remoteAddr : Option Address} {c d : AuthContext} {keyblock : Option Keyblock}
  {input : EncData} {outdata : Option ReplayData} {r : Except Code Output × AuthContext}

theorem Contains.rdSafeBasic (h : Contains cipher key sends message data seq)
    {recvAddr senderAddr : Option Address}
    (hrun : Auth.rdSafeBasic lib host message keyblock recvAddr senderAddr =
      .ok (replay, userData)) : replay.seq = seq ∧ userData = data := by
  obtain ⟨hsafe, y, hdec, -, -, -, -, -, rfl, rfl⟩ := rdSafeBasic_eq_ok.mp hrun
  cases h with
  | @safe x _ hcode hsmall =>
    cases (writes_safe x).eq_of_decoded (readsAs_safe x) hcode hsmall (Nat.lt_succ_self _) hdec
    exact ⟨rfl, rfl⟩
  | priv hkey hivec hplain hcipher hcode hsmall =>
    rw [isKrbSafe_priv hcode] at hsafe
    cases hsafe

theorem run_withVector (f : Option Octets → Except Crypto.Code Octets × Octets) :
    (withVector f).run ctx = ((f ctx.iVector).1.mapError .crypto,
      { ctx with iVector := ctx.iVector.map fun _ => (f ctx.iVector).2 }) := rfl

theorem run_cDecrypt_ok {scratch : Octets}
    (hrun : (cDecrypt cipher k input).run ctx = (.ok scratch, ctx')) :
    (cipher.decrypt k keyusageKrbPrivEncpart ctx.iVector (input.ciphertext.getD [])).1 =
      .ok scratch := by
  unfold cDecrypt at hrun
  split at hrun
  · cases hrun
  · split at hrun
    · cases hrun
    · exact mapError_eq_ok.mp (Prod.ext_iff.mp hrun).1

/-- What a successful `krb5_rd_priv_basic` has decrypted and decoded. -/
theorem run_rdPrivBasic_ok
    (hrun : (rdPrivBasic cipher host message key localAddr remoteAddr).run ctx =
      (.ok (replay, userData), ctx')) : isKrbPriv message ∧ ∃ privmsg k scratch part,
      decodeKrb5Priv (message.length + 1) message = .ok privmsg ∧ key = some k ∧
      (cipher.decrypt k keyusageKrbPrivEncpart ctx.iVector
        (privmsg.encPart.ciphertext.getD [])).1 = .ok scratch ∧
      decodeKrb5EncPrivPart (scratch.length + 1) scratch = .ok part ∧
      part.seqNumber = replay.seq ∧ part.userData = userData := by
  unfold rdPrivBasic at hrun
  cases hpriv : isKrbPriv message with
  | false =>
    rw [hpriv] at hrun
    cases hrun
  | true =>
    simp only [hpriv, Bool.not_true, Bool.false_eq_true, if_false, run_bind_eq_ok, run_ofExcept,
      Prod.mk.injEq, mapError_eq_ok] at hrun
    obtain ⟨privmsg, _, ⟨hdec, rfl⟩, k, _, ⟨hkey, rfl⟩, scratch, _, hdecrypt, part, _,
      ⟨hpart, rfl⟩, _, _, ⟨-, rfl⟩, ⟨rfl, rfl⟩, rfl⟩ := hrun
    refine ⟨rfl, privmsg, k, scratch, part, hdec, ?_, run_cDecrypt_ok hdecrypt, hpart, rfl,
      rfl⟩
    cases key with
    | none => cases hkey
    | some k' => exact congrArg some (Except.ok.inj hkey)

/-- A message that was made with the key gives back its data and number. -/
theorem Contains.rdPrivBasic (h : Contains cipher key sends message data seq)
    (hinv : ∀ k ∈ key, cipher.Inverts k sends ctx.iVector.isSome)
    (hrun : (Auth.rdPrivBasic cipher host message key localAddr remoteAddr).run ctx =
      (.ok (replay, userData), ctx')) : replay.seq = seq ∧ userData = data := by
  obtain ⟨hpriv, privmsg, k, scratch, part, hdec, hk, hdecrypt, hpart, hseq, rfl⟩ :=
    run_rdPrivBasic_ok hrun
  rw [← hseq]
  cases h with
  | safe hcode hsmall =>
    rw [isKrbPriv_safe hcode] at hpriv
    cases hpriv
  | @priv k' ivec random x plain ciphertext _ hkey hivec hplain hcipher hcode hsmall =>
    cases hkey.symm.trans hk
    cases (writes_priv _).eq_of_decoded (readsAs_priv _) hcode hsmall (Nat.lt_succ_self _) hdec
    have hsame : (EncData.received ⟨k.enctype, 0, some ciphertext⟩).ciphertext.getD [] =
        ciphertext := by
      by_cases hempty : ciphertext = [] <;> simp [EncData.received, hempty, Option.filter]
    rw [hsame] at hdecrypt
    obtain ⟨pad, rfl⟩ := hinv k hk hivec rfl hcipher hdecrypt
    have hlen := cipher.length_decrypt hdecrypt
    have hsize := length_ciphertext_le rfl hcode
    cases (writes_privEncPart x).eq_of_decoded_append (readsAhead_privEncPart x) hplain (by omega)
      (by simp only [length_append]; omega) hpart
    exact ⟨rfl, rfl⟩

/-! ## What a call does to its context -/

structure AuthContext.Same (c d : AuthContext) : Prop where
  flags : d.authContextFlags = c.authContextFlags
  sendKey : d.sendKey = c.sendKey
  recvKey : d.recvKey = c.recvKey
  vector : d.iVector.isSome = c.iVector.isSome

theorem AuthContext.Same.refl (c : AuthContext) : c.Same c := ⟨rfl, rfl, rfl, rfl⟩

theorem AuthContext.Same.trans {e : AuthContext} (h : c.Same d) (h' : d.Same e) : c.Same e :=
  ⟨h'.flags.trans h.flags, h'.sendKey.trans h.sendKey, h'.recvKey.trans h.recvKey,
    h'.vector.trans h.vector⟩

theorem AuthContext.Same.doSequence (h : c.Same d) : d.doSequence = c.doSequence := by
  rw [AuthContext.doSequence, h.flags]

def AuthContext.Revectored (c d : AuthContext) : Prop :=
  ∃ v, d = { c with iVector := c.iVector.map fun _ => v }

theorem AuthContext.Revectored.refl (c : AuthContext) : c.Revectored c := by
  refine ⟨c.iVector.getD [], ?_⟩
  cases c with
  | mk flags ra rp la lp kb lk rk rs ls st iVector rc => cases iVector <;> rfl

theorem AuthContext.Revectored.same (h : c.Revectored d) : c.Same d := by
  obtain ⟨v, rfl⟩ := h
  exact ⟨rfl, rfl, rfl, by simp⟩

/-- A message was made with the next number, or an error leaves the number alone. -/
def Sent (cipher : Cipher) (userdata : Octets) (c : AuthContext) :
    Except Code Output → AuthContext → Prop :=
  post (fun out d => c.Same d ∧ d.localSeqNumber = c.localSeqNumber + 1 ∧
      Contains cipher c.sendKey c.iVector.isSome out.outbuf userdata c.localSeqNumber)
    fun _ d => c.Same d ∧ d.localSeqNumber = c.localSeqNumber

theorem alloc_eq_ok {code : Except EncodeStop Octets} {octets : Octets} :
    alloc code = .ok octets ↔ code = .ok octets ∧ octets.length < 2 ^ 31 := by
  cases code with
  | error stop => simp [alloc]
  | ok o =>
    simp only [alloc]
    grind

theorem mkSafeBasic_contains {sumtype : Int32}
    (hmake : mkSafeBasic lib host userdata keyblock replay localAddr remoteAddr sumtype =
      .ok message) : Contains cipher key sends message userdata replay.seq := by
  obtain ⟨_, -, hmake⟩ := bind_eq_ok.mp hmake
  cases localAddr with
  | none => cases hmake
  | some sAddress =>
    obtain ⟨_, -, hmake⟩ := bind_eq_ok.mp hmake
    obtain ⟨contents, -, hmake⟩ := bind_eq_ok.mp hmake
    obtain ⟨hcode, hsmall⟩ := alloc_eq_ok.mp hmake
    exact .safe hcode hsmall

theorem sendData_seq (hseq : ctx.doSequence) (time : Timestamp × Int32) :
    (ctx.sendData time).seq = ctx.localSeqNumber := by
  simp [AuthContext.sendData, hseq]

theorem unsent (e : Code) : Sent cipher userdata ctx (.error e) ctx := ⟨.refl _, rfl⟩

theorem sendSafe_contains (hsend : sendSafe lib host userdata ctx replay = .ok message) :
    Contains cipher key sends message userdata replay.seq := by
  unfold sendSafe at hsend
  split at hsend
  · cases hsend
  obtain ⟨sumtype, -, hsend⟩ := bind_eq_ok.mp hsend
  obtain ⟨outbuf, hmake, hsend⟩ := bind_eq_ok.mp hsend
  obtain ⟨_, -, hsend⟩ := bind_eq_ok.mp hsend
  cases hsend
  exact mkSafeBasic_contains hmake

section

variable (hseq : ctx.doSequence)
include hseq

theorem same_countSafe : ctx.Same ctx.countSafe ∧
    ctx.countSafe.localSeqNumber = ctx.localSeqNumber + 1 := by
  rw [AuthContext.countSafe, if_pos (by simp [hseq])]
  exact ⟨⟨rfl, rfl, rfl, rfl⟩, rfl⟩

theorem same_uncount : ctx.Same ctx.uncount ∧
    ctx.uncount.localSeqNumber = ctx.localSeqNumber - 1 := by
  rw [AuthContext.uncount, if_pos (by simp [hseq])]
  exact ⟨⟨rfl, rfl, rfl, rfl⟩, rfl⟩

theorem uncounted (h : ctx.Same d ∧ d.localSeqNumber = ctx.localSeqNumber + 1) :
    ctx.Same d.uncount ∧ d.uncount.localSeqNumber = ctx.localSeqNumber := by
  obtain ⟨hsame', hlocal'⟩ := same_uncount (h.1.doSequence.trans hseq)
  refine ⟨h.1.trans hsame', ?_⟩
  rw [hlocal', h.2, Int32.add_sub_cancel]

theorem mkSafe_sent (userdata : Octets) (outdata : Option ReplayData) :
    wp (mkSafe lib host userdata outdata) (Sent cipher userdata ctx) ctx := by
  have hcounted := same_countSafe hseq
  refine wp_ofExcept_bind (fun _ _ => ?_) (fun e _ => unsent e)
  refine wp_ofExcept_bind (fun time _ => ?_) (fun e _ => unsent e)
  rw [wp_bind]
  cases hsend : sendSafe lib host userdata ctx (ctx.sendData time) with
  | error e => exact uncounted hseq hcounted
  | ok outbuf =>
    refine ⟨hcounted.1, hcounted.2, ?_⟩
    rw [← sendData_seq hseq time]
    exact sendSafe_contains hsend

theorem same_countPriv : ctx.Same ctx.countPriv ∧
    ctx.countPriv.localSeqNumber = ctx.localSeqNumber + 1 := by
  rw [AuthContext.countPriv, if_pos hseq]
  exact ⟨⟨rfl, rfl, rfl, rfl⟩, rfl⟩

end

theorem cEncrypt_spec {random : Except Crypto.Code Octets} {input : Octets} :
    wp (cEncrypt cipher random k input) (post (fun encPart d => ctx.Revectored d ∧
      ∃ ciphertext, encPart = ⟨k.enctype, 0, some ciphertext⟩ ∧
        (cipher.encrypt k keyusageKrbPrivEncpart ctx.iVector random input).1 = .ok ciphertext)
      fun _ d => ctx.Revectored d) ctx := by
  unfold cEncrypt
  split
  · exact .refl ctx
  rw [wp_bind, wp, run_withVector]
  cases hcipher : (cipher.encrypt k keyusageKrbPrivEncpart ctx.iVector random input).1 with
  | error e => exact ⟨_, rfl⟩
  | ok ciphertext => exact ⟨⟨_, rfl⟩, ciphertext, rfl, rfl⟩

theorem mkPrivBasic_spec : wp (mkPrivBasic cipher host userdata key replay localAddr remoteAddr)
      (post (fun message d => ctx.Revectored d ∧
        Contains cipher key ctx.iVector.isSome message userdata replay.seq)
        fun _ d => ctx.Revectored d) ctx := by
  unfold mkPrivBasic
  split
  · exact .refl ctx
  · exact .refl ctx
  rename_i k sAddress
  refine wp_ofExcept_bind (fun scratch1 hplain => ?_) (fun _ _ => .refl ctx)
  obtain ⟨hplain, -⟩ := alloc_eq_ok.mp hplain
  refine wp_seq cEncrypt_spec ?_ (fun _ _ h => h)
  rintro encPart d ⟨hvec, ciphertext, rfl, hcipher⟩
  cases hmake : alloc (encodeKrb5Priv ⟨⟨k.enctype, 0, some ciphertext⟩⟩) with
  | error e => exact hvec
  | ok message =>
    obtain ⟨hcode, hsmall⟩ := alloc_eq_ok.mp hmake
    exact ⟨hvec, .priv rfl rfl hplain hcipher hcode hsmall⟩

theorem mkPriv_sent (hseq : ctx.doSequence) (userdata : Octets) (outdata : Option ReplayData) :
    wp (mkPriv cipher host userdata outdata) (Sent cipher userdata ctx) ctx := by
  obtain ⟨hsame, hlocal⟩ := same_countPriv hseq
  unfold mkPriv
  rw [wp_get_bind]
  refine wp_ofExcept_bind (fun _ _ => ?_) (fun e _ => unsent e)
  refine wp_ofExcept_bind (fun time _ => ?_) (fun e _ => unsent e)
  rw [wp_bind, wp_modify, post_ok, wp_bind, wp_onError]
  have hcounted {d : AuthContext} (h : ctx.countPriv.Revectored d) :
      ctx.Same d ∧ d.localSeqNumber = ctx.localSeqNumber + 1 := by
    refine ⟨hsame.trans h.same, ?_⟩
    obtain ⟨v, rfl⟩ := h
    exact hlocal
  refine wp_seq mkPrivBasic_spec ?_ fun _ _ hvec => uncounted hseq (hcounted hvec)
  rintro outbuf d ⟨hvec, hcontains⟩
  refine wp_ofExcept_bind (fun _ _ => ?_) fun _ _ => uncounted hseq (hcounted hvec)
  rw [sendData_seq hseq time, hsame.vector] at hcontains
  exact ⟨(hcounted hvec).1, (hcounted hvec).2, hcontains⟩

/-- The data were read, as those with the expected number, or an error leaves the
number alone. -/
def Read (data : Octets) (seq : Int32) (c : AuthContext) :
    Except Code Output → AuthContext → Prop :=
  post (fun out d => c.Same d ∧ d.remoteSeqNumber = c.remoteSeqNumber + 1 ∧
      c.remoteSeqNumber = seq ∧ out.outbuf = data)
    fun _ d => c.Same d ∧ d.remoteSeqNumber = c.remoteSeqNumber

theorem unread (e : Code) (hvec : ctx.Revectored d) : Read data seq ctx (.error e) d := by
  refine ⟨hvec.same, ?_⟩
  obtain ⟨v, rfl⟩ := hvec
  rfl

theorem finishRead_read (hseq : ctx.doSequence) (uniq : CString)
    (outdata : Option ReplayData) (replay : ReplayData) (userData : Octets) :
    wp (finishRead host uniq outdata replay userData) (Read userData replay.seq ctx) ctx := by
  refine wp_ofExcept_bind (fun _ _ => ?_) (fun e _ => unread e (.refl _))
  refine wp_ofExcept_bind (fun _ hexp => ?_) (fun e _ => unread e (.refl _))
  have hnum : ctx.remoteSeqNumber = replay.seq := by
    by_contra hne
    rw [checkSequence, if_pos (by simp [hseq, hne])] at hexp
    cases hexp
  have hreceived : ctx.received =
      { ctx with remoteSeqNumber := ctx.remoteSeqNumber + 1 } := if_pos hseq
  rw [wp_bind, wp_modify, hreceived]
  exact ⟨⟨rfl, rfl, rfl, rfl⟩, rfl, hnum, rfl⟩

theorem rdSafe_read (hseq : ctx.doSequence)
    (h : Contains cipher key sends message data seq) (outdata : Option ReplayData) :
    wp (rdSafe lib host message outdata) (Read data seq ctx) ctx := by
  refine wp_ofExcept_bind (fun _ _ => ?_) (fun e _ => unread e (.refl _))
  refine wp_ofExcept_bind ?_ (fun e _ => unread e (.refl _))
  rintro ⟨replay, userData⟩ hbasic
  obtain ⟨rfl, rfl⟩ := h.rdSafeBasic hbasic
  exact finishRead_read hseq uniqSafe outdata replay userData

theorem cDecrypt_revectored : wp (cDecrypt cipher k input) (fun _ d => ctx.Revectored d) ctx := by
  unfold cDecrypt
  split
  · exact .refl ctx
  · split
    · exact .refl ctx
    · exact ⟨_, rfl⟩

theorem rdPrivBasic_revectored :
    wp (rdPrivBasic cipher host message key localAddr remoteAddr) (fun _ d => ctx.Revectored d)
      ctx := by
  unfold rdPrivBasic
  split
  · exact .refl ctx
  refine wp_ofExcept_bind (fun privmsg _ => ?_) (fun _ _ => .refl ctx)
  refine wp_ofExcept_bind (fun k _ => ?_) (fun _ _ => .refl ctx)
  refine wp_seq_run cDecrypt_revectored (fun scratch d _ hvec => ?_) (fun _ _ h => h)
  refine wp_ofExcept_bind (fun part _ => ?_) (fun _ _ => hvec)
  exact wp_ofExcept_bind (fun _ _ => hvec) (fun _ _ => hvec)

theorem rdPriv_read (hseq : ctx.doSequence) (h : Contains cipher ctx.recvKey sends message data seq)
    (hinv : ∀ k ∈ ctx.recvKey, cipher.Inverts k sends ctx.iVector.isSome)
    (outdata : Option ReplayData) :
    wp (rdPriv cipher host message outdata) (Read data seq ctx) ctx := by
  refine wp_ofExcept_bind (fun _ _ => ?_) (fun e _ => unread e (.refl _))
  refine wp_seq_run rdPrivBasic_revectored ?_ fun e _ => unread e
  rintro ⟨replay, userData⟩ d hbasic hvec
  obtain ⟨rfl, rfl⟩ := h.rdPrivBasic hinv hbasic
  have hsame := hvec.same
  obtain ⟨v, rfl⟩ := hvec
  refine wp_mono (finishRead_read (hsame.doSequence.trans hseq) uniqPriv outdata replay userData)
    fun r d' hread => ?_
  cases r with
  | error e => exact ⟨hsame.trans hread.1, hread.2⟩
  | ok out => exact ⟨hsame.trans hread.1, hread.2⟩

/-! ## Two sides -/

inductive Kind
  | safe
  | priv
deriving DecidableEq, Repr

def Kind.mk (lib : Primitives) (cipher : Cipher) :
    Kind → Host → Octets → Option ReplayData → Action AuthContext Code Output
  | safe => mkSafe lib
  | priv => mkPriv cipher

def Kind.rd (lib : Primitives) (cipher : Cipher) :
    Kind → Host → Octets → Option ReplayData → Action AuthContext Code Output
  | safe => rdSafe lib
  | priv => rdPriv cipher

/-- A side that sends and one that receives: the user data sent with the messages
that were made of them, and the user data that were returned. -/
structure Link where
  sender : AuthContext
  receiver : AuthContext
  sent : List (Octets × Octets)
  received : List Octets

inductive Call
  | mk (kind : Kind) (host : Host) (userdata : Octets) (outdata : Option ReplayData)
  | rd (kind : Kind) (host : Host) (inbuf : Octets) (outdata : Option ReplayData)

def Link.afterMk (s : Link) (userdata : Octets) : Except Code Output × AuthContext → Link
  | (.ok out, ctx) => { s with sender := ctx, sent := s.sent ++ [(userdata, out.outbuf)] }
  | (.error _, ctx) => { s with sender := ctx }

def Link.afterRd (s : Link) : Except Code Output × AuthContext → Link
  | (.ok out, ctx) => { s with receiver := ctx, received := s.received ++ [out.outbuf] }
  | (.error _, ctx) => { s with receiver := ctx }

/-- Messages are made of anything, and read are any that were made. -/
inductive Link.Step (lib : Primitives) (cipher : Cipher) (s : Link) : Call → Link → Prop
  | mk (kind : Kind) (host : Host) (userdata : Octets) (outdata : Option ReplayData) :
      Step lib cipher s (.mk kind host userdata outdata)
        (s.afterMk userdata ((kind.mk lib cipher host userdata outdata).run s.sender))
  | rd (kind : Kind) (host : Host) {inbuf : Octets} (outdata : Option ReplayData)
      (hmade : inbuf ∈ s.sent.map Prod.snd) :
      Step lib cipher s (.rd kind host inbuf outdata)
        (s.afterRd ((kind.rd lib cipher host inbuf outdata).run s.receiver))

variable {s : Link}

theorem Link.Step.of_mk {kind : Kind} (hrun : (kind.mk lib cipher host userdata outdata).run c = r)
    (hs : s.sender = c) :
    s.Step lib cipher (.mk kind host userdata outdata) (s.afterMk userdata r) := by
  rw [← hrun, ← hs]
  exact .mk kind host userdata outdata

theorem Link.Step.of_rd {kind : Kind} {inbuf : Octets}
    (hrun : (kind.rd lib cipher host inbuf outdata).run c = r) (hs : s.receiver = c)
    (hmade : inbuf ∈ s.sent.map Prod.snd) :
    s.Step lib cipher (.rd kind host inbuf outdata) (s.afterRd r) := by
  rw [← hrun, ← hs]
  exact .rd kind host outdata hmade

/-- Two contexts that share a key and expect the same number, before the first call. -/
structure Link.Synchronised (cipher : Cipher) (s : Link) : Prop where
  unsent : s.sent = []
  unreceived : s.received = []
  sends : s.sender.doSequence = true
  receives : s.receiver.doSequence = true
  key : s.receiver.recvKey = s.sender.sendKey
  number : s.receiver.remoteSeqNumber = s.sender.localSeqNumber
  inverts : ∀ k ∈ s.sender.sendKey,
    cipher.Inverts k s.sender.iVector.isSome s.receiver.iVector.isSome

def numbered (first : Int32) (i : Nat) : Int32 := first + Int32.ofNat i

theorem numbered_zero (first : Int32) : numbered first 0 = first := Int32.add_zero first

theorem numbered_succ (first : Int32) (i : Nat) :
    numbered first (i + 1) = numbered first i + 1 := by
  rw [numbered, Int32.ofNat_add, ← Int32.add_assoc]
  rfl

theorem numbered_inj {first : Int32} {i j : Nat} (h : numbered first i = numbered first j) :
    i % 2 ^ 32 = j % 2 ^ 32 := by
  have hbits := congrArg (fun n => (n - first).toBitVec.toNat) h
  simpa [numbered] using hbits

/-- After some calls: both counters count on from the common start, and every
message contains its data under its number. -/
structure Link.Inv (cipher : Cipher) (s t : Link) : Prop where
  sender : s.sender.Same t.sender
  receiver : s.receiver.Same t.receiver
  localNumber : t.sender.localSeqNumber = numbered s.sender.localSeqNumber t.sent.length
  remoteNumber : t.receiver.remoteSeqNumber = numbered s.sender.localSeqNumber t.received.length
  contains : ∀ i m, t.sent[i]? = some m → Contains cipher s.sender.sendKey
    s.sender.iVector.isSome m.2 m.1 (numbered s.sender.localSeqNumber i)

variable {t u : Link} {call : Call}

theorem Link.Synchronised.inv (h : s.Synchronised cipher) : s.Inv cipher s where
  sender := .refl _
  receiver := .refl _
  localNumber := by rw [h.unsent, length_nil, numbered_zero]
  remoteNumber := by rw [h.unreceived, length_nil, numbered_zero, h.number]
  contains i m hm := by simp [h.unsent] at hm

theorem Kind.mk_sent (hseq : ctx.doSequence) (kind : Kind) (userdata : Octets)
    (outdata : Option ReplayData) :
    wp (kind.mk lib cipher host userdata outdata) (Sent cipher userdata ctx) ctx := by
  cases kind with
  | safe => exact mkSafe_sent hseq userdata outdata
  | priv => exact mkPriv_sent hseq userdata outdata

theorem Kind.rd_read (hseq : ctx.doSequence)
    (h : Contains cipher ctx.recvKey sends message data seq)
    (hinv : ∀ k ∈ ctx.recvKey, cipher.Inverts k sends ctx.iVector.isSome) (kind : Kind)
    (outdata : Option ReplayData) :
    wp (kind.rd lib cipher host message outdata) (Read data seq ctx) ctx := by
  cases kind with
  | safe => exact rdSafe_read hseq h outdata
  | priv => exact rdPriv_read hseq h hinv outdata

def Link.stream (t : Link) : Stream Octets := ⟨t.sent.map Prod.fst, t.received⟩

/-- Sending keeps the invariant and is a step of the stream. -/
theorem Link.Inv.after_mk (h : s.Inv cipher t) {r : Except Code Output}
    (hsent : Sent cipher userdata t.sender r d) : s.Inv cipher (t.afterMk userdata (r, d)) ∧
      Stream.Step (2 ^ 32) t.stream (t.afterMk userdata (r, d)).stream := by
  cases r with
  | error e =>
    obtain ⟨hsame, hlocal⟩ := hsent
    exact ⟨{ h with
      sender := h.sender.trans hsame, localNumber := hlocal.trans h.localNumber }, .idle⟩
  | ok out =>
    obtain ⟨hsame, hlocal, hcontains⟩ := hsent
    rw [h.sender.sendKey, h.sender.vector, h.localNumber] at hcontains
    constructor
    · refine { h with sender := h.sender.trans hsame, localNumber := ?_, contains := ?_ }
      · rw [Link.afterMk, hlocal, h.localNumber, length_append, length_singleton, numbered_succ]
      intro i m hm
      by_cases hi : i < t.sent.length
      · exact h.contains i m (by rwa [Link.afterMk, getElem?_append_left hi] at hm)
      have hlast : i = t.sent.length := by
        have hlt := (List.getElem?_eq_some_iff.mp hm).1
        simp only [Link.afterMk, length_append, length_singleton] at hlt
        omega
      rw [hlast, Link.afterMk, getElem?_concat_length, Option.some_inj] at hm
      rw [hlast, ← hm]
      exact hcontains
    · have hstream : (t.afterMk userdata (.ok out, d)).stream =
          ⟨t.stream.sent ++ [userdata], t.stream.accepted⟩ := by
        simp [Link.stream, Link.afterMk]
      rw [hstream]
      exact .send userdata

theorem Link.Inv.after_rd (h : s.Inv cipher t) {i : Nat} {m : Octets × Octets}
    (hm : t.sent[i]? = some m) {r : Except Code Output}
    (hread : Read m.1 (numbered s.sender.localSeqNumber i) t.receiver r d) :
    s.Inv cipher (t.afterRd (r, d)) ∧
      Stream.Step (2 ^ 32) t.stream (t.afterRd (r, d)).stream := by
  cases r with
  | error e =>
    obtain ⟨hsame, hremote⟩ := hread
    exact ⟨{ h with
      receiver := h.receiver.trans hsame, remoteNumber := hremote.trans h.remoteNumber }, .idle⟩
  | ok out =>
    obtain ⟨hsame, hremote, hexp, hout⟩ := hread
    constructor
    · refine { h with receiver := h.receiver.trans hsame, remoteNumber := ?_ }
      rw [Link.afterRd, hremote, h.remoteNumber, length_append, length_singleton, numbered_succ]
    · rw [h.remoteNumber] at hexp
      have hsent : t.stream.sent[i]? = some out.outbuf := by simp [Link.stream, hm, hout]
      exact .accept hsent (numbered_inj hexp).symm

theorem Link.Inv.step (hs : s.Synchronised cipher) (h : s.Inv cipher t)
    (hstep : t.Step lib cipher call u) :
    s.Inv cipher u ∧ Stream.Step (2 ^ 32) t.stream u.stream := by
  cases hstep with
  | mk kind host userdata outdata =>
    exact h.after_mk (kind.mk_sent (h.sender.doSequence.trans hs.sends) userdata outdata)
  | rd kind host outdata hmade =>
    obtain ⟨m, hmem, rfl⟩ := mem_map.mp hmade
    obtain ⟨i, hi⟩ := List.mem_iff_getElem?.mp hmem
    have hkey := h.receiver.recvKey.trans hs.key
    have hcontains := h.contains i m hi
    have hinv := hs.inverts
    rw [← hkey] at hcontains hinv
    rw [← h.receiver.vector] at hinv
    exact h.after_rd hi (kind.rd_read (h.receiver.doSequence.trans hs.receives) hcontains hinv
      outdata)

/-- What was read is the start of what was sent, in every run of fewer than `2^32`
messages. -/
theorem received_isPrefix_sent (hs : s.Synchronised cipher) {calls : List Call}
    (hrun : Run (Link.Step lib cipher) s calls t) (hcount : t.sent.length < 2 ^ 32) :
    t.received <+: t.sent.map Prod.fst := by
  have hrefines : s.Inv cipher t ∧
      Relation.ReflTransGen (Stream.Step (2 ^ 32)) s.stream t.stream := by
    refine hrun.history (fun _ t => s.Inv cipher t ∧
      Relation.ReflTransGen (Stream.Step (2 ^ 32)) s.stream t.stream) ⟨hs.inv, .refl⟩ ?_
    intro _ t _ u ⟨hinv, hstream⟩ hstep
    obtain ⟨hinv', hnext⟩ := hinv.step hs hstep
    exact ⟨hinv', hstream.tail hnext⟩
  have hstart : s.stream = ⟨[], []⟩ := by simp [Link.stream, hs.unsent, hs.unreceived]
  have hstream := hrefines.2
  rw [hstart] at hstream
  exact Stream.accepted_isPrefix_sent hstream (by simpa [Link.stream] using hcount)

def plainCipher : Cipher where
  encrypt _ _ _ _ input := (.ok input, [])
  decrypt _ _ _ input := (.ok input, [])
  length_decrypt h := by rw [Except.ok.inj h]

def sendingSide (number : Int32) : AuthContext :=
  { des3Session with
    authContextFlags := authContextDoSequence
    localAddr := some ⟨2, [10, 0, 0, 1]⟩
    remoteAddr := none
    localSeqNumber := number }

def receivingSide (number : Int32) : AuthContext :=
  { des3Session with
    authContextFlags := authContextDoSequence
    remoteSeqNumber := number }

def lastMessage : Octets :=
  [0x75, 0x3b, 0x30, 0x39, 0xa0, 0x03, 0x02, 0x01, 0x05, 0xa1, 0x03, 0x02, 0x01, 0x15, 0xa3, 0x2d,
    0x30, 0x2b, 0xa0, 0x03, 0x02, 0x01, 0x10, 0xa2, 0x24, 0x04, 0x22, 0x7c, 0x20, 0x30, 0x1e, 0xa0,
    0x03, 0x04, 0x01, 0x61, 0xa3, 0x06, 0x02, 0x04, 0x7f, 0xff, 0xff, 0xff, 0xa4, 0x0f, 0x30, 0x0d,
    0xa0, 0x03, 0x02, 0x01, 0x02, 0xa1, 0x06, 0x04, 0x04, 0x0a, 0x00, 0x00, 0x01]

def freshLink : Link := ⟨sendingSide 2147483647, receivingSide 2147483647, [], []⟩

theorem freshLink_synchronised : freshLink.Synchronised plainCipher where
  unsent := rfl
  unreceived := rfl
  sends := by decide
  receives := by decide
  key := rfl
  number := rfl
  inverts k _ ivec ivec' random plain ciphertext plain' _ _ hencrypt hdecrypt := by
    rw [Except.ok.inj hencrypt, ← Except.ok.inj hdecrypt]

/-- A message is made and presented twice. It is read once. -/
theorem received_isPrefix_once :
    ∃ t calls, Run (Link.Step zeroPrimitives plainCipher) freshLink calls t ∧
      t.sent = [(ascii "a", lastMessage)] ∧ t.received = [ascii "a"] ∧
      t.received <+: t.sent.map Prod.fst := by
  have hmk : (Kind.priv.mk zeroPrimitives plainCipher quietHost (ascii "a") none).run
      (sendingSide 2147483647) = (.ok ⟨lastMessage, none⟩, sendingSide (-2147483648)) := by
    decide +kernel
  have hrd : (Kind.priv.rd zeroPrimitives plainCipher quietHost lastMessage none).run
      (receivingSide 2147483647) = (.ok ⟨ascii "a", none⟩, receivingSide (-2147483648)) := by
    decide +kernel
  have hagain : (Kind.priv.rd zeroPrimitives plainCipher quietHost lastMessage none).run
      (receivingSide (-2147483648)) = (.error .apErrBadorder, receivingSide (-2147483648)) := by
    decide +kernel
  have hrun := ((Run.nil.snoc (Link.Step.of_mk (s := freshLink) hmk rfl)).snoc
    (.of_rd hrd rfl (mem_singleton_self lastMessage))).snoc
      (.of_rd hagain rfl (mem_singleton_self lastMessage))
  exact ⟨_, _, hrun, rfl, rfl, received_isPrefix_sent freshLink_synchronised hrun (by decide)⟩

/-! ## The sender's account -/

def Code.Returned (e : Code) : Prop := e ∉ [.fault, .crypto .fault, .encode .fault]

/-- An error leaves the number alone, and a message that was made with it counts. -/
def Accounts (ctx : AuthContext) : Except Code Output → AuthContext → Prop :=
  post (fun _ d => ctx.doSequence = true → d.localSeqNumber = ctx.localSeqNumber + 1)
    fun e d => e.Returned → d.localSeqNumber = ctx.localSeqNumber

theorem mkSafe_accounts (outdata : Option ReplayData) :
    wp (mkSafe lib host userdata outdata) (Accounts ctx) ctx := by
  have huncount : ctx.countSafe.uncount.localSeqNumber = ctx.localSeqNumber := by
    unfold AuthContext.countSafe
    split <;> simp [AuthContext.uncount, *]
  refine wp_ofExcept_bind (fun _ _ => ?_) (fun _ _ _ => rfl)
  refine wp_ofExcept_bind (fun time _ => ?_) (fun _ _ _ => rfl)
  rw [wp_bind]
  cases sendSafe lib host userdata ctx (ctx.sendData time) with
  | error e => exact fun _ => huncount
  | ok outbuf => exact fun hseq => (same_countSafe hseq).2

theorem sendPriv_revectored :
    wp (sendPriv cipher host userdata c replay) (fun _ d => ctx.Revectored d) ctx := by
  refine wp_seq mkPrivBasic_spec (fun outbuf d h => ?_) (fun _ _ h => h)
  exact wp_ofExcept_bind (fun _ _ => h.1) (fun _ _ => h.1)

/-- `krb5_mk_priv` takes back a number that is only returned, which it has not
counted. -/
def Overdrawn (cipher : Cipher) (host : Host) (userdata : Octets) (outdata : Option ReplayData)
    (ctx : AuthContext) : Prop :=
  ctx.retSequence = true ∧ ctx.doSequence = false ∧ checkRequired ctx outdata = .ok () ∧
    ∃ time e, sendTime host ctx = .ok time ∧ e.Returned ∧
      ((sendPriv cipher host userdata ctx (ctx.sendData time)).run ctx).1 = .error e

theorem uncount_countPriv (h : ctx.countPriv.Revectored d) :
    d.uncount.localSeqNumber = ctx.localSeqNumber ↔
      ¬(ctx.retSequence ∧ ctx.doSequence = false) := by
  have hminus : ctx.localSeqNumber - 1 ≠ ctx.localSeqNumber := by
    rw [ne_eq, Int32.sub_eq_iff_eq_add, Int32.left_eq_add]
    decide
  obtain ⟨v, rfl⟩ := h
  cases hseq : ctx.doSequence <;> cases hret : ctx.retSequence <;>
    simp [AuthContext.uncount, AuthContext.countPriv, hseq, hret, hminus]

/-- The numbers account for the messages unless one is taken back that was not counted. -/
theorem mkPriv_accounts_iff (outdata : Option ReplayData) :
    wp (mkPriv cipher host userdata outdata) (Accounts ctx) ctx ↔
      ¬Overdrawn cipher host userdata outdata ctx := by
  unfold mkPriv Overdrawn
  rw [wp_get_bind, wp_bind, wp_ofExcept]
  cases checkRequired ctx outdata with
  | error e => simp [Accounts]
  | ok u =>
    rw [post_ok, wp_bind, wp_ofExcept]
    cases sendTime host ctx with
    | error e => simp [Accounts]
    | ok time =>
      rw [post_ok, wp_bind, wp_modify, post_ok, wp_bind, wp_onError, wp]
      have hvec : ctx.countPriv.Revectored
          ((sendPriv cipher host userdata ctx (ctx.sendData time)).run ctx.countPriv).2 :=
        sendPriv_revectored
      have hidle (hseq : ctx.doSequence = false) : ctx.countPriv = ctx := if_neg (by simp [hseq])
      rcases hrun : (sendPriv cipher host userdata ctx (ctx.sendData time)).run ctx.countPriv with
        ⟨e | outbuf, d⟩
      · rw [hrun] at hvec
        constructor
        · rintro haccounts ⟨hret, hseq, -, time', e', htime, hreturned, herr⟩
          cases htime
          rw [hidle hseq] at hrun
          cases (congrArg Prod.fst hrun).symm.trans herr
          exact (uncount_countPriv hvec).mp (haccounts hreturned) ⟨hret, hseq⟩
        · intro hnot hreturned
          refine (uncount_countPriv hvec).mpr fun hboth => hnot ?_
          rw [hidle hboth.2] at hrun
          exact ⟨hboth.1, hboth.2, rfl, time, e, rfl, hreturned, congrArg Prod.fst hrun⟩
      · rw [hrun] at hvec
        refine iff_of_true (fun hseq => ?_) ?_
        · obtain ⟨v, rfl⟩ := hvec
          exact (same_countPriv hseq).2
        rintro ⟨-, hseq, -, time', e', htime, -, herr⟩
        cases htime
        rw [hidle hseq] at hrun
        cases (congrArg Prod.fst hrun).symm.trans herr

/-- The senders of both kinds of messages keep account of their numbers, unless
`krb5_mk_priv` fails with a number that is only to be returned. -/
theorem senders_account_iff {lib : Primitives} {cipher : Cipher} {host : Host} {userdata : Octets}
    {outdata : Option ReplayData} {ctx : AuthContext} :
    wp (mkSafe lib host userdata outdata) (Accounts ctx) ctx ∧
      wp (mkPriv cipher host userdata outdata) (Accounts ctx) ctx ↔
    ¬Overdrawn cipher host userdata outdata ctx := by
  rw [mkPriv_accounts_iff, and_iff_right (mkSafe_accounts outdata)]

def returningSide : AuthContext :=
  { des3Session with authContextFlags := authContextRetSequence, localSeqNumber := 5 }

/-- Without a sender address the message cannot be encoded. The number that was to
be returned is then used again. -/
theorem mkPriv_takes_back :
    (mkPriv plainCipher quietHost (ascii "a") (some ⟨0, 0, 0⟩)).run returningSide =
      (.error (.encode (.error .missingField)), { returningSide with localSeqNumber := 4 }) ∧
    ¬wp (mkPriv plainCipher quietHost (ascii "a") (some ⟨0, 0, 0⟩)) (Accounts returningSide)
      returningSide := by
  refine (and_iff_left_of_imp fun hrun => ?_).mpr (by decide +kernel)
  intro haccounts
  exact absurd (haccounts (by simp [Code.Returned])) (by decide)

end Krb5.Auth
