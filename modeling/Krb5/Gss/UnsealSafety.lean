import Krb5.Gss.Delivery

/-!
# Memory and messages in `kg_unseal`

Which octets of a token are read, before and after its checksum is known to be
right, and what a caller is left with after an error.
-/

namespace Krb5.Gss

open Lib List

/-! ## What is read of the body -/

/-- A use of memory: `count` octets of the body are read from `offset` on, or
`length` octets copied from behind the confounder of a message of `tmsglen`. -/
inductive Access
  | read (offset count : Int)
  | copy (conflen length tmsglen : Int)
deriving DecidableEq

/-- Inside the body, with as many octets in front of it as are counted as its own. -/
def Access.Inside (front : Nat) (body : Octets) : Access → Prop
  | .read offset count => -front ≤ offset ∧ 0 ≤ count ∧ offset + count ≤ body.length
  | .copy conflen length tmsglen => 0 ≤ conflen + length ∧ conflen + length ≤ tmsglen

structure Numbers where
  signalg : Nat
  sealalg : Nat
  cksumLen : Nat

def numbers (ctx : Ctx) (toktype : Toktype) : Octets → Option Numbers
  | a :: b :: c :: d :: e :: f :: _ =>
    let signalg := a.toNat + b.toNat * 2 ^ 8
    let sealalg := c.toNat + d.toNat * 2 ^ 8
    (checkAlgorithms ctx toktype signalg sealalg [e, f]).toOption.map (⟨signalg, sealalg, ·⟩)
  | _ => none

def Numbers.tmsglen (n : Numbers) (body : Octets) : Int := body.length - (14 + n.cksumLen)

/-- `conflen`, `token.length` and `plain` of a wrap token. -/
def sealLengths (crypto : Crypto) (ctx : Ctx) (n : Numbers) (body : Octets) :
    Option (Int × Int × Octets) :=
  let message := body.drop (14 + n.cksumLen)
  if n.sealalg ≠ 0xffff then
    if n.tmsglen body < 0 then none
    else
      -- A key without a block size is none for `kg_decrypt`. Of an empty `plain` the
      -- octet in front of it is taken, and whatever it is, the length is negative.
      match cBlockSize ctx.enc.enctype, kgDecrypt crypto ctx.enc usageSeal none message with
      | .ok conflen, .ok plain =>
        plain.getLast?.map fun last => (conflen, n.tmsglen body - conflen - last.toNat, plain)
      | _, _ => none
  else if ctx.bigEndian then some (0, n.tmsglen body, message)
  else
    body.getLast?.map fun last =>
      (kgConfounderSize ctx.enc, n.tmsglen body - kgConfounderSize ctx.enc - last.toNat, message)

/-- What the checksum is computed of, if it comes to that. -/
def signedOf (crypto : Crypto) (ctx : Ctx) (toktype : Toktype) (n : Numbers)
    (body message : Octets) : Option Octets :=
  let head := tokTypeOctets toktype.number ++ body.take 6
  match toktype with
  | .sealMsg =>
    match sealLengths crypto ctx n body with
    | none => none
    | some (conflen, length, plain) =>
      if length < 0 then none
      else
        some (head ++
          if ctx.bigEndian then (plain.drop conflen.toNat).take length.toNat else plain)
  | .signMsg => some (head ++ message)
  | .delCtx => some head

def headAccesses (body : Octets) : List Access :=
  .read 0 5 :: if body[4]? = some 0xff then [.read 5 1] else []

def sealAccesses (crypto : Crypto) (ctx : Ctx) (n : Numbers) (body : Octets) : List Access :=
  let start : Int := 14 + n.cksumLen
  (if n.sealalg ≠ 0xffff then
    if n.tmsglen body < 0 then [] else [.read start (n.tmsglen body)]
  else if ctx.bigEndian then []
  else [.read (start + n.tmsglen body - 1) 1]) ++
  match sealLengths crypto ctx n body with
  | none => []
  | some (conflen, length, _) =>
    if length ≤ 0 then []
    else .copy conflen length (n.tmsglen body) ::
      if n.sealalg = 0xffff then [.read (start + conflen) length] else []

/-- The checksum and the sequence number. With `SGN_ALG_MD2_5` the call frees what
was never set before it gets to compare. -/
def compareAccesses (crypto : Crypto) (clock : Except Code Timestamp) (ctx : Ctx)
    (n : Numbers) (body signed : Octets) : List Access :=
  if n.signalg = sgnAlgMd25 then []
  else
    match expectedCksum crypto ctx n.signalg signed with
    | .error _ => []
    | .ok cksum =>
      .read 14 n.cksumLen ::
        if cksum = (body.drop 14).take n.cksumLen ∧ clock.toOption.any (· ≤ ctx.endtime) then
          [.read 14 8, .read 6 8] else []

def cksumAccesses (crypto : Crypto) (clock : Except Code Timestamp) (ctx : Ctx)
    (toktype : Toktype) (n : Numbers) (body signed : Octets) : List Access :=
  .read (-2) 8 ::
    ((if toktype = .sealMsg ∧ n.sealalg = 0xffff ∧ !ctx.bigEndian then
      [.read (14 + n.cksumLen) (n.tmsglen body)] else []) ++
    compareAccesses crypto clock ctx n body signed)

/-- What `kg_unseal_v1` reads of a body. -/
def bodyAccesses (crypto : Crypto) (clock : Except Code Timestamp) (ctx : Ctx)
    (toktype : Toktype) (body message : Octets) : List Access :=
  headAccesses body ++
    match numbers ctx toktype body with
    | none => []
    | some n =>
      (if toktype = .sealMsg then sealAccesses crypto ctx n body else []) ++
        match signedOf crypto ctx toktype n body message with
        | none => []
        | some signed => cksumAccesses crypto clock ctx toktype n body signed

variable {clock : Except Code Timestamp} {message : Octets} {toktype : Toktype}

section Accesses

variable {crypto : Crypto} {ctx : Ctx} {body signed : Octets} {n : Numbers} {front : Nat}

theorem headAccesses_inside : (∀ a ∈ headAccesses body, a.Inside front body) ↔
    6 ≤ body.length ∨ body.length = 5 ∧ body[4]? ≠ some 0xff := by
  unfold headAccesses
  split
  · simp [Access.Inside]
    grind
  · simp [Access.Inside]
    grind

theorem numbers_some (h : numbers ctx toktype body = some n) :
    6 ≤ body.length ∧ 8 ≤ n.cksumLen := by
  unfold numbers at h
  split at h
  · obtain ⟨cksumLen, hcheck, rfl⟩ := Option.map_eq_some_iff.mp h
    unfold checkAlgorithms at hcheck
    grind [Except.toOption]
  · cases h

theorem kgConfounderSize_ge (key : Keyblock) : -1 ≤ kgConfounderSize key := by
  unfold kgConfounderSize
  split <;> omega

/-- The lengths of a sealed message, as far as the body bounds them. -/
theorem sealLengths_some {conflen length : Int} {plain : Octets}
    (h : sealLengths crypto ctx n body = some (conflen, length, plain)) :
    -1 ≤ conflen ∧ conflen + length ≤ n.tmsglen body ∧
      (n.sealalg ≠ 0xffff ∨ ctx.bigEndian → 0 ≤ length → 0 ≤ n.tmsglen body) := by
  unfold sealLengths at h
  split at h
  · split at h
    · cases h
    dsimp only at h
    split at h
    · obtain ⟨last, -, hlens⟩ := Option.map_eq_some_iff.mp h
      cases hlens
      omega
    · cases h
  · rename_i hclear
    split at h
    · cases h
      omega
    rename_i hlittle
    obtain ⟨last, -, hlens⟩ := Option.map_eq_some_iff.mp h
    cases hlens
    have hge := kgConfounderSize_ge ctx.enc
    exact ⟨hge, by omega, fun hused => absurd hused (by simp [hclear, hlittle])⟩

theorem sealAccesses_inside (hsize : 6 ≤ body.length) :
    ∀ a ∈ sealAccesses crypto ctx n body, a.Inside front body := by
  have hend : n.tmsglen body = body.length - (14 + n.cksumLen) := rfl
  refine forall_mem_append.mpr ⟨?_, ?_⟩
  · split_ifs <;> simp [Access.Inside] <;> omega
  rcases hlens : sealLengths crypto ctx n body with _ | ⟨conflen, length, plain⟩
  · simp
  · obtain ⟨hge, hle, -⟩ := sealLengths_some hlens
    dsimp only
    split_ifs <;> simp [Access.Inside] <;> omega

theorem compareAccesses_inside (hlen : 8 ≤ n.cksumLen) :
    (∀ a ∈ compareAccesses crypto clock ctx n body signed, a.Inside front body) ↔
      (n.signalg ≠ sgnAlgMd25 ∧ (∃ cksum, expectedCksum crypto ctx n.signalg signed = .ok cksum) →
        14 + n.cksumLen ≤ body.length) := by
  unfold compareAccesses
  by_cases hmd25 : n.signalg = sgnAlgMd25
  · simp [hmd25]
  cases expectedCksum crypto ctx n.signalg signed with
  | error code => simp
  | ok cksum =>
    dsimp only
    split_ifs <;> simp [Access.Inside] <;> omega

/-- Two octets in front of the body are read, and the checksum in it. -/
theorem cksumAccesses_inside (hsize : 6 ≤ body.length) (hlen : 8 ≤ n.cksumLen)
    (hsigned : signedOf crypto ctx toktype n body message = some signed) :
    (∀ a ∈ cksumAccesses crypto clock ctx toktype n body signed, a.Inside front body) ↔
      2 ≤ front ∧ (toktype = .sealMsg ∨ n.signalg ≠ sgnAlgMd25 ∧
        (∃ cksum, expectedCksum crypto ctx n.signalg signed = .ok cksum) →
          14 + n.cksumLen ≤ body.length) := by
  have hend : n.tmsglen body = body.length - (14 + n.cksumLen) := rfl
  have hfits (htype : toktype = .sealMsg) (hused : n.sealalg ≠ 0xffff ∨ ctx.bigEndian) :
      14 + n.cksumLen ≤ body.length := by
    subst htype
    rcases hlens : sealLengths crypto ctx n body with _ | ⟨conflen, length, plain⟩
    · simp [signedOf, hlens] at hsigned
    have hnonneg : 0 ≤ length := by
      by_contra hneg
      simp [signedOf, hlens, Int.not_le.mp hneg] at hsigned
    have := (sealLengths_some hlens).2.2 hused hnonneg
    omega
  have hclear : (∀ a ∈ (if toktype = .sealMsg ∧ n.sealalg = 0xffff ∧ !ctx.bigEndian then
      [.read (14 + n.cksumLen) (n.tmsglen body)] else []), Access.Inside front body a) ↔
      (toktype = .sealMsg → 14 + n.cksumLen ≤ body.length) := by
    split_ifs with h
    · simp [Access.Inside, h.1]
      omega
    refine iff_of_true (by simp) fun htype => hfits htype ?_
    by_contra hnot
    push Not at hnot
    exact h ⟨htype, hnot.1, by simpa using hnot.2⟩
  unfold cksumAccesses
  rw [forall_mem_cons, forall_mem_append, hclear, compareAccesses_inside hlen, ← or_imp]
  refine and_congr_left fun _ => ?_
  simp only [Access.Inside]
  omega

end Accesses

/-- `kg_unseal_v1` stays inside a body that has the six octets in front, and of a
token without a message in it also those of the checksum it is compared with. -/
theorem bodyAccesses_inside_iff {crypto : Crypto} {clock : Except Code Timestamp} {ctx : Ctx}
    {toktype : Toktype} {body message : Octets} {front : Nat} :
    (∀ a ∈ bodyAccesses crypto clock ctx toktype body message, a.Inside front body) ↔
      (6 ≤ body.length ∨ body.length = 5 ∧ body[4]? ≠ some 0xff) ∧
      ∀ n, numbers ctx toktype body = some n →
        ∀ signed, signedOf crypto ctx toktype n body message = some signed →
        2 ≤ front ∧ (toktype = .sealMsg ∨ n.signalg ≠ sgnAlgMd25 ∧
          (∃ cksum, expectedCksum crypto ctx n.signalg signed = .ok cksum) →
            14 + n.cksumLen ≤ body.length) := by
  unfold bodyAccesses
  rw [forall_mem_append, headAccesses_inside]
  refine and_congr_right fun _ => ?_
  cases hnumbers : numbers ctx toktype body with
  | none => simp
  | some n =>
    obtain ⟨hsize, hlen⟩ := numbers_some hnumbers
    have hseal : ∀ a ∈ (if toktype = .sealMsg then sealAccesses crypto ctx n body else []),
        a.Inside front body := by
      split
      · exact sealAccesses_inside hsize
      · simp
    rw [forall_mem_append, and_iff_right hseal]
    simp only [Option.some.injEq, forall_eq']
    cases hsigned : signedOf crypto ctx toktype n body message with
    | none => simp
    | some signed =>
      simp only [Option.some.injEq, forall_eq']
      exact cksumAccesses_inside hsize hlen hsigned

/-- A signature that ends with its six octets in front, where the checksum is missing. -/
theorem short_body_read_outside :
    gVerifyTokenHeader (desPair.ctx false).mechUsed Toktype.signMsg.number
      [0x60, 0x0f, 0x06, 0x05, 0x2b, 0x05, 0x01, 0x05, 0x02, 0x01, 0x01, 0, 0, 0xff, 0xff, 0xff,
        0xff] = .ok [0, 0, 0xff, 0xff, 0xff, 0xff] ∧
    .read 14 8 ∈ bodyAccesses nullCrypto (.ok 50) (desPair.ctx false) .signMsg
      [0, 0, 0xff, 0xff, 0xff, 0xff] [] ∧
    ¬(Access.read 14 8).Inside 2 [0, 0, 0xff, 0xff, 0xff, 0xff] := by
  refine ⟨by decide +kernel, by decide +kernel, ?_⟩
  simp [Access.Inside]

/-! ## What is left to the caller -/

def Major.isError : Major → Bool
  | .complete | .gapToken | .unseqToken | .oldToken | .duplicateToken => false
  | _ => true

/-- `message_buffer` after the call, where it was `before`. -/
def MessageBuffer.over (before : MessageBuffer) : MessageBuffer → MessageBuffer
  | .untouched => before
  | buffer => buffer

/-- With an error the caller's buffer is empty. -/
def LeavesEmpty (before : MessageBuffer) (u : Unsealed) : Prop :=
  u.major.isError = true → before.over u.message = .null

/-- The handle is good and the header of the token right. -/
def Reaches (handle : Option Ctx) (token : Octets) (toktype : Toktype) (ctx : Ctx)
    (body : Octets) : Prop :=
  handle = some ctx ∧ ctx.established = true ∧
    gVerifyTokenHeader ctx.mechUsed toktype.number token = .ok body

/-- The body has the checksum of what it says. -/
def Verified (crypto : Crypto) (ctx : Ctx) (toktype : Toktype) (body message : Octets) : Prop :=
  ∃ n signed, numbers ctx toktype body = some n ∧ n.signalg ≠ sgnAlgMd25 ∧
    signedOf crypto ctx toktype n body message = some signed ∧ 14 + n.cksumLen ≤ body.length ∧
    expectedCksum crypto ctx n.signalg signed = .ok ((body.drop 14).take n.cksumLen)

/-- Its number can be read, comes from the other side and is taken by the queue. -/
def Ordered (crypto : Crypto) (ctx : Ctx) (body : Octets) : Prop :=
  ∃ direction seqnum,
    kgGetSeqNum crypto ctx.seq (body.drop 14) ((body.drop 6).take 8) = .ok (direction, seqnum) ∧
    direction = (if ctx.initiate then 0xff else 0) ∧
    (gOrderCheck ctx.seqstate seqnum).status ≠ .failure

section Exits

variable {crypto : Crypto} {handle : Option Ctx} {ctx : Ctx} {token body : Octets}
  {u : Unsealed} {n : Numbers}

theorem isError_order (status : OrderStatus) : status.major.isError ↔ status = .failure := by
  cases status <;> decide

theorem stripped_cases (enc : Keyblock) (tmsglen : Int) (plain : Octets) (last : UInt8) :
    stripped enc tmsglen plain last = .error .fault ∨
    ∃ conflen : Nat, cBlockSize enc.enctype = .ok conflen ∧
      (0 ≤ tmsglen - conflen - last.toNat ∧ stripped enc tmsglen plain last =
        .ok ((plain.drop conflen).take (tmsglen - conflen - last.toNat).toNat) ∨
      tmsglen - conflen - last.toNat < 0 ∧
        stripped enc tmsglen plain last = .error (.status .failure (.code .enomem))) := by
  unfold stripped
  cases cBlockSize enc.enctype with
  | error code => exact .inl rfl
  | ok conflen =>
    refine .inr ⟨conflen, rfl, ?_⟩
    dsimp only
    split
    · exact .inr ⟨by assumption, rfl⟩
    · exact .inl ⟨by omega, rfl⟩

/-- The message that is taken out of a body is the one of `sealLengths`. -/
theorem unsealMessage_cases (crypto : Crypto) (ctx : Ctx) (n : Numbers) (body : Octets) :
    unsealMessage crypto ctx n.sealalg n.cksumLen body = .error .fault ∨
    (∃ conflen length plain, sealLengths crypto ctx n body = some (conflen, length, plain) ∧
      0 ≤ length ∧ unsealMessage crypto ctx n.sealalg n.cksumLen body =
        .ok ((plain.drop conflen.toNat).take length.toNat, plain)) ∨
    (∀ conflen length plain, sealLengths crypto ctx n body = some (conflen, length, plain) →
      length < 0) ∧
      ∃ minor, unsealMessage crypto ctx n.sealalg n.cksumLen body =
        .error (.status .failure minor) := by
  have hend : (body.length - (14 + n.cksumLen) : Int) = n.tmsglen body := rfl
  unfold unsealMessage sealLengths
  dsimp only
  rw [hend]
  by_cases hsealed : n.sealalg ≠ 0xffff
  · rw [if_pos hsealed, if_pos hsealed]
    by_cases hshort : n.tmsglen body < 0
    · rw [if_pos hshort, if_pos hshort]
      exact .inr (.inr ⟨nofun, _, rfl⟩)
    rw [if_neg hshort, if_neg hshort]
    cases hdec : kgDecrypt crypto ctx.enc usageSeal none (body.drop (14 + n.cksumLen)) with
    | error code =>
      refine .inr (.inr ⟨?_, _, rfl⟩)
      cases cBlockSize ctx.enc.enctype <;> exact nofun
    | ok plain =>
      cases hlast : plain.getLast? with
      | none =>
        left
        simp [Except.mapError, bind, Except.bind, hlast]
        rfl
      | some last =>
        obtain hfault | ⟨conflen, hblock, ⟨hfits, hstrip⟩ | ⟨hneg, hstrip⟩⟩ :=
          stripped_cases ctx.enc (n.tmsglen body) plain last
        · left
          simp [Except.mapError, bind, Except.bind, hlast, hfault]
        all_goals simp only [hblock, hlast, Option.map_some, Except.mapError, bind, Except.bind, hstrip]
        · exact .inr (.inl ⟨conflen, _, plain, rfl, hfits, rfl⟩)
        · refine .inr (.inr ⟨?_, .code .enomem, rfl⟩)
          rintro _ _ _ ⟨⟩
          exact hneg
  rw [if_neg hsealed, if_neg hsealed]
  by_cases hbig : ctx.bigEndian
  · rw [if_pos hbig, if_pos hbig]
    by_cases hshort : n.tmsglen body < 0
    · rw [if_pos hshort]
      refine .inr (.inr ⟨?_, _, rfl⟩)
      rintro _ _ _ ⟨⟩
      exact hshort
    · rw [if_neg hshort]
      refine .inr (.inl ⟨_, _, _, rfl, by omega, ?_⟩)
      rw [Int.toNat_zero, drop_zero, take_of_length_le (by rw [length_drop]; omega)]
  · rw [if_neg hbig, if_neg hbig]
    cases hlast : body.getLast? with
    | none => exact .inl rfl
    | some last =>
      obtain hfault | ⟨conflen, hblock, ⟨hfits, hstrip⟩ | ⟨hneg, hstrip⟩⟩ :=
        stripped_cases ctx.enc (n.tmsglen body) (body.drop (14 + n.cksumLen)) last
      · left
        simp [bind, Except.bind, hfault]
      all_goals have hconf : kgConfounderSize ctx.enc = conflen := by rw [kgConfounderSize, hblock]
      · refine .inr (.inl ⟨conflen, _, _, by rw [hconf]; rfl, hfits, ?_⟩)
        simp only [bind, Except.bind, hstrip]
        rfl
      · refine .inr (.inr ⟨?_, .code .enomem, ?_⟩)
        · rw [hconf]
          rintro _ _ _ ⟨⟩
          exact hneg
        · simp only [bind, Except.bind, hstrip]

/-- What is signed is made of the message and of what it was taken from. -/
theorem tokenText_cases (crypto : Crypto) (ctx : Ctx) (toktype : Toktype) (n : Numbers)
    (body message : Octets) :
    tokenText crypto ctx toktype n.sealalg n.cksumLen body message = .error .fault ∨
    (∃ text plain, tokenText crypto ctx toktype n.sealalg n.cksumLen body message =
        .ok (text, plain) ∧
      signedOf crypto ctx toktype n body message = some (tokTypeOctets toktype.number ++
        body.take 6 ++ if ctx.bigEndian then text else plain)) ∨
    signedOf crypto ctx toktype n body message = none ∧
      ∃ minor, tokenText crypto ctx toktype n.sealalg n.cksumLen body message =
        .error (.status .failure minor) := by
  cases toktype with
  | sealMsg =>
    obtain hfault | ⟨conflen, length, plain, hlens, hfits, htext⟩ | ⟨hneg, minor, htext⟩ :=
      unsealMessage_cases crypto ctx n body
    · exact .inl hfault
    · refine .inr (.inl ⟨_, _, htext, ?_⟩)
      simp only [signedOf, hlens, if_neg (Int.not_lt.mpr hfits)]
    · refine .inr (.inr ⟨?_, minor, htext⟩)
      rcases hlens : sealLengths crypto ctx n body with _ | ⟨conflen, length, plain⟩
      · simp only [signedOf, hlens]
      · simp only [signedOf, hlens, if_pos (hneg _ _ _ hlens)]
  | signMsg => exact .inr (.inl ⟨message, message, rfl, by simp [signedOf]⟩)
  | delCtx => exact .inr (.inl ⟨[], [], rfl, by simp [signedOf]⟩)

/-- A body whose algorithms are admitted. -/
theorem checkBody_cases {filler : Octets} (hnumbers : numbers ctx toktype body = some n)
    (halg : checkAlgorithms ctx toktype n.signalg n.sealalg filler = .ok n.cksumLen) :
    checkBody crypto ctx toktype n.signalg n.sealalg filler body message = .error .fault ∨
    (Verified crypto ctx toktype body message ∧
      ∃ text, checkBody crypto ctx toktype n.signalg n.sealalg filler body message = .ok text) ∨
    ¬Verified crypto ctx toktype body message ∧ ∃ major minor, major.isError ∧
      checkBody crypto ctx toktype n.signalg n.sealalg filler body message =
        .error (.status major minor) := by
  have hverified : Verified crypto ctx toktype body message ↔ n.signalg ≠ sgnAlgMd25 ∧
      ∃ signed, signedOf crypto ctx toktype n body message = some signed ∧
        14 + n.cksumLen ≤ body.length ∧
        expectedCksum crypto ctx n.signalg signed = .ok ((body.drop 14).take n.cksumLen) := by
    simp [Verified, hnumbers]
  rw [checkBody, halg, ok_bind, hverified]
  obtain hfault | ⟨text, plain, htext, hsigned⟩ | ⟨hsigned, minor, htext⟩ :=
    tokenText_cases crypto ctx toktype n body message
  · exact .inl (by rw [hfault]; rfl)
  swap
  · rw [htext, hsigned]
    exact .inr (.inr ⟨by simp, _, _, rfl, rfl⟩)
  rw [htext, ok_bind, hsigned]
  dsimp only
  by_cases hmd25 : n.signalg = sgnAlgMd25
  · exact .inl (by rw [if_pos hmd25]; rfl)
  rw [if_neg hmd25]
  have hreleasing (major : Major) (minor : Minor) : releasing toktype text (.status major minor) =
      .fault ∨ releasing toktype text (.status major minor) = .status major minor := by
    unfold releasing
    split <;> simp
  cases hcksum : expectedCksum crypto ctx n.signalg (tokTypeOctets toktype.number ++ body.take 6 ++
      if ctx.bigEndian then text else plain) with
  | error code =>
    obtain hrelease | hrelease := hreleasing .failure (.code code)
    · exact .inl (by simp [Except.mapError, hrelease, bind, Except.bind])
    · refine .inr (.inr ⟨?_, .failure, .code code, rfl, ?_⟩)
      · rintro ⟨-, signed, hsigned', -, hok⟩
        cases hsigned'
        cases hcksum.symm.trans hok
      · simp [Except.mapError, hrelease, bind, Except.bind]
  | ok cksum =>
    rw [Except.mapError, ok_bind]
    by_cases hshort : body.length < 14 + n.cksumLen
    · exact .inl (by rw [if_pos hshort]; rfl)
    rw [if_neg hshort]
    by_cases hsame : cksum = (body.drop 14).take n.cksumLen
    · refine .inr (.inl ⟨⟨hmd25, _, rfl, by omega, hsame ▸ hcksum⟩, text, ?_⟩)
      rw [if_neg (not_not_intro hsame)]
      rfl
    rw [if_pos hsame]
    obtain hrelease | hrelease := hreleasing .badSig .zero
    · exact .inl (by rw [hrelease]; rfl)
    · refine .inr (.inr ⟨?_, .badSig, .zero, rfl, by rw [hrelease]; rfl⟩)
      rintro ⟨-, signed, hsigned', -, hok⟩
      cases hsigned'
      exact hsame (Except.ok.inj (hcksum.symm.trans hok))

/-- `numbers` and `signedOf` are those of `kg_unseal_v1`: a body comes through with its checksum
exactly if they say that it is right. -/
theorem checkSignature_cases (crypto : Crypto) (ctx : Ctx) (toktype : Toktype)
    (body message : Octets) :
    checkSignature crypto ctx toktype body message = .error .fault ∨
    (Verified crypto ctx toktype body message ∧
      ∃ r, checkSignature crypto ctx toktype body message = .ok r) ∨
    ¬Verified crypto ctx toktype body message ∧ ∃ major minor, major.isError ∧
      checkSignature crypto ctx toktype body message = .error (.status major minor) := by
  rcases body with _ | ⟨a, _ | ⟨b, _ | ⟨c, _ | ⟨d, _ | ⟨e, _ | ⟨f, rest⟩⟩⟩⟩⟩⟩
  · exact .inl rfl
  · exact .inl rfl
  · exact .inl rfl
  · exact .inl rfl
  · exact .inl rfl
  · by_cases he : e = 0xff
    · exact .inl (by simp [checkSignature, he])
    · refine .inr (.inr ⟨?_, .defectiveToken, .zero, rfl, by simp [checkSignature, he]⟩)
      rintro ⟨n, signed, hnumbers, -⟩
      cases hnumbers
  rw [checkSignature]
  cases halg : checkAlgorithms ctx toktype (a.toNat + b.toNat * 2 ^ 8) (c.toNat + d.toNat * 2 ^ 8)
      [e, f] with
  | error refusal =>
    have hrefusal : refusal = .status .defectiveToken .zero := by
      unfold checkAlgorithms at halg
      grind
    refine .inr (.inr ⟨?_, .defectiveToken, .zero, rfl, ?_⟩)
    · rintro ⟨n, signed, hnumbers, -⟩
      rw [numbers, halg] at hnumbers
      cases hnumbers
    · rw [checkBody, halg, hrefusal]
      rfl
  | ok cksumLen =>
    have hnumbers : numbers ctx toktype (a :: b :: c :: d :: e :: f :: rest) =
        some ⟨a.toNat + b.toNat * 2 ^ 8, c.toNat + d.toNat * 2 ^ 8, cksumLen⟩ := by
      rw [numbers, halg]
      rfl
    obtain hfault | ⟨hyes, text, hok⟩ | ⟨hno, major, minor, herror, hrefused⟩ :=
      @checkBody_cases message toktype crypto ctx _ _ _ hnumbers halg
    · exact .inl (by rw [hfault]; rfl)
    · exact .inr (.inl ⟨hyes, _, by rw [hok]; rfl⟩)
    · exact .inr (.inr ⟨hno, major, minor, herror, by rw [hrefused]; rfl⟩)

/-- What is returned of a body, and what becomes of a message in it. -/
theorem kgUnsealV1_some (hu : kgUnsealV1 crypto clock ctx body message toktype = some u) :
    (u.major.isError ↔ ¬(Verified crypto ctx toktype body message ∧ Live clock ctx ∧
      Ordered crypto ctx body)) ∧
    ∃ buffer, u.message = toktype.buffer buffer ∧ buffer ≠ .untouched ∧
      (buffer = .null ↔ ¬Verified crypto ctx toktype body message) := by
  unfold kgUnsealV1 at hu
  obtain hfault | ⟨hyes, ⟨text, sealalg⟩, hok⟩ | ⟨hno, major, minor, herror, hrefused⟩ :=
    checkSignature_cases crypto ctx toktype body message
  · rw [hfault] at hu
    cases hu
  swap
  · rw [hrefused] at hu
    cases hu
    exact ⟨iff_of_true herror fun h => hno h.1, .null, rfl, nofun, iff_of_true rfl hno⟩
  rw [hok] at hu
  dsimp only at hu
  simp only [hyes, true_and, not_true_eq_false, iff_false]
  cases clock with
  | error code =>
    cases hu
    refine ⟨iff_of_true rfl ?_, .holds text, rfl, nofun, nofun⟩
    rintro ⟨⟨now, hnow, -⟩, -⟩
    cases hnow
  | ok now =>
    dsimp only at hu
    by_cases hlate : now > ctx.endtime
    · rw [if_pos hlate] at hu
      cases hu
      refine ⟨iff_of_true rfl ?_, .holds text, rfl, nofun, nofun⟩
      rintro ⟨⟨now', hnow, hle⟩, -⟩
      cases hnow
      exact Int32.not_lt.mpr hle hlate
    rw [if_neg hlate] at hu
    have hlive : Live (.ok now) ctx := ⟨now, rfl, Int32.not_lt.mp hlate⟩
    simp only [hlive, true_and]
    unfold Ordered
    generalize kgGetSeqNum crypto ctx.seq (body.drop 14) ((body.drop 6).take 8) = number at *
    rcases number with code | ⟨direction, seqnum⟩
    · dsimp only at hu
      split at hu
      · cases hu
      · cases hu
        exact ⟨iff_of_true rfl nofun, .freed, rfl, nofun, nofun⟩
    have hdirection : (ctx.initiate && direction != 0xff || !ctx.initiate && direction != 0) ↔
        direction ≠ if ctx.initiate then 0xff else 0 := by
      cases ctx.initiate <;> simp
    dsimp only at hu
    by_cases hwrong : direction ≠ if ctx.initiate then 0xff else 0
    · rw [if_pos (hdirection.mpr hwrong)] at hu
      split at hu
      · cases hu
      · cases hu
        refine ⟨iff_of_true rfl ?_, .freed, rfl, nofun, nofun⟩
        rintro ⟨direction', seqnum', hnum, hright, -⟩
        cases hnum
        exact hwrong hright
    · rw [if_neg (mt hdirection.mp hwrong)] at hu
      cases hu
      refine ⟨(isError_order _).trans ?_, .holds text, rfl, nofun, nofun⟩
      simp [not_not.mp hwrong]

theorem Reaches.kgUnseal (h : Reaches handle token toktype ctx body) :
    Gss.kgUnseal crypto clock handle token message toktype =
      kgUnsealV1 crypto clock ctx body message toktype := by
  simp [Gss.kgUnseal, h.1, h.2.1, h.2.2]

theorem Reaches.unique {ctx' : Ctx} {body' : Octets} (h : Reaches handle token toktype ctx body)
    (h' : Reaches handle token toktype ctx' body') : ctx = ctx' ∧ body = body' := by
  cases h.1.symm.trans h'.1
  exact ⟨rfl, Except.ok.inj (h.2.2.symm.trans h'.2.2)⟩

/-- A call that does not get to the body fails, and does not touch the caller's buffer. -/
theorem kgUnseal_not_reaches (hnot : ¬∃ ctx body, Reaches handle token toktype ctx body)
    (hu : kgUnseal crypto clock handle token message toktype = some u) :
    u.major.isError ∧ u.message = .untouched := by
  unfold kgUnseal at hu
  split at hu
  · cases hu
    exact ⟨rfl, rfl⟩
  rename_i ctx
  split at hu
  · cases hu
    exact ⟨rfl, rfl⟩
  rename_i hest
  split at hu
  · cases hu
    exact ⟨rfl, rfl⟩
  rename_i body hhdr
  exact absurd ⟨ctx, body, rfl, by simpa using hest, hhdr⟩ hnot

end Exits

/-- A call that returns leaves the caller's buffer empty after an error exactly if the token is one
without an error, or a wrap token with a good handle and header whose checksum is wrong, or no such
token and the buffer was empty before. -/
theorem kgUnseal_leavesEmpty_iff {crypto : Crypto} {clock : Except Code Timestamp}
    {handle : Option Ctx} {token message : Octets} {toktype : Toktype} {before : MessageBuffer}
    {u : Unsealed} (hu : kgUnseal crypto clock handle token message toktype = some u) :
    LeavesEmpty before u ↔
      (∃ ctx body, Reaches handle token toktype ctx body ∧
        Verified crypto ctx toktype body message ∧ Live clock ctx ∧ Ordered crypto ctx body) ∨
      (toktype = .sealMsg ∧ ∃ ctx body, Reaches handle token toktype ctx body ∧
        ¬Verified crypto ctx toktype body message) ∨
      before = .null ∧ ¬(toktype = .sealMsg ∧ ∃ ctx body, Reaches handle token toktype ctx body) := by
  by_cases hreach : ∃ ctx body, Reaches handle token toktype ctx body
  swap
  · obtain ⟨herror, hmessage⟩ := kgUnseal_not_reaches hreach hu
    have hcases : LeavesEmpty before u ↔ before = .null := by
      simp [LeavesEmpty, herror, hmessage, MessageBuffer.over]
    rw [hcases]
    refine ⟨fun h => .inr (.inr ⟨h, fun hsome => hreach hsome.2⟩), ?_⟩
    rintro (⟨ctx, body, hsome, -⟩ | ⟨-, ctx, body, hsome, -⟩ | ⟨h, -⟩)
    · exact absurd ⟨ctx, body, hsome⟩ hreach
    · exact absurd ⟨ctx, body, hsome⟩ hreach
    · exact h
  obtain ⟨ctx, body, hreach⟩ := hreach
  rw [hreach.kgUnseal] at hu
  obtain ⟨herror, buffer, hmessage, htouched, hnull⟩ := kgUnsealV1_some hu
  have hother : ∀ P : Ctx → Octets → Prop,
      (∃ ctx body, Reaches handle token toktype ctx body ∧ P ctx body) ↔ P ctx body := by
    refine fun P => ⟨?_, fun h => ⟨ctx, body, hreach, h⟩⟩
    rintro ⟨ctx', body', hreach', h⟩
    obtain ⟨rfl, rfl⟩ := hreach.unique hreach'
    exact h
  have hsome : ∃ ctx body, Reaches handle token toktype ctx body := ⟨ctx, body, hreach⟩
  rw [hother, hother, LeavesEmpty, herror, hmessage]
  generalize Verified crypto ctx toktype body message = verified at *
  generalize (Live clock ctx ∧ Ordered crypto ctx body) = inTime at *
  by_cases htype : toktype = .sealMsg
  · -- the buffer of a wrap token is written, and left empty unless the checksum is right
    have hover : before.over (toktype.buffer buffer) = .null ↔ buffer = .null := by
      rw [Toktype.buffer, if_pos htype]
      cases buffer <;> simp_all [MessageBuffer.over]
    have hlast : ¬(before = .null ∧
        ¬(toktype = .sealMsg ∧ ∃ ctx body, Reaches handle token toktype ctx body)) :=
      fun h => h.2 ⟨htype, hsome⟩
    rw [hover, hnull, or_iff_left hlast, and_iff_right htype]
    clear hother hu hmessage hnull herror
    tauto
  · have hover : before.over (toktype.buffer buffer) = before := by
      rw [Toktype.buffer, if_neg htype]
      rfl
    rw [hover]
    simp only [htype, false_and, not_false_eq_true, and_true, false_or]
    exact or_iff_not_imp_left.symm

/-- A wrap token with ones for its checksum, where there should be zeros. -/
def forgedBody : Octets :=
  [0, 0, 0, 0, 0xff, 0xff] ++ [7, 0, 0, 0, 0, 0, 0, 0] ++ replicate 8 1 ++
    padded (replicate 8 9) [0x68, 0x69]

theorem forged_leaves_empty :
    ∃ u, kgUnseal nullCrypto (.ok 50) (some (desPair.ctx false))
      ([0x60, 0x2f, 0x06, 0x05, 0x2b, 0x05, 0x01, 0x05, 0x02, 0x02, 0x01] ++ forgedBody) []
      .sealMsg = some u ∧ u.major = .badSig ∧ LeavesEmpty .null u := by
  have hrun : (kgUnseal nullCrypto (.ok 50) (some (desPair.ctx false))
      ([0x60, 0x2f, 0x06, 0x05, 0x2b, 0x05, 0x01, 0x05, 0x02, 0x02, 0x01] ++ forgedBody) []
      .sealMsg).map (·.major) = some .badSig := by decide +kernel
  obtain ⟨u, hu, hmajor⟩ := Option.map_eq_some_iff.mp hrun
  refine ⟨u, hu, hmajor, (kgUnseal_leavesEmpty_iff hu).mpr
    (.inr (.inl ⟨rfl, desPair.ctx false, forgedBody, ⟨rfl, rfl, by decide +kernel⟩, ?_⟩))⟩
  rintro ⟨n, signed, hnumbers, -, -, -, hcksum⟩
  have halg : numbers (desPair.ctx false) .sealMsg forgedBody = some ⟨0, 0, 8⟩ := rfl
  cases halg.symm.trans hnumbers
  exact absurd (Except.ok.inj hcksum) (by decide +kernel)

/-- A message is sealed and opened when the lifetime of the context has ended. The
caller gets the error and the message. -/
theorem expired_hands_out :
    ∃ u, kgUnseal nullCrypto (.ok 101) (some (desPair.ctx false)) (desToken [0x68, 0x69]) []
      .sealMsg = some u ∧ u.major = .contextExpired ∧ u.message = .holds [0x68, 0x69] ∧
      ¬LeavesEmpty .null u := by
  have hrun : (kgUnseal nullCrypto (.ok 101) (some (desPair.ctx false)) (desToken [0x68, 0x69]) []
      .sealMsg).map (fun u => (u.major, u.message)) =
        some (.contextExpired, .holds [0x68, 0x69]) := by decide +kernel
  obtain ⟨u, hu, hresult⟩ := Option.map_eq_some_iff.mp hrun
  obtain ⟨hmajor, hmessage⟩ := Prod.mk.inj hresult
  refine ⟨u, hu, hmajor, hmessage, fun h => ?_⟩
  have hempty := h (by rw [hmajor]; rfl)
  rw [hmessage] at hempty
  cases hempty

end Krb5.Gss
