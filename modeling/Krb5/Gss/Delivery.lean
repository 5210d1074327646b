import Krb5.Gss.Unseal
import Mathlib.Data.Vector.Defs
import Mathlib.Logic.Relation

/-!
# Delivery of sealed messages

What one side of an established context seals, the other side gets back, in the
order in which it was sealed. A token that comes back to the side that sealed it
is refused for its direction, unless its message is empty.
-/

namespace Krb5.Gss

open Lib
open List hiding Vector

/-! ## Padding and sequence numbers -/

variable {n : UInt32} {confounder text token : Octets} {random : Except Code (Vector UInt8 8)}
  {key : Keyblock}
  {crypto : Crypto} {direction : UInt8} {encrypt : Bool} {toktype : Toktype} {d : Ctx}
  {cksumLen : Nat} {clock : Except Code Timestamp}

section Padding

theorem length_padded :
    (padded confounder text).length = confounder.length + text.length + (8 - text.length % 8) := by
  simp [padded, Nat.add_assoc]

theorem getLast?_padded :
    (padded confounder text).getLast? = some (UInt8.ofNat (8 - text.length % 8)) := by
  have hpos : 8 - text.length % 8 ≠ 0 := by omega
  rw [padded, getLast?_append, getLast?_replicate, if_neg hpos]
  rfl

theorem kgMakeConfounder_ok (h : kgMakeConfounder random key = .ok confounder) :
    cBlockSize key.enctype = .ok 8 ∧ confounder.length = 8 := by
  obtain ⟨blocksize, hsize, h⟩ := bind_eq_ok.mp h
  obtain ⟨octets, -, h⟩ := bind_eq_ok.mp h
  have hblock : blocksize = 8 := by
    unfold cBlockSize at hsize
    split at hsize
    · exact (Except.ok.inj hsize).symm
    · cases hsize
  subst hblock
  cases h
  exact ⟨hsize, by simp⟩

theorem stripped_padded (hblock : cBlockSize key.enctype = .ok 8) (hconf : confounder.length = 8) :
    stripped key (padded confounder text).length (padded confounder text)
      (UInt8.ofNat (8 - text.length % 8)) = .ok text := by
  have hpad : (UInt8.ofNat (8 - text.length % 8)).toNat = 8 - text.length % 8 :=
    UInt8.toNat_ofNat_of_lt (Nat.lt_of_le_of_lt (Nat.sub_le _ _) (by decide))
  have hlen : ((padded confounder text).length : Int) - 8 - (8 - text.length % 8 : Nat) =
      text.length := by
    rw [length_padded]
    omega
  simp only [stripped, hblock, hpad, Nat.cast_ofNat, hlen]
  rw [if_neg (by omega), padded, append_assoc, drop_left' hconf, Int.toNat_natCast, take_left]

end Padding

section SeqNum

variable {usage : Int32}

theorem kgEncrypt_ok {iv : Option Octets} {plain cipher : Octets} (hblocks : 8 ∣ plain.length)
    (h : kgEncrypt crypto key usage iv plain = .ok cipher) :
    cipher.length = plain.length ∧ kgDecrypt crypto key usage iv cipher = .ok plain := by
  obtain ⟨ivd, hiv, h⟩ := bind_eq_ok.mp h
  exact ⟨crypto.length_encrypt hblocks h,
    bind_eq_ok.mpr ⟨ivd, hiv, crypto.decrypt_encrypt hblocks h⟩⟩

theorem ofNat_seqOctets (n : UInt32) :
    UInt32.ofNat ((UInt8.ofNat n.toNat).toNat + (UInt8.ofNat (n.toNat / 2 ^ 8)).toNat * 2 ^ 8 +
      (UInt8.ofNat (n.toNat / 2 ^ 16)).toNat * 2 ^ 16 +
      (UInt8.ofNat (n.toNat / 2 ^ 24)).toNat * 2 ^ 24) = n := by
  have hlt := n.toNat_lt
  apply UInt32.toNat_inj.mp
  simp only [UInt8.toNat_ofNat', UInt32.toNat_ofNat']
  omega

theorem kgMakeSeqNum_ok {seqnum : UInt32} {cksum number : Octets}
    (h : kgMakeSeqNum crypto key direction seqnum cksum = .ok number) :
    number.length = 8 ∧ kgGetSeqNum crypto key cksum number = .ok (direction, seqnum) := by
  obtain ⟨hlen, hdecrypt⟩ := kgEncrypt_ok (by simp [seqOctets]) h
  refine ⟨by simpa [seqOctets] using hlen, bind_eq_ok.mpr ⟨_, hdecrypt, ?_⟩⟩
  simp only [seqOctets, cons_append, nil_append, replicate, ne_eq,
    ofNat_seqOctets]
  rfl

end SeqNum

/-! ## The parts of a token -/

/-- The algorithms go together: DES, or triple DES with key derivation. -/
def Ctx.Suited (ctx : Ctx) : Prop :=
  ctx.signalg = sgnAlgDesMacMd5 ∧ ctx.cksumSize = 8 ∧ ctx.sealalg = sealAlgDes ∨
    ctx.signalg = sgnAlgHmacSha1Des3Kd ∧ ctx.cksumSize = 20 ∧ ctx.sealalg = sealAlgDes3Kd

structure Agree (c d : Ctx) : Prop where
  signalg : d.signalg = c.signalg
  cksumSize : d.cksumSize = c.cksumSize
  sealalg : d.sealalg = c.sealalg
  enc : d.enc = c.enc
  seq : d.seq = c.seq
  bigEndian : d.bigEndian = c.bigEndian
  mechUsed : d.mechUsed = c.mechUsed

/-- The sealing algorithm that a token names. -/
abbrev Ctx.named (ctx : Ctx) (encrypt : Bool) (toktype : Toktype) : Nat :=
  if toktype = .sealMsg ∧ encrypt then ctx.sealalg else 0xffff

def Ctx.head (ctx : Ctx) (encrypt : Bool) (toktype : Toktype) : Octets :=
  bodyHead ctx.signalg (if toktype = .sealMsg ∧ encrypt then ctx.sealalg else 0xffff)

structure Parts where
  type : Cksumtype
  plain : Octets
  message : Octets
  sum : Octets
  cksum : Octets
  number : Octets

structure Made (crypto : Crypto) (random : Except Code (Vector UInt8 8)) (ctx : Ctx)
    (text : Octets) (encrypt : Bool) (toktype : Toktype) (token : Octets) (p : Parts) : Prop where
  size : gTokenSize ctx.mechUsed
    (14 + ctx.cksumSize + tmsglen ctx.enc text encrypt toktype ctx.bigEndian) < 2 ^ 31
  type : sealCksumtype ctx.signalg = .ok p.type
  plain : sealPlain random ctx.enc text encrypt toktype ctx.bigEndian = .ok p.plain
  message : sealMessage crypto ctx.enc text p.plain encrypt toktype ctx.bigEndian = .ok p.message
  sum : crypto.makeChecksum p.type ctx.seq usageSign
    (signedOctets toktype (ctx.head encrypt toktype) text p.plain ctx.bigEndian) = .ok p.sum
  cksum : sealCksum crypto ctx.seq ctx.mechUsed ctx.signalg ctx.cksumSize p.sum = .ok p.cksum
  number : kgMakeSeqNum crypto ctx.seq (if ctx.initiate then 0 else 0xff) ctx.seqSend
    (p.cksum ++ p.message) = .ok p.number
  token : token = gMakeTokenHeader ctx.mechUsed
      (14 + ctx.cksumSize + tmsglen ctx.enc text encrypt toktype ctx.bigEndian) toktype.number ++
    (ctx.head encrypt toktype ++ p.number ++ p.cksum ++ p.message)

section Made

variable {ctx : Ctx}

theorem length_head : (ctx.head encrypt toktype).length = 6 := rfl

/-- Every token consists of the parts that `Made` names. -/
theorem makeSealTokenV1_ok
    (h : makeSealTokenV1 crypto random ctx.enc ctx.seq ctx.seqSend ctx.initiate text ctx.signalg
      ctx.cksumSize ctx.sealalg encrypt toktype ctx.bigEndian ctx.mechUsed = .ok token) :
    ∃ p, Made crypto random ctx text encrypt toktype token p := by
  unfold makeSealTokenV1 at h
  split at h
  · cases h
  split at h
  · cases h
  simp only at h
  split at h
  · cases h
  rename_i hsize
  obtain ⟨type, htype, h⟩ := bind_eq_ok.mp h
  obtain ⟨plain, hplain, h⟩ := bind_eq_ok.mp h
  obtain ⟨message, hmsg, h⟩ := bind_eq_ok.mp h
  obtain ⟨sum, hsum, h⟩ := bind_eq_ok.mp h
  obtain ⟨cksum, hcksum, h⟩ := bind_eq_ok.mp h
  obtain ⟨number, hnum, h⟩ := bind_eq_ok.mp h
  exact ⟨⟨type, plain, message, sum, cksum, number⟩, Nat.lt_of_not_le hsize, htype,
    mapError_eq_ok.mp hplain, mapError_eq_ok.mp hmsg, mapError_eq_ok.mp hsum, hcksum,
    mapError_eq_ok.mp hnum, (Except.ok.inj h).symm⟩

variable {p : Parts}

theorem sealPlain_ok {plain : Octets} (hused : toktype = .sealMsg ∧ (!ctx.bigEndian || encrypt) = true)
    (h : sealPlain random ctx.enc text encrypt toktype ctx.bigEndian = .ok plain) :
    ∃ confounder, cBlockSize ctx.enc.enctype = .ok 8 ∧ confounder.length = 8 ∧
      plain = padded confounder text := by
  rw [sealPlain, if_pos hused] at h
  obtain ⟨confounder, hconf, h⟩ := bind_eq_ok.mp h
  obtain ⟨hblock, hlen⟩ := kgMakeConfounder_ok hconf
  exact ⟨confounder, hblock, hlen, (Except.ok.inj h).symm⟩

theorem dvd_length_padded (hconf : confounder.length = 8) :
    8 ∣ (padded confounder text).length := by
  rw [length_padded]
  omega

section

variable (h : Made crypto random ctx text encrypt toktype token p)
include h

theorem Made.length_message :
    p.message.length = tmsglen ctx.enc text encrypt toktype ctx.bigEndian := by
  have hmsg := h.message
  unfold sealMessage at hmsg
  unfold tmsglen
  by_cases hseal : toktype = .sealMsg
  · rw [if_pos hseal] at hmsg ⊢
    by_cases hplain : (ctx.bigEndian && !encrypt) = true
    · obtain ⟨hbig, henc⟩ : ctx.bigEndian ∧ encrypt = false := by simpa using hplain
      rw [if_pos hplain]
      rw [henc, hbig] at hmsg
      rw [← Except.ok.inj hmsg]
      rfl
    obtain ⟨confounder, hblock, hconf, hpadded⟩ :=
      sealPlain_ok ⟨hseal, by cases hb : ctx.bigEndian <;> cases encrypt <;> simp_all⟩ h.plain
    rw [hpadded] at hmsg
    have hlen : p.message.length = (padded confounder text).length := by
      split at hmsg
      · exact (kgEncrypt_ok (dvd_length_padded hconf) hmsg).1
      · rw [← Except.ok.inj hmsg, if_neg (by cases hb : ctx.bigEndian <;> simp_all)]
    rw [if_neg hplain, hlen, length_padded]
    simp only [kgConfounderSize, hblock]
    omega
  · rw [if_neg hseal] at hmsg ⊢
    rw [← Except.ok.inj hmsg]
    rfl

theorem Made.length_cksum :
    p.cksum.length = ctx.cksumSize := by
  have hcksum := h.cksum
  have hsum := crypto.length_makeChecksum h.sum
  unfold sealCksum at hcksum
  split at hcksum
  · rename_i hsign
    have htype := h.type
    rw [hsign] at htype
    rw [← Except.ok.inj htype] at hsum
    obtain ⟨sum, henc, hcksum⟩ := bind_eq_ok.mp hcksum
    have hlen := (kgEncrypt_ok (by rw [hsum]; decide) (mapError_eq_ok.mp henc)).1
    split at hcksum
    · cases hcksum
    · rw [← Except.ok.inj hcksum, length_drop, hlen, hsum, Cksumtype.length]
      omega
  · split at hcksum
    · split at hcksum
      · cases hcksum
      · rename_i hlen
        rw [← Except.ok.inj hcksum]
        exact not_not.mp hlen
    · cases hcksum

theorem Made.length_body :
    (ctx.head encrypt toktype ++ p.number ++ p.cksum ++ p.message).length =
      14 + ctx.cksumSize + tmsglen ctx.enc text encrypt toktype ctx.bigEndian := by
  simp only [length_append, length_head, (kgMakeSeqNum_ok h.number).1, h.length_cksum, h.length_message]

/-- The receiver computes the checksum that the sender has put in. -/
theorem Made.expectedCksum (hsuited : ctx.Suited) (hagree : Agree ctx d) :
    Gss.expectedCksum crypto d ctx.signalg
      (signedOctets toktype (ctx.head encrypt toktype) text p.plain ctx.bigEndian) =
        .ok p.cksum := by
  have htype := h.type
  have hsum := h.sum
  have hcksum := h.cksum
  obtain ⟨hsign, hsize, -⟩ | ⟨hsign, hsize, -⟩ := hsuited
  · rw [hsign] at htype
    rw [← Except.ok.inj htype] at hsum
    rw [hsign, hsize] at hcksum
    obtain ⟨sum, henc, hcksum⟩ := bind_eq_ok.mp hcksum
    have hcksum : sum.drop 8 = p.cksum := Except.ok.inj hcksum
    rw [hsign, Gss.expectedCksum, hagree.seq, hagree.mechUsed]
    refine bind_eq_ok.mpr ⟨_, hsum, bind_eq_ok.mpr ⟨_, mapError_eq_ok.mp henc, ?_⟩⟩
    rw [hcksum]
    rfl
  · rw [hsign] at htype
    rw [← Except.ok.inj htype] at hsum
    rw [hsign, sealCksum, if_neg (by decide), if_pos rfl] at hcksum
    split at hcksum
    · cases hcksum
    · rw [hsign, Gss.expectedCksum, if_pos rfl, hagree.seq, hsum, Except.ok.inj hcksum]

end

/-- The receiver gets the text, and the plain octets that are signed. -/
theorem Made.unsealMessage (h : Made crypto random ctx text encrypt .sealMsg token p)
    (hsealalg : ctx.sealalg ≠ 0xffff) (hagree : Agree ctx d) {front : Octets}
    (hfront : front.length = 14 + cksumLen) :
    ∃ plain, Gss.unsealMessage crypto d (if encrypt then ctx.sealalg else 0xffff) cksumLen
        (front ++ p.message) = .ok (text, plain) ∧ (ctx.bigEndian = false → plain = p.plain) := by
  have hmsg := h.message
  have hplain := h.plain
  have htmsglen : ((front ++ p.message).length : Int) - (14 + cksumLen : Nat) = p.message.length := by
    rw [length_append]
    omega
  have hdrop : (front ++ p.message).drop (14 + cksumLen) = p.message := drop_left' hfront
  unfold Gss.unsealMessage
  simp only [hagree.enc, hagree.bigEndian, hdrop]
  rw [← Nat.cast_ofNat (n := 14), ← Nat.cast_add, htmsglen]
  cases hencrypt : encrypt with
  | true =>
    rw [hencrypt] at hmsg hplain
    obtain ⟨confounder, hblock, hconf, hpadded⟩ := sealPlain_ok ⟨rfl, by simp⟩ hplain
    rw [hpadded] at hmsg
    obtain ⟨hlen, hdecrypt⟩ := kgEncrypt_ok (dvd_length_padded hconf) hmsg
    rw [if_pos rfl, if_pos hsealalg]
    refine ⟨p.plain, ?_, fun _ => rfl⟩
    rw [hdecrypt, hlen, hpadded]
    simp only [mapError_ok, bind, Except.bind, getLast?_padded, stripped_padded hblock hconf]
    rfl
  | false =>
    rw [hencrypt] at hmsg hplain
    have hmsg := Except.ok.inj hmsg
    cases hbig : ctx.bigEndian with
    | true =>
      rw [hbig] at hmsg
      rw [← hmsg]
      exact ⟨text, rfl, by simp⟩
    | false =>
      obtain ⟨confounder, hblock, hconf, hpadded⟩ :=
        sealPlain_ok ⟨rfl, by simp [hbig]⟩ hplain
      rw [hbig, if_neg (by simp)] at hmsg
      rw [← hmsg]
      refine ⟨p.plain, ?_, fun _ => rfl⟩
      rw [hpadded]
      simp only [getLast?_append, getLast?_padded, Option.some_or, stripped_padded hblock hconf]
      rfl

theorem ofNat_algOctets {n : Nat} (h : n < 2 ^ 16) :
    (UInt8.ofNat n).toNat + (UInt8.ofNat (n / 2 ^ 8)).toNat * 2 ^ 8 = n := by
  simp only [UInt8.toNat_ofNat']
  omega

theorem checkAlgorithms_suited (hsuited : ctx.Suited) (hagree : Agree ctx d) :
    checkAlgorithms d toktype ctx.signalg (ctx.named encrypt toktype) [0xff, 0xff] =
      .ok ctx.cksumSize := by
  rw [checkAlgorithms, hagree.sealalg, Ctx.named]
  obtain ⟨hsign, hsize, hseal⟩ | ⟨hsign, hsize, hseal⟩ := hsuited
  · rw [hsign, hsize, hseal]
    cases toktype <;> cases encrypt <;> rfl
  · rw [hsign, hsize, hseal]
    cases toktype <;> cases encrypt <;> rfl

/-- A message is delivered with the token that seals it, or on its own with the
token that signs it. -/
def Carries (toktype : Toktype) (text message : Octets) : Prop :=
  toktype = .sealMsg ∨ toktype = .signMsg ∧ message = text

theorem checkSignature_bodyHead {signalg sealalg : Nat} {rest message result : Octets}
    (hsign : signalg < 2 ^ 16) (hseal : sealalg < 2 ^ 16)
    (h : checkBody crypto d toktype signalg sealalg [0xff, 0xff]
      (bodyHead signalg sealalg ++ rest) message = .ok result) :
    checkSignature crypto d toktype (bodyHead signalg sealalg ++ rest) message =
      .ok (result, sealalg) := by
  rw [bodyHead, algOctets, algOctets] at h ⊢
  simp only [checkSignature, cons_append, nil_append, ofNat_algOctets hsign,
    ofNat_algOctets hseal] at h ⊢
  exact bind_eq_ok.mpr ⟨result, h, rfl⟩

theorem Made.tokenText (h : Made crypto random ctx text encrypt toktype token p)
    (hnone : ctx.sealalg ≠ 0xffff) (hagree : Agree ctx d) {front message : Octets}
    (hfront : front.length = 14 + cksumLen) (hcarries : Carries toktype text message) :
    ∃ plain, Gss.tokenText crypto d toktype (ctx.named encrypt toktype) cksumLen
        (front ++ p.message) message = .ok (text, plain) ∧
      tokTypeOctets toktype.number ++ ctx.head encrypt toktype ++
        (if d.bigEndian then text else plain) =
          signedOctets toktype (ctx.head encrypt toktype) text p.plain ctx.bigEndian := by
  rw [hagree.bigEndian, signedOctets]
  rcases hcarries with rfl | ⟨rfl, rfl⟩
  · obtain ⟨plain, hunseal, hplain⟩ := h.unsealMessage hnone hagree hfront
    refine ⟨plain, by simpa only [Gss.tokenText, Ctx.named, true_and] using hunseal, ?_⟩
    cases hbig : ctx.bigEndian with
    | true => rfl
    | false => rw [hplain hbig]; rfl
  · exact ⟨message, rfl, by simp⟩

/-- A token that was made by the other side passes its check. -/
theorem Made.checkSignature (h : Made crypto random ctx text encrypt toktype token p)
    (hsuited : ctx.Suited) (hagree : Agree ctx d) {message : Octets}
    (hcarries : Carries toktype text message) :
    Gss.checkSignature crypto d toktype
      (ctx.head encrypt toktype ++ p.number ++ p.cksum ++ p.message) message =
        .ok (text, ctx.named encrypt toktype) := by
  have hbounds : ctx.signalg < 2 ^ 16 ∧ ctx.signalg ≠ sgnAlgMd25 ∧ ctx.sealalg < 2 ^ 16 ∧
      ctx.sealalg ≠ 0xffff := by
    obtain ⟨hsign, -, hseal⟩ | ⟨hsign, -, hseal⟩ := hsuited <;> rw [hsign, hseal] <;> decide
  obtain ⟨hsign, hmd25, hseal, hnone⟩ := hbounds
  have hlen := h.length_cksum
  have hcksum := h.expectedCksum hsuited hagree
  have hfront : (ctx.head encrypt toktype ++ p.number).length = 14 := by
    rw [length_append, length_head, (kgMakeSeqNum_ok h.number).1]
  have hbehind : (ctx.head encrypt toktype ++ p.number ++ p.cksum).length = 14 + ctx.cksumSize := by
    rw [length_append, hfront, hlen]
  obtain ⟨plain, htext, hsigned⟩ := h.tokenText hnone hagree hbehind hcarries
  have hdrop : (ctx.head encrypt toktype ++ p.number ++ p.cksum ++ p.message).drop 14 =
      p.cksum ++ p.message := by
    rw [append_assoc (_ ++ _), drop_left' hfront]
  have htake : (ctx.head encrypt toktype ++ p.number ++ p.cksum ++ p.message).take 6 =
      ctx.head encrypt toktype := by
    rw [append_assoc, append_assoc, take_left' length_head]
  have hbody : checkBody crypto d toktype ctx.signalg (ctx.named encrypt toktype) [0xff, 0xff]
      (ctx.head encrypt toktype ++ p.number ++ p.cksum ++ p.message) message = .ok text := by
    refine bind_eq_ok.mpr ⟨_, checkAlgorithms_suited hsuited hagree, bind_eq_ok.mpr ⟨_, htext, ?_⟩⟩
    simp only [if_neg hmd25]
    rw [htake, hsigned]
    refine bind_eq_ok.mpr ⟨_, mapError_eq_ok.mpr hcksum, ?_⟩
    rw [hdrop, take_left' hlen, if_neg, if_neg (by simp)]
    · rfl
    · rw [length_append]
      omega
  exact checkSignature_bodyHead hsign (by split <;> omega) hbody

end Made

/-! ## Delivery and reflection -/

/-- What a context finds in a token: the message, the sealing algorithm, the
direction and the sequence number. -/
def Opens (crypto : Crypto) (d : Ctx) (toktype : Toktype) (token message text : Octets)
    (sealalg : Nat) (direction : UInt8) (seqnum : UInt32) : Prop :=
  ∃ body, gVerifyTokenHeader d.mechUsed toktype.number token = .ok body ∧
    checkSignature crypto d toktype body message = .ok (text, sealalg) ∧
    kgGetSeqNum crypto d.seq (body.drop 14) ((body.drop 6).take 8) = .ok (direction, seqnum)

def Live (clock : Except Code Timestamp) (d : Ctx) : Prop := ∃ now, clock = .ok now ∧ now ≤ d.endtime

section Opens

variable {ctx : Ctx} {message : Octets} {sealalg : Nat} {seqnum : UInt32}

theorem Made.opens {p : Parts} (h : Made crypto random ctx text encrypt toktype token p)
    (hsuited : ctx.Suited) (hmech : ctx.mechUsed.length < 256) (hagree : Agree ctx d)
    (hcarries : Carries toktype text message) :
    Opens crypto d toktype token message text (ctx.named encrypt toktype)
      (if ctx.initiate then 0 else 0xff) ctx.seqSend := by
  obtain ⟨hnum, hseq⟩ := kgMakeSeqNum_ok h.number
  refine ⟨_, ?_, h.checkSignature hsuited hagree hcarries, ?_⟩
  · rw [h.token, hagree.mechUsed, ← h.length_body]
    exact gVerifyTokenHeader_make hmech (h.length_body ▸ h.size)
  simp only [append_assoc]
  rw [drop_left' length_head, take_left' hnum, ← append_assoc,
    drop_left' (by rw [length_append, length_head, hnum]), hagree.seq]
  exact hseq

/-- `conf_state` of the side that unseals. -/
def confStateOf (sealalg : Nat) : Int32 := if sealalg ≠ 0xffff then 1 else 0

variable (h : Opens crypto d toktype token message text sealalg direction seqnum) (hest : d.established)
include h hest

theorem Opens.delivered (hlive : Live clock d)
    (hdir : direction = if d.initiate then 0xff else 0) :
    kgUnseal crypto clock (some d) token message toktype =
      some ⟨(gOrderCheck d.seqstate seqnum).status.major, .zero, toktype.buffer (.holds text),
        confStateOf sealalg, some { d with seqstate := (gOrderCheck d.seqstate seqnum).queue }⟩ := by
  obtain ⟨body, hhdr, hsig, hseq⟩ := h
  obtain ⟨now, rfl, hnow⟩ := hlive
  have hright : (d.initiate && direction != 0xff || !d.initiate && direction != 0) = false := by
    rw [hdir]
    cases d.initiate <;> rfl
  simp only [kgUnseal, hest, hhdr, kgUnsealV1, hsig, hseq, hright]
  rw [if_neg (Int32.not_lt.mpr hnow)]
  rfl

theorem Opens.not_live (hlive : ¬Live clock d) {u : Unsealed}
    (hu : kgUnseal crypto clock (some d) token message toktype = some u) :
    u.major = .failure ∨ u.major = .contextExpired := by
  obtain ⟨body, hhdr, hsig, -⟩ := h
  simp only [kgUnseal, hest, hhdr, kgUnsealV1, hsig] at hu
  cases hclock : clock with
  | error code =>
    rw [hclock] at hu
    cases hu
    exact .inl rfl
  | ok now =>
    have hlate : now > d.endtime := Int32.not_le.mp fun hnow => hlive ⟨now, hclock, hnow⟩
    simp only [hclock, if_pos hlate] at hu
    cases hu
    exact .inr rfl

theorem Opens.reflected (hlive : Live clock d)
    (hdir : direction ≠ if d.initiate then 0xff else 0) :
    kgUnseal crypto clock (some d) token message toktype =
      if toktype = .sealMsg ∧ text = [] then none
      else some ⟨.badSig, .badDirection, toktype.buffer .freed, confStateOf sealalg, some d⟩ := by
  obtain ⟨body, hhdr, hsig, hseq⟩ := h
  obtain ⟨now, rfl, hnow⟩ := hlive
  have hwrong : (d.initiate && direction != 0xff || !d.initiate && direction != 0) = true := by
    cases hinit : d.initiate <;> simpa [hinit] using hdir
  simp only [kgUnseal, hest, Bool.not_true, Bool.false_eq_true, if_false, hhdr,
    kgUnsealV1, hsig, hseq, hwrong, if_true]
  rw [if_neg (Int32.not_lt.mpr hnow), releasing]
  by_cases hempty : toktype = .sealMsg ∧ text = []
  · rw [if_pos hempty, if_pos hempty, if_pos rfl]
  · rw [if_neg hempty, if_neg hempty]
    rfl

end Opens

def Queue.Expects (q : Queue) (n : UInt32) : Prop :=
  q.doReplay = false ∧ q.doSequence = false ∨ q.nums.getLast? = some (n - 1)

theorem expects_gOrderInit (elem : Fin queueLength → UInt32) (n : UInt32)
    (doReplay doSequence : Bool) : (gOrderInit elem n doReplay doSequence).Expects n := .inr rfl

theorem Queue.Expects.next {q : Queue} (h : q.Expects n) :
    (gOrderCheck q n).status = .complete ∧ (gOrderCheck q n).queue.Expects (n + 1) := by
  by_cases hoff : q.doReplay = false ∧ q.doSequence = false
  · have hcheck : gOrderCheck q n = ⟨.complete, q, false⟩ := by
      rw [gOrderCheck, if_pos (by simp [hoff])]
    rw [hcheck]
    exact ⟨rfl, .inl hoff⟩
  have hlast : q.nums.getLast? = some (q.qelem (q.ring.start + q.ring.length - 1)) :=
    q.ring.getLast?_toList
  have hn : n = q.qelem (q.ring.start + q.ring.length - 1) + 1 := by
    have := (h.resolve_left hoff).symm.trans hlast
    rw [← Option.some.inj this, UInt32.sub_add_cancel]
  have hon : ¬(!q.doReplay && !q.doSequence) = true := by simpa using hoff
  have hcheck : gOrderCheck q n =
      ⟨.complete, queueInsert q (q.ring.start + q.ring.length - 1) n, true⟩ := by
    simp only [gOrderCheck, if_neg hon, if_pos hn]
  rw [hcheck]
  refine ⟨rfl, .inr ?_⟩
  rw [nums_queueInsert_last, Ring.getLast?_atMost_concat, UInt32.add_sub_cancel]

/-! ## Conversations -/

/-- A message and the token made of it, on its way to the other side. -/
structure Outstanding where
  toktype : Toktype
  text : Octets
  confReqFlag : Int32
  token : Octets

def Outstanding.message (o : Outstanding) : Octets := if o.toktype = .signMsg then o.text else []

/-- The two sides, the one that initiated under `true`, and what is on its way
from each of them. -/
structure Pair where
  ctx : Bool → Ctx
  wire : Bool → List Outstanding

/-- The context of one side and what is on its way from a side, replaced. -/
def Pair.set (p : Pair) (a : Bool) (ctx : Ctx) (b : Bool) (os : List Outstanding) : Pair :=
  ⟨Function.update p.ctx a ctx, Function.update p.wire b os⟩

variable {os : List Outstanding} {parts : Parts}

section Set

variable {p : Pair} {a b : Bool} {ctx : Ctx}

@[simp] theorem Pair.set_ctx_self : (p.set a ctx b os).ctx a = ctx := Function.update_self ..

@[simp] theorem Pair.set_ctx_not : (p.set a ctx b os).ctx (!a) = p.ctx (!a) :=
  Function.update_of_ne (by simp) ..

@[simp] theorem Pair.set_not_ctx : (p.set (!a) ctx b os).ctx a = p.ctx a :=
  Function.update_of_ne (by simp) ..

@[simp] theorem Pair.set_wire_self : (p.set a ctx b os).wire b = os := Function.update_self ..

@[simp] theorem Pair.set_wire_not : (p.set a ctx b os).wire (!b) = p.wire (!b) :=
  Function.update_of_ne (by simp) ..

end Set

/-- One side makes a token, or the other side gets the oldest one that is on its
way to it, within the lifetime of its context. -/
inductive Pair.Step (crypto : Crypto) (p : Pair) : Pair → Prop
  | send {side : Bool} {random : Except Code (Vector UInt8 8)} {clock : Except Code Timestamp}
      {qopReq : Int32} {o : Outstanding} {r : Sealed} {ctx : Ctx} (hkind : o.toktype ≠ .delCtx)
      (hseal : kgSeal crypto random clock (some (p.ctx side)) o.confReqFlag qopReq o.text
        o.toktype = some r) (htoken : r.token = some o.token) (hctx : r.ctx = some ctx) :
      Step crypto p (p.set side ctx side (p.wire side ++ [o]))
  | deliver {side : Bool} {clock : Except Code Timestamp} {o : Outstanding}
      {rest : List Outstanding} {u : Unsealed} {ctx : Ctx} (hwire : p.wire side = o :: rest)
      (hlive : Live clock (p.ctx (!side)))
      (hunseal : kgUnseal crypto clock (some (p.ctx (!side))) o.token o.message o.toktype = some u)
      (hctx : u.ctx = some ctx) :
      Step crypto p (p.set (!side) ctx side rest)

/-- Two contexts as they are once they are established. -/
structure Pair.Established (p : Pair) : Prop where
  established (side : Bool) : (p.ctx side).established = true
  initiate (side : Bool) : (p.ctx side).initiate = side
  agree : Agree (p.ctx true) (p.ctx false)
  suited : (p.ctx true).Suited
  mechUsed : (p.ctx true).mechUsed.length < 256
  seqstate (side : Bool) : ∃ elem doReplay doSequence,
    (p.ctx (!side)).seqstate = gOrderInit elem (p.ctx side).seqSend doReplay doSequence
  wire (side : Bool) : p.wire side = []

/-- Tokens with consecutive numbers, from `n` up to in front of `m`, made by a
context `c` when its turn was at that number. -/
inductive InFlight (crypto : Crypto) (c : Ctx) : UInt32 → List Outstanding → UInt32 → Prop
  | nil (n : UInt32) : InFlight crypto c n [] n
  | cons {n m : UInt32} {o : Outstanding} {rest : List Outstanding}
      {random : Except Code (Vector UInt8 8)} {parts : Parts} (hkind : o.toktype ≠ .delCtx)
      (hmade : Made crypto random { c with seqSend := n } o.text (o.confReqFlag != 0) o.toktype
        o.token parts) (hrest : InFlight crypto c (n + 1) rest m) :
      InFlight crypto c n (o :: rest) m

theorem InFlight.snoc {c : Ctx} {m : UInt32} {o : Outstanding} (h : InFlight crypto c n os m)
    (hkind : o.toktype ≠ .delCtx)
    (hmade : Made crypto random { c with seqSend := m } o.text (o.confReqFlag != 0) o.toktype
      o.token parts) : InFlight crypto c n (os ++ [o]) (m + 1) := by
  induction h with
  | nil n => exact .cons hkind hmade (.nil _)
  | cons hkind' hmade' _ ih => exact .cons hkind' hmade' (ih hmade)

def Same (c d : Ctx) : Prop := d = { c with seqSend := d.seqSend, seqstate := d.seqstate }

/-- What holds throughout a conversation that began in the state `s`. -/
structure Pair.Inv (p : Pair) (crypto : Crypto) (s : Pair) : Prop where
  same (side : Bool) : Same (s.ctx side) (p.ctx side)
  flight (side : Bool) : ∃ n, (p.ctx (!side)).seqstate.Expects n ∧
    InFlight crypto (s.ctx side) n (p.wire side) (p.ctx side).seqSend

section Conversation

variable {s p p' : Pair}

theorem Pair.Established.inv (h : s.Established) : s.Inv crypto s where
  same _ := rfl
  flight side := by
    obtain ⟨elem, doReplay, doSequence, hqueue⟩ := h.seqstate side
    refine ⟨_, hqueue ▸ expects_gOrderInit elem _ doReplay doSequence, ?_⟩
    rw [h.wire side]
    exact .nil _

variable {c : Ctx} {side : Bool} {o : Outstanding} {rest : List Outstanding}

/-- A token is handed out with the number of the context, which moves on by one. -/
theorem kgSeal_token {confReqFlag qopReq : Int32} {r : Sealed}
    (h : kgSeal crypto random clock (some c) confReqFlag qopReq text toktype = some r)
    (htoken : r.token = some token) :
    r.ctx = some { c with seqSend := c.seqSend + 1 } ∧ r.confState = some confReqFlag ∧
      ∃ parts, Made crypto random c text (confReqFlag != 0) toktype token parts := by
  unfold kgSeal at h
  split at h
  · cases h
    cases htoken
  simp only at h
  split at h
  · cases h
    cases htoken
  cases clock with
  | error code =>
    cases h
    cases htoken
  | ok now =>
    simp only at h
    split at h
    · cases h
      cases htoken
    · cases h
    · rename_i made hmade
      cases h
      cases htoken
      exact ⟨rfl, rfl, makeSealTokenV1_ok hmade⟩

theorem Same.agree (h : Same c d) : Agree c d := by
  rw [h]
  exact ⟨rfl, rfl, rfl, rfl, rfl, rfl, rfl⟩

theorem Agree.symm (h : Agree c d) : Agree d c :=
  ⟨h.signalg.symm, h.cksumSize.symm, h.sealalg.symm, h.enc.symm, h.seq.symm, h.bigEndian.symm,
    h.mechUsed.symm⟩

theorem Agree.trans {e : Ctx} (h : Agree c d) (h' : Agree d e) : Agree c e :=
  ⟨h'.signalg.trans h.signalg, h'.cksumSize.trans h.cksumSize, h'.sealalg.trans h.sealalg,
    h'.enc.trans h.enc, h'.seq.trans h.seq, h'.bigEndian.trans h.bigEndian,
    h'.mechUsed.trans h.mechUsed⟩

theorem Pair.Established.agree_sides (h : s.Established) (a b : Bool) :
    Agree (s.ctx a) (s.ctx b) := by
  cases a <;> cases b
  · exact Same.agree rfl
  · exact h.agree.symm
  · exact h.agree
  · exact Same.agree rfl

theorem Pair.Established.suited_side (h : s.Established) (a : Bool) :
    (s.ctx a).Suited ∧ (s.ctx a).mechUsed.length < 256 := by
  have hagree := h.agree_sides true a
  unfold Ctx.Suited
  rw [hagree.signalg, hagree.cksumSize, hagree.sealalg, hagree.mechUsed]
  exact ⟨h.suited, h.mechUsed⟩

theorem Pair.Established.opens (h : s.Established) (hkind : o.toktype ≠ .delCtx)
    (hmade : Made crypto random { s.ctx side with seqSend := n } o.text (o.confReqFlag != 0)
      o.toktype o.token parts) {a : Bool} (hsame : Same (s.ctx a) d) :
    Opens crypto d o.toktype o.token o.message o.text
      ((s.ctx side).named (o.confReqFlag != 0) o.toktype) (if side then 0 else 0xff) n := by
  have hcarries : Carries o.toktype o.text o.message := by
    unfold Carries Outstanding.message
    cases htype : o.toktype with
    | signMsg => exact .inr ⟨rfl, rfl⟩
    | sealMsg => exact .inl rfl
    | delCtx => exact absurd htype hkind
  have hnumber : Same { s.ctx side with seqSend := n } (s.ctx side) := rfl
  have hagree := hnumber.agree.trans ((h.agree_sides side a).trans hsame.agree)
  have := hmade.opens (h.suited_side side).1 (h.suited_side side).2 hagree hcarries
  rwa [show ({ s.ctx side with seqSend := n } : Ctx).initiate = side from h.initiate side] at this

theorem Pair.Inv.delivery (hs : s.Established) (h : p.Inv crypto s)
    (hwire : p.wire side = o :: rest) :
    ∃ n, (p.ctx (!side)).seqstate.Expects n ∧ InFlight crypto (s.ctx side) (n + 1) rest
      (p.ctx side).seqSend ∧ ∀ a d, Same (s.ctx a) d → Opens crypto d o.toktype o.token o.message
        o.text ((s.ctx side).named (o.confReqFlag != 0) o.toktype) (if side then 0 else 0xff) n := by
  obtain ⟨n, hexpects, hflight⟩ := h.flight side
  rw [hwire] at hflight
  cases hflight with
  | cons hkind hmade hrest =>
    exact ⟨n, hexpects, hrest, fun a d hsame => hs.opens hkind hmade hsame⟩

theorem Same.established (h : Same c d) (hc : c.established) : d.established := by
  rw [h]
  exact hc

theorem Same.initiate (h : Same c d) : d.initiate = c.initiate := by
  rw [h]

theorem Pair.Inv.delivered (hs : s.Established) (h : p.Inv crypto s)
    (hwire : p.wire side = o :: rest) (hlive : Live clock (p.ctx (!side))) :
    ∃ queue n, queue.Expects (n + 1) ∧
      InFlight crypto (s.ctx side) (n + 1) rest (p.ctx side).seqSend ∧
      kgUnseal crypto clock (some (p.ctx (!side))) o.token o.message o.toktype =
        some ⟨.complete, .zero, o.toktype.buffer (.holds o.text),
          confStateOf ((s.ctx side).named (o.confReqFlag != 0) o.toktype),
          some { p.ctx (!side) with seqstate := queue }⟩ := by
  obtain ⟨n, hexpects, hrest, hopens⟩ := h.delivery hs hwire
  have hsame := h.same (!side)
  obtain ⟨hstatus, hnext⟩ := hexpects.next
  refine ⟨_, n, hnext, hrest, ?_⟩
  rw [(hopens _ _ hsame).delivered (hsame.established (hs.established _)) hlive
    (by rw [hsame.initiate, hs.initiate]; cases side <;> rfl), hstatus]
  rfl

theorem side_cases (side a : Bool) : a = side ∨ a = !side := by
  cases side <;> cases a <;> simp

/-- A token put on the wire keeps the invariant. -/
theorem Pair.Inv.send (h : p.Inv crypto s) (hkind : o.toktype ≠ .delCtx)
    (hmade : Made crypto random (p.ctx side) o.text (o.confReqFlag != 0) o.toktype o.token parts) :
    (p.set side { p.ctx side with seqSend := (p.ctx side).seqSend + 1 } side
      (p.wire side ++ [o])).Inv crypto s := by
  have hsame := h.same side
  constructor
  · intro a
    rcases side_cases side a with rfl | rfl
    · rw [Pair.set_ctx_self, hsame]
      rfl
    · rw [Pair.set_ctx_not]
      exact h.same _
  · intro a
    obtain ⟨n, hexpects, hflight⟩ := h.flight a
    refine ⟨n, ?_⟩
    rcases side_cases side a with rfl | rfl
    · rw [Pair.set_ctx_not, Pair.set_ctx_self, Pair.set_wire_self]
      rw [hsame] at hmade
      exact ⟨hexpects, hflight.snoc hkind
        ⟨hmade.1, hmade.2, hmade.3, hmade.4, hmade.5, hmade.6, hmade.7, hmade.8⟩⟩
    · rw [Bool.not_not] at hexpects ⊢
      rw [Pair.set_ctx_self, Pair.set_ctx_not, Pair.set_wire_not]
      exact ⟨hexpects, hflight⟩

theorem Pair.Inv.deliver (h : p.Inv crypto s) {queue : Queue} (hexpects : queue.Expects n)
    (hrest : InFlight crypto (s.ctx side) n rest (p.ctx side).seqSend) :
    (p.set (!side) { p.ctx (!side) with seqstate := queue } side rest).Inv crypto s := by
  constructor
  · intro a
    rcases side_cases side a with rfl | rfl
    · rw [Pair.set_not_ctx]
      exact h.same _
    · rw [Pair.set_ctx_self, h.same (!side)]
      rfl
  · intro a
    rcases side_cases side a with rfl | rfl
    · rw [Pair.set_ctx_self, Pair.set_not_ctx, Pair.set_wire_self]
      exact ⟨n, hexpects, hrest⟩
    obtain ⟨m, hexpects', hflight⟩ := h.flight (!side)
    rw [Bool.not_not] at hexpects' ⊢
    rw [Pair.set_not_ctx, Pair.set_ctx_self, Pair.set_wire_not]
    exact ⟨m, hexpects', hflight⟩

theorem Pair.Step.inv (hs : s.Established) (h : p.Inv crypto s) (hstep : p.Step crypto p') :
    p'.Inv crypto s := by
  cases hstep with
  | send hkind hseal htoken hctx =>
    obtain ⟨hctx', -, parts, hmade⟩ := kgSeal_token hseal htoken
    cases hctx'.symm.trans hctx
    exact h.send hkind hmade
  | deliver hwire hlive hunseal hctx =>
    obtain ⟨queue, n, hexpects, hrest, hunseal'⟩ := h.delivered hs hwire hlive
    cases hunseal'.symm.trans hunseal
    cases hctx
    exact h.deliver hexpects hrest

theorem Pair.Established.run (hs : s.Established)
    (hrun : Relation.ReflTransGen (Pair.Step crypto) s p) : p.Inv crypto s := by
  induction hrun with
  | refl => exact hs.inv
  | tail _ hstep ih => exact hstep.inv hs ih

end Conversation

def Delivered (crypto : Crypto) (clock : Except Code Timestamp) (d : Ctx) (o : Outstanding) : Prop :=
  ∃ u conf, kgUnseal crypto clock (some d) o.token [] .sealMsg = some u ∧ u.major = .complete ∧
    u.message = .holds o.text ∧ u.confState = some conf ∧ (conf ≠ 0 ↔ o.confReqFlag ≠ 0)

def RefusedForDirection (crypto : Crypto) (clock : Except Code Timestamp) (d : Ctx)
    (o : Outstanding) : Prop :=
  ∃ u, kgUnseal crypto clock (some d) o.token [] .sealMsg = some u ∧ u.major = .badSig ∧
    u.minor = .badDirection

/-- In every conversation over an established pair of contexts, the oldest sealed
message on its way is delivered as it was sent, and its token is refused for its
direction by the side that made it, exactly if the message is not empty and both
sides are within the lifetime of their contexts. -/
theorem delivered_and_refused_iff {crypto : Crypto} {s p q : Pair} (hs : s.Established)
    (hp : Relation.ReflTransGen (Pair.Step crypto) s p)
    (hq : Relation.ReflTransGen (Pair.Step crypto) s q) {side : Bool} {o : Outstanding}
    {rest : List Outstanding} (hwire : p.wire side = o :: rest) (hkind : o.toktype = .sealMsg)
    (clock clock' : Except Code Timestamp) :
    Delivered crypto clock (p.ctx (!side)) o ∧ RefusedForDirection crypto clock' (q.ctx side) o ↔
      o.text ≠ [] ∧ Live clock (p.ctx (!side)) ∧ Live clock' (q.ctx side) := by
  have hinv := hs.run hp
  have hsame := (hs.run hq).same side
  have hother := hinv.same (!side)
  have hmessage : o.message = [] := by rw [Outstanding.message, hkind]; rfl
  obtain ⟨n, -, -, hopens⟩ := hinv.delivery hs hwire
  rw [hmessage, hkind] at hopens
  have hback := hopens side _ hsame
  have hestablished := hsame.established (hs.established side)
  have hdirection : (if side then 0 else 0xff : UInt8) ≠
      if (q.ctx side).initiate then 0xff else 0 := by
    rw [hsame.initiate, hs.initiate]
    cases side <;> decide
  constructor
  · rintro ⟨⟨u, conf, hu, hmajor, -⟩, u', hu', hmajor', -⟩
    have hlive : Live clock (p.ctx (!side)) := by
      by_contra hdead
      rcases (hopens _ _ hother).not_live (hother.established (hs.established _)) hdead hu with
        h | h <;> simp [h] at hmajor
    have hlive' : Live clock' (q.ctx side) := by
      by_contra hdead
      rcases hback.not_live hestablished hdead hu' with h | h <;> simp [h] at hmajor'
    refine ⟨fun hempty => ?_, hlive, hlive'⟩
    rw [hback.reflected hestablished hlive' hdirection, if_pos ⟨rfl, hempty⟩] at hu'
    cases hu'
  · rintro ⟨htext, hlive, hlive'⟩
    obtain ⟨queue, m, -, -, hunseal⟩ := hinv.delivered hs hwire hlive
    rw [hkind] at hunseal
    refine ⟨⟨_, _, hunseal, rfl, rfl, rfl, ?_⟩, _,
      (hback.reflected hestablished hlive' hdirection).trans (if_neg fun h => htext h.2), rfl, rfl⟩
    have hsealalg : (s.ctx side).sealalg ≠ 0xffff := by
      obtain ⟨-, -, h⟩ | ⟨-, -, h⟩ := (hs.suited_side side).1 <;> rw [h] <;> decide
    unfold confStateOf
    by_cases hconf : o.confReqFlag = 0
    · simp [hconf]
    · simp [hsealalg]

def nullCrypto : Crypto where
  makeChecksum type _ _ _ := .ok (replicate type.length 0)
  encrypt _ _ _ plain := .ok plain
  decrypt _ _ _ cipher := .ok cipher
  length_makeChecksum h := by rw [← Except.ok.inj h, length_replicate]
  length_encrypt _ h := by rw [Except.ok.inj h]
  decrypt_encrypt _ h := by rw [Except.ok.inj h]
  length_decrypt h := by rw [Except.ok.inj h]

def desPair : Pair where
  ctx side :=
    { initiate := side
      signalg := sgnAlgDesMacMd5
      cksumSize := 8
      sealalg := sealAlgDes
      enc := ⟨4, replicate 8 1⟩
      seq := ⟨4, replicate 8 2⟩
      endtime := 100
      seqSend := 7
      seqstate := gOrderInit (fun _ => 0) 7 true true
      established := true
      bigEndian := false
      mechUsed := gssMechKrb5Old }
  wire _ := []

theorem desPair_established : desPair.Established where
  established _ := rfl
  initiate _ := rfl
  agree := ⟨rfl, rfl, rfl, rfl, rfl, rfl, rfl⟩
  suited := .inl ⟨rfl, rfl, rfl⟩
  mechUsed := by decide
  seqstate _ := ⟨_, _, _, rfl⟩
  wire _ := rfl

def desToken (text : Octets) : Octets :=
  [0x60, 0x2f, 0x06, 0x05, 0x2b, 0x05, 0x01, 0x05, 0x02, 0x02, 0x01] ++
    [0, 0, 0, 0, 0xff, 0xff] ++ [7, 0, 0, 0, 0, 0, 0, 0] ++ replicate 8 0 ++
      padded (replicate 8 9) text

theorem desPair_sends (text : Octets)
    (h : (kgSeal nullCrypto (.ok (Vector.replicate 8 9)) (.ok 0) (some (desPair.ctx true)) 1 0 text
      .sealMsg).bind Sealed.token = some (desToken text)) :
    ∃ p, Relation.ReflTransGen (Pair.Step nullCrypto) desPair p ∧
      p.wire true = [⟨.sealMsg, text, 1, desToken text⟩] ∧
      ∀ side, Same (desPair.ctx side) (p.ctx side) := by
  obtain ⟨r, hseal, htoken⟩ := Option.bind_eq_some_iff.mp h
  obtain ⟨hctx, -⟩ := kgSeal_token hseal htoken
  refine ⟨_, .single (.send (o := ⟨.sealMsg, text, 1, desToken text⟩) nofun hseal htoken hctx),
    by simp [desPair], fun side => ?_⟩
  rcases side_cases true side with rfl | rfl
  · rfl
  · rfl

theorem Same.live {c : Ctx} (h : Same c d) (hc : Live clock c) : Live clock d := by
  rw [h]
  exact hc

/-- A message of two octets is delivered, and refused where it came from. -/
theorem delivered_and_refused_two : ∃ p o, Relation.ReflTransGen (Pair.Step nullCrypto) desPair p ∧
    p.wire true = [o] ∧ o.text = [0x68, 0x69] ∧ Delivered nullCrypto (.ok 50) (p.ctx false) o ∧
      RefusedForDirection nullCrypto (.ok 60) (p.ctx true) o := by
  obtain ⟨p, hrun, hwire, hsame⟩ := desPair_sends [0x68, 0x69] (by decide +kernel)
  exact ⟨p, _, hrun, hwire, rfl, (delivered_and_refused_iff desPair_established hrun hrun hwire rfl
    (.ok 50) (.ok 60)).mpr ⟨by simp, (hsame false).live ⟨50, rfl, by decide⟩,
      (hsame true).live ⟨60, rfl, by decide⟩⟩⟩

/-- An empty message that comes back to the side that sealed it: the pointer that
is freed was never set. -/
theorem empty_not_refused : ∃ p o, Relation.ReflTransGen (Pair.Step nullCrypto) desPair p ∧
    p.wire true = [o] ∧ o.text = [] ∧ Live (.ok 50) (p.ctx true) ∧
      kgUnseal nullCrypto (.ok 50) (some (p.ctx true)) o.token [] .sealMsg = none := by
  obtain ⟨p, hrun, hwire, hsame⟩ := desPair_sends [] (by decide +kernel)
  have hlive : Live (.ok 50) (p.ctx true) := (hsame true).live ⟨50, rfl, by decide⟩
  obtain ⟨n, -, -, hopens⟩ := (desPair_established.run hrun).delivery desPair_established hwire
  have hreflected := (hopens true _ (hsame true)).reflected ((hsame true).established rfl) hlive
    (by rw [(hsame true).initiate]; decide)
  exact ⟨p, _, hrun, hwire, rfl, hlive, hreflected.trans (if_pos ⟨rfl, rfl⟩)⟩

end Krb5.Gss
