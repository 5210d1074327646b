import Krb5.Basic
import Krb5.Lib.Ber

/-!
# Token headers (`util_token.c`)

A token is the octet `0x60`, the length of what follows, the object identifier
of the mechanism, two octets for the kind of token, and the body. The lengths
are `int`s of 32 bits; no token has `2^31` octets or more.
-/

namespace Krb5.Gss

open Lib.Ber List

/-- The codes of `g_verify_token_header`, without the prefix `G`. -/
inductive HeaderError
  | badTokHeader
  | wrongMech
  | wrongTokid
deriving DecidableEq, Repr

def derLengthSize (length : Nat) : Nat :=
  if length < 2 ^ 7 then 1
  else if length < 2 ^ 8 then 2
  else if length < 2 ^ 16 then 3
  else if length < 2 ^ 24 then 4
  else 5

def derWriteLength (length : Nat) : Octets :=
  if length < 2 ^ 7 then [UInt8.ofNat length]
  else
    UInt8.ofNat (derLengthSize length + 127) ::
      ((if length ≥ 2 ^ 24 then [UInt8.ofNat (length / 2 ^ 24)] else []) ++
        ((if length ≥ 2 ^ 16 then [UInt8.ofNat (length / 2 ^ 16)] else []) ++
          ((if length ≥ 2 ^ 8 then [UInt8.ofNat (length / 2 ^ 8)] else []) ++
            [UInt8.ofNat length])))

/-- `der_read_length`: the length, negative on failure, and what is left of the
buffer. An octet has to be left behind a long form. -/
def derReadLength : Octets → Int32 × Octets
  | [] => (-1, [])
  | sf :: buf =>
    if sf &&& 0x80 ≠ 0 then
      let size := (sf &&& 0x7f).toNat
      if (size : Int) > (buf.length : Int) - 1 then (-1, buf)
      else if size > 4 then (-1, buf)
      else ((buf.take size).foldl (fun ret o => ret * 256 + Int32.ofNat o.toNat) 0, buf.drop size)
    else (Int32.ofNat sf.toNat, buf)

def gTokenSize (mech : Octets) (bodySize : Nat) : Nat :=
  1 + derLengthSize (bodySize + (4 + mech.length)) + (bodySize + (4 + mech.length))

def tokTypeOctets (tokType : Nat) : Octets := [UInt8.ofNat (tokType / 2 ^ 8), UInt8.ofNat tokType]

def gMakeTokenHeader (mech : Octets) (bodySize tokType : Nat) : Octets :=
  0x60 :: derWriteLength (4 + mech.length + bodySize) ++ 0x06 :: UInt8.ofNat mech.length ::
    (mech ++ tokTypeOctets tokType)

/-- `g_verify_token_header`: the body. That the mechanism is another one is only
said of a header that is otherwise whole. -/
def gVerifyTokenHeader (mech : Octets) (tokType : Nat) (token : Octets) :
    Except HeaderError Octets :=
  match token with
  | [] => .error .badTokHeader
  | first :: buf =>
    if first ≠ 0x60 then .error .badTokHeader
    else
      let (seqsize, buf) := derReadLength buf
      if seqsize < 0 then .error .badTokHeader
      else if seqsize.toInt ≠ buf.length then .error .badTokHeader
      else
        match buf with
        | tag :: toidLength :: buf =>
          if tag ≠ 0x06 then .error .badTokHeader
          else if buf.length < toidLength.toNat then .error .badTokHeader
          else
            let toid := buf.take toidLength.toNat
            let buf := buf.drop toidLength.toNat
            if buf.length < 2 then .error .badTokHeader
            else if toid ≠ mech then .error .wrongMech
            else if buf.take 2 ≠ tokTypeOctets tokType then .error .wrongTokid
            else .ok (buf.drop 2)
        | _ => .error .badTokHeader

theorem length_derWriteLength (n : Nat) : (derWriteLength n).length = derLengthSize n := by
  unfold derWriteLength derLengthSize
  grind

variable {n : Nat}

theorem definite_derWriteLength (h : n < 2 ^ 32) : Definite (derWriteLength n) n := by
  rw [derWriteLength]
  split
  · rename_i hshort
    have hn : (UInt8.ofNat n).toNat = n := 
      UInt8.toNat_ofNat_of_lt (Nat.lt_trans hshort (by decide))
    exact definite_iff.mpr (.inl ⟨_, UInt8.lt_iff_toNat_lt.mpr (by rw [hn]; exact hshort), rfl,
      hn.symm⟩)
  · refine definite_iff.mpr (.inr ⟨_, _, rfl, ?_, by omega, ?_⟩)
    · unfold derLengthSize
      split_ifs <;> simp <;> omega
    · unfold bigEndian
      split_ifs <;> simp [UInt8.toNat_ofNat'] <;> omega

theorem foldl_int32 (bs : Octets) (n : Nat) :
    bs.foldl (fun ret o => ret * 256 + Int32.ofNat o.toNat) (Int32.ofNat n) =
      Int32.ofNat (bs.foldl (fun n b => n * 256 + b.toNat) n) := by
  induction bs generalizing n with
  | nil => rfl
  | cons b bs ih =>
    rw [foldl_cons, foldl_cons, ← ih, Int32.ofNat_add, Int32.ofNat_mul]
    rfl

theorem derReadLength_definite {len rest : Octets} (h : Definite len n) (hlen : len.length ≤ 5)
    (hrest : rest ≠ []) : derReadLength (len ++ rest) = (Int32.ofNat n, rest) := by
  have hpos : 0 < rest.length := length_pos_of_ne_nil hrest
  cases h with
  | @short b hb =>
    rw [singleton_append, derReadLength, if_neg (by simp [(short_octet hb).1])]
  | @long k bs hk _ =>
    obtain ⟨hbit, hsize⟩ := long_octet hk
    rw [length_cons] at hlen
    rw [cons_append, derReadLength, if_pos hbit]
    simp only [hsize, length_append]
    rw [if_neg (by omega), if_neg (by omega), take_left', drop_left' rfl]
    · exact congrArg (·, rest) (foldl_int32 bs 0)
    · rfl

/-! ## Headers -/

variable {mech token body buf rest : Octets} {tokType : Nat}

/-- `g_verify_token_header` behind the length. -/
def verifyMech (mech : Octets) (tokType : Nat) : Octets → Except HeaderError Octets
  | tag :: toidLength :: buf =>
    if tag ≠ 0x06 then .error .badTokHeader
    else if buf.length < toidLength.toNat then .error .badTokHeader
    else if (buf.drop toidLength.toNat).length < 2 then .error .badTokHeader
    else if buf.take toidLength.toNat ≠ mech then .error .wrongMech
    else if (buf.drop toidLength.toNat).take 2 ≠ tokTypeOctets tokType then .error .wrongTokid
    else .ok ((buf.drop toidLength.toNat).drop 2)
  | _ => .error .badTokHeader

theorem gVerifyTokenHeader_cons (first : UInt8) (buf : Octets) :
    gVerifyTokenHeader mech tokType (first :: buf) =
      if first ≠ 0x60 ∨ (derReadLength buf).1 < 0 ∨
        (derReadLength buf).1.toInt ≠ (derReadLength buf).2.length then .error .badTokHeader
      else verifyMech mech tokType (derReadLength buf).2 := by
  rw [gVerifyTokenHeader]
  grind [verifyMech]

/-- A token with this body: the length is in any definite form of at most four
octets, and counts what follows it. -/
def Framed (mech : Octets) (tokType : Nat) (token body : Octets) : Prop :=
  ∃ len, Definite len (4 + mech.length + body.length) ∧ len.length ≤ 5 ∧
    token = 0x60 :: (len ++ 0x06 :: UInt8.ofNat mech.length ::
      (mech ++ tokTypeOctets tokType ++ body))

/-- Behind the length stand the mechanism, the type of the token and its body. -/
theorem verifyMech_eq_ok (hmech : mech.length < 256) : verifyMech mech tokType buf = .ok body ↔
    buf = 0x06 :: UInt8.ofNat mech.length :: (mech ++ tokTypeOctets tokType ++ body) := by
  constructor
  · intro h
    unfold verifyMech at h
    split at h
    · rename_i tag length buf
      split_ifs at h with htag hshort hbody hoid htype
      cases h
      rw [not_not] at htag hoid htype
      have hlen : mech.length = length.toNat := by
        rw [← hoid, length_take, Nat.min_eq_left (Nat.not_lt.mp hshort)]
      rw [htag, hlen, UInt8.ofNat_toNat, ← hoid, ← htype, append_assoc,
        take_append_drop, take_append_drop]
    · cases h
  · rintro rfl
    have hlen : (UInt8.ofNat mech.length).toNat = mech.length := UInt8.toNat_ofNat_of_lt hmech
    have htype : (tokTypeOctets tokType).length = 2 := rfl
    rw [verifyMech, if_neg (by simp), hlen, append_assoc, drop_left, if_neg (by simp),
      if_neg (by rw [length_append]; omega), if_neg (by simp), take_left' htype,
      if_neg (by simp), drop_left' htype]

theorem octet_form (b : UInt8) : if b &&& 0x80 ≠ 0 then b.toNat = 0x80 + (b &&& 0x7f).toNat
    else b < 0x80 := by
  have key : ∀ n < 256, if UInt8.ofNat n &&& 0x80 ≠ 0 then
      n = 0x80 + (UInt8.ofNat n &&& 0x7f).toNat else UInt8.ofNat n < 0x80 := by decide +kernel
  simpa using key b.toNat b.toNat_lt

theorem bigEndian_lt (bs : Octets) : bigEndian bs < 256 ^ bs.length := by
  induction bs using List.reverseRecOn with
  | nil => simp [bigEndian]
  | append_singleton bs b ih =>
    rw [bigEndian, foldl_append, length_append, length_singleton]
    have hb := b.toNat_lt
    change bigEndian bs * 256 + b.toNat < _
    omega

theorem eq_of_toInt_ofNat {m : Nat} (hm : m < 2 ^ 32) (h : (Int32.ofNat m).toInt = n) : n = m := by
  rw [Int32.toInt_ofNat', Int.bmod_def, Int32.size] at h
  split_ifs at h <;> omega

/-- What `der_read_length` reads is a definite length. -/
theorem definite_of_derReadLength {n : Int32} (h : derReadLength buf = (n, rest))
    (hlen : n.toInt = rest.length) (hpos : 0 < rest.length) :
    ∃ len, Definite len rest.length ∧ len.length ≤ 5 ∧ buf = len ++ rest := by
  cases buf with
  | nil =>
    cases h
    simp at hpos
  | cons sf buf =>
    have hform := octet_form sf
    rw [derReadLength] at h
    dsimp only at h
    split_ifs at h hform with hbit hleft hfour
    · obtain ⟨rfl, -⟩ := Prod.mk.inj h
      exact absurd hlen (by simp)
    · obtain ⟨rfl, -⟩ := Prod.mk.inj h
      exact absurd hlen (by simp)
    · cases h
      have htake : (buf.take (sf &&& 0x7f).toNat).length = (sf &&& 0x7f).toNat := by
        rw [length_take]
        omega
      have hval := foldl_int32 (buf.take (sf &&& 0x7f).toNat) 0
      have hsmall : bigEndian (buf.take (sf &&& 0x7f).toNat) < 2 ^ 32 :=
        Nat.lt_of_lt_of_le (bigEndian_lt _) (by
          rw [htake]
          exact Nat.pow_le_pow_right (by decide) (Nat.not_lt.mp hfour))
      have heq := eq_of_toInt_ofNat hsmall ((congrArg Int32.toInt hval).symm.trans hlen)
      refine ⟨sf :: buf.take (sf &&& 0x7f).toNat, ?_, ?_, ?_⟩
      · rw [heq]
        exact .long (by rw [htake]; exact hform) (heq ▸ hpos)
      · rw [length_cons]
        omega
      · rw [cons_append, take_append_drop]
    · cases h
      have hsf := Int32.toInt_ofNat_of_lt (Nat.lt_trans sf.toNat_lt (by decide))
      refine ⟨[sf], ?_, by simp, rfl⟩
      rw [← Int.ofNat.inj (hsf.symm.trans hlen)]
      exact .short hform

theorem gVerifyTokenHeader_eq_ok (hmech : mech.length < 256) (hsize : token.length < 2 ^ 31) :
    gVerifyTokenHeader mech tokType token = .ok body ↔ Framed mech tokType token body := by
  have htype : (tokTypeOctets tokType).length = 2 := rfl
  constructor
  · intro h
    cases token with
    | nil => cases h
    | cons first buf =>
      rcases hread : derReadLength buf with ⟨n, rest⟩
      rw [gVerifyTokenHeader_cons, hread] at h
      split_ifs at h with hbad
      push Not at hbad
      obtain ⟨rfl, -, hlength⟩ := hbad
      obtain rfl := (verifyMech_eq_ok hmech).mp h
      obtain ⟨len, hlen, hshort, rfl⟩ := definite_of_derReadLength hread hlength (by simp)
      refine ⟨len, ?_, hshort, rfl⟩
      convert hlen using 1
      simp [htype]
      omega
  · rintro ⟨len, hlen, hshort, rfl⟩
    have hn : 4 + mech.length + body.length < 2 ^ 31 := by
      simp [htype] at hsize
      omega
    have hint := Int32.toInt_ofNat_of_lt hn
    rw [gVerifyTokenHeader_cons, derReadLength_definite hlen hshort (by simp), if_neg]
    · exact (verifyMech_eq_ok hmech).mpr rfl
    · rw [Int32.lt_iff_toInt_lt, hint]
      simp [htype]
      omega

theorem framed_make (hsize : gTokenSize mech body.length < 2 ^ 31) :
    Framed mech tokType (gMakeTokenHeader mech body.length tokType ++ body) body := by
  have hn : 4 + mech.length + body.length < 2 ^ 32 := by
    unfold gTokenSize at hsize
    omega
  refine ⟨_, definite_derWriteLength hn, ?_, by simp [gMakeTokenHeader]⟩
  rw [length_derWriteLength]
  unfold derLengthSize
  split_ifs <;> omega

theorem length_gMakeTokenHeader (bodySize : Nat) :
    (gMakeTokenHeader mech bodySize tokType).length + bodySize = gTokenSize mech bodySize := by
  rw [gTokenSize, Nat.add_comm bodySize (4 + mech.length)]
  simp [gMakeTokenHeader, length_derWriteLength, tokTypeOctets]
  omega

theorem gVerifyTokenHeader_make {mech body : Octets} {tokType : Nat} (hmech : mech.length < 256)
    (hsize : gTokenSize mech body.length < 2 ^ 31) :
    gVerifyTokenHeader mech tokType (gMakeTokenHeader mech body.length tokType ++ body) =
      .ok body := by
  refine (gVerifyTokenHeader_eq_ok hmech ?_).mpr (framed_make hsize)
  rwa [length_append, length_gMakeTokenHeader]

end Krb5.Gss
