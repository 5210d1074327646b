import Krb5.Asn1.Accept
import Krb5.Asn1.Emit

/-!
# Primitive types, read back

Integers, strings, flags and dates come back as they were written. A date before
1970 is refused.
-/

namespace Krb5.Asn1

open Lib Lib.Ber List

variable {α : Type} {fuel k : Nat} {contents : Octets} {body : Int → Decoder α} {cond : Prop}

/-! ## Contents -/

variable {buf : Asn1Buf}

/-- The identifier and the length of a primitive element are read as its tag. -/
theorem tag_prim {len : Octets} {p : Nat} (hk : k < 31)
    (hwf : (Tlv.primitive (UInt8.ofNat k) len contents).WellFormed)
    (hplaced : Placed buf p (Tlv.primitive (UInt8.ofNat k) len contents).octets) :
    tag k buf = .ok ((contents.length : Int), buf.moveTo (p + 1 + len.length)) := by
  have hbits : ∀ k < 31, classOf (UInt8.ofNat k) = .universal ∧
      constructed (UInt8.ofNat k) = false ∧ (UInt8.ofNat k &&& 0x1f).toNat = k := by decide
  obtain ⟨hcls, hprim, hnum⟩ := hbits k hk
  rw [tag, asn1GetTag, stateT_bind_of_ok (asn1GetTagIndef_tlv hwf hplaced), if_neg]
  · rfl
  · simp [tagOf, Tlv.id, hcls, hprim, hnum]

theorem end_prim (id : UInt8) (len : Octets) (p : Nat) :
    p + 1 + len.length + contents.length =
      p + (Tlv.primitive id len contents).octets.length := by
  have hsize := (Tlv.primitive id len contents).length_octets
  simp only [Tlv.len, Tlv.contents] at hsize
  omega

/-- A decoder of contents, behind the tag of a primitive element. -/
theorem prim_gives {len : Octets} {a : α} {p : Nat} (hk : k < 31)
    (hwf : (Tlv.primitive (UInt8.ofNat k) len contents).WellFormed)
    (hplaced : Placed buf p (Tlv.primitive (UInt8.ofNat k) len contents).octets)
    (hbody : ∀ {buf : Asn1Buf} {q : Nat}, Placed buf q contents →
      Gives (body contents.length buf) cond a (· = buf.moveTo (q + contents.length))) :
    Gives ((tag k >>= body) buf) cond a
      (· = buf.moveTo (p + (Tlv.primitive (UInt8.ofNat k) len contents).octets.length)) := by
  have hgives := hbody hplaced.contents
  rw [stateT_bind_of_ok (tag_prim hk hwf hplaced)]
  rw [← end_prim]
  exact hgives

theorem Accepts.prim {shape : Shape} {a : α} (hk : k < 31)
    (hcond : ∀ len, shape.Good (.primitive (UInt8.ofNat k) len contents) ↔ cond)
    (hbody : ∀ {buf : Asn1Buf} {q : Nat}, Placed buf q contents →
      Gives (body contents.length buf) cond a (· = buf.moveTo (q + contents.length))) :
    Accepts fuel (tag k >>= body) shape (.prim (UInt8.ofNat k) contents) a := by
  intro t buf p hwf herase hfuel hplaced
  obtain ⟨len, rfl⟩ := Tlv.erase_eq_prim herase
  exact (prim_gives hk hwf hplaced hbody).congr (hcond len).symm

theorem Accepts.octets (s : Octets) : Accepts fuel asn1DecodeOctetstring .any (octetsElem s) s :=
  Accepts.prim (k := 4) (by decide) (fun _ => Iff.rfl) fun h =>
    gives_of_ok (removeString_placed h) rfl trivial

theorem Accepts.string (s : Octets) : Accepts fuel asn1DecodeGeneralstring .any (stringElem s) s :=
  Accepts.prim (k := 27) (by decide) (fun _ => Iff.rfl) fun h =>
    gives_of_ok (removeString_placed h) rfl trivial

theorem Accepts.time (val : Timestamp) :
    Accepts fuel asn1DecodeGeneraltime .time (timeElem val) val := by
  have hcond : ∀ len, Shape.time.Good (.primitive (UInt8.ofNat 24) len (timeText (gmtime val))) ↔
      0 ≤ val.toInt := by
    simp only [Shape.Good, tmOfDigits_timeText, gmtMktime_gmtime]
    split <;> simp_all
  refine .prim (k := 24) (by decide) hcond fun {buf q} h => ?_
  have hlen : (timeText (gmtime val)).length = 15 := by rw [timeText_eq]; rfl
  have hread := removeString_placed h
  rw [hlen] at hread ⊢
  have hread : removeString 15 buf = .ok (timeText (gmtime val), buf.moveTo (q + 15)) := hread
  have hz : (timeText (gmtime val)).getD 14 0 = 0x5a := by rw [timeText_eq]; rfl
  rw [if_neg (by simp), stateT_get_bind]
  simp only [hread, hz, tmOfDigits_timeText, gmtMktime_gmtime]
  rw [if_neg (by simp)]
  constructor
  · intro hpos
    refine ⟨_, ?_, rfl⟩
    rw [if_pos hpos]
    dsimp only
    rw [if_neg (by omega), Int32.ofInt_toInt]
    rfl
  · intro hneg
    rw [if_neg hneg]
    exact ⟨_, rfl⟩

/-! ## Integers -/

theorem shiftIn_ofInt (a : Int) (o : UInt8) :
    shiftIn (BitVec.ofInt 32 a) o = BitVec.ofInt 32 (a * 256 + o.toNat) := by
  have hor : BitVec.ofInt 32 a <<< 8 ||| o.toBitVec.zeroExtend 32 =
      BitVec.ofInt 32 a <<< 8 + o.toBitVec.zeroExtend 32 := by
    rw [BitVec.add_eq_or_of_and_eq_zero]
    ext i hi
    by_cases h8 : i < 8
    · simp [h8]
    · simp [BitVec.getLsbD_of_ge o.toBitVec i (by omega)]
  have hocts : o.toBitVec.zeroExtend 32 = BitVec.ofInt 32 o.toNat := by
    apply BitVec.eq_of_toNat_eq
    simp
  rw [shiftIn, hor, BitVec.shiftLeft_eq_mul_twoPow, hocts, BitVec.ofInt_add, BitVec.ofInt_mul]
  rfl

def signedValue (sign : Int) (bs : Octets) : Int := bs.foldl (fun n b => n * 256 + b.toNat) sign

theorem foldl_shiftIn (bs : Octets) (sign : Int) :
    bs.foldl shiftIn (BitVec.ofInt 32 sign) = BitVec.ofInt 32 (signedValue sign bs) := by
  induction bs generalizing sign with
  | nil => rfl
  | cons b bs ih => rw [foldl_cons, shiftIn_ofInt, ih, signedValue, signedValue, foldl_cons]

theorem signedValue_cons (sign : Int) (b : UInt8) (bs : Octets) :
    signedValue sign (b :: bs) = signedValue (sign * 256 + b.toNat) bs := rfl

theorem signedValue_concat (sign : Int) (bs : Octets) (b : UInt8) :
    signedValue sign (bs ++ [b]) = signedValue sign bs * 256 + b.toNat := by
  simp [signedValue]

/-- The number that the contents of an integer stand for. -/
def intValue (c : Octets) : Int := signedValue (if 128 ≤ (c.headD 0).toNat then -1 else 0) c

/-- Contents are read as the number they stand for, in 32 bits, unless they are refused. -/
theorem integerContents_gives {c : Octets} {buf' : Asn1Buf} [Decidable cond]
    {first : UInt8 → Except DecodeError (BitVec 32)}
    (hread : removeOctets c.length buf = .ok (c, buf')) (hempty : c = [] → cond)
    (hfirst : ∀ b bs, c = b :: bs → first b =
      if cond then .ok (BitVec.ofInt 32 (if 128 ≤ b.toNat then -1 else 0)) else .error .overflow) :
    Gives (integerContents c.length first buf) cond (BitVec.ofInt 32 (intValue c)) (· = buf') := by
  cases c with
  | nil =>
    cases hread
    exact gives_of_ok rfl rfl (hempty rfl)
  | cons b bs =>
    rw [integerContents_cons hread, hfirst b bs rfl]
    constructor
    · intro hcond
      refine ⟨_, ?_, rfl⟩
      rw [if_pos hcond, Except.map, foldl_shiftIn]
      rfl
    · intro hnot
      rw [if_neg hnot]
      exact ⟨_, rfl⟩

variable {len c : Octets} {p : Nat}

/-- A negative number may have as many octets as a `long`, another one more. -/
theorem asn1DecodeIntegers_give {buf₁ buf₂ : Asn1Buf}
    (htag : tag asn1Integer buf = .ok ((c.length : Int), buf₁))
    (hread : removeOctets c.length buf₁ = .ok (c, buf₂)) :
    Gives (asn1DecodeInteger buf) (c.length ≤ 4 ∨ (c.headD 0).toNat < 128 ∧ c.length = 5)
      (Int32.ofInt (intValue c)) (· = buf₂) ∧
    Gives (asn1DecodeUnsignedInteger buf) ((c.headD 0).toNat < 128 ∧ c.length ≤ 5)
      (UInt32.ofBitVec (BitVec.ofInt 32 (intValue c))) (· = buf₂) := by
  have hsize : sizeofLong = 4 := rfl
  rw [asn1DecodeInteger, asn1DecodeUnsignedInteger, stateT_bind_of_ok htag, stateT_bind_of_ok htag]
  constructor
  all_goals
    refine (integerContents_gives hread ?_ ?_).bind_ok fun s hs => ⟨s, rfl, hs⟩
    · rintro rfl
      decide
    rintro b bs rfl
    simp only [headD_cons, (topBit b).1]
    split_ifs <;> first | rfl | omega

/-- An integer that stands in a buffer has the tag and the contents that are read there. -/
theorem integer_placed (hwf : (Tlv.primitive 2 len c).WellFormed)
    (h : Placed buf p (Tlv.primitive 2 len c).octets) :
    tag asn1Integer buf = .ok ((c.length : Int), buf.moveTo (p + 1 + len.length)) ∧
    removeOctets c.length (buf.moveTo (p + 1 + len.length)) =
      .ok (c, buf.moveTo (p + (Tlv.primitive 2 len c).octets.length)) := by
  have hplaced : Placed (buf.moveTo (p + 1 + len.length)) (p + 1 + len.length) (c ++ []) := by
    rw [append_nil]
    exact h.contents
  refine ⟨tag_prim (k := 2) (by decide) hwf h, ?_⟩
  rw [← end_prim]
  exact removeOctets_placed hplaced

theorem lowOctet_toNat (n : Int) : ((lowOctet n).toNat : Int) = n % 256 := by
  rw [lowOctet, UInt8.toNat_ofNat']
  omega

/-- Together with the sign the digits have the value. -/
theorem signedValue_digits {size : Nat} {n : Int} (hlo : -256 ^ (size + 1) ≤ n)
    (hhi : n < 256 ^ (size + 1)) :
    signedValue (if n < 0 then -1 else 0) (integerDigits (size + 1) n) = n := by
  induction size generalizing n with
  | zero =>
    have hend : ¬(n / 256 ≠ 0 ∧ n / 256 ≠ -1) := by omega
    rw [integerDigits, if_neg hend]
    simp only [nil_append, signedValue, foldl_cons, foldl_nil, lowOctet_toNat]
    split <;> omega
  | succ size ih =>
    rw [integerDigits]
    by_cases hmore : n / 256 ≠ 0 ∧ n / 256 ≠ -1
    · have hrest := ih (n := n / 256) (by omega) (by omega)
      have hsign : (if n / 256 < 0 then (-1 : Int) else 0) = if n < 0 then -1 else 0 := by
        split <;> split <;> omega
      rw [hsign] at hrest
      rw [if_pos hmore, signedValue_concat, lowOctet_toNat]
      omega
    · rw [if_neg hmore]
      simp only [nil_append, signedValue, foldl_cons, foldl_nil, lowOctet_toNat]
      split <;> omega

theorem length_integerDigits_le (size : Nat) (n : Int) : (integerDigits size n).length ≤ size := by
  induction size generalizing n with
  | zero => exact Nat.le_refl 0
  | succ size ih =>
    have := ih (n / 256)
    rw [integerDigits, length_append, length_singleton]
    split
    · omega
    · simp

/-- The octets of an integer have its value and are few, and the first one tells its sign. -/
theorem integerOctets_spec {n : Int} (hlo : -2 ^ 31 ≤ n) (hhi : n < 2 ^ 32) :
    intValue (integerOctets n) = n ∧ (integerOctets n).length ≤ (if n < 0 then 4 else 5) ∧
    (128 ≤ ((integerOctets n).headD 0).toNat ↔ n < 0) := by
  have hval := @signedValue_digits 3 n (by omega) (by omega)
  have hlen := length_integerDigits_le 4 n
  obtain ⟨-, hne⟩ := @integerLoop_run 3 n (by omega) (by omega) []
  obtain ⟨d, ds, hdigits⟩ := exists_cons_of_ne_nil hne
  rw [hdigits] at hval hlen
  have htop := (topBit d).2
  rw [intValue, integerOctets, hdigits, headD_cons]
  by_cases hneg : n < 0
  · rw [if_pos hneg] at hval
    rw [if_neg (show ¬(n > 0 ∧ d &&& 0x80 = 0x80) by omega), if_pos hneg]
    by_cases hd : 128 ≤ d.toNat
    · rw [if_neg (show ¬(n < 0 ∧ d &&& 0x80 ≠ 0x80) by simp [htop, hd]), headD_cons, if_pos hd]
      exact ⟨hval, hlen, iff_of_true hd hneg⟩
    rw [if_pos (show n < 0 ∧ d &&& 0x80 ≠ 0x80 from ⟨hneg, by simp [htop, hd]⟩)]
    refine ⟨hval, ?_, iff_of_true (show 128 ≤ (0xff : UInt8).toNat by decide) hneg⟩
    -- four digits below zero have the top bit set
    by_contra hlong
    have hthree : ds.length = 3 := by
      simp only [length_cons] at hlong hlen
      omega
    obtain ⟨x, y, z, rfl⟩ := length_eq_three.mp hthree
    have := x.toNat_lt
    have := y.toNat_lt
    have := z.toNat_lt
    simp only [signedValue, foldl_cons, foldl_nil] at hval
    omega
  · rw [if_neg hneg] at hval
    rw [if_neg (show ¬(n < 0 ∧ d &&& 0x80 ≠ 0x80) by omega), if_neg hneg]
    by_cases hd : 128 ≤ d.toNat
    · have hpos : n > 0 := by
        by_contra hzero
        obtain rfl : n = 0 := by omega
        cases hdigits
        exact absurd hd (by decide)
      rw [if_pos (show n > 0 ∧ d &&& 0x80 = 0x80 from ⟨hpos, htop.mpr hd⟩), headD_cons,
        signedValue_cons]
      exact ⟨hval, Nat.succ_le_succ hlen, iff_of_false (by decide) hneg⟩
    · rw [if_neg (show ¬(n > 0 ∧ d &&& 0x80 = 0x80) by simp [htop, hd]), headD_cons, if_neg hd]
      exact ⟨hval, by omega, iff_of_false hd hneg⟩

theorem Accepts.integer (val : Int32) :
    Accepts fuel asn1DecodeInteger .any (integerElem val.toInt) val := by
  intro t buf p hwf herase hfuel hplaced
  obtain ⟨len, rfl⟩ := Tlv.erase_eq_prim herase
  have hlo := val.le_toInt
  have hhi := val.toInt_lt
  obtain ⟨hval, hlen, hsign⟩ := @integerOctets_spec val.toInt (by omega) (by omega)
  obtain ⟨htag, hread⟩ := integer_placed hwf hplaced
  have hgives := (asn1DecodeIntegers_give htag hread).1
  rw [hval, val.ofInt_toInt] at hgives
  exact hgives.congr (iff_of_true (by split at hlen <;> omega) trivial)

theorem Accepts.unsigned (val : UInt32) :
    Accepts fuel asn1DecodeUnsignedInteger .any (integerElem val.toNat) val := by
  intro t buf p hwf herase hfuel hplaced
  obtain ⟨len, rfl⟩ := Tlv.erase_eq_prim herase
  have hhi := val.toNat_lt
  obtain ⟨hval, hlen, hsign⟩ := @integerOctets_spec val.toNat (by omega) (by omega)
  obtain ⟨htag, hread⟩ := integer_placed hwf hplaced
  have hgives := (asn1DecodeIntegers_give htag hread).2
  have hback : UInt32.ofBitVec (BitVec.ofInt 32 val.toNat) = val := by
    exact UInt32.ofNat_toNat
  rw [hval, hback] at hgives
  exact hgives.congr (iff_of_true ⟨by omega, hlen⟩ trivial)

/-! ## Flags -/

/-- The word that `asn1_decode_krb5_flags` makes of the octets of a bit string. -/
def flagsOf (unused : UInt8) (os : Octets) : Flags :=
  let f := (os.take 4).foldl shiftIn 0#32
  let f := if os.length ≤ 4 then f &&& (BitVec.allOnes 32 <<< unused.toNat) else f
  if os.length < 4 then f <<< ((4 - os.length) * 8) else f

/-- More than seven unused bits are refused. -/
theorem asn1DecodeKrb5Flags_gives {unused : UInt8} {os : Octets}
    (hwf : (Tlv.primitive 3 len (unused :: os)).WellFormed)
    (h : Placed buf p (Tlv.primitive 3 len (unused :: os)).octets) :
    Gives (asn1DecodeKrb5Flags buf) (unused ≤ 7) (flagsOf unused os)
      (· = buf.moveTo (p + (Tlv.primitive 3 len (unused :: os)).octets.length)) := by
  refine prim_gives (k := 3) (by decide) hwf h fun {buf q} h => ?_
  have hrest : Placed (buf.moveTo (q + 1)) (q + 1) (os ++ []) := by
    rw [append_nil]
    exact h.tail
  have hlen : ((unused :: os).length : Int) - 1 = os.length := by simp
  rw [stateT_bind_of_ok (removeOctet_placed h)]
  simp only [hlen, Int.toNat_natCast]
  by_cases hmany : unused > 7
  · rw [if_pos hmany]
    exact ⟨fun hfew => absurd hmany (UInt8.not_lt.mpr hfew), fun _ => ⟨_, rfl⟩⟩
  rw [if_neg hmany, stateT_bind_of_ok (removeOctets_placed hrest)]
  have hle : (os.length : Int) ≤ 4 ↔ os.length ≤ 4 := by omega
  have hlt : (os.length : Int) < 4 ↔ os.length < 4 := by omega
  have hshift : ((4 - (os.length : Int)) * 8).toNat = (4 - os.length) * 8 := by omega
  refine gives_of_ok ?_ rfl (UInt8.not_lt.mp hmany)
  rw [hshift, if_congr hle rfl rfl, if_congr hlt rfl rfl, Nat.add_right_comm q]
  rfl

theorem foldl_flagOctets (val : Flags) : (flagOctets val).tail.foldl shiftIn 0#32 = val := by
  have hval : signedValue 0 (flagOctets val).tail = (val.toNat : Int) := by
    simp only [flagOctets, tail_cons, signedValue, foldl_cons, foldl_nil,
      UInt8.toNat_ofNat', BitVec.toNat_ushiftRight]
    omega
  rw [show 0#32 = BitVec.ofInt 32 0 from rfl, foldl_shiftIn, hval, BitVec.ofInt_natCast,
    BitVec.ofNat_toNat, BitVec.setWidth_eq]

theorem Accepts.flags (val : Flags) :
    Accepts fuel asn1DecodeKrb5Flags .any (flagsElem val) val := by
  intro t buf p hwf herase hfuel hplaced
  obtain ⟨len, rfl⟩ := Tlv.erase_eq_prim herase
  have hval : flagsOf 0 (flagOctets val).tail = val := by
    have hall : val &&& BitVec.allOnes 32 <<< (0 : UInt8).toNat = val := by
      change val &&& BitVec.allOnes 32 <<< 0 = val
      rw [BitVec.shiftLeft_zero, BitVec.and_allOnes]
    have htake : (flagOctets val).tail.take 4 = (flagOctets val).tail := rfl
    rw [flagsOf, htake, foldl_flagOctets]
    exact hall
  have hgives : Gives (asn1DecodeKrb5Flags buf) _ (flagsOf 0 (flagOctets val).tail) _ :=
    asn1DecodeKrb5Flags_gives hwf hplaced
  rw [hval] at hgives
  exact hgives.congr (iff_of_true (by decide) trivial)

end Krb5.Asn1
