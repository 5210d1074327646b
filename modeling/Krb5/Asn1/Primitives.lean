import Krb5.Asn1.Codec

/-!
# Primitive types, element by element

What the decoders of primitive types make of an element whatever its contents are, and what they
make of the elements that the encoders write.
-/

namespace Krb5.Asn1

open Lib Lib.Ber List Tlv Asn1Buf

variable {α : Type} {encoder : Encoder Nat} {decoder : Decoder α} {a : α} {c os : Octets} {n : Int}

/-- The encoder writes these octets before those it finds, and the decoder reads them, and no
more, wherever they stand. -/
def ReadBack (encoder : Encoder Nat) (decoder : Decoder α) (a : α) (octets : Octets) : Prop :=
  (∀ rest, encoder rest = .ok (octets.length, octets ++ rest)) ∧
  ∀ {buf : Asn1Buf} {p : Nat}, Placed buf p octets →
    decoder buf = .ok (a, buf.moveTo (p + octets.length))

theorem readBack_of_accepts {e : Elem} {shape : Shape} (hwrite : Emits encoder [e])
    (hread : ∀ fuel, Accepts fuel decoder shape e a) (hgood : shape.Good e.der) :
    ReadBack encoder decoder a e.der.octets := by
  refine ⟨fun rest => ?_, fun {buf p} hplaced => ?_⟩
  · rw [hwrite.run]
    simp
  have hsmall := hplaced.small
  have hroom := hplaced.room
  have hwf := (hwrite.wf e (mem_singleton_self e)).der (by omega)
  obtain ⟨buf', hrun, rfl⟩ :=
    (hread _ hwf e.erase_der (Nat.lt_succ_self _) hplaced).1 hgood
  exact hrun

/-! ## Integers -/

/-- An integer with the contents `c`, however its length is written, is refused or read as the
number it holds. -/
def ReadsExactly (decoder : Decoder α) (value : α → Int) (c : Octets) : Prop :=
  ∀ ⦃buf buf₁ buf₂ buf' : Asn1Buf⦄ ⦃a : α⦄, tag asn1Integer buf = .ok ((c.length : Int), buf₁) →
    removeOctets c.length buf₁ = .ok (c, buf₂) → decoder buf = .ok (a, buf') → value a = intValue c

/-- A reader is exact if the value it gives on what it accepts is the right one. -/
theorem readsExactly_iff {value : α → Int} {cond : Prop} (hfew : cond → c.length < 128)
    (hgives : ∀ {buf buf₁ buf₂ : Asn1Buf}, tag asn1Integer buf = .ok ((c.length : Int), buf₁) →
      removeOctets c.length buf₁ = .ok (c, buf₂) → Gives (decoder buf) cond a (· = buf₂)) :
    ReadsExactly decoder value c ↔ (cond → value a = intValue c) := by
  constructor
  · -- the shortest form of the element is read wherever it stands
    intro hexact hcond
    have hlen := hfew hcond
    have hwf : (primitive 2 [UInt8.ofNat c.length] c).WellFormed := by
      have hsmall := definite_derLength (n := c.length) (by omega)
      rw [derLength, if_pos hlen] at hsmall
      exact .primitive (by decide) (by decide) hsmall
    obtain ⟨htag, hread⟩ := integer_placed hwf (placed_wrapData (by
      rw [length_octets]
      simp only [Tlv.len, Tlv.contents, length_cons, length_nil]
      omega))
    obtain ⟨buf', hrun, -⟩ := (hgives htag hread).1 hcond
    exact hexact htag hread hrun
  · intro hval buf buf₁ buf₂ buf' b htag hread hrun
    by_cases hcond : cond
    · obtain ⟨buf₃, hrun₃, -⟩ := (hgives htag hread).1 hcond
      cases hrun₃.symm.trans hrun
      exact hval hcond
    · obtain ⟨e, herr⟩ := (hgives htag hread).2 hcond
      cases herr.symm.trans hrun

/-- The sign of a number is the top bit of its contents, and its size goes with theirs. -/
theorem intValue_range (h : c.length ≤ 5) :
    (intValue c < 0 ↔ 128 ≤ (c.headD 0).toNat) ∧
    (c.length ≤ 4 → -2 ^ 31 ≤ intValue c ∧ intValue c < 2 ^ 31) ∧
    -128 * 256 ^ (c.length - 1) ≤ intValue c ∧ intValue c < 128 * 256 ^ (c.length - 1) := by
  rcases c with _ | ⟨a, _ | ⟨b, _ | ⟨c, _ | ⟨d, _ | ⟨e, _ | ⟨f, t⟩⟩⟩⟩⟩⟩ <;>
    simp only [intValue, signedValue, foldl_cons, foldl_nil, headD_cons, headD_nil, length_cons,
      length_nil] at h ⊢ <;> grind [UInt8.toNat_lt]

/-- Integers are read exactly where five octets hold a number that fits, and there alone: the
fifth, allowed for a number without a sign, is not held against the size of the type. A key version
number has no sign, and one below zero wraps. -/
theorem integers_exact (c : Octets) :
    (∀ decoder ∈ [asn1DecodeInt32, asn1DecodeInt, asn1DecodeEnctype],
      ReadsExactly decoder Int32.toInt c ↔ (c.length = 5 → intValue c < 2 ^ 31)) ∧
    (ReadsExactly asn1DecodeKvno (fun n => n.toUInt32.toNat) c ↔
      (c.length ≤ 4 → 0 ≤ intValue c) ∧ (c.length = 5 → intValue c < 2 ^ 32)) ∧
    ∀ decoder ∈ [asn1DecodeMsgtype, asn1DecodeUi4],
      ReadsExactly decoder (fun n => n.toNat) c ↔ (c.length = 5 → intValue c < 2 ^ 32) := by
  have hrange := @intValue_range c
  have hsign : c.length ≤ 5 → (intValue c < 0 ↔ ¬(c.headD 0).toNat < 128) := by
    intro h
    rw [(hrange h).1]
    omega
  have hword : ((BitVec.ofInt 32 (intValue c)).toNat : Int) = intValue c % 2 ^ 32 := by
    rw [BitVec.toNat_ofInt]
    omega
  refine ⟨?_, ?_, ?_⟩
  · have hexact : ReadsExactly asn1DecodeInteger Int32.toInt c ↔
        (c.length = 5 → intValue c < 2 ^ 31) := by
      rw [readsExactly_iff (by omega) fun htag hread => (asn1DecodeIntegers_give htag hread).1]
      have hback := @Int32.toInt_ofInt_of_le (intValue c)
      have hlt := (Int32.ofInt (intValue c)).toInt_lt
      grind
    simp [hexact]
  · rw [readsExactly_iff (by omega) fun htag hread => (asn1DecodeIntegers_give htag hread).1]
    have hval : ((Int32.ofInt (intValue c)).toUInt32.toNat : Int) = intValue c % 2 ^ 32 := hword
    rw [hval]
    grind
  · have hexact : ReadsExactly asn1DecodeUnsignedInteger (fun n => n.toNat) c ↔
        (c.length = 5 → intValue c < 2 ^ 32) := by
      rw [readsExactly_iff (by omega) fun htag hread => (asn1DecodeIntegers_give htag hread).2]
      have hval : ((UInt32.ofBitVec (BitVec.ofInt 32 (intValue c))).toNat : Int) =
        intValue c % 2 ^ 32 := hword
      rw [hval]
      grind
    simp [hexact]

theorem integers_truncated :
    intValue [1, 0, 0, 0, 0] = 2 ^ 32 ∧ intValue [0, 0xff, 0xff, 0xff, 0xff] = 2 ^ 32 - 1 ∧
    intValue [0xff] = -1 ∧
    (decoded asn1DecodeUi4 [2, 5, 1, 0, 0, 0, 0]).toOption = some 0 ∧
    (decoded asn1DecodeInt32 [2, 5, 0, 0xff, 0xff, 0xff, 0xff]).toOption = some (-1) ∧
    (decoded asn1DecodeKvno [2, 1, 0xff]).toOption = some (Int32.ofNat 4294967295) := by
  decide +kernel

theorem length_integerOctets_le {k : Nat} (hk : k < 4) (hlo : -128 * 256 ^ k ≤ n)
    (hhi : n < 128 * 256 ^ k) : (integerOctets n).length ≤ k + 1 := by
  have htop : ∀ m, lowOctet m &&& 0x80 = 0x80 ↔ 128 ≤ m % 256 := by
    intro m
    rw [(topBit _).2, ← lowOctet_toNat]
    omega
  rw [integerOctets]
  simp only [integerDigits]
  obtain rfl | rfl | rfl | rfl : k = 0 ∨ k = 1 ∨ k = 2 ∨ k = 3 := by omega
  all_goals grind

theorem integerOctets_minimal (hc : c ≠ []) : (integerOctets (intValue c)).length ≤ c.length := by
  have hpos := length_pos_of_ne_nil hc
  by_cases hlong : 4 < c.length
  · have := length_integerDigits_le 4 (intValue c)
    rw [integerOctets]
    grind
  · obtain ⟨-, -, hlo, hhi⟩ := @intValue_range c (by omega)
    have := @length_integerOctets_le _ (c.length - 1) (by omega) hlo hhi
    omega

theorem headD_integerDigits {m : Int} (hlo : 0 ≤ m) (hhi : m < 2 ^ 32)
    (h : 1 < (integerDigits 4 m).length) : (integerDigits 4 m).headD 0 ≠ 0 := by
  have hzero : ∀ m, lowOctet m = 0 ↔ m % 256 = 0 := by
    intro m
    rw [← UInt8.toNat_inj, ← lowOctet_toNat]
    simp
  simp only [integerDigits] at *
  grind

/-- The encoder writes the number with the contents `c`, the shortest there are, and the decoder
reads it back. -/
structure WrittenAs (encoder : Encoder Nat) (decoder : Decoder α) (a : α) (n : Int) (c : Octets) :
    Prop where
  nonempty : c ≠ []
  value : intValue c = n
  minimal : ∀ c' ≠ [], intValue c' = n → c.length ≤ c'.length
  readBack : ReadBack encoder decoder a (2 :: UInt8.ofNat c.length :: c)

theorem integerOctets_writtenAs (hlo : -2 ^ 31 ≤ n) (hhi : n < 2 ^ 32)
    (hwrite : Emits encoder [integerElem n])
    (hread : ∀ fuel, Accepts fuel decoder .any (integerElem n) a) :
    WrittenAs encoder decoder a n (integerOctets n) := by
  obtain ⟨hval, hlen, -⟩ := integerOctets_spec hlo hhi
  obtain ⟨-, hne⟩ := @integerLoop_run 3 n (by omega) (by omega) []
  have hshort : (integerOctets n).length < 128 := by
    split at hlen <;> omega
  have hoctets : (integerElem n).der.octets =
      2 :: UInt8.ofNat (integerOctets n).length :: integerOctets n := by
    rw [integerElem, Elem.der, derLength, if_pos hshort]
    rfl
  refine ⟨?_, hval, ?_, ?_⟩
  · rw [integerOctets]
    split_ifs <;> simp [hne]
  · rintro c hc rfl
    exact integerOctets_minimal hc
  · rw [← hoctets]
    exact readBack_of_accepts hwrite hread trivial

/-- Integers are read as they were written, in as few octets as can be. The digits of a number
without a sign stand behind a zero if and only if the first of them has the top bit set. -/
theorem integers_read_back (n : Int32) (m : UInt32) :
    (∃ c, WrittenAs (asn1EncodeInteger n) asn1DecodeInteger n n.toInt c) ∧
    ∃ d : Octets, (1 < d.length → d.headD 0 ≠ 0) ∧
      WrittenAs (asn1EncodeUnsignedInteger m) asn1DecodeUnsignedInteger m m.toNat
        (if 128 ≤ (d.headD 0).toNat then 0 :: d else d) := by
  have hlo := n.le_toInt
  have hhi := n.toInt_lt
  have hm := m.toNat_lt
  have hform : integerOctets m.toNat = if 128 ≤ ((integerDigits 4 m.toNat).headD 0).toNat then
      0 :: integerDigits 4 m.toNat else integerDigits 4 m.toNat := by
    have hzero : (m.toNat : Int) = 0 → ((integerDigits 4 m.toNat).headD 0).toNat = 0 := by
      intro h
      rw [h]
      rfl
    simp only [integerOctets, (topBit _).2]
    grind
  refine ⟨⟨_, integerOctets_writtenAs (by omega) (by omega) (emits_integer n) fun _ => .integer n⟩,
    integerDigits 4 m.toNat, headD_integerDigits (by omega) (by omega), ?_⟩
  rw [← hform]
  exact integerOctets_writtenAs (by omega) (by omega) (emits_unsigned m) fun _ => .unsigned m

/-! ## Identifiers and lengths -/

def leadOctet (cls : Class) (constructed : Bool) (low : UInt8) : UInt8 :=
  cls.octet ||| constructionOctet constructed ||| low

theorem leadOctet_parts (cls : Class) (constructed : Bool) : ∀ low < 32,
    classOf (leadOctet cls constructed (UInt8.ofNat low)) = cls ∧
    (leadOctet cls constructed (UInt8.ofNat low) &&& 0x20 != 0) = constructed ∧
    leadOctet cls constructed (UInt8.ofNat low) &&& 0x1f = UInt8.ofNat low := by
  cases cls <;> cases constructed <;> decide +kernel

/-- A number of seven bits is read back as it was written. -/
theorem id_read_back (cls : Class) (constructed : Bool) {tagnum : Nat} (h : tagnum < 128) :
    ∃ id, ReadBack (asn1MakeId cls constructed tagnum) asn1GetId
      (cls, constructed, (tagnum : Int)) id := by
  by_cases hshort : tagnum < 31
  · obtain ⟨hcls, hcons, hlow⟩ := leadOctet_parts cls constructed tagnum (by omega)
    have hnum : ∀ n < 31, UInt8.ofNat n ≠ 0x1f ∧ (UInt8.ofNat n).toNat = n := by decide
    refine ⟨[leadOctet cls constructed (UInt8.ofNat tagnum)], fun rest => ?_, fun {buf p} hp => ?_⟩
    · rw [asn1MakeId, if_pos hshort]
      rfl
    · rw [asn1GetId, stateT_bind_of_ok (removeOctet_placed hp), hcls, hcons, hlow,
        if_pos (hnum _ hshort).1, (hnum _ hshort).2]
      rfl
  · -- the number stands behind the first octet, whose low bits are all set
    obtain ⟨hcls, hcons, hlow⟩ := leadOctet_parts cls constructed 31 (by decide)
    have hnum : ∀ n < 128, (UInt8.ofNat n &&& 0x7f &&& 0x7f).toNat = n := by decide +kernel
    refine ⟨[leadOctet cls constructed (UInt8.ofNat 31), UInt8.ofNat tagnum &&& 0x7f],
      fun rest => ?_, fun {buf p} hp => ?_⟩
    · rw [asn1MakeId, if_neg hshort, Nat.div_eq_of_lt h]
      rfl
    · rw [asn1GetId, stateT_bind_of_ok (removeOctet_placed hp), hlow, if_neg (by decide),
        stateT_bind_of_ok (removeOctet_placed hp.tail), hnum _ h, hcls, hcons]
      rfl

/-- The loop for the further groups of seven bits writes at most as many as it is allowed. -/
theorem idLoop_count {size n k : Nat} {os os' : Octets} (h : idLoop size n os = .ok (k, os')) :
    k ≤ size := by
  induction size generalizing n k os os' with
  | zero =>
    cases h
    exact Nat.le_refl 0
  | succ size ih =>
    rw [idLoop] at h
    split at h
    · cases h
      exact Nat.zero_le _
    · rw [stateT_bind_of_ok (by rfl), stateT_bind_eq_ok] at h
      obtain ⟨j, os₁, hloop, hpure⟩ := h
      cases hpure
      exact Nat.succ_le_succ (ih hloop)

theorem asn1MakeId_count {cls : Class} {constructed : Bool} {tagnum k : Nat}
    (h : asn1MakeId cls constructed tagnum [] = .ok (k, os)) : k ≤ 7 := by
  rw [asn1MakeId] at h
  split at h
  · cases h
    decide
  · rw [stateT_bind_of_ok (by rfl), stateT_bind_eq_ok] at h
    obtain ⟨j, os₁, hloop, hrest⟩ := h
    have := idLoop_count hloop
    cases hrest
    omega

/-- `asn1_get_id` leaves its loop with the first seven bits. -/
theorem asn1GetId_lt {buf buf' : Asn1Buf} {cls : Class} {constructed : Bool}
    (h : asn1GetId buf = .ok ((cls, constructed, n), buf')) : n < 128 := by
  have hlow : ∀ o : UInt8, (o &&& 0x1f).toNat < 128 ∧ (o &&& 0x7f).toNat < 128 := by
    intro o
    rw [UInt8.toNat_and, UInt8.toNat_and]
    exact ⟨Nat.and_lt_two_pow _ (n := 7) (by decide), Nat.and_lt_two_pow _ (n := 7) (by decide)⟩
  rw [asn1GetId, stateT_bind_eq_ok] at h
  obtain ⟨o, buf₁, -, hrest⟩ := h
  split at hrest
  · cases hrest
    exact Int.ofNat_lt.mpr (hlow o).1
  · obtain ⟨o', buf₂, -, hpure⟩ := stateT_bind_eq_ok.mp hrest
    cases hpure
    exact Int.ofNat_lt.mpr (hlow o').2

/-- An identifier is read back as it was written exactly if its number has seven bits, and a length
always. -/
theorem ids_and_lengths_read_back (cls : Class) (constructed : Bool) :
    (∀ tagnum : Nat, (∃ id, ReadBack (asn1MakeId cls constructed tagnum) asn1GetId
      (cls, constructed, (tagnum : Int)) id) ↔ tagnum < 128) ∧
    ∀ n < 2 ^ 31, ∃ len, ReadBack (asn1MakeLength n) asn1GetLength ((n : Int), false) len := by
  refine ⟨fun tagnum => ⟨?_, id_read_back cls constructed⟩, fun n hn =>
    ⟨derLength n, asn1MakeLength_run n, fun {buf p} hp => ?_⟩⟩
  · rintro ⟨id, hwrite, hread⟩
    have hcount := asn1MakeId_count (hwrite [])
    exact Int.ofNat_lt.mp (asn1GetId_lt (hread (placed_wrapData (by omega))))
  · have hp : Placed buf p (derLength n ++ []) := by rwa [append_nil]
    exact asn1GetLength_definite (definite_derLength (by omega)) hn hp

/-- Of a larger number `asn1_get_id` reads the first seven bits only. -/
theorem id_200_not_read_back :
    asn1MakeId .universal false 200 [] = .ok (3, [0x1f, 0x81, 0x48]) ∧
    asn1GetId (.wrapData [0x1f, 0x81, 0x48]) =
      .ok ((.universal, false, 1), (wrapData [0x1f, 0x81, 0x48]).moveTo 2) :=
  ⟨rfl, rfl⟩

/-! ## Flags -/

def bitAt (os : Octets) (i : Nat) : Bool := (os.getD (i / 8) 0).toBitVec.getMsbD (i % 8)

theorem getLsbD_foldl_shiftIn (os : Octets) {j : Nat} (hj : j < 32) :
    (os.foldl shiftIn 0#32).getLsbD j =
      (os.reverse.getD (j / 8) 0).toBitVec.getLsbD (j % 8) := by
  induction os using List.reverseRecOn generalizing j with
  | nil => simp
  | append_singleton os o ih =>
    rw [foldl_append, foldl_cons, foldl_nil, shiftIn, BitVec.getLsbD_or, BitVec.getLsbD_shiftLeft]
    by_cases hlow : j < 8
    · simp [hlow, hj, Nat.div_eq_of_lt hlow, Nat.mod_eq_of_lt hlow]
    have hdiv : j / 8 = (j - 8) / 8 + 1 := by omega
    have hmod : j % 8 = (j - 8) % 8 := by omega
    rw [ih (by omega), hdiv, hmod]
    simp [hlow, hj, BitVec.getLsbD_of_ge o.toBitVec j (by omega)]

theorem getLsbD_foldl_bitAt (hlen : os.length ≤ 4) {i : Nat} (hi : i < 8 * os.length) :
    (os.foldl shiftIn 0#32).getLsbD (8 * os.length - 1 - i) = bitAt os i := by
  have hdiv : (8 * os.length - 1 - i) / 8 = os.length - 1 - i / 8 := by omega
  have hmod : (8 * os.length - 1 - i) % 8 = 7 - i % 8 := by omega
  have hget : os.reverse.getD (os.length - 1 - i / 8) 0 = os.getD (i / 8) 0 := by
    rw [getD_eq_getElem?_getD, getD_eq_getElem?_getD, getElem?_reverse (by omega),
      show os.length - 1 - (os.length - 1 - i / 8) = i / 8 by omega]
  have hbit : i % 8 < 8 := Nat.mod_lt _ (by decide)
  rw [getLsbD_foldl_shiftIn os (by omega), hdiv, hmod, hget, bitAt, BitVec.getMsbD]
  simp [hbit]

/-- The flags are the first 32 bits of the string, without the unused ones. -/
theorem getMsbD_flagsOf {unused : UInt8} (hunused : unused ≤ 7) {i : Nat} (hi : i < 32) :
    (flagsOf unused os).getMsbD i =
      (bitAt os i && decide (i + unused.toNat < 8 * os.length)) := by
  have hseven : unused.toNat ≤ 7 := UInt8.le_iff_toNat_le.mp hunused
  rw [flagsOf, BitVec.getMsbD, decide_eq_true hi, Bool.true_and]
  by_cases hlong : 4 < os.length
  · have htake : (os.take 4).length = 4 := length_take_of_le (by omega)
    have hbit := getLsbD_foldl_bitAt (Nat.le_of_eq htake) (i := i) (by omega)
    have hsame : bitAt (os.take 4) i = bitAt os i := by
      rw [bitAt, bitAt, getD_eq_getElem?_getD, getD_eq_getElem?_getD, getElem?_take_of_lt (by omega)]
    rw [htake, hsame] at hbit
    rw [if_neg (by omega), if_neg (by omega), hbit, decide_eq_true (by omega), Bool.and_true]
  · rw [take_of_length_le (show os.length ≤ 4 by omega), if_pos (show os.length ≤ 4 by omega)]
    have hbit (hin : i < 8 * os.length) := getLsbD_foldl_bitAt (show os.length ≤ 4 by omega) hin
    generalize os.foldl shiftIn 0#32 = f at hbit
    split <;> simp only [BitVec.getLsbD_shiftLeft, BitVec.getLsbD_and, BitVec.getLsbD_allOnes]
    · have hidx : 32 - 1 - i - (4 - os.length) * 8 = 8 * os.length - 1 - i := by omega
      grind
    · grind

/-- A bit string is read as its first 32 bits, with zeros for those that are missing or unused, and
refused if it has more than seven unused bits. Flags are read back as they were written. -/
theorem flags_decoded {unused : UInt8} {len os : Octets} {buf : Asn1Buf} {p : Nat}
    (hwf : (primitive 3 len (unused :: os)).WellFormed)
    (hplaced : Placed buf p (primitive 3 len (unused :: os)).octets) :
    (unused ≤ 7 → ∃ f, asn1DecodeKrb5Flags buf =
        .ok (f, buf.moveTo (p + (primitive 3 len (unused :: os)).octets.length)) ∧
      ∀ i < 32, f.getMsbD i = (bitAt os i && decide (i + unused.toNat < 8 * os.length))) ∧
    (¬unused ≤ 7 → ∃ e, asn1DecodeKrb5Flags buf = .error e) ∧
    ∀ val, ∃ octets, ReadBack (asn1EncodeKrb5Flags val) asn1DecodeKrb5Flags val octets := by
  have hgives := asn1DecodeKrb5Flags_gives hwf hplaced
  refine ⟨fun hunused => ?_, hgives.2, fun val =>
    ⟨_, readBack_of_accepts (emits_flags val) (fun _ => .flags val) trivial⟩⟩
  obtain ⟨buf', hrun, rfl⟩ := hgives.1 hunused
  exact ⟨_, hrun, fun i hi => getMsbD_flagsOf hunused hi⟩

theorem flags_decoded_four : ∃ f,
    asn1DecodeKrb5Flags (.wrapData [3, 2, 4, 0xff]) =
      .ok (f, (wrapData [3, 2, 4, 0xff]).moveTo 4) ∧
    ∀ i < 32, f.getMsbD i = (bitAt [0xff] i && decide (i + 4 < 8)) := by
  have hwf : (primitive 3 [2] [4, 0xff]).WellFormed :=
    .primitive (by decide) (by decide) (.short (b := 2) (by decide))
  have hplaced : Placed (.wrapData [3, 2, 4, 0xff]) 0 [3, 2, 4, 0xff] := placed_wrapData (by decide)
  exact (flags_decoded hwf hplaced).1 (by decide)

/-! ## Times -/

/-- A time that is not before 1970 is read back as it was written. -/
theorem times_read_back {t : Timestamp} (ht : 0 ≤ t) :
    ∃ octets, ReadBack (asn1EncodeGeneraltime t) asn1DecodeKerberosTime t octets := by
  exact ⟨_, readBack_of_accepts (emits_time t) (fun _ => .time t) (good_timeElem.mpr ht)⟩

theorem times_read_back_2000 :
    ∃ octets, ReadBack (asn1EncodeGeneraltime 946684800) asn1DecodeKerberosTime 946684800 octets :=
  times_read_back (by decide)

/-- The ranges in which `gmt_mktime` takes the fields of a date. -/
def Tm.InRange (t : Tm) : Prop :=
  70 ≤ t.year ∧ t.year ≤ 138 ∧ 0 ≤ t.mon ∧ t.mon ≤ 11 ∧ 1 ≤ t.mday ∧ t.mday ≤ 31 ∧
    0 ≤ t.hour ∧ t.hour ≤ 23 ∧ 0 ≤ t.min ∧ t.min ≤ 59 ∧ 0 ≤ t.sec ∧ t.sec ≤ 62

/-- In these ranges there is always a time, and never the one that stands for an error: what is
behind the last second of an `int` wraps to the first. -/
theorem gmtMktime_cases (t : Tm) :
    ¬t.InRange ∧ gmtMktime t = none ∨
      t.InRange ∧ ∃ n : Timestamp, gmtMktime t = some n.toInt ∧ n.toInt ≠ -1 := by
  by_cases h : t.InRange
  · refine .inr ⟨h, ?_⟩
    have hmonth : ∀ m ≤ 11, 0 ≤ daysInMonth.getD m 0 ∧ daysInMonth.getD m 0 ≤ 334 := by decide
    unfold Tm.InRange at h
    obtain ⟨hlo, hhi⟩ := hmonth t.mon.toNat (by omega)
    rw [gmtMktime, if_pos h]
    generalize daysInMonth.getD t.mon.toNat 0 = month at *
    dsimp only
    have hwrap : ∀ sum : Int, 0 ≤ sum → sum < 2 ^ 31 + 2 ^ 30 →
        ∃ n : Timestamp, wrap32 sum = n.toInt ∧ n.toInt ≠ -1 := by
      intro sum hpos hless
      refine ⟨Int32.ofInt (wrap32 sum), ?_, ?_⟩ <;>
        rw [Int32.toInt_ofInt_of_le (by unfold wrap32; omega) (by unfold wrap32; omega)]
      unfold wrap32
      omega
    obtain ⟨n, hn, hne⟩ := hwrap (((((t.year - 70) * 365 + (t.year - 69) / 4 +
      (if t.mon ≥ 2 ∧ hasleapday (t.year + 1900) then 1 else 0) + month + (t.mday - 1)) * 24 +
        t.hour) * 60 + t.min) * 60 + t.sec) (by split <;> omega) (by split <;> omega)
    exact ⟨n, congrArg some hn, hne⟩
  · exact .inl ⟨h, if_neg h⟩

/-- An element that is accepted had its octets in the buffer, and the time that is returned is
written with the same octets. -/
def TimeExact (buf buf₁ : Asn1Buf) : Prop :=
  asn1DecodeGeneraltime buf ≠ .error .fault ∧
  ∀ t buf₂, asn1DecodeGeneraltime buf = .ok (t, buf₂) → ∃ s, removeString 15 buf₁ = .ok (s, buf₂) ∧
    asn1EncodeGeneraltime t [] = .ok (17, 24 :: 15 :: s)

/-- A time is written with the octets of its date. -/
theorem asn1EncodeGeneraltime_eq_iff (t : Timestamp) (s : Octets) :
    asn1EncodeGeneraltime t [] = .ok (17, 24 :: 15 :: s) ↔ timeText (gmtime t) = s := by
  have hoctets : (timeElem t).der.octets = 24 :: 15 :: timeText (gmtime t) := by
    rw [timeElem, timeText_eq]
    rfl
  rw [(emits_time t).run]
  simp [hoctets, timeText_eq]

/-- The decoder behind the tag and the fifteen octets. -/
theorem asn1DecodeGeneraltime_read {buf buf₁ buf₂ : Asn1Buf} {s : Octets}
    (htag : tag asn1Generaltime buf = .ok (15, buf₁))
    (hread : removeString 15 buf₁ = .ok (s, buf₂)) :
    asn1DecodeGeneraltime buf =
      if s.getD 14 0 ≠ 0x5a then .error .badFormat
      else
        match gmtMktime (tmOfDigits s) with
        | none => .error .badTimeformat
        | some t => if t = -1 then .error .badTimeformat else .ok (Int32.ofInt t, buf₂) := by
  rw [asn1DecodeGeneraltime, stateT_bind_of_ok htag, if_neg (by decide), stateT_get_bind, hread]
  dsimp only
  split
  · rfl
  cases gmtMktime (tmOfDigits s) with
  | none => rfl
  | some t =>
    dsimp only
    split <;> rfl

/-- A date that is read is refused where `gmt_mktime` refuses it or it does not end in `Z`, and is
otherwise exact if and only if it is the date of a time that is not before 1970. -/
theorem timeExact_read_iff {buf buf₁ buf₂ : Asn1Buf} {s : Octets}
    (htag : tag asn1Generaltime buf = .ok (15, buf₁))
    (hread : removeString 15 buf₁ = .ok (s, buf₂)) :
    TimeExact buf buf₁ ↔ (s.getD 14 0 = 0x5a → (tmOfDigits s).InRange →
      ∃ t : Timestamp, 0 ≤ t ∧ timeText (gmtime t) = s) := by
  have hrun := asn1DecodeGeneraltime_read htag hread
  unfold TimeExact
  by_cases hz : s.getD 14 0 = 0x5a
  swap
  · rw [if_pos hz] at hrun
    exact iff_of_true (by simp [hrun]) fun h => absurd h hz
  rw [if_neg (not_not_intro hz)] at hrun
  obtain ⟨hout, hnone⟩ | ⟨hin, t, hsome, hne⟩ := gmtMktime_cases (tmOfDigits s)
  · rw [hnone] at hrun
    simp [hrun, hout]
  rw [hsome] at hrun
  dsimp only at hrun
  rw [if_neg hne, Int32.ofInt_toInt] at hrun
  have hback : ∀ t' : Timestamp, timeText (gmtime t') = s → 0 ≤ t' ∧ t' = t := by
    rintro t' rfl
    rw [tmOfDigits_timeText, gmtMktime_gmtime] at hsome
    split at hsome
    · exact ⟨Int32.le_iff_toInt_le.mpr ‹_›, Int32.toInt_inj.mp (Option.some.inj hsome)⟩
    · cases hsome
  constructor
  · rintro ⟨-, hexact⟩ - -
    obtain ⟨s', hread', hwrite⟩ := hexact t buf₂ hrun
    cases hread.symm.trans hread'
    have htext := (asn1EncodeGeneraltime_eq_iff t s).mp hwrite
    exact ⟨t, (hback t htext).1, htext⟩
  · intro hcond
    obtain ⟨t', -, htext⟩ := hcond hz hin
    obtain ⟨-, rfl⟩ := hback t' htext
    refine ⟨by simp [hrun], fun t₂ buf₃ hrun₂ => ?_⟩
    cases hrun.symm.trans hrun₂
    exact ⟨s, hread, (asn1EncodeGeneraltime_eq_iff _ _).mpr htext⟩

/-- An element is exact if and only if it has another length than 15, or its fifteen octets are in
the buffer and are refused or are the date of a time that is not before 1970. -/
theorem times_exact_iff {buf buf₁ : Asn1Buf} {n : Int}
    (htag : tag asn1Generaltime buf = .ok (n, buf₁)) :
    TimeExact buf buf₁ ↔ (n = 15 → ∃ s buf₂, removeString 15 buf₁ = .ok (s, buf₂) ∧
      (s.getD 14 0 = 0x5a → (tmOfDigits s).InRange →
        ∃ t : Timestamp, 0 ≤ t ∧ timeText (gmtime t) = s)) := by
  by_cases hlen : n = 15
  swap
  · have hrun : asn1DecodeGeneraltime buf = .error .badLength := by
      rw [asn1DecodeGeneraltime, stateT_bind_of_ok htag, if_pos hlen]
      rfl
    simp [TimeExact, hrun, hlen]
  subst hlen
  cases hread : removeString 15 buf₁ with
  | ok r =>
    obtain ⟨s, buf₂⟩ := r
    rw [timeExact_read_iff htag hread]
    simp
  | error e =>
    have hrun : asn1DecodeGeneraltime buf = .error .fault := by
      rw [asn1DecodeGeneraltime, stateT_bind_of_ok htag, if_neg (by decide), stateT_get_bind, hread]
      rfl
    simp [TimeExact, hrun]

/-- `20000101000000Z`, and `20001301000000Z`, which is refused. -/
theorem times_exact_2000 :
    let buf := wrapData [24, 15, 50, 48, 48, 48, 48, 49, 48, 49, 48, 48, 48, 48, 48, 48, 90]
    let late := wrapData [24, 15, 50, 48, 48, 48, 49, 51, 48, 49, 48, 48, 48, 48, 48, 48, 90]
    TimeExact buf (buf.moveTo 2) ∧ TimeExact late (late.moveTo 2) := by
  intro buf late
  have htag : tag asn1Generaltime buf = .ok (15, buf.moveTo 2) := by decide +kernel
  have hlate : tag asn1Generaltime late = .ok (15, late.moveTo 2) := by decide +kernel
  have hread : removeString 15 (buf.moveTo 2) = .ok (timeText (gmtime 946684800), buf.moveTo 17) := by
    decide +kernel
  have hread' : removeString 15 (late.moveTo 2) = .ok
      ([50, 48, 48, 48, 49, 51, 48, 49, 48, 48, 48, 48, 48, 48, 90], late.moveTo 17) := by
    decide +kernel
  refine ⟨(times_exact_iff htag).mpr fun _ => ⟨_, _, hread, fun _ _ => ⟨946684800, by decide, rfl⟩⟩,
    (times_exact_iff hlate).mpr fun _ => ⟨_, _, hread', fun _ hin => ?_⟩⟩
  exact absurd hin.2.2.2.1 (by decide)

/-- The 31st of February, an octet behind the digits, a date of the year 2038, and a string that is
not there. -/
theorem times_inexact :
    (decoded asn1DecodeGeneraltime [24, 15, 50, 48, 48, 48, 48, 50, 51, 49, 48, 48, 48, 48, 48, 48,
      90]).toOption = some 951955200 ∧
    timeText (gmtime 951955200) = [50, 48, 48, 48, 48, 51, 48, 50, 48, 48, 48, 48, 48, 48, 90] ∧
    (decoded asn1DecodeGeneraltime [24, 15, 50, 48, 48, 48, 48, 49, 48, 58, 48, 48, 48, 48, 48, 48,
      90]).toOption = some 947462400 ∧
    (decoded asn1DecodeGeneraltime [24, 15, 50, 48, 51, 56, 48, 50, 48, 49, 48, 48, 48, 48, 48, 48,
      90]).toOption = some (-2146372096) ∧
    asn1DecodeGeneraltime (.wrapData [24, 15, 50]) = .error .fault := by
  decide +kernel

end Krb5.Asn1
