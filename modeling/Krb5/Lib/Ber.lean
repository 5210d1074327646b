import Mathlib.Data.BitVec

/-!
# Tag-length-value trees

The Basic Encoding Rules as trees: an element is an identifier octet, a length
and contents, and the contents of a constructed element are elements again. A
constructed element may leave its length open (`indefinite`); two zero octets
then stand behind its contents.

`HasAt read p bs` says that a reader of octets finds `bs` from offset `p` on,
whatever is there before and behind.
-/

namespace Krb5.Lib.Ber

variable {n : Nat}

section HasAt

variable {α : Type}

def HasAt (read : Nat → Option α) : Nat → List α → Prop
  | _, [] => True
  | p, b :: bs => read p = some b ∧ HasAt read (p + 1) bs

variable {read read' : Nat → Option α} {p : Nat}

@[simp] theorem hasAt_nil : HasAt read p [] := trivial

@[simp] theorem hasAt_cons {b : α} {bs : List α} :
    HasAt read p (b :: bs) ↔ read p = some b ∧ HasAt read (p + 1) bs := Iff.rfl

@[simp] theorem hasAt_append {as bs : List α} :
    HasAt read p (as ++ bs) ↔ HasAt read p as ∧ HasAt read (p + as.length) bs := by
  induction as generalizing p with
  | nil => simp
  | cons a as ih =>
    rw [List.cons_append, hasAt_cons, hasAt_cons, ih, List.length_cons, and_assoc,
      show p + 1 + as.length = p + (as.length + 1) by omega]

theorem hasAt_getElem? (front bs back : List α) :
    HasAt (fun i => (front ++ bs ++ back)[i]?) front.length bs := by
  induction bs generalizing front with
  | nil => exact hasAt_nil
  | cons b bs ih =>
    have := ih (front ++ [b])
    simpa [List.append_assoc] using this

theorem HasAt.of_read (hread : ∀ i b, read i = some b → read' i = some b) {bs : List α}
    (h : HasAt read p bs) : HasAt read' p bs := by
  induction bs generalizing p with
  | nil => exact hasAt_nil
  | cons b bs ih => exact ⟨hread p b h.1, ih h.2⟩

end HasAt

/-- The number whose octets these are, the most significant first. -/
def bigEndian (bs : List UInt8) : Nat := bs.foldl (fun n b => n * 256 + b.toNat) 0

/-- `len` is a way to write the length `n`: in one octet below `0x80`, or as the
count of the octets that hold it. A long form holds a number other than zero. -/
inductive Definite : List UInt8 → Nat → Prop
  | short {b : UInt8} (h : b < 0x80) : Definite [b] b.toNat
  | long {k : UInt8} {bs : List UInt8} (hk : k.toNat = 0x80 + bs.length)
      (hpos : 0 < bigEndian bs) : Definite (k :: bs) (bigEndian bs)

theorem short_octet {b : UInt8} (h : b < 0x80) : b &&& 0x80 = 0 ∧ b &&& 0x7f = b := by
  have key : ∀ n < 128,
      UInt8.ofNat n &&& 0x80 = 0 ∧ UInt8.ofNat n &&& 0x7f = UInt8.ofNat n := by decide
  simpa using key b.toNat (UInt8.lt_iff_toNat_lt.mp h)

theorem long_octet {k : UInt8} (h : k.toNat = 0x80 + n) :
    k &&& 0x80 ≠ 0 ∧ (k &&& 0x7f).toNat = n := by
  have key : ∀ n < 128, UInt8.ofNat (0x80 + n) &&& 0x80 ≠ 0 ∧
      (UInt8.ofNat (0x80 + n) &&& 0x7f).toNat = n := by decide
  have hlt : k.toNat < 256 := k.toNat_lt
  have hk : k = UInt8.ofNat (0x80 + n) := by rw [← h, UInt8.ofNat_toNat]
  rw [hk]
  exact key n (by omega)

theorem Definite.length_pos {len : List UInt8} (h : Definite len n) : 0 < len.length := by
  cases h <;> simp

theorem Definite.head_ne {b : UInt8} {bs : List UInt8} (h : Definite (b :: bs) n) :
    b ≠ 0x80 := by
  rintro rfl
  cases h with
  | short hb => exact absurd hb (by decide)
  | long hk hpos =>
    have hnil : bs = [] := List.eq_nil_of_length_eq_zero (by simpa using hk.symm)
    simp [hnil, bigEndian] at hpos

theorem definite_iff {len : List UInt8} : Definite len n ↔
    (∃ b < 0x80, len = [b] ∧ n = b.toNat) ∨
    (∃ k bs, len = k :: bs ∧ k.toNat = 0x80 + bs.length ∧ 0 < n ∧ n = bigEndian bs) := by
  constructor
  · intro h
    cases h with
    | short hb => exact Or.inl ⟨_, hb, rfl, rfl⟩
    | long hk hpos => exact Or.inr ⟨_, _, rfl, hk, hpos, rfl⟩
  · rintro (⟨b, hb, rfl, rfl⟩ | ⟨k, bs, rfl, hk, hpos, rfl⟩)
    · exact .short hb
    · exact .long hk hpos

instance (len : List UInt8) (n : Nat) : Decidable (Definite len n) :=
  match len with
  | [] => isFalse fun h => absurd h.length_pos (by simp)
  | b :: bs =>
    decidable_of_iff ((b < 0x80 ∧ bs = [] ∧ n = b.toNat) ∨
      (b.toNat = 0x80 + bs.length ∧ 0 < n ∧ n = bigEndian bs)) (by
        rw [definite_iff]
        constructor
        · rintro (⟨hb, rfl, rfl⟩ | ⟨hk, hpos, rfl⟩)
          · exact Or.inl ⟨b, hb, rfl, rfl⟩
          · exact Or.inr ⟨b, bs, rfl, hk, hpos, rfl⟩
        · rintro (⟨c, hc, heq, rfl⟩ | ⟨k, cs, heq, hk, hpos, rfl⟩)
          · cases heq
            exact Or.inl ⟨hc, rfl, rfl⟩
          · cases heq
            exact Or.inr ⟨hk, hpos, rfl⟩)

/-! ## Elements -/

/-- An element with its identifier octet and, where it has one, its length. -/
inductive Tlv
  | primitive (id : UInt8) (len contents : List UInt8)
  | definite (id : UInt8) (len : List UInt8) (children : List Tlv)
  | indefinite (id : UInt8) (children : List Tlv)

namespace Tlv

def octets : Tlv → List UInt8
  | primitive id len contents => id :: len ++ contents
  | definite id len children => id :: len ++ octetsAll children
  | indefinite id children => id :: 0x80 :: octetsAll children ++ [0, 0]
where
  /-- Elements one behind the other. -/
  octetsAll : List Tlv → List UInt8
    | [] => []
    | t :: ts => octets t ++ octetsAll ts

export octets (octetsAll)

@[simp] theorem octetsAll_nil : octetsAll [] = [] := by simp [octetsAll]

@[simp] theorem octetsAll_cons (t : Tlv) (ts : List Tlv) :
    octetsAll (t :: ts) = t.octets ++ octetsAll ts := by simp [octetsAll]

def id : Tlv → UInt8
  | primitive id _ _ => id
  | definite id _ _ => id
  | indefinite id _ => id

def len : Tlv → List UInt8
  | primitive _ len _ => len
  | definite _ len _ => len
  | indefinite _ _ => [0x80]

def children : Tlv → List Tlv
  | primitive _ _ _ => []
  | definite _ _ children => children
  | indefinite _ children => children

/-- What stands behind the length, the end-of-contents included. -/
def contents : Tlv → List UInt8
  | primitive _ _ contents => contents
  | definite _ _ children => octetsAll children
  | indefinite _ children => octetsAll children ++ [0, 0]

theorem octets_eq (t : Tlv) : t.octets = t.id :: (t.len ++ t.contents) := by
  cases t <;> rfl

theorem length_octets (t : Tlv) : t.octets.length = 1 + t.len.length + t.contents.length := by
  rw [octets_eq, List.length_cons, List.length_append]
  omega

variable {t : Tlv}

theorem hasAt_octets {read : Nat → Option UInt8} {p : Nat} :
    HasAt read p t.octets ↔ read p = some t.id ∧ HasAt read (p + 1) t.len ∧
      HasAt read (p + 1 + t.len.length) t.contents := by
  rw [octets_eq, hasAt_cons, hasAt_append]

theorem length_children_le (t : Tlv) : (octetsAll t.children).length ≤ t.contents.length := by
  cases t <;> simp [children, contents]

theorem hasAt_children {read : Nat → Option UInt8} {p : Nat} (h : HasAt read p t.octets) :
    HasAt read (p + 1 + t.len.length) (octetsAll t.children) := by
  have hcont := (hasAt_octets.mp h).2.2
  cases t with
  | primitive id len contents => exact hasAt_nil
  | definite id len children => exact hcont
  | indefinite id children => exact (hasAt_append.mp hcont).1

@[simp] theorem octetsAll_append (ts us : List Tlv) :
    octetsAll (ts ++ us) = octetsAll ts ++ octetsAll us := by
  induction ts with
  | nil => simp
  | cons t ts ih => simp [ih]

end Tlv

/-- Bit 6: the contents are elements. -/
def constructed (id : UInt8) : Bool := id &&& 0x20 != 0

def contextSpecific (id : UInt8) : Bool := id &&& 0xc0 == 0x80

def application (id : UInt8) : Bool := id &&& 0xc0 == 0x40

/-- An explicit tag. -/
def explicitTag (id : UInt8) : Bool := constructed id && (contextSpecific id || application id)

/-- An identifier of one octet. Number zero of the universal class is left to
the end-of-contents. -/
def plainId (id : UInt8) : Bool := id &&& 0x1f != 0x1f && id &&& 0xdf != 0

/-! ## Well-formed elements -/

/-- Identifiers take one octet, a definite length is that of the contents, and
an explicit tag stands around exactly one element. -/
inductive Tlv.WellFormed : Tlv → Prop
  | primitive {id : UInt8} {len contents : List UInt8} (hid : plainId id)
      (hcons : constructed id = false) (hlen : Definite len contents.length) :
      WellFormed (.primitive id len contents)
  | definite {id : UInt8} {len : List UInt8} {children : List Tlv} (hid : plainId id)
      (hcons : constructed id) (hlen : Definite len (Tlv.octetsAll children).length)
      (hwrap : explicitTag id → children.length = 1) (hall : ∀ t ∈ children, WellFormed t) :
      WellFormed (.definite id len children)
  | indefinite {id : UInt8} {children : List Tlv} (hid : plainId id)
      (hcons : constructed id) (hwrap : explicitTag id → children.length = 1)
      (hall : ∀ t ∈ children, WellFormed t) : WellFormed (.indefinite id children)

namespace Tlv.WellFormed

variable {t : Tlv} (h : t.WellFormed)
include h

theorem plain : plainId t.id := by
  cases h <;> assumption

theorem shape (hcons : constructed t.id) :
    (∃ id len children, t = .definite id len children) ∨ ∃ id children, t = .indefinite id children := by
  cases h with
  | primitive hid hprim => cases hprim.symm.trans hcons
  | definite => exact .inl ⟨_, _, _, rfl⟩
  | indefinite => exact .inr ⟨_, _, rfl⟩

theorem child {c : Tlv} (hc : c ∈ t.children) : c.WellFormed := by
  cases h with
  | primitive => simp [Tlv.children] at hc
  | definite hid hcons hlen hwrap hall => exact hall c hc
  | indefinite hid hcons hwrap hall => exact hall c hc

theorem id_ne_zero : t.id ≠ 0 := by
  intro h0
  have := h.plain
  rw [h0] at this
  exact absurd this (by decide)

end Tlv.WellFormed

/-- Decides `Tlv.WellFormed`. -/
def Tlv.wellFormed : Tlv → Bool
  | primitive id len contents =>
    plainId id && !constructed id && decide (Definite len contents.length)
  | definite id len children =>
    plainId id && constructed id && decide (Definite len (octetsAll children).length) &&
      (!explicitTag id || children.length == 1) && wellFormedAll children
  | indefinite id children =>
    plainId id && constructed id && (!explicitTag id || children.length == 1) &&
      wellFormedAll children
where
  wellFormedAll : List Tlv → Bool
    | [] => true
    | t :: ts => wellFormed t && wellFormedAll ts

theorem Tlv.wellFormed_sound : ∀ t : Tlv, t.wellFormed → t.WellFormed
  | primitive id len contents, h => by
      simp only [wellFormed, Bool.and_eq_true, Bool.not_eq_true', decide_eq_true_eq] at h
      exact .primitive h.1.1 h.1.2 h.2
  | definite id len children, h => by
      simp only [wellFormed, Bool.and_eq_true, decide_eq_true_eq] at h
      obtain ⟨⟨⟨⟨hid, hcons⟩, hlen⟩, hwrap⟩, hall⟩ := h
      refine .definite hid hcons hlen ?_ (all_sound children hall)
      intro hexp
      simpa [hexp] using hwrap
  | indefinite id children, h => by
      simp only [wellFormed, Bool.and_eq_true] at h
      obtain ⟨⟨⟨hid, hcons⟩, hwrap⟩, hall⟩ := h
      refine .indefinite hid hcons ?_ (all_sound children hall)
      intro hexp
      simpa [hexp] using hwrap
where
  all_sound : ∀ ts : List Tlv, wellFormed.wellFormedAll ts = true → ∀ t ∈ ts, t.WellFormed
    | [], _, t, ht => by cases ht
    | c :: cs, h, t, ht => by
        simp only [wellFormed.wellFormedAll, Bool.and_eq_true] at h
        rcases List.mem_cons.mp ht with heq | ht
        · rw [heq]
          exact wellFormed_sound c h.1
        · exact all_sound cs h.2 t ht

end Krb5.Lib.Ber
