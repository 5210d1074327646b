import Krb5.Lib.Ber

/-!
# Elements without their lengths

An `Elem` is what a tag-length-value tree says when its lengths are left out:
identifiers, contents and the order of elements. Every element has one encoding
in which all lengths are definite and as short as possible (`der`), and many
others; `Tlv.erase` forgets which of them was chosen.
-/

namespace Krb5.Lib.Ber

open List

/-- An identifier with octets, or with elements. -/
inductive Elem
  | prim (id : UInt8) (contents : List UInt8)
  | cons (id : UInt8) (children : List Elem)

/-- The element that is encoded, whichever way its lengths are written. -/
def Tlv.erase : Tlv → Elem
  | primitive id _ contents => .prim id contents
  | definite id _ children => .cons id (eraseAll children)
  | indefinite id children => .cons id (eraseAll children)
where
  eraseAll : List Tlv → List Elem
    | [] => []
    | t :: ts => erase t :: eraseAll ts

theorem Tlv.eraseAll_eq_map (ts : List Tlv) : erase.eraseAll ts = ts.map erase := by
  induction ts with
  | nil => rfl
  | cons t ts ih => rw [erase.eraseAll, ih, map_cons]

variable {t : Tlv} {id : UInt8} {n : Nat} {e : Elem} {es : List Elem}

theorem Tlv.erase_eq_prim {contents : List UInt8} (h : t.erase = .prim id contents) :
    ∃ len, t = .primitive id len contents := by
  cases t with
  | primitive id len contents =>
    cases h
    exact ⟨len, rfl⟩
  | definite id len children => cases h
  | indefinite id children => cases h

theorem Tlv.erase_eq_cons (h : t.erase = .cons id es) :
    t.id = id ∧ t.children.map erase = es := by
  cases t with
  | primitive id len contents => cases h
  | definite id len children =>
    cases h
    exact ⟨rfl, (Tlv.eraseAll_eq_map children).symm⟩
  | indefinite id children =>
    cases h
    exact ⟨rfl, (Tlv.eraseAll_eq_map children).symm⟩

/-- The octets of a number below `256 ^ size`, from its first one on that is not
zero. -/
def digits : Nat → Nat → List UInt8
  | 0, _ => []
  | size + 1, n => if n = 0 then [] else digits size (n / 256) ++ [UInt8.ofNat n]

theorem length_digits_le (size n : Nat) : (digits size n).length ≤ size := by
  induction size generalizing n with
  | zero => exact Nat.le_refl 0
  | succ size ih =>
    rw [digits]
    split
    · exact Nat.zero_le _
    · rw [length_append]
      exact Nat.succ_le_succ (ih (n / 256))

theorem bigEndian_concat (bs : List UInt8) (b : UInt8) :
    bigEndian (bs ++ [b]) = bigEndian bs * 256 + b.toNat := by
  simp [bigEndian]

theorem bigEndian_digits {size : Nat} (h : n < 256 ^ size) : bigEndian (digits size n) = n := by
  induction size generalizing n with
  | zero =>
    rw [Nat.pow_zero, Nat.lt_one_iff] at h
    rw [h]
    rfl
  | succ size ih =>
    rw [digits]
    split
    · rename_i hzero
      rw [hzero]
      rfl
    · rw [bigEndian_concat, ih (by omega), UInt8.toNat_ofNat']
      omega

/-- A length of at most four octets, written as shortly as possible. -/
def derLength (n : Nat) : List UInt8 :=
  if n < 128 then [UInt8.ofNat n]
  else UInt8.ofNat (0x80 + (digits 4 n).length) :: digits 4 n

theorem definite_derLength (h : n < 2 ^ 32) : Definite (derLength n) n := by
  rw [derLength, definite_iff]
  split
  · rename_i hshort
    have hn : (UInt8.ofNat n).toNat = n :=
      UInt8.toNat_ofNat_of_lt (Nat.lt_trans hshort (by decide))
    exact .inl ⟨_, UInt8.lt_iff_toNat_lt.mpr (by rw [hn]; exact hshort), rfl, hn.symm⟩
  · refine .inr ⟨_, _, rfl, ?_, by omega, (bigEndian_digits h).symm⟩
    have hle := length_digits_le 4 n
    exact UInt8.toNat_ofNat_of_lt (Nat.lt_of_le_of_lt (Nat.add_le_add_left hle _) (by decide))

/-! ## The distinguished encoding -/

/-- An element with definite lengths, all as short as possible. -/
def Elem.der : Elem → Tlv
  | prim id contents => .primitive id (derLength contents.length) contents
  | cons id children =>
    .definite id (derLength (Tlv.octetsAll (derAll children)).length) (derAll children)
where
  derAll : List Elem → List Tlv
    | [] => []
    | e :: es => der e :: derAll es

theorem Elem.derAll_eq_map (es : List Elem) : der.derAll es = es.map der := by
  induction es with
  | nil => rfl
  | cons e es ih => rw [der.derAll, ih, map_cons]

theorem Elem.der_cons (id : UInt8) (es : List Elem) : (Elem.cons id es).der =
    .definite id (derLength (Tlv.octetsAll (es.map der)).length) (es.map der) := by
  rw [Elem.der, derAll_eq_map]

theorem Elem.erase_der : ∀ e : Elem, e.der.erase = e
  | prim id contents => rfl
  | cons id children => by rw [der, Tlv.erase, eraseAll_derAll children]
where
  eraseAll_derAll : ∀ es : List Elem, Tlv.erase.eraseAll (der.derAll es) = es
    | [] => rfl
    | e :: es => by rw [der.derAll, Tlv.erase.eraseAll, erase_der e, eraseAll_derAll es]

/-- Identifiers take one octet, and an explicit tag stands around one element. -/
inductive Elem.WellFormed : Elem → Prop
  | prim {id : UInt8} {contents : List UInt8} (hid : plainId id)
      (hcons : constructed id = false) : WellFormed (.prim id contents)
  | cons {id : UInt8} {children : List Elem} (hid : plainId id) (hcons : constructed id)
      (hwrap : explicitTag id → children.length = 1) (hall : ∀ e ∈ children, WellFormed e) :
      WellFormed (.cons id children)

theorem Tlv.octetsAll_eq_flatten (ts : List Tlv) : octetsAll ts = (ts.map octets).flatten := by
  induction ts with
  | nil => rfl
  | cons t ts ih => rw [octetsAll_cons, ih, map_cons, flatten_cons]

theorem Tlv.length_octets_le_octetsAll {ts : List Tlv} (h : t ∈ ts) :
    t.octets.length ≤ (octetsAll ts).length := by
  rw [octetsAll_eq_flatten]
  exact (sublist_flatten_of_mem (mem_map_of_mem h)).length_le

theorem Elem.octets_der_cons (id : UInt8) (es : List Elem) : (Elem.cons id es).der.octets =
    id :: derLength (Tlv.octetsAll (es.map der)).length ++ Tlv.octetsAll (es.map der) := by
  rw [der_cons, Tlv.octets]

def Elem.inner : Elem → List UInt8
  | prim _ contents => contents
  | cons _ children => Tlv.octetsAll (children.map der)

theorem Elem.octets_der (e : Elem) :
    e.der.octets = e.der.id :: derLength e.inner.length ++ e.inner := by
  cases e with
  | prim id contents => rfl
  | cons id children =>
    rw [octets_der_cons]
    rfl

theorem Elem.length_inner_lt {size : Nat} (h : e.der.octets.length < size) :
    e.inner.length < size := by
  rw [octets_der, length_append] at h
  omega

theorem Elem.length_der_child_le {id : UInt8} {es : List Elem} (h : e ∈ es) :
    e.der.octets.length ≤ (cons id es).der.octets.length := by
  have hle := Tlv.length_octets_le_octetsAll (mem_map_of_mem (f := der) h)
  rw [octets_der_cons, length_append]
  exact Nat.le_trans hle (Nat.le_add_left _ _)

theorem Elem.WellFormed.der (h : e.WellFormed) (hsmall : e.der.octets.length < 2 ^ 32) :
    e.der.WellFormed := by
  induction h with
  | prim hid hcons => exact .primitive hid hcons (definite_derLength (length_inner_lt hsmall))
  | @cons id children hid hcons hwrap hall ih =>
    rw [Elem.der_cons]
    refine .definite hid hcons (definite_derLength (length_inner_lt hsmall)) ?_ ?_
    · rw [length_map]
      exact hwrap
    intro t ht
    obtain ⟨e, he, rfl⟩ := mem_map.mp ht
    exact ih e he ((length_der_child_le he).trans_lt hsmall)

namespace Tlv

def number (t : Tlv) : Nat := (t.id &&& 0x1f).toNat

def isIndefinite : Tlv → Bool
  | indefinite _ _ => true
  | _ => false

theorem id_der_erase (t : Tlv) : t.erase.der.id = t.id := by cases t <;> rfl

theorem children_der_erase (t : Tlv) :
    t.erase.der.children = t.children.map fun c => c.erase.der := by
  cases t with
  | primitive id len contents => rfl
  | definite id len children =>
    rw [erase, Elem.der_cons, eraseAll_eq_map]
    simp [Tlv.children]
  | indefinite id children =>
    rw [erase, Elem.der_cons, eraseAll_eq_map]
    simp [Tlv.children]

theorem WellFormed.erase {t : Tlv} (h : t.WellFormed) : t.erase.WellFormed := by
  induction h with
  | primitive hid hprim hlen => exact .prim hid hprim
  | definite hid hcons hlen hwrap hall ih =>
    rw [Tlv.erase, eraseAll_eq_map]
    refine .cons hid hcons (by simpa using hwrap) ?_
    simpa using ih
  | indefinite hid hcons hwrap hall ih =>
    rw [Tlv.erase, eraseAll_eq_map]
    refine .cons hid hcons (by simpa using hwrap) ?_
    simpa using ih

end Tlv

theorem Elem.isIndefinite_der (e : Elem) : e.der.isIndefinite = false := by cases e <;> rfl

/-! ## Structures -/

namespace Elem

def explicit (k : Nat) (e : Elem) : Elem := .cons (0xa0 ||| UInt8.ofNat k) [e]

def application (k : Nat) (e : Elem) : Elem := .cons (0x60 ||| UInt8.ofNat k) [e]

def sequence (es : List Elem) : Elem := .cons 0x30 es

/-- Numbered fields; one that is absent leaves nothing. -/
def fields (fs : List (Nat × Option Elem)) : List Elem :=
  fs.filterMap fun f => f.2.map (explicit f.1)

def record (fs : List (Nat × Option Elem)) : Elem := sequence (fields fs)

theorem fields_cons (k : Nat) (e : Option Elem) (fs : List (Nat × Option Elem)) :
    fields ((k, e) :: fs) = (e.map (explicit k)).toList ++ fields fs := by
  cases e <;> simp [fields]

theorem fields_append (fs gs : List (Nat × Option Elem)) :
    fields (fs ++ gs) = fields fs ++ fields gs := by
  rw [fields, filterMap_append]
  rfl

variable {k : Nat} {e : Elem}

theorem explicit_id (h : k < 31) :
    plainId (0xa0 ||| UInt8.ofNat k) ∧ constructed (0xa0 ||| UInt8.ofNat k) ∧
      contextSpecific (0xa0 ||| UInt8.ofNat k) ∧
      ((0xa0 ||| UInt8.ofNat k) &&& 0x1f).toNat = k := by
  revert k
  decide

theorem application_id (h : k < 31) :
    plainId (0x60 ||| UInt8.ofNat k) ∧ constructed (0x60 ||| UInt8.ofNat k) ∧
      Ber.application (0x60 ||| UInt8.ofNat k) ∧
      ((0x60 ||| UInt8.ofNat k) &&& 0x1f).toNat = k := by
  revert k
  decide

theorem WellFormed.explicit (hk : k < 31) (h : e.WellFormed) : (explicit k e).WellFormed := by
  obtain ⟨hid, hcons, -, -⟩ := explicit_id hk
  exact .cons hid hcons (fun _ => rfl) (by simpa using h)

theorem WellFormed.application (hk : k < 31) (h : e.WellFormed) : (application k e).WellFormed := by
  obtain ⟨hid, hcons, -, -⟩ := application_id hk
  exact .cons hid hcons (fun _ => rfl) (by simpa using h)

theorem WellFormed.sequence (h : ∀ e ∈ es, e.WellFormed) :
    (sequence es).WellFormed :=
  .cons (by decide) (by decide) (fun h => absurd h (by decide)) h

theorem length_der_field_le {fs : List (Nat × Option Elem)} (h : (k, some e) ∈ fs) :
    e.der.octets.length ≤ (record fs).der.octets.length := by
  have hinner : e.der.octets.length ≤ (explicit k e).der.octets.length :=
    length_der_child_le (mem_singleton_self e)
  exact Nat.le_trans hinner (length_der_child_le (mem_filterMap.mpr ⟨_, h, rfl⟩))

end Elem

/-! ## The octets determine the element -/

/-- A length says where it ends. -/
theorem Definite.append_inj {len len' x x' : List UInt8} {n' : Nat} (h : Definite len n)
    (h' : Definite len' n') (heq : len ++ x = len' ++ x') : n = n' ∧ len = len' ∧ x = x' := by
  cases h with
  | @short b hb =>
    cases h' with
    | short hb' =>
      cases heq
      exact ⟨rfl, rfl, rfl⟩
    | long hk hpos =>
      obtain ⟨rfl, -⟩ := cons.inj heq
      have hlt : b.toNat < 128 := UInt8.lt_iff_toNat_lt.mp hb
      omega
  | @long k bs hk hpos =>
    cases h' with
    | @short b hb =>
      obtain ⟨rfl, -⟩ := cons.inj heq
      have hlt : k.toNat < 128 := UInt8.lt_iff_toNat_lt.mp hb
      omega
    | @long k' bs' hk' hpos' =>
      obtain ⟨rfl, hrest⟩ := cons.inj heq
      obtain ⟨rfl, rfl⟩ := List.append_inj hrest (by omega)
      exact ⟨rfl, rfl, rfl⟩

theorem derLength_append_inj {id' : UInt8} {c c' r r' : List UInt8} (h : c.length < 2 ^ 32)
    (h' : c'.length < 2 ^ 32)
    (heq : id :: derLength c.length ++ c ++ r = id' :: derLength c'.length ++ c' ++ r') :
    id = id' ∧ c = c' ∧ r = r' := by
  simp only [cons_append, append_assoc, List.cons.injEq] at heq
  obtain ⟨hlen, -, hrest⟩ := (definite_derLength h).append_inj (definite_derLength h') heq.2
  obtain ⟨hc, hr⟩ := List.append_inj hrest hlen
  exact ⟨heq.1, hc, hr⟩

theorem octetsAll_der_inj {es' : List Elem}
    (h : ∀ e ∈ es, ∀ e' ∈ es', ∀ r r', e.der.octets ++ r = e'.der.octets ++ r' → e = e' ∧ r = r')
    (heq : Tlv.octetsAll (es.map Elem.der) = Tlv.octetsAll (es'.map Elem.der)) : es = es' := by
  induction es generalizing es' with
  | nil =>
    cases es' with
    | nil => rfl
    | cons e' es' =>
      rw [map_cons, Tlv.octetsAll_cons, e'.der.octets_eq] at heq
      cases heq
  | cons e es ih =>
    cases es' with
    | nil =>
      rw [map_cons, Tlv.octetsAll_cons, e.der.octets_eq] at heq
      cases heq
    | cons e' es' =>
      obtain ⟨rfl, hrest⟩ := h e mem_cons_self e' mem_cons_self _ _ heq
      rw [ih (fun a ha a' ha' => h a (mem_cons_of_mem _ ha) a' (mem_cons_of_mem _ ha')) hrest]

/-- An encoding says where it ends. -/
theorem Elem.WellFormed.octets_append_inj {e' : Elem} {r r' : List UInt8} (h : e.WellFormed)
    (h' : e'.WellFormed) (hsmall : e.der.octets.length < 2 ^ 32)
    (hsmall' : e'.der.octets.length < 2 ^ 32) (heq : e.der.octets ++ r = e'.der.octets ++ r') :
    e = e' ∧ r = r' := by
  induction h generalizing e' r r' with
  | @prim id contents hid hcons =>
    rw [Elem.octets_der, Elem.octets_der] at heq
    obtain ⟨hids, hinner, hr⟩ :=
      derLength_append_inj (length_inner_lt hsmall) (length_inner_lt hsmall') heq
    cases h' with
    | prim hid' hcons' =>
      cases hids
      cases hinner
      exact ⟨rfl, hr⟩
    | cons hid' hcons' hwrap hall =>
      cases hids
      rw [hcons] at hcons'
      cases hcons'
  | @cons id children hid hcons hwrap hall ih =>
    rw [Elem.octets_der, Elem.octets_der] at heq
    obtain ⟨hids, hinner, hr⟩ :=
      derLength_append_inj (length_inner_lt hsmall) (length_inner_lt hsmall') heq
    cases h' with
    | prim hid' hcons' =>
      cases hids
      rw [hcons'] at hcons
      cases hcons
    | cons hid' hcons' hwrap' hall' =>
      cases hids
      refine ⟨?_, hr⟩
      rw [octetsAll_der_inj ?_ hinner]
      intro d hd d' hd' s s' hs
      exact ih d hd (hall' d' hd') ((length_der_child_le hd).trans_lt hsmall)
        ((length_der_child_le hd').trans_lt hsmall') hs

/-- One element with a definite length; where its tag is constructed, the contents are a
series of such elements and nothing else. -/
inductive Tiled : List UInt8 → Prop
  | primitive {id : UInt8} {len contents : List UInt8} (hid : plainId id)
      (hcons : constructed id = false) (hlen : Definite len contents.length) :
      Tiled (id :: len ++ contents)
  | constructed {id : UInt8} {len : List UInt8} {children : List (List UInt8)} (hid : plainId id)
      (hcons : constructed id) (hlen : Definite len children.flatten.length)
      (hall : ∀ child ∈ children, Tiled child) : Tiled (id :: len ++ children.flatten)

theorem Elem.WellFormed.tiled (h : e.WellFormed) (hsmall : e.der.octets.length < 2 ^ 32) :
    Tiled e.der.octets := by
  induction h with
  | prim hid hcons => exact .primitive hid hcons (definite_derLength (length_inner_lt hsmall))
  | @cons id children hid hcons hwrap hall ih =>
    have hlen := definite_derLength (length_inner_lt hsmall)
    rw [inner, Tlv.octetsAll_eq_flatten] at hlen
    rw [Elem.octets_der_cons, Tlv.octetsAll_eq_flatten]
    refine .constructed hid hcons hlen fun child hchild => ?_
    obtain ⟨t, ht, rfl⟩ := mem_map.mp hchild
    obtain ⟨c, hc, rfl⟩ := mem_map.mp ht
    exact ih c hc ((length_der_child_le hc).trans_lt hsmall)

end Krb5.Lib.Ber
