import Krb5.Asn1.Fetch
import Krb5.Lib.Ber

/-!
# The field scanner on well-formed elements

What `asn1length` and `fetch_asn1_field` compute when the octets are those of a
tree of elements. The scanner measures an element by its length octets, of which
it takes at most four, and one of indefinite length by measuring what is inside:
`Scannable`. It does not know an indefinite length with nothing inside.
-/

namespace Krb5.Asn1

open Lib.Ber List Memory
open Tlv (octetsAll octetsAll_cons octetsAll_nil)

/-- The scanner can measure the element and, for `depth` levels, those inside.
Inside an indefinite length it has to measure all of them. -/
inductive Scannable : Nat → Tlv → Prop
  | primitive {depth : Nat} {id : UInt8} {len contents : Octets} (hlen : len.length ≤ 4) :
      Scannable depth (.primitive id len contents)
  | definite {depth : Nat} {id : UInt8} {len : Octets} {children : List Tlv}
      (hlen : len.length ≤ 4) (hall : 0 < depth → ∀ t ∈ children, Scannable (depth - 1) t) :
      Scannable depth (.definite id len children)
  | indefinite {depth : Nat} {id : UInt8} {children : List Tlv} (hne : children ≠ [])
      (hall : ∀ t ∈ children, Scannable (depth - 1) t) :
      Scannable depth (.indefinite id children)

variable {depth : Nat} {t : Tlv} {mem : Memory}

theorem Scannable.length_len_le (h : Scannable depth t) : t.len.length ≤ 4 := by
  cases h with
  | primitive hlen => exact hlen
  | definite hlen hall => exact hlen
  | indefinite hne hall => simp [Tlv.len]

theorem Scannable.child {c : Tlv} (h : Scannable (depth + 1) t) (hc : c ∈ t.children) :
    Scannable depth c := by
  cases h with
  | primitive => simp [Tlv.children] at hc
  | definite hlen hall => exact hall (by omega) c hc
  | indefinite hne hall => exact hall c hc

def Memory.reads (mem : Memory) : Nat → Option UInt8 := fun i => some (mem i)

@[simp] theorem Memory.reads_eq {i : Nat} {b : UInt8} :
    mem.reads i = some b ↔ mem i = b := by simp [reads]

theorem hasAt_inMemory {pkt : Octets} {behind : Memory} {p : Nat} {bs : Octets}
    (h : HasAt (fun i => pkt[i]?) p bs) : HasAt (inMemory pkt behind).reads p bs := by
  refine h.of_read ?_
  intro i b hb
  rw [reads_eq, inMemory]
  simp [hb]

section

variable {p fuel n : Nat}

/-! ## Lengths -/

theorem lengthOctets_eq {bs : Octets} (h : HasAt mem.reads p bs) :
    lengthOctets mem bs.length p n = bs.foldl (fun n b => n * 256 + b.toNat) n := by
  induction bs generalizing p n with
  | nil => rfl
  | cons b bs ih =>
    rw [hasAt_cons, reads_eq] at h
    rw [length_cons, lengthOctets, h.1, ih h.2, foldl_cons]

theorem asn1length_definite {len : Octets} (hd : Definite len n) (hlen : len.length ≤ 4)
    (h : HasAt mem.reads p len) :
    asn1length mem (fuel + 1) p = some (some (n, p + len.length)) := by
  cases hd with
  | short hb =>
    rw [hasAt_cons, reads_eq] at h
    rw [asn1length, h.1]
    simp [(short_octet hb).1]
  | @long k bs hk hpos =>
    rw [hasAt_cons, reads_eq] at h
    obtain ⟨hbit, hcnt⟩ := long_octet hk
    have hthree : ¬bs.length > 3 := by
      rw [length_cons] at hlen
      omega
    have hval : lengthOctets mem bs.length (p + 1) 0 = bigEndian bs := lengthOctets_eq h.2
    simp only [asn1length, h.1, hcnt]
    rw [if_pos hbit, if_neg hthree, if_neg (by omega)]
    simp only [length_cons]
    congr 3
    omega

/-- Length octets and contents of an element that can be measured: a length of at most four octets
and as many octets as it says, or zero for the length, elements that can be measured, and two zero
octets. No element but the first begins with two zero octets. -/
inductive Measured : Octets → Octets → Prop
  | definite {len contents : Octets} (hdef : Definite len contents.length) (hlen : len.length ≤ 4) :
      Measured len contents
  | indefinite {n : Nat} {ts : List Tlv} (hn : n ≤ 3) (hne : ts ≠ [])
      (hall : ∀ t ∈ ts, Measured t.len t.contents)
      (hend : ∀ t ∈ ts.tail, ¬(t.id = 0 ∧ t.len.head? = some 0)) :
      Measured (UInt8.ofNat (0x80 + n) :: replicate n 0) (octetsAll ts ++ [0, 0])

theorem Measured.len_ne_nil {len contents : Octets} (h : Measured len contents) : len ≠ [] := by
  cases h with
  | definite hdef => exact ne_nil_of_length_pos hdef.length_pos
  | indefinite => exact cons_ne_nil _ _

/-- The `while (1)` loop finds the end if it can measure each element. -/
theorem indefiniteEnd_all {ts : List Tlv} (hne : ts ≠ [])
    (hall : ∀ t ∈ ts, Measured t.len t.contents)
    (hend : ∀ t ∈ ts.tail, ¬(t.id = 0 ∧ t.len.head? = some 0))
    (hmeasure : ∀ t ∈ ts, ∀ {p fuel : Nat}, HasAt mem.reads p t.octets →
      t.octets.length ≤ fuel →
      asn1length mem fuel (p + 1) = some (some (t.contents.length, p + 1 + t.len.length)))
    (h : HasAt mem.reads p (octetsAll ts ++ [0, 0]))
    (hfuel : (octetsAll ts).length < fuel) :
    indefiniteEnd mem fuel (p + 1) = some (some (p + (octetsAll ts).length + 2)) := by
  induction ts generalizing p fuel with
  | nil => exact absurd rfl hne
  | cons t ts ih =>
    obtain _ | fuel := fuel
    · omega
    rw [octetsAll_cons, append_assoc, hasAt_append] at h
    rw [octetsAll_cons, length_append] at hfuel ⊢
    have hlen := t.length_octets
    have hend : p + 1 + t.len.length + t.contents.length = p + t.octets.length := by omega
    rw [indefiniteEnd, hmeasure t mem_cons_self h.1 (by omega)]
    simp only [hend]
    cases ts with
    | nil =>
      have hz : mem (p + t.octets.length) = 0 ∧ mem (p + t.octets.length + 1) = 0 := by
        simpa using h.2
      rw [if_pos hz]
      simp
    | cons t' ts =>
      -- the next element does not look like the end
      have hmore : ¬(mem (p + t.octets.length) = 0 ∧ mem (p + t.octets.length + 1) = 0) := by
        have hnext := h.2
        rw [octetsAll_cons, append_assoc, hasAt_append, Tlv.hasAt_octets, reads_eq] at hnext
        rintro ⟨hid, hlen⟩
        refine hend t' mem_cons_self ⟨hnext.1.1.symm.trans hid, ?_⟩
        cases hlen' : t'.len with
        | nil => exact absurd hlen' (hall t' (by simp)).len_ne_nil
        | cons b bs =>
          rw [hlen', hasAt_cons, reads_eq, hlen] at hnext
          rw [head?_cons, hnext.1.2.1.1]
      have hroom : (octetsAll (t' :: ts)).length < fuel := by omega
      rw [if_neg hmore, ih (by simp) (fun t ht => hall t (mem_cons_of_mem _ ht))
        (fun t ht => hend t (mem_of_mem_tail ht))
        (fun t ht => hmeasure t (mem_cons_of_mem _ ht)) h.2 hroom]
      congr 2
      omega

/-- What can be measured is measured. -/
theorem asn1length_measured {len contents : Octets} (hm : Measured len contents)
    (h : HasAt mem.reads p (len ++ contents)) (hfuel : len.length + contents.length < fuel) :
    asn1length mem fuel p = some (some (contents.length, p + len.length)) := by
  induction hm generalizing p fuel with
  | definite hdef hlen =>
    obtain _ | fuel := fuel
    · omega
    exact asn1length_definite hdef hlen (hasAt_append.mp h).1
  | @indefinite n ts hn hne hall hend ih =>
    simp only [length_append, length_cons, length_replicate, length_nil] at hfuel ⊢
    obtain _ | fuel := fuel
    · omega
    rw [hasAt_append, length_cons, length_replicate] at h
    obtain ⟨⟨hk, hzeros⟩, hcont⟩ := h
    have hk : mem p = UInt8.ofNat (0x80 + n) := reads_eq.mp hk
    obtain ⟨hbit, hcnt⟩ := @long_octet n (UInt8.ofNat (0x80 + n)) (by simp; omega)
    have hval : lengthOctets mem n (p + 1) 0 = 0 := by
      have := @lengthOctets_eq mem _ 0 _ hzeros
      rw [length_replicate] at this
      rw [this]
      clear * -
      induction n with
      | zero => rfl
      | succ n ih => exact ih
    have hloop : indefiniteEnd mem fuel (p + (n + 1) + 1) =
        some (some (p + (n + 1) + (octetsAll ts).length + 2)) := by
      refine indefiniteEnd_all hne hall hend ?_ hcont (by omega)
      intro t ht p fuel hat hroom
      rw [t.octets_eq, hasAt_cons] at hat
      rw [t.length_octets] at hroom
      exact ih t ht hat.2 (by omega)
    have hq : p + 1 + n = p + (n + 1) := by omega
    simp only [asn1length, hk, hcnt, hval, hq, hloop, if_pos hbit, if_neg (Nat.not_lt.mpr hn), if_true,
      Option.map_some]
    congr 3
    omega

theorem Scannable.measured (hs : Scannable depth t) (hwf : t.WellFormed) :
    Measured t.len t.contents := by
  induction hs with
  | primitive hlen =>
    cases hwf with
    | primitive hid hcons hdef => exact .definite hdef hlen
  | definite hlen hall ih =>
    cases hwf with
    | definite hid hcons hdef hwrap hkids => exact .definite hdef hlen
  | indefinite hne hall ih =>
    refine @Measured.indefinite 0 _ (by decide) hne (fun t ht => ih t ht (hwf.child ht)) ?_
    intro t ht hzero
    exact (hwf.child (mem_of_mem_tail ht)).id_ne_zero hzero.1

theorem asn1length_tlv (hs : Scannable depth t) (hwf : t.WellFormed)
    (h : HasAt mem.reads p t.octets) (hfuel : t.octets.length ≤ fuel) :
    asn1length mem fuel (p + 1) = some (some (t.contents.length, p + 1 + t.len.length)) := by
  rw [t.octets_eq, hasAt_cons] at h
  rw [t.length_octets] at hfuel
  exact asn1length_measured (hs.measured hwf) h.2 (by omega)

/-! ## Fields -/

/-- The next call, unless there is no fuel or this one has failed. -/
def andThen {α β : Type} (r : Option (Option α)) (next : α → Option (Option β)) :
    Option (Option β) :=
  r.bind fun a? => a?.elim (some none) next

/-- The state of the scanner behind a field. -/
def Behind (classes : Int) (levels : Nat) (lastlevel : Int) : Option Nat → Prop
  | none => levels = 0 ∧ lastlevel = 1000
  | some t => classes = t ∧ levels = 1 ∧ lastlevel = t

variable {field estream levels : Nat} {classes lastlevel : Int} {last : Option Nat}

theorem idTag_lt (id : UInt8) : idTag id < 32 := by
  have := Nat.and_le_right (n := id.toNat) (m := 31)
  simp [idTag]
  omega

theorem Behind.level {id : UInt8} (hb : Behind classes levels lastlevel last)
    (hrise : ∀ t ∈ last, t < idTag id) :
    (if (idTag id : Int) ≤ lastlevel then levels + 1 else levels) = 1 ∧
      ¬(idTag id : Int) ≤ if (idTag id : Int) ≤ lastlevel then -1 else classes := by
  have htag := idTag_lt id
  cases last with
  | none =>
    obtain ⟨rfl, rfl⟩ := hb
    rw [if_pos (by omega), if_pos (by omega)]
    omega
  | some t =>
    obtain ⟨rfl, rfl, rfl⟩ := hb
    have := hrise t rfl
    rw [if_neg (by omega), if_neg (by omega)]
    omega

section

variable (hb : Behind classes levels lastlevel last)
include hb

theorem scanField_header (hlt : p < estream) (hcons : constructed (mem p))
    (hctx : contextSpecific (mem p) = false) :
    scanField mem 1 field estream (fuel + 1) p classes levels lastlevel =
      andThen (asn1length mem fuel (p + 1)) fun r =>
        scanField mem 1 field estream fuel (if last = none then r.2 else r.2 + r.1) classes levels
          lastlevel := by
  have hc : idConstructed (mem p) := hcons
  have hx : idContext (mem p) = false := hctx
  cases last with
  | none =>
    obtain ⟨rfl, rfl⟩ := hb
    simp only [scanField, hlt, hc, hx]
    rcases asn1length mem fuel (p + 1) with _ | _ | ⟨n, q⟩ <;> simp [andThen]
  | some t =>
    obtain ⟨rfl, rfl, rfl⟩ := hb
    simp only [scanField, hlt, hc, hx]
    rcases asn1length mem fuel (p + 1) with _ | _ | ⟨n, q⟩ <;> simp [andThen]

theorem scanField_rising (hlt : p < estream) (hcons : constructed (mem p))
    (hctx : contextSpecific (mem p)) (hrise : ∀ t ∈ last, t < idTag (mem p)) :
    scanField mem 1 field estream (fuel + 1) p classes levels lastlevel =
      andThen (asn1length mem fuel (p + 1)) fun r =>
        if idTag (mem p) = field then
          some (some (r.2, if mem (p + 1) = 0x80 then r.1 - 2 else r.1))
        else
          scanField mem 1 field estream fuel (r.2 + r.1) (idTag (mem p)) 1 (idTag (mem p)) := by
  have hc : idConstructed (mem p) := hcons
  have hx : idContext (mem p) := hctx
  obtain ⟨hlevel, hnew⟩ := hb.level hrise
  simp only [scanField, hlt, hc, hx, hlevel, hnew, Bool.true_and, decide_eq_true_eq, true_and,
    not_true_eq_false, Bool.not_true, Bool.false_eq_true, if_false, if_true]
  by_cases heq : idTag (mem p) = field <;> simp only [heq, if_true, if_false] <;>
    rcases asn1length mem fuel (p + 1) with _ | _ | ⟨n, q⟩ <;> rfl

end

/-- The two end-of-contents octets are taken off an indefinite length. -/
theorem savelen_spec (hwf : t.WellFormed) (hcons : constructed t.id)
    (h : HasAt mem.reads p t.octets) :
    (if mem (p + 1) = 0x80 then t.contents.length - 2 else t.contents.length) =
      (octetsAll t.children).length := by
  have hlen := (Tlv.hasAt_octets.mp h).2.1
  cases hwf with
  | primitive hid hprim hdef =>
    rw [Tlv.id] at hcons
    rw [hcons] at hprim
    cases hprim
  | @definite id len children hid hcons' hdef hwrap hall =>
    cases len with
    | nil => exact absurd hdef.length_pos (by simp)
    | cons b bs =>
      have hb : mem (p + 1) = b := reads_eq.mp hlen.1
      rw [hb, if_neg hdef.head_ne]
      rfl
  | indefinite hid hcons' hwrap hall =>
    have hb : mem (p + 1) = 0x80 := reads_eq.mp hlen.1
    rw [hb]
    simp [Tlv.contents, Tlv.children]

section

variable (hs : Scannable depth t) (hwf : t.WellFormed) (h : HasAt mem.reads p t.octets)
  (hfuel : t.octets.length ≤ fuel) (hcons : constructed t.id) (hlt : p < estream)
include hs hwf h hfuel hcons hlt

theorem scanField_enter (hctx : contextSpecific t.id = false) :
    scanField mem 1 field estream (fuel + 1) p classes 0 1000 =
      scanField mem 1 field estream fuel (p + 1 + t.len.length) classes 0 1000 := by
  have hid : mem p = t.id := reads_eq.mp (Tlv.hasAt_octets.mp h).1
  rw [@scanField_header _ _ _ _ _ _ _ _ none ⟨rfl, rfl⟩ hlt (hid ▸ hcons) (hid ▸ hctx),
    asn1length_tlv hs hwf h hfuel]
  rfl

theorem scanField_tlv (hb : Behind classes levels lastlevel last) (hctx : contextSpecific t.id)
    (hrise : ∀ n ∈ last, n < idTag t.id) :
    scanField mem 1 field estream (fuel + 1) p classes levels lastlevel =
      if idTag t.id = field then
        some (some (p + 1 + t.len.length, (octetsAll t.children).length))
      else
        scanField mem 1 field estream fuel (p + t.octets.length) (idTag t.id) 1 (idTag t.id) := by
  have hid : mem p = t.id := reads_eq.mp (Tlv.hasAt_octets.mp h).1
  have hnext : p + 1 + t.len.length + t.contents.length = p + t.octets.length := by
    rw [Tlv.length_octets]
    omega
  rw [scanField_rising hb hlt (hid ▸ hcons) (hid ▸ hctx) (hid ▸ hrise),
    asn1length_tlv hs hwf h hfuel, hid, ← savelen_spec hwf hcons h, ← hnext]
  rfl

end

/-- Fields with rising numbers are passed until the one that is wanted. -/
theorem scanField_fields {front : List Tlv} {w : Tlv}
    (hs : ∀ c ∈ front ++ [w], Scannable depth c) (hwf : ∀ c ∈ front ++ [w], c.WellFormed)
    (hfield : ∀ c ∈ front ++ [w], constructed c.id ∧ contextSpecific c.id)
    (hrising : (front ++ [w]).Pairwise fun a b => idTag a.id < idTag b.id)
    (hb : Behind classes levels lastlevel last) (hlast : ∀ c ∈ front ++ [w], ∀ n ∈ last, n < idTag c.id)
    (h : HasAt mem.reads p (octetsAll front ++ w.octets))
    (hfuel : (octetsAll front ++ w.octets).length < fuel)
    (hlt : p + (octetsAll front).length < estream) :
    scanField mem 1 (idTag w.id) estream fuel p classes levels lastlevel =
      some (some (p + (octetsAll front).length + 1 + w.len.length,
        (octetsAll w.children).length)) := by
  induction front generalizing p fuel classes levels lastlevel last with
  | nil =>
    obtain _ | fuel := fuel
    · omega
    simp only [nil_append, mem_singleton, forall_eq, octetsAll_nil] at hs hwf hfield hlast h hfuel hlt
    rw [scanField_tlv hs hwf h (by omega) hfield.1 hlt hb hfield.2 hlast, if_pos rfl]
    rfl
  | cons c front ih =>
    obtain _ | fuel := fuel
    · omega
    rw [cons_append, pairwise_cons] at hrising
    rw [octetsAll_cons, append_assoc, hasAt_append] at h
    simp only [octetsAll_cons, length_append] at hfuel hlt ⊢
    have hc : c ∈ c :: (front ++ [w]) := mem_cons_self
    have hbelow : idTag c.id < idTag w.id := hrising.1 w (by simp)
    have hroom : (octetsAll front ++ w.octets).length < fuel := by
      have := c.length_octets
      rw [length_append]
      omega
    rw [scanField_tlv (hs c hc) (hwf c hc) h.1 (by omega) (hfield c hc).1 (by omega) hb (hfield c hc).2
        (hlast c hc), if_neg hbelow.ne,
      @ih _ _ _ _ _ (some (idTag c.id)) (fun c' hc' => hs c' (mem_cons_of_mem _ hc'))
        (fun c' hc' => hwf c' (mem_cons_of_mem _ hc'))
        (fun c' hc' => hfield c' (mem_cons_of_mem _ hc')) hrising.2 ⟨rfl, rfl, rfl⟩ ?_ h.2 hroom
        (by omega)]
    · congr 3
      omega
    · -- behind `c` every tag is above that of `c`
      rintro c' hc' _ ⟨⟩
      exact hrising.1 c' hc'

end

/-- `fetch_asn1_field` on a message whose first element holds fields with rising
tags. The end of the stream is taken from before the length octets of the
message; a wanted field of more than four octets still starts before it. -/
theorem fetchAsn1Field_tlv {fuel : Nat} {s w : Tlv} {more front rest : List Tlv}
    (hs : Scannable 2 t) (hwf : t.WellFormed) (h : HasAt mem.reads 0 t.octets)
    (hfuel : t.octets.length ≤ fuel) (hmsg : t.children = s :: more) (hcons : constructed s.id)
    (hctx : contextSpecific s.id = false) (hfields : s.children = front ++ w :: rest)
    (hfield : ∀ c ∈ front ++ [w], constructed c.id ∧ contextSpecific c.id)
    (hrising : (front ++ [w]).Pairwise fun a b => idTag a.id < idTag b.id)
    (hlarge : 4 < w.octets.length) :
    fetchAsn1Field fuel mem 1 (idTag w.id) =
      some (some (1 + t.len.length + (1 + s.len.length) + (octetsAll front).length + 1 +
        w.len.length, (octetsAll w.children).length)) := by
  have hsmem : s ∈ t.children := by simp [hmsg]
  have hss : Scannable 1 s := hs.child hsmem
  have hswf : s.WellFormed := hwf.child hsmem
  have hmem : ∀ c ∈ front ++ [w], c ∈ s.children := by
    intro c hc
    rw [hfields]
    simp only [mem_append, mem_cons] at hc ⊢
    tauto
  -- where the first element and its fields are
  have hsat : HasAt mem.reads (1 + t.len.length) s.octets := by
    have := Tlv.hasAt_children h
    rw [hmsg, octetsAll_cons, hasAt_append] at this
    exact this.1
  have hfat : HasAt mem.reads (1 + t.len.length + 1 + s.len.length)
      (octetsAll front ++ w.octets) := by
    have := Tlv.hasAt_children hsat
    rw [hfields, Tlv.octetsAll_append, octetsAll_cons, ← append_assoc, hasAt_append] at this
    exact this.1
  have hlen := hs.length_len_le
  have htsize := t.length_octets
  have hssize := s.length_octets
  have hmsize : s.octets.length ≤ t.contents.length := by
    have := t.length_children_le
    rw [hmsg, octetsAll_cons, length_append] at this
    omega
  have hfsize : (octetsAll front).length + w.octets.length ≤ s.contents.length := by
    have := s.length_children_le
    rw [hfields, Tlv.octetsAll_append, octetsAll_cons, length_append, length_append] at this
    omega
  have houter := asn1length_tlv hs hwf h hfuel
  obtain _ | fuel := fuel
  · omega
  rw [fetchAsn1Field, houter]
  show scanField mem 1 (idTag w.id) (1 + t.contents.length) (fuel + 1) (1 + t.len.length)
    (-1) 0 1000 = _
  rw [scanField_enter hss hswf hsat (by omega) hcons (by omega) hctx,
    @scanField_fields _ _ _ _ _ _ _ _ none _ _ (fun c hc => hss.child (hmem c hc))
      (fun c hc => hswf.child (hmem c hc)) hfield hrising ⟨rfl, rfl⟩ (fun _ _ => nofun) hfat
      (by rw [length_append]; omega) (by omega)]
  congr 3
  omega

end Krb5.Asn1
