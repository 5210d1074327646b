import Krb5.Asn1.FetchFacts
import Krb5.Asn1.LengthForm

/-!
# The decoder and the field scanner on one request

The KDC reads a TGS request twice: the decoder makes the structure it acts on,
and the scanner finds the octets of the request body that the checksum in the
authenticator is to cover. `HasField` says which encodings the scanner follows to a field; the two
are about the same octets where that field stands at the body.
-/

namespace Krb5.Asn1

open Lib Lib.Ber List Tlv Memory

variable {mem : Memory} {p fuel n q : Nat}

/-! ## Lengths -/

/-- What `asn1length` returns is the measure of an element. -/
def Measures (mem : Memory) (p n q : Nat) : Prop :=
  ∃ len contents, Measured len contents ∧ HasAt mem.reads p (len ++ contents) ∧
    n = contents.length ∧ q = p + len.length

/-- The elements of an indefinite length, from `p` to `e`. -/
def RunsTo (mem : Memory) (p e : Nat) : Prop :=
  ∃ ts : List Tlv, ts ≠ [] ∧ (∀ t ∈ ts, Measured t.len t.contents) ∧
    (∀ t ∈ ts.tail, ¬(t.id = 0 ∧ t.len.head? = some 0)) ∧
    HasAt mem.reads p (octetsAll ts ++ [0, 0]) ∧ e = p + (octetsAll ts).length + 2

/-- The element at `p`, whose length octets `asn1length` measures. -/
theorem exists_tlv (h : Measures mem (p + 1) n q) :
    ∃ t : Tlv, Measured t.len t.contents ∧ HasAt mem.reads p t.octets ∧
      q + n = p + t.octets.length := by
  obtain ⟨len, contents, hmeasured, hat, rfl, rfl⟩ := h
  refine ⟨.primitive (mem p) len contents, hmeasured, ?_, ?_⟩
  · rw [Tlv.hasAt_octets]
    exact ⟨reads_eq.mpr rfl, hasAt_append.mp hat⟩
  · rw [Tlv.length_octets]
    simp only [Tlv.len, Tlv.contents]
    omega

theorem RunsTo.last (h : Measures mem (p + 1) n q) (hz : mem (q + n) = 0 ∧ mem (q + n + 1) = 0) :
    RunsTo mem p (q + n + 2) := by
  obtain ⟨t, hmeasured, hat, hnext⟩ := exists_tlv h
  rw [hnext] at hz ⊢
  refine ⟨[t], by simp, by simpa using hmeasured, by simp, ?_, by simp⟩
  rw [octetsAll_cons, octetsAll_nil, append_nil, hasAt_append]
  exact ⟨hat, by simpa using hz⟩

/-- The two octets behind the first element are not its end-of-contents octets. -/
theorem RunsTo.cons {e : Nat} (h : Measures mem (p + 1) n q)
    (hz : ¬(mem (q + n) = 0 ∧ mem (q + n + 1) = 0)) (hruns : RunsTo mem (q + n) e) :
    RunsTo mem p e := by
  obtain ⟨t, hmeasured, hat, hnext⟩ := exists_tlv h
  rw [hnext] at hz hruns
  obtain ⟨ts, hne, hall, hends, hts, he⟩ := hruns
  refine ⟨t :: ts, by simp, ?_, ?_, ?_, ?_⟩
  · rw [forall_mem_cons]
    exact ⟨hmeasured, hall⟩
  · cases ts with
    | nil => exact absurd rfl hne
    | cons t' ts =>
      rw [tail_cons, forall_mem_cons]
      refine ⟨?_, hends⟩
      rintro ⟨hid, hhead⟩
      obtain ⟨rest, hrest⟩ : ∃ rest, t'.len = 0 :: rest := by
        cases hlen' : t'.len with
        | nil => simp [hlen'] at hhead
        | cons b rest => simp_all
      rw [octetsAll_cons, append_assoc, hasAt_append, Tlv.hasAt_octets, hid, hrest] at hts
      simp only [reads_eq, hasAt_cons] at hts
      exact hz ⟨hts.1.1, hts.1.2.1.1⟩
  · rw [octetsAll_cons, append_assoc, hasAt_append]
    exact ⟨hat, hts⟩
  · rw [octetsAll_cons, length_append]
    omega

section LongForm

variable {bs : Octets} (hat : HasAt mem.reads p (mem p :: bs))
  (hk : (mem p).toNat = 0x80 + bs.length) (hbs : bs.length ≤ 3)

include hat hk hbs

end LongForm

/-- More fuel does not change an answer. -/
theorem asn1length_succ (mem : Memory) (fuel : Nat) :
    (∀ {p r}, asn1length mem fuel p = some r → asn1length mem (fuel + 1) p = some r) ∧
      ∀ {p r}, indefiniteEnd mem fuel p = some r → indefiniteEnd mem (fuel + 1) p = some r := by
  induction fuel with
  | zero => exact ⟨nofun, nofun⟩
  | succ fuel ih =>
    constructor
    · intro p r h
      rw [asn1length] at h ⊢
      dsimp only at h ⊢
      split
      · rename_i hlong
        rw [if_pos hlong] at h
        split
        · rename_i hthree
          rwa [if_pos hthree] at h
        rename_i hthree
        rw [if_neg hthree] at h
        split
        · rename_i hzero
          rw [if_pos hzero, Option.map_eq_some_iff] at h
          obtain ⟨e, he, rfl⟩ := h
          rw [ih.2 he, Option.map_some]
        · rename_i hpos
          rwa [if_neg hpos] at h
      · rename_i hshort
        rwa [if_neg hshort] at h
    · intro p r h
      rw [indefiniteEnd] at h ⊢
      cases hlen : asn1length mem fuel p with
      | none => simp [hlen] at h
      | some m =>
        rw [ih.1 hlen]
        rw [hlen] at h
        rcases m with _ | ⟨sublen, q⟩
        · exact h
        · dsimp only at h ⊢
          split
          · rename_i hz
            rwa [if_pos hz] at h
          · rename_i hz
            rw [if_neg hz] at h
            exact ih.2 h

theorem asn1length_le {fuel' : Nat} {r : Option (Nat × Nat)} (hle : fuel ≤ fuel')
    (h : asn1length mem fuel p = some r) : asn1length mem fuel' p = some r := by
  induction hle with
  | refl => exact h
  | step _ ih => exact (asn1length_succ mem _).1 ih

/-- With enough fuel the result is `r`, and with less it is no other. -/
def Settles {α : Type} (f : Nat → Option (Option α)) (r : α) : Prop :=
  ∃ enough, ∀ fuel, f fuel = some (some r) ∨ fuel < enough ∧ f fuel = none

theorem Settles.step {α β : Type} {f : Nat → Option (Option β)} {g : Nat → Option (Option α)}
    {k : α → Nat → Option (Option β)} {a : α} {r : β} (hzero : f 0 = none)
    (hsucc : ∀ fuel, f (fuel + 1) = andThen (g fuel) fun a => k a fuel)
    (hg : Settles g a) (hk : Settles (k a) r) : Settles f r := by
  obtain ⟨enough, hg⟩ := hg
  obtain ⟨enough', hk⟩ := hk
  refine ⟨max enough enough' + 1, ?_⟩
  rintro (_ | fuel)
  · exact .inr ⟨by omega, hzero⟩
  rw [hsucc]
  rcases hg fuel with hg | ⟨hlt, hg⟩ <;> rw [hg]
  · exact (hk fuel).imp_right fun h => ⟨by omega, h.2⟩
  · exact .inr ⟨by omega, rfl⟩

theorem Measures.settles (h : Measures mem p n q) : Settles (asn1length mem · p) (n, q) := by
  obtain ⟨len, contents, hm, hat, rfl, rfl⟩ := h
  refine ⟨len.length + contents.length + 1, fun fuel => ?_⟩
  dsimp only
  cases hlen : asn1length mem fuel p with
  | none =>
    refine .inr ⟨?_, rfl⟩
    by_contra hfuel
    rw [asn1length_measured hm hat (by omega)] at hlen
    cases hlen
  | some r =>
    have hmax := asn1length_le (Nat.le_max_left fuel (len.length + contents.length + 1)) hlen
    rw [asn1length_measured hm hat (Nat.lt_of_succ_le (Nat.le_max_right ..))] at hmax
    exact .inl hmax.symm

/-! ## Fields -/

/-- A constructed element that can be measured stands at `p`, its contents of length `n` at `q`. -/
structure ElementAt (mem : Memory) (estream p n q : Nat) : Prop where
  before : p < estream
  constructed : constructed (mem p)
  measures : Measures mem (p + 1) n q

/-- From `p` on stand headers, then the fields of a structure with rising numbers, up to the one that
is wanted. `last` is the number of the last field so far; elements between fields are passed over. -/
inductive FieldAt (mem : Memory) (field estream : Nat) : Option Nat → Nat → Nat → Nat → Prop
  | enter {p n q start length : Nat} (helem : ElementAt mem estream p n q)
      (hctx : contextSpecific (mem p) = false) (h : FieldAt mem field estream none q start length) :
      FieldAt mem field estream none p start length
  | pass {last p n q start length : Nat} (helem : ElementAt mem estream p n q)
      (hctx : contextSpecific (mem p) = false)
      (h : FieldAt mem field estream (some last) (q + n) start length) :
      FieldAt mem field estream (some last) p start length
  | next {last : Option Nat} {p n q start length : Nat} (helem : ElementAt mem estream p n q)
      (hctx : contextSpecific (mem p)) (hrise : ∀ t ∈ last, t < idTag (mem p))
      (hne : idTag (mem p) ≠ field)
      (h : FieldAt mem field estream (some (idTag (mem p))) (q + n) start length) :
      FieldAt mem field estream last p start length
  | here {last : Option Nat} {p n q : Nat} (helem : ElementAt mem estream p n q)
      (hctx : contextSpecific (mem p)) (hrise : ∀ t ∈ last, t < idTag (mem p))
      (heq : idTag (mem p) = field) :
      FieldAt mem field estream last p q (if mem (p + 1) = 0x80 then n - 2 else n)

variable {field estream levels : Nat} {classes lastlevel : Int} {last : Option Nat}

theorem FieldAt.settles {start length : Nat} (h : FieldAt mem field estream last p start length)
    (hb : Behind classes levels lastlevel last) :
    Settles (scanField mem 1 field estream · p classes levels lastlevel) (start, length) := by
  induction h generalizing classes levels lastlevel with
  | enter helem hctx _ ih =>
    exact .step rfl (fun _ => scanField_header hb helem.before helem.constructed hctx)
      helem.measures.settles (ih hb)
  | pass helem hctx _ ih =>
    exact .step rfl (fun _ => scanField_header hb helem.before helem.constructed hctx)
      helem.measures.settles (ih hb)
  | next helem hctx hrise hne _ ih =>
    refine .step rfl (fun _ => scanField_rising hb helem.before helem.constructed hctx hrise)
      helem.measures.settles ?_
    simp only [hne, if_false]
    exact ih ⟨rfl, rfl, rfl⟩
  | here helem hctx hrise heq =>
    refine .step rfl (fun _ => scanField_rising hb helem.before helem.constructed hctx hrise)
      helem.measures.settles ⟨0, fun _ => .inl (if_pos heq)⟩

/-- The message says how far its fields can stand, counted from its length octets on. -/
def HasField (mem : Memory) (field start length : Nat) : Prop :=
  ∃ n q, Measures mem 1 n q ∧ FieldAt mem field (1 + n) none q start length

theorem HasField.settles {start length : Nat} (h : HasField mem field start length) :
    Settles (fetchAsn1Field · mem 1 field) (start, length) := by
  obtain ⟨n, q, hlen, hfield⟩ := h
  obtain ⟨enough, hlen⟩ := hlen.settles
  obtain ⟨enough', hfield⟩ := @FieldAt.settles _ _ _ _ _ (-1) _ _ _ _ hfield ⟨rfl, rfl⟩
  refine ⟨max enough enough', fun fuel => ?_⟩
  dsimp only at hlen ⊢
  unfold fetchAsn1Field
  rcases hlen fuel with hlen | ⟨hlt, hlen⟩ <;> rw [hlen]
  · exact (hfield fuel).imp_right fun h => ⟨by omega, h.2⟩
  · exact .inr ⟨by omega, rfl⟩

open Elem

theorem length_derLength_le {n : Nat} (h : n < 2 ^ 24) : (derLength n).length ≤ 4 := by
  simp only [derLength, digits]
  split_ifs <;> simp
  omega

theorem scannable_der {depth : Nat} {e : Elem} (h : e.der.octets.length < 2 ^ 24) :
    Scannable depth e.der := by
  have hlen := length_derLength_le (e.length_inner_lt h)
  cases e with
  | prim id contents => exact .primitive hlen
  | cons id es =>
    rw [der_cons]
    refine .definite hlen fun hpos c hc => ?_
    obtain ⟨e, he, rfl⟩ := mem_map.mp hc
    exact scannable_der (Nat.lt_of_le_of_lt (length_der_child_le he) h)
termination_by depth

/-- The body is the last field of a request. -/
theorem der_kdcReqElem (realm : Octets) (x : KdcReq) : ∃ len front id len',
    let ws := front ++ [.definite id len' [(kdcReqBodyElem realm x).der]]
    (kdcReqElem 12 realm x).der = .definite 0x30 len ws ∧ idTag id = 4 ∧
    (∀ c ∈ ws, constructed c.id ∧ contextSpecific c.id) ∧
    ws.Pairwise fun a b => idTag a.id < idTag b.id := by
  rw [kdcReqElem]
  cases nonempty x.padata with
  | none =>
    refine ⟨_, [(explicit 1 kvnoElem).der, (explicit 2 (int32Elem 12)).der], _, _, rfl, ?_⟩
    simp [explicit, der_cons, Tlv.id]
    decide
  | some padata =>
    refine ⟨_, [(explicit 1 kvnoElem).der, (explicit 2 (int32Elem 12)).der,
      (explicit 3 (arrayElem paDataElem padata)).der], _, _, rfl, ?_⟩
    simp [explicit, der_cons, Tlv.id]
    decide

/-- A client encodes the body for the checksum, and then the request with the authenticator in its
padata. What `fetch_asn1_field` finds in the packet is what went into the checksum. -/
theorem fetchAsn1Field_encoded {x : KdcReq} {padata : Option (List PaData)} {code : Octets}
    (h : encodeKrb5TgsReq { x with padata } = .ok code) (hsmall : code.length < 2 ^ 24)
    (hfuel : code.length ≤ fuel) (behind : Memory) :
    ∃ body, encodeKrb5KdcReqBody x = .ok body ∧ body <:+ code ∧
      fetchAsn1Field fuel (inMemory code behind) 1 4 =
        some (some (code.length - body.length, body.length)) := by
  obtain ⟨realm, hrealm⟩ := reqRealm_of_req h
  have hwrites := writes_encoded (@emits_apptag 12 _ _ (emits_kdcReq (.inr rfl) hrealm) (by decide))
  cases h.symm.trans hwrites.run
  have hwf := hwrites.wf.der (by omega)
  have hscan := @scannable_der 2 _ hsmall
  have hflags : (flagsElem x.kdcOptions).der.octets.length ≤
      (kdcReqBodyElem realm { x with padata }).der.octets.length := length_der_field_le mem_cons_self
  have hseven : (flagsElem x.kdcOptions).der.octets.length = 7 := rfl
  refine ⟨_, (writes_encoded (emits_kdcReqBody hrealm)).run, ?_⟩
  obtain ⟨len, front, id, len', hreq, hfour, hfield, hrising⟩ :=
    der_kdcReqElem realm { x with padata }
  -- from here on only what stands around the body matters
  rw [Elem.application, der_cons, map_singleton, hreq] at hwf hscan hsmall hfuel ⊢
  generalize (kdcReqBodyElem realm { x with padata }).der = body, derLength _ = outer at *
  have hid : constructed 0x30 ∧ contextSpecific 0x30 = false := by decide
  have hfound := fetchAsn1Field_tlv hscan hwf (@hasAt_inMemory _ behind _ _ (hasAt_getElem? [] _ []))
    hfuel rfl hid.1 hid.2 rfl hfield hrising (by simp [Tlv.octets]; omega)
  simp [Tlv.octets, Tlv.children, Tlv.len, Tlv.id, hfour] at hfound ⊢
  refine ⟨⟨(0x60 ||| 12) :: outer ++ 0x30 :: len ++ octetsAll front ++ id :: len', by simp⟩, ?_⟩
  rw [hfound]
  congr 3
  omega

theorem fetchAsn1Field_encoded_sample : ∃ code body, encodeKrb5TgsReq sampleTgsReq = .ok code ∧
    encodeKrb5KdcReqBody { sampleTgsReq with padata := none } = .ok body ∧ body <:+ code ∧
      fetchAsn1Field 230 (inMemory code fun _ => 0) 1 4 =
        some (some (230 - body.length, body.length)) := by
  obtain ⟨code, hcode, hlen⟩ := map_eq_ok.mp
    (show (encodeKrb5TgsReq sampleTgsReq).map length = .ok 230 by decide +kernel)
  obtain ⟨body, hbody⟩ := @fetchAsn1Field_encoded 230 { sampleTgsReq with padata := none } _ _ hcode
    (by omega) (by omega) fun _ => 0
  exact ⟨code, body, hcode, hlen ▸ hbody⟩

end Krb5.Asn1
