import Krb5.Asn1.KDecode
import Krb5.Lib.Ber

/-!
# The decoder on well-formed elements

The reading of octets, lengths and tags where the octets of an element are next in the buffer, and
the elements inside of one that is entered.
-/

namespace Krb5.Asn1

open Lib Lib.Ber List Asn1Buf

variable {b : UInt8} {more : Octets}

namespace Asn1Buf

def moveTo (buf : Asn1Buf) (p : Nat) : Asn1Buf := { buf with next := p }

variable (buf : Asn1Buf)

@[simp] theorem moveTo_next (p : Nat) : (buf.moveTo p).next = p := rfl
@[simp] theorem moveTo_bound (p : Nat) : (buf.moveTo p).bound = buf.bound := rfl
@[simp] theorem moveTo_moveTo (p q : Nat) :
    (buf.moveTo p).moveTo q = buf.moveTo q := rfl

end Asn1Buf

/-- The octets `bs` are next in the buffer, at offset `p`, and lie inside its
bound. Offsets fit into an `int`. -/
structure Placed (buf : Asn1Buf) (p : Nat) (bs : Octets) : Prop where
  next : buf.next = p
  room : p + bs.length ≤ buf.bound + 1
  found : HasAt (fun i => buf.data[i]?) p bs
  small : buf.bound + 1 < 2 ^ 31

namespace Placed

variable {buf : Asn1Buf} {p : Nat} {as bs : Octets}

theorem stay (h : Placed buf p bs) : buf.moveTo p = buf := by rw [moveTo, ← h.next]

theorem front (h : Placed buf p (as ++ bs)) : Placed buf p as where
  next := h.next
  room := by
    have := h.room
    rw [length_append] at this
    omega
  found := (hasAt_append.mp h.found).1
  small := h.small

theorem tail (h : Placed buf p (b :: bs)) : Placed (buf.moveTo (p + 1)) (p + 1) bs where
  next := rfl
  room := by
    have := h.room
    rw [length_cons] at this
    rw [moveTo_bound]
    omega
  found := h.found.2
  small := h.small

theorem back (h : Placed buf p (as ++ bs)) :
    Placed (buf.moveTo (p + as.length)) (p + as.length) bs where
  next := rfl
  room := by
    have := h.room
    rw [length_append] at this
    rw [moveTo_bound]
    omega
  found := (hasAt_append.mp h.found).2
  small := h.small

theorem contents {t : Tlv} (h : Placed buf p t.octets) :
    Placed (buf.moveTo (p + 1 + t.len.length)) (p + 1 + t.len.length) t.contents := by
  have h' : Placed buf p ((t.id :: t.len) ++ t.contents) := by
    rwa [cons_append, ← t.octets_eq]
  have hlen : p + (t.id :: t.len).length = p + 1 + t.len.length := by
    rw [length_cons]
    omega
  rw [← hlen]
  exact h'.back

theorem children {t : Tlv} (h : Placed buf p t.octets) :
    Placed (buf.moveTo (p + 1 + t.len.length)) (p + 1 + t.len.length)
      (Tlv.octetsAll t.children) where
  next := rfl
  room := by
    have := h.contents.room
    have := t.length_children_le
    omega
  found := Tlv.hasAt_children h.found
  small := h.small

end Placed

variable {buf buf' subbuf : Asn1Buf} {p q : Nat} {bs : Octets} {t : Tlv} {ts : List Tlv} {indef : Bool}
  {vars : TagVars}

theorem removeOctet_placed (h : Placed buf p (b :: bs)) :
    removeOctet buf = .ok (b, buf.moveTo (p + 1)) := by
  have hin : ¬buf.next > buf.bound := by
    have := h.room
    rw [length_cons] at this
    rw [h.next]
    omega
  have hoctet : buf.octet buf.next = some b := by
    have hb : buf.data[p]? = some b := h.found.1
    rw [h.next, octet]
    simpa using hb
  rw [removeOctet, if_neg hin, hoctet, h.next]
  rfl

theorem removeOctets_placed (h : Placed buf p (bs ++ more)) :
    removeOctets bs.length buf = .ok (bs, buf.moveTo (p + bs.length)) := by
  induction bs generalizing buf p with
  | nil =>
    rw [length_nil, Nat.add_zero, h.stay]
    rfl
  | cons b bs ih =>
    rw [length_cons, removeOctets, stateT_bind_of_ok (removeOctet_placed h),
      stateT_bind_of_ok (ih h.tail), show p + (bs.length + 1) = p + 1 + bs.length by omega]
    rfl

theorem wrap32_of_lt {n : Int} (h0 : 0 ≤ n) (h : n < 2 ^ 31) : wrap32 n = n := by
  unfold wrap32
  omega

theorem wrap32_step (a b : Int) : wrap32 (wrap32 a * 256 + b) = wrap32 (a * 256 + b) := by
  unfold wrap32
  omega

theorem foldl_wrap32 (bs : Octets) (n : Nat) :
    bs.foldl (fun (len : Int) o => wrap32 (len * 256 + o.toNat)) (wrap32 n) =
      wrap32 (bs.foldl (fun n b => n * 256 + b.toNat) n : Nat) := by
  induction bs generalizing n with
  | nil => rw [foldl_nil, foldl_nil]
  | cons b bs ih =>
    have hcast : (n : Int) * 256 + b.toNat = ((n * 256 + b.toNat : Nat) : Int) := by simp
    rw [foldl_cons, foldl_cons, wrap32_step, hcast, ih]

theorem asn1GetLength_definite {n : Nat} {len : Octets} (hd : Definite len n) (hn : n < 2 ^ 31)
    (h : Placed buf p (len ++ more)) :
    asn1GetLength buf = .ok (((n : Int), false), buf.moveTo (p + len.length)) := by
  cases hd with
  | @short b hb =>
    obtain ⟨hbit, hval⟩ := short_octet hb
    rw [asn1GetLength, stateT_bind_of_ok (removeOctet_placed h), if_pos hbit, hval]
    rfl
  | @long k bs hk hpos =>
    obtain ⟨hbit, hcnt⟩ := long_octet hk
    have hval : bs.foldl (fun (len : Int) o => wrap32 (len * 256 + o.toNat)) 0 =
        bigEndian bs := by
      have := foldl_wrap32 bs 0
      rwa [show wrap32 ((0 : Nat) : Int) = 0 from rfl, wrap32_of_lt (by omega)
        (by exact_mod_cast hn)] at this
    rw [asn1GetLength, stateT_bind_of_ok (removeOctet_placed h), if_neg hbit, hcnt,
      stateT_bind_of_ok (removeOctets_placed h.tail), hval, length_cons,
      show p + (bs.length + 1) = p + 1 + bs.length by omega]
    have hne : ((bigEndian bs : Int) = 0) = False := by
      rw [eq_iff_iff, iff_false]
      omega
    simp only [hne]
    rfl

theorem asn1GetLength_indefinite (h : Placed buf p (0x80 :: more)) :
    asn1GetLength buf = .ok ((0, true), buf.moveTo (p + 1)) := by
  rw [asn1GetLength, stateT_bind_of_ok (removeOctet_placed h)]
  rfl

/-! ## Tags -/

def tagOf (t : Tlv) : TagVars where
  cls := classOf t.id
  constructed := constructed t.id
  tagnum := (t.id &&& 0x1f).toNat
  taglen := match t with
    | .indefinite _ _ => 0
    | _ => t.contents.length
  indef := match t with
    | .indefinite _ _ => true
    | _ => false

def eocVars : TagVars := ⟨.universal, false, 0, 0, false⟩

theorem asn1GetId_plain {id : UInt8} (hid : plainId id) (h : Placed buf p (id :: more)) :
    asn1GetId buf = .ok ((classOf id, constructed id, ((id &&& 0x1f).toNat : Int)),
      buf.moveTo (p + 1)) := by
  simp only [plainId, Bool.and_eq_true, bne_iff_ne] at hid
  rw [asn1GetId, stateT_bind_of_ok (removeOctet_placed h), if_pos hid.1]
  rfl

theorem Placed.left_pos (h : Placed buf p (b :: bs)) : ¬buf.left ≤ 0 := by
  have := h.room
  have := h.next
  simp only [left, length_cons] at *
  omega

theorem asn1GetTagIndef_of_ok {buf' buf'' : Asn1Buf} {cls : Class} {cons indef : Bool}
    {tagnum taglen : Int} (hleft : ¬buf.left ≤ 0)
    (hid : asn1GetId buf = .ok ((cls, cons, tagnum), buf'))
    (hlen : asn1GetLength buf' = .ok ((taglen, indef), buf'')) :
    asn1GetTagIndef vars buf = .ok (⟨cls, cons, tagnum, taglen, indef⟩, buf'') := by
  rw [asn1GetTagIndef, stateT_get_bind, if_neg hleft, stateT_bind_of_ok hid]
  show (asn1GetLength >>= _) buf' = _
  rw [stateT_bind_of_ok hlen]
  rfl

theorem asn1GetTagIndef_tlv (hwf : t.WellFormed) (h : Placed buf p t.octets) :
    asn1GetTagIndef vars buf = .ok (tagOf t, buf.moveTo (p + 1 + t.len.length)) := by
  have h' : Placed buf p (t.id :: (t.len ++ t.contents)) := by rwa [← t.octets_eq]
  have hsmall : t.contents.length < 2 ^ 31 := by
    have hroom := h'.room
    have hsmall := h'.small
    simp only [length_cons, length_append] at hroom
    omega
  have hid := asn1GetId_plain hwf.plain h'
  cases hwf with
  | primitive hplain hcons hdef =>
    exact asn1GetTagIndef_of_ok h'.left_pos hid (asn1GetLength_definite hdef hsmall h'.tail)
  | definite hplain hcons hdef hwrap hall =>
    exact asn1GetTagIndef_of_ok h'.left_pos hid (asn1GetLength_definite hdef hsmall h'.tail)
  | indefinite hplain hcons hwrap hall =>
    exact asn1GetTagIndef_of_ok h'.left_pos hid (asn1GetLength_indefinite h'.tail)

theorem asn1GetTagIndef_eoc (h : Placed buf p [0, 0]) :
    asn1GetTagIndef vars buf = .ok (eocVars, buf.moveTo (p + 2)) := by
  have hid : asn1GetId buf = .ok ((.universal, false, 0), buf.moveTo (p + 1)) := by
    rw [asn1GetId, stateT_bind_of_ok (removeOctet_placed h)]
    rfl
  have hlen : asn1GetLength (buf.moveTo (p + 1)) = .ok ((0, false), buf.moveTo (p + 2)) := by
    rw [asn1GetLength, stateT_bind_of_ok (removeOctet_placed h.tail)]
    rfl
  exact asn1GetTagIndef_of_ok h.left_pos hid hlen

theorem asn1GetTagIndef_end (h : buf.left ≤ 0) :
    asn1GetTagIndef vars buf = .ok ({ vars with tagnum := tagnumCeiling }, buf) := by
  rw [asn1GetTagIndef, stateT_get_bind, if_pos h]
  rfl

/-! ## What an accepted run did -/

theorem nextTag_of_ok {tag : TagVars} (h : asn1GetTagIndef vars buf = .ok (tag, buf')) :
    nextTag ⟨buf, vars⟩ = .ok ((), ⟨buf', tag⟩) := by
  rw [nextTag, stateT_get_bind]
  simp only [h]
  rfl

open Tlv (octetsAll octetsAll_cons octetsAll_nil)

/-! ## Primitive types -/

/-- Octets that are there are read, unless the first of them is refused. -/
theorem integerContents_cons {first : UInt8 → Except DecodeError (BitVec 32)} {bs : Octets}
    (hread : removeOctets (b :: bs).length buf = .ok (b :: bs, buf')) :
    integerContents (b :: bs).length first buf = (first b).map fun n =>
      ((b :: bs).foldl shiftIn n, buf') := by
  have hcnt : ((b :: bs).length : Int).toNat - 1 = bs.length := by simp
  rw [length_cons, removeOctets, stateT_bind_eq_ok] at hread
  obtain ⟨o, buf₁, hfirst, hrest⟩ := hread
  obtain ⟨os, buf₂, hrest, hpure⟩ := stateT_bind_eq_ok.mp hrest
  cases hpure
  rw [integerContents, if_neg (by simp), stateT_bind_of_ok hfirst, stateT_lift_bind, hcnt]
  cases first b with
  | error e => rfl
  | ok n =>
    rw [ok_bind, stateT_bind_of_ok hrest]
    rfl

theorem removeString_placed {s : Octets} (h : Placed buf q s) :
    removeString s.length buf = .ok (s, buf.moveTo (q + s.length)) := by
  have hroom := h.room
  have hnext := h.next
  rw [removeString, stateT_get_bind, if_neg (by omega)]
  split
  · obtain rfl : s = [] := eq_nil_of_length_eq_zero (by omega)
    rw [length_nil, Nat.add_zero, h.stay]
    rfl
  · have h' : Placed buf q (s ++ []) := by simpa using h
    exact removeOctets_placed h'

/-! ## Fields -/

/-- The elements `ts` are next in a sub-buffer, and nothing behind them: the
sub-buffer ends there, or the end-of-contents octets follow. -/
structure Within (indef : Bool) (ts : List Tlv) (buf : Asn1Buf) (q : Nat) : Prop where
  placed : Placed buf q (octetsAll ts ++ if indef then [0, 0] else [])
  ends : indef = false → buf.bound + 1 = q + (octetsAll ts).length
  wf : ∀ t ∈ ts, t.WellFormed

namespace Within

theorem head (h : Within indef (t :: ts) buf q) : Placed buf q t.octets := by
  have := h.placed
  rw [octetsAll_cons, append_assoc] at this
  exact this.front

theorem step (h : Within indef (t :: ts) buf q) :
    Within indef ts (buf.moveTo (q + t.octets.length)) (q + t.octets.length) where
  placed := by
    have := h.placed
    rw [octetsAll_cons, append_assoc] at this
    exact this.back
  ends hdef := by
    have := h.ends hdef
    rw [octetsAll_cons, length_append] at this
    rw [moveTo_bound]
    omega
  wf c hc := h.wf c (mem_cons_of_mem _ hc)

theorem left_nonpos (h : Within false [] buf q) : buf.left ≤ 0 := by
  have := h.ends rfl
  have := h.placed.next
  simp only [octetsAll_nil, length_nil, left] at *
  omega

end Within

theorem getEoc_placed {vars : TagVars} (h : Placed buf p [0, 0]) :
    getEoc ⟨buf, vars⟩ = .ok ((), ⟨buf.moveTo (p + 2), eocVars⟩) := by
  rw [getEoc, stateT_bind_of_ok (nextTag_of_ok (asn1GetTagIndef_eoc h))]
  rfl

section

variable {id : UInt8} {children : List Tlv} {c : Tlv}

theorem contents_definite {len : Octets} (h : (Tlv.definite id len children).children = [c]) :
    (Tlv.definite id len children).contents = c.octets := by
  rw [show children = [c] from h]
  simp [Tlv.contents]

theorem contents_indefinite (h : (Tlv.indefinite id children).children = [c]) :
    (Tlv.indefinite id children).contents = c.octets ++ [0, 0] := by
  rw [show children = [c] from h]
  simp [Tlv.contents]

theorem end_definite {len : Octets} (h : (Tlv.definite id len children).children = [c]) (q : Nat) :
    q + 1 + (Tlv.definite id len children).len.length + c.octets.length =
      q + (Tlv.definite id len children).octets.length := by
  rw [(Tlv.definite id len children).length_octets, contents_definite h]
  omega

theorem end_indefinite (h : (Tlv.indefinite id children).children = [c]) (q : Nat) :
    q + 1 + (Tlv.indefinite id children).len.length + c.octets.length + 2 =
      q + (Tlv.indefinite id children).octets.length := by
  rw [(Tlv.indefinite id children).length_octets, contents_indefinite h, length_append,
    length_cons, length_singleton]
  omega

end

/-! ## Structures -/

/-- The buffer that is imbedded holds the children. -/
theorem imbed_within (hwf : t.WellFormed) (hcons : constructed t.id) (h : Placed buf p t.octets)
    (himbed : asn1bufImbed (buf.moveTo (p + 1 + t.len.length)) (tagOf t).taglen (tagOf t).indef =
      .ok subbuf) : Within (tagOf t).indef t.children subbuf (p + 1 + t.len.length) := by
  have hcont := h.contents
  rcases hwf.shape hcons with ⟨id, len, children, rfl⟩ | ⟨id, children, rfl⟩
  · rw [asn1bufImbed, if_neg (by simp [tagOf])] at himbed
    dsimp only at himbed
    split at himbed
    · cases himbed
    cases himbed
    have hroom := hcont.room
    have hsmall := hcont.small
    refine ⟨⟨rfl, ?_, ?_, ?_⟩, ?_, fun c hc => hwf.child hc⟩
    · simp [tagOf, Tlv.contents, Tlv.children]
    · simpa [tagOf, Tlv.contents, Tlv.children] using hcont.found
    · simp only [tagOf, moveTo_next] at hroom hsmall ⊢
      omega
    · simp [tagOf, Tlv.contents, Tlv.children]
  · cases himbed
    refine ⟨?_, ?_, fun c hc => hwf.child hc⟩
    · simpa [tagOf, Tlv.contents, Tlv.children] using hcont
    · intro hfalse
      simp [tagOf] at hfalse

/-! ## Sequences of one type -/

theorem asn1bufRemains_placed (hwf : t.WellFormed) (h : Placed buf p t.octets) :
    ¬asn1bufRemains buf indef ≤ 0 := by
  rw [t.octets_eq] at h
  have hoctet : buf.octet buf.next = some t.id := by
    have hat : buf.data[p]? = some t.id := h.found.1
    rw [h.next, octet]
    simpa using hat
  rw [asn1bufRemains, if_neg h.left_pos, if_neg]
  · exact h.left_pos
  · rintro ⟨-, -, hzero, -⟩
    rw [hoctet] at hzero
    exact hwf.id_ne_zero (Option.some.inj hzero)

theorem asn1bufRemains_eoc (h : Placed buf p [0, 0]) : asn1bufRemains buf true ≤ 0 := by
  have hfirst : buf.data[p]? = some 0 := h.found.1
  have hsecond : buf.data[p + 1]? = some 0 := h.found.2.1
  have hroom := h.room
  have hnext := h.next
  rw [asn1bufRemains, if_neg h.left_pos, if_pos]
  refine ⟨rfl, ?_, ?_, ?_⟩
  · simp only [left, length_cons] at *
    omega
  · rw [hnext, octet]
    simpa using hfirst
  · rw [hnext]
    exact_mod_cast hsecond

end Krb5.Asn1
