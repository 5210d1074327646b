import Krb5.Asn1.KCodec
import Krb5.Asn1.Krb5Encode

/-!
# Whole messages

The encoder of a message `Writes` the shortest encoding of an element, and its
decoder `ReadsAs` its value every encoding of it. The two meet in
`roundTrip_of_reads`.
-/

namespace Krb5.Asn1

open Lib Lib.Ber Shape List Asn1Buf

variable {α : Type} {fuel k : Nat} {shape : Shape} {e : Elem} {a : α}

/-- The encoder returns the shortest encoding of this element. -/
class Writes (code : Except EncodeStop Octets) (e : Elem) : Prop where
  wf : e.WellFormed
  run : code = .ok e.der.octets

theorem writes_encoded {encoder : Encoder Nat} (h : Emits encoder [e]) :
    Writes (encoded encoder) e where
  wf := h.wf e (mem_singleton_self e)
  run := by
    rw [encoded, h.run]
    simp [Except.map]

variable {fs : List (Nat × Option Elem)} {optional : List Nat} {field : Nat → Shape}

theorem emits_typedMessage {num : Nat} {fields : List (Encoder Nat)} {gs : List (Nat × Option Elem)}
    [h : EmitsFields fields gs] (hgs : fs = gs.reverse := by rfl)
    (hfs : ∀ f ∈ fs, f.1 < 31 := by simp) (hnum : num < 31 := by decide) :
    Emits (typedMessage num fields) [.application num (.record
      ((0, some kvnoElem) :: (1, some (int32Elem (Int32.ofNat num))) :: fs))] := by
  have hhead : EmitsFields [addfield 1 (asn1EncodeInteger (Int32.ofNat num)), kvnoField 0] _ :=
    inferInstance
  have hall : EmitsFields (fields ++ _) (gs ++ _) := ⟨rel_append h.each hhead.each⟩
  refine emits_apptag (emits_record ?_ ?_) hnum
  · simp [hgs]
  · simpa using hfs

section Version

variable {β : Type} {style : Style} {cont : Unit → Fields β} {b : β}

theorem Follows.version (hcont : Follows fuel style optional field (cont ()) fs b)
    (hfield : field 0 = .any := by rfl) (hopt : ∀ j ∈ optional, 0 < j := by decide) :
    Follows fuel style optional field (versionField >>= cont) ((0, some kvnoElem) :: fs) b := by
  rw [bind_assoc]
  refine .req (by rw [hfield]; exact .integer 5) ?_ (takes_message_getField _) (by decide) hopt
  exact hcont

theorem Follows.versionType {msgType : Int32} {type : UInt32}
    (htype : msgType.toInt = type.toNat) (hcont : Follows fuel style optional field (cont ()) fs b)
    (hfield : field 0 = .any ∧ field 1 = .any := by exact ⟨rfl, rfl⟩)
    (hopt : ∀ j ∈ optional, 1 < j := by decide) :
    Follows fuel style optional field (versionAndType >>= cont)
      ((0, some kvnoElem) :: (1, some (int32Elem msgType)) :: fs) b := by
  have hmsgType : int32Elem msgType = integerElem type.toNat := congrArg integerElem htype
  rw [bind_assoc, hmsgType]
  refine .version ?_ hfield.1 fun j hj => Nat.lt_of_succ_lt (hopt j hj)
  rw [bind_assoc]
  have hacc : Accepts fuel asn1DecodeMsgtype (field 1) (integerElem type.toNat) type := by
    rw [hfield.2]
    exact .unsigned type
  exact .req hacc hcont (takes_message_getField _) (by decide) hopt

end Version

/-! ## Reading -/

def ReadsAs (fuel : Nat) (decode : Octets → Except DecodeError α) (shape : Shape) (e : Elem)
    (a : α) : Prop :=
  ∀ ⦃t : Tlv⦄, t.WellFormed → t.erase = e → t.octets.length < fuel → t.octets.length < 2 ^ 31 →
    (shape.Good t → decode t.octets = .ok a) ∧
    (¬shape.Good t → ∃ err, decode t.octets = .error err)

theorem placed_wrapData {code : Octets} (h : code.length < 2 ^ 31) :
    Placed (.wrapData code) 0 code where
  next := rfl
  room := by
    simp only [wrapData]
    omega
  found := by simpa [wrapData] using hasAt_getElem? [] code []
  small := by
    simp only [wrapData]
    omega

variable {decoder head : Decoder α} {decode : Octets → Except DecodeError α}
  {code : Except EncodeStop Octets} {cond : Prop}

theorem Gives.decoded {code : Octets} {post : Asn1Buf → Prop}
    (h : Gives (decoder (.wrapData code)) cond a post) :
    (cond → decoded decoder code = .ok a) ∧ (¬cond → ∃ err, decoded decoder code = .error err) := by
  constructor
  · intro hcond
    obtain ⟨buf, hrun, -⟩ := h.1 hcond
    rw [Asn1.decoded, hrun]
    rfl
  · intro hcond
    obtain ⟨err, hrun⟩ := h.2 hcond
    exact ⟨err, by rw [Asn1.decoded, hrun]; rfl⟩

theorem readsAs_decoded (h : Accepts fuel decoder shape e a) :
    ReadsAs fuel (decoded decoder) shape e a := by
  intro t hwf herase hfuel hsmall
  exact (h hwf herase hfuel (placed_wrapData hsmall)).decoded

def Opens (k : Nat) (head decoder : Decoder α) : Prop :=
  ∀ ⦃buf buf' : Asn1Buf⦄ ⦃tag : TagVars⦄, asn1GetTag buf = .ok (tag, buf') →
    tag.cls = .application → tag.constructed = true → tag.tagnum = k → head buf = decoder buf'

theorem opens_checkApptag (decoder : Decoder α) :
    Opens k (checkApptag k >>= fun _ => decoder) decoder := by
  intro buf buf' tag hget hcls hcons hnum
  have hcheck : checkApptag k buf = .ok ((), buf') := by
    rw [checkApptag, stateT_bind_of_ok hget, hcls, hcons, hnum, if_neg (by decide),
      if_neg (by simp)]
    rfl
  rw [stateT_bind_of_ok hcheck]

theorem application_gives {t : Tlv} {buf : Asn1Buf} {p : Nat} (hk : k < 31)
    (hhead : Opens k head decoder) (h : Accepts fuel decoder shape e a) (hwf : t.WellFormed)
    (herase : t.erase = .application k e) (hfuel : t.octets.length < fuel)
    (hplaced : Placed buf p t.octets) : Gives (head buf) ((each shape).Good t) a
      (fun buf' => t.isIndefinite = false → buf' = buf.moveTo (p + t.octets.length)) := by
  obtain ⟨hget, hcls, hcons, hnum, c, hc, hce, hcwf, hle, hcplaced⟩ :=
    asn1GetTag_application hk hwf herase hplaced
  have hbody := h hcwf hce (by omega) hcplaced
  rw [moveTo_moveTo] at hbody
  have hgood : (each shape).Good t ↔ shape.Good c := by simp [Shape.Good, hc]
  rw [hhead hget hcls hcons hnum, hgood]
  refine ⟨fun hcond => ?_, hbody.2⟩
  obtain ⟨buf', hrun, rfl⟩ := hbody.1 hcond
  refine ⟨_, hrun, fun hdef => ?_⟩
  have hsize := t.length_octets
  cases t with
  | primitive id len contents => cases hc
  | indefinite id children => cases hdef
  | definite id len children =>
    rw [hsize, contents_definite hc, ← Nat.add_assoc, ← Nat.add_assoc]

def ReadsAhead (fuel : Nat) (decode : Octets → Except DecodeError α) (shape : Shape) (e : Elem)
    (a : α) : Prop :=
  ∀ ⦃t : Tlv⦄ (rest : Octets), t.WellFormed → t.erase = e → t.octets.length < fuel →
    (t.octets ++ rest).length < 2 ^ 31 →
    (shape.Good t → decode (t.octets ++ rest) = .ok a) ∧
    (¬shape.Good t → ∃ err, decode (t.octets ++ rest) = .error err)

theorem ReadsAhead.readsAs (h : ReadsAhead fuel decode shape e a) :
    ReadsAs fuel decode shape e a := by
  intro t hwf herase hfuel hsmall
  simpa using h [] hwf herase hfuel (by simpa using hsmall)

theorem readsAhead_application (hk : k < 31) (hhead : Opens k head decoder)
    (h : Accepts fuel decoder shape e a) :
    ReadsAhead fuel (decoded head) (.each shape) (.application k e) a := by
  intro t rest hwf herase hfuel hsmall
  exact (application_gives hk hhead h hwf herase hfuel (placed_wrapData hsmall).front).decoded

theorem readsAs_application (h : Accepts fuel decoder shape e a)
    (hhead : Opens k head decoder := by exact opens_checkApptag _) (hk : k < 31 := by decide) :
    ReadsAs fuel (decoded head) (.each shape) (.application k e) a :=
  (readsAhead_application hk hhead h).readsAs

/-- An encoder's octets, if there are not too many to be counted, are decoded as `a`. -/
def RoundTrip (code : Except EncodeStop Octets) (decode : Nat → Octets → Except DecodeError α)
    (a : α) : Prop :=
  ∃ octets, code = .ok octets ∧
    (octets.length < 2 ^ 31 → ∀ fuel > octets.length, decode fuel octets = .ok a)

theorem roundTrip_of_reads {decode : Nat → Octets → Except DecodeError α} (hwrites : Writes code e)
    (hreads : ∀ fuel, ReadsAs fuel (decode fuel) shape e a) (hgood : shape.Good e.der) :
    RoundTrip code decode a := by
  refine ⟨_, hwrites.run, fun hsmall fuel hfuel => ?_⟩
  exact (hreads fuel (hwrites.wf.der (by omega)) e.erase_der hfuel hsmall).1 hgood

theorem eq_of_verdict {x : Except DecodeError α} {b : α}
    (h : (cond → x = .ok a) ∧ (¬cond → ∃ err, x = .error err)) (hx : x = .ok b) : b = a := by
  by_cases hcond : cond
  · exact Except.ok.inj (hx.symm.trans (h.1 hcond))
  · obtain ⟨err, herr⟩ := h.2 hcond
    cases hx.symm.trans herr

theorem Writes.eq_of_decoded {octets : Octets} {b : α} (hwrites : Writes code e)
    (hreads : ReadsAs fuel decode shape e a) (hcode : code = .ok octets)
    (hsmall : octets.length < 2 ^ 31) (hfuel : octets.length < fuel)
    (hdec : decode octets = .ok b) : b = a := by
  cases hwrites.run.symm.trans hcode
  exact eq_of_verdict (hreads (hwrites.wf.der (by omega)) e.erase_der hfuel hsmall) hdec

theorem Writes.eq_of_decoded_append {octets rest : Octets} {b : α} (hwrites : Writes code e)
    (hreads : ReadsAhead fuel decode shape e a) (hcode : code = .ok octets)
    (hsmall : (octets ++ rest).length < 2 ^ 31) (hfuel : octets.length < fuel)
    (hdec : decode (octets ++ rest) = .ok b) : b = a := by
  cases hwrites.run.symm.trans hcode
  have hlen : e.der.octets.length ≤ (e.der.octets ++ rest).length := by simp
  exact eq_of_verdict (hreads rest (hwrites.wf.der (by omega)) e.erase_der hfuel hsmall) hdec

@[simp] theorem good_any (t : Tlv) : any.Good t := trivial

@[simp] theorem good_timeElem {val : Timestamp} : time.Good (timeElem val).der ↔ 0 ≤ val := by
  rw [Int32.le_iff_toInt_le]
  simp only [timeElem, Elem.der, Shape.Good, tmOfDigits_timeText, gmtMktime_gmtime]
  split <;> simp_all

/-- No date before the epoch. -/
structure TicketTimes.Dated (x : TicketTimes) : Prop where
  authtime : 0 ≤ x.authtime
  starttime : 0 ≤ x.starttime
  endtime : 0 ≤ x.endtime
  renewTill : 0 ≤ x.renewTill

theorem good_application (h : shape.Good e.der) :
    (each shape).Good (Elem.application k e).der := by
  rw [Elem.application, Elem.der_cons]
  simpa [Shape.Good, Tlv.children] using h

theorem good_array {β : Type} {elem : β → Elem} {xs : List β}
    (h : ∀ x ∈ xs, shape.Good (elem x).der) :
    (each shape).Good (arrayElem elem xs).der := by
  rw [arrayElem, Elem.sequence, Elem.der_cons]
  simpa [Shape.Good, Tlv.children] using h

/-- The distinguished encoding of a record is good if its fields are. -/
theorem good_record {style : Style} (hfs : Elem.fields fs ≠ [] ∧ ∀ f ∈ fs, f.1 < 31)
    (h : ∀ f ∈ fs, ∀ c ∈ f.2, (field f.1).Good c.der) :
    (record style optional field).Good (Elem.record fs).der := by
  have hkids : (Elem.record fs).der.children = (Elem.fields fs).map Elem.der := by
    rw [Elem.record, Elem.sequence, Elem.der_cons]
    rfl
  have hlast : ∃ w ∈ (Elem.record fs).der.children.getLast?, w.isIndefinite = false := by
    rw [hkids, getLast?_map, getLast?_eq_some_getLast hfs.1]
    exact ⟨_, rfl, Elem.isIndefinite_der _⟩
  refine ⟨?_, ?_, ?_⟩
  · rw [hkids]
    simpa using hfs.1
  · rw [hkids]
    intro w hw c hc
    obtain ⟨e, he, rfl⟩ := mem_map.mp hw
    obtain ⟨f, hf, hmap⟩ := mem_filterMap.mp he
    obtain ⟨d, hd, rfl⟩ := Option.map_eq_some_iff.mp hmap
    have hnumber : (Elem.explicit f.1 d).der.number = f.1 := by
      obtain ⟨-, -, -, hbits⟩ := Elem.explicit_id (hfs.2 f hf)
      exact hbits
    rw [Elem.explicit, Elem.der_cons, Tlv.children, map_singleton, mem_singleton] at hc
    rw [hnumber, hc]
    exact h f hf d hd
  · intro _
    cases style with
    | inner => exact .inr hlast
    | outer => exact ⟨Elem.isIndefinite_der _, hlast⟩

end Krb5.Asn1
