import Krb5.Asn1.Calendar
import Krb5.Asn1.KEncode
import Krb5.Lib.Der

/-!
# What the encoders write

An encoder `Emits` elements if it puts their shortest definite encodings in
front of the buffer and returns how many octets they have.
-/

namespace Krb5.Asn1

open Lib Lib.Ber List Elem

class Emits (encoder : Encoder Nat) (es : outParam (List Elem)) : Prop where
  wf : ∀ e ∈ es, e.WellFormed
  run : ∀ buf, encoder buf =
    .ok ((Tlv.octetsAll (es.map der)).length, Tlv.octetsAll (es.map der) ++ buf)

class EmitsField (encoder : Encoder Nat) (field : outParam (Nat × Option Elem)) : Prop where
  emits : field.1 < 31 → Emits encoder (fields [field])

class EmitsFields (encoders : List (Encoder Nat)) (fs : outParam (List (Nat × Option Elem))) :
    Prop where
  each : List.Forall₂ EmitsField encoders fs

theorem lengthLoop_run (size n : Nat) (buf : Octets) :
    lengthLoop size n buf = .ok ((digits size n).length, digits size n ++ buf) := by
  induction size generalizing n buf with
  | zero => rfl
  | succ size ih =>
    rw [lengthLoop, digits]
    split
    · rfl
    · have hfirst : insertOctet (UInt8.ofNat n) buf = .ok ((), UInt8.ofNat n :: buf) := rfl
      rw [stateT_bind_of_ok hfirst, stateT_bind_of_ok (ih (n / 256) _)]
      simp [stateT_pure]

theorem asn1MakeLength_run (n : Nat) (buf : Octets) :
    asn1MakeLength n buf = .ok ((derLength n).length, derLength n ++ buf) := by
  rw [asn1MakeLength, derLength]
  split
  · rfl
  rw [stateT_bind_of_ok (lengthLoop_run 4 n buf)]
  have hcnt : ∀ k ≤ 4, 0x80 ||| (UInt8.ofNat k &&& 0x7f) = UInt8.ofNat (0x80 + k) := by decide
  rw [hcnt _ (length_digits_le 4 n)]
  rfl

variable {k : Nat} {α : Type} {encoder : Encoder Nat} {es : List Elem} {e : Elem}
  {encoders : List (Encoder Nat)} {elem : α → Elem}

theorem asn1MakeTag_run (hk : k < 31) (cls : Class) (cons : Bool) (n : Nat) (buf : Octets) :
    asn1MakeTag cls cons k n buf = .ok (1 + (derLength n).length,
      (cls.octet ||| constructionOctet cons ||| UInt8.ofNat k) :: derLength n ++ buf) := by
  have hfits : ¬(k : Int) > tagnumCeiling - 1 := by
    rw [tagnumCeiling]
    omega
  rw [asn1MakeTag, if_neg hfits, stateT_bind_of_ok (asn1MakeLength_run n buf), asn1MakeId,
    if_pos hk, Nat.add_comm]
  rfl

theorem destroying_of_ok {encoder : Encoder α} {buf : Octets} {r : α × Octets}
    (h : encoder buf = .ok r) : destroying encoder buf = .ok r := by
  rw [destroying, h]
  rfl

private theorem add_one_add (a b : Nat) : a + (1 + b) = b + a + 1 := by omega

theorem emits_prim {tagnum : Nat} {contents : Octets} (hnum : 0 < tagnum ∧ tagnum < 31)
    (h : ∀ buf, encoder buf = (do
      return contents.length + (← asn1MakeTag .universal false tagnum contents.length))
      (contents ++ buf)) : Emits encoder [.prim (UInt8.ofNat tagnum) contents] where
  wf e he := by
    have hbits : ∀ k < 31, 0 < k →
        plainId (UInt8.ofNat k) ∧ constructed (UInt8.ofNat k) = false := by decide
    obtain ⟨hplain, hprim⟩ := hbits tagnum hnum.2 hnum.1
    rw [mem_singleton.mp he]
    exact .prim hplain hprim
  run buf := by
    have hid : ∀ k < 31, Class.universal.octet ||| constructionOctet false ||| UInt8.ofNat k =
        UInt8.ofNat k := by decide
    rw [h, stateT_bind_of_ok (asn1MakeTag_run hnum.2 ..), hid tagnum hnum.2]
    simp only [map_singleton, der, Tlv.octetsAll_cons, Tlv.octets,
      length_append, length_cons, cons_append, append_assoc]
    rw [add_one_add]
    rfl

theorem emits_wrapped {inner : Encoder Nat} {id : UInt8} {tag : Nat → Encoder Nat}
    (hwf : (cons id es).WellFormed) (hinner : Emits inner es)
    (htag : ∀ n buf, tag n buf = .ok (1 + (derLength n).length, id :: derLength n ++ buf))
    (h : encoder = do
      let length ← inner
      return length + (← tag length)) : Emits encoder [.cons id es] where
  wf e he := by
    rw [mem_singleton.mp he]
    exact hwf
  run buf := by
    rw [h, stateT_bind_of_ok (hinner.run buf), stateT_bind_of_ok (htag _ _)]
    simp only [map_singleton, Tlv.octetsAll_cons, octets_der_cons, length_append, length_cons, cons_append,
      append_assoc]
    rw [add_one_add]
    rfl

theorem emits_addfield (hk : k < 31) (h : Emits encoder [e]) :
    Emits (addfield k encoder) [.explicit k e] := by
  refine emits_wrapped (.explicit hk (h.wf e (mem_singleton_self e))) ?_ ?_ rfl
  · exact ⟨h.wf, fun buf => destroying_of_ok (h.run buf)⟩
  · intro n buf
    have hrun := asn1MakeTag_run hk .contextSpecific true n buf
    exact destroying_of_ok hrun

theorem emits_apptag (h : Emits encoder [e]) (hk : k < 31 := by decide) :
    Emits (apptag k encoder) [.application k e] := by
  refine emits_wrapped (.application hk (h.wf e (mem_singleton_self e))) h ?_ rfl
  intro n buf
  have hrun := asn1MakeTag_run hk .application true n buf
  exact destroying_of_ok hrun

/-! ## Fields -/

theorem emits_inTurn_nil : Emits (inTurn []) [] := ⟨by simp, fun _ => rfl⟩

theorem emits_inTurn_cons {es' : List Elem} (h : Emits encoder es)
    (hrest : Emits (inTurn encoders) es') : Emits (inTurn (encoder :: encoders)) (es' ++ es) where
  wf e he := (mem_append.mp he).elim (hrest.wf e) (h.wf e)
  run buf := by
    rw [inTurn, stateT_bind_of_ok (h.run buf), stateT_bind_of_ok (hrest.run _), map_append,
      Tlv.octetsAll_append, length_append, append_assoc, Nat.add_comm]
    rfl

theorem emits_makeseq (h : Emits (inTurn encoders) es) :
    Emits (makeseq encoders) [.sequence es] := by
  refine emits_wrapped (.sequence h.wf) h ?_ rfl
  intro n buf
  refine destroying_of_ok ?_
  rw [asn1MakeSequence, stateT_bind_of_ok (asn1MakeLength_run n buf), Nat.add_comm]
  rfl

variable {fs : List (Nat × Option Elem)}

theorem emits_inTurn_fields (h : List.Forall₂ EmitsField encoders fs) (hfs : ∀ f ∈ fs, f.1 < 31) :
    Emits (inTurn encoders) (fields fs.reverse) := by
  induction h with
  | nil => exact emits_inTurn_nil
  | cons hfield hrest ih =>
    obtain ⟨hf, hfs⟩ := forall_mem_cons.mp hfs
    rw [reverse_cons, fields_append]
    exact emits_inTurn_cons (hfield.emits hf) (ih hfs)

theorem emits_record {gs : List (Nat × Option Elem)} [h : EmitsFields encoders gs]
    (hgs : fs = gs.reverse := by rfl) (hfs : ∀ f ∈ fs, f.1 < 31 := by simp) :
    Emits (makeseq encoders) [.record fs] := by
  subst hgs
  exact emits_makeseq (emits_inTurn_fields h.each fun f hf => hfs f (mem_reverse.mpr hf))

instance : EmitsFields [] [] := ⟨.nil⟩

instance {field : Nat × Option Elem} [h : EmitsField encoder field]
    [hrest : EmitsFields encoders fs] : EmitsFields (encoder :: encoders) (field :: fs) :=
  ⟨.cons h hrest.each⟩

theorem emits_makeseqOf {encoder : α → Encoder Nat} {vals : List α}
    (h : ∀ val, Emits (encoder val) [elem val]) :
    Emits (makeseqOf encoder vals) [.sequence (vals.map elem)] := by
  refine emits_makeseq ?_
  induction vals using List.reverseRecOn with
  | nil => exact emits_inTurn_nil
  | append_singleton vals val ih =>
    rw [reverse_concat, map_append]
    exact emits_inTurn_cons (h val) ih

instance emits_field [h : Emits encoder [e]] : EmitsField (addfield k encoder) (k, some e) :=
  ⟨fun hk => emits_addfield hk h⟩

def given {α : Type} (present : Bool) (val : α) : Option α := if present then some val else none

instance {present : Bool} {val : α} {elem : α → Elem} [h : Emits encoder [elem val]] :
    EmitsField (addWhen present (addfield k encoder)) (k, (given present val).map elem) where
  emits hk := by
    cases present with
    | false => exact emits_inTurn_nil
    | true => exact emits_addfield hk h

theorem emits_addOpt {val : Option α} {encoder : α → Encoder Nat}
    (h : ∀ v ∈ val, Emits (encoder v) [elem v]) :
    EmitsField (addOpt val fun v => addfield k (encoder v)) (k, val.map elem) where
  emits hk := by
    cases val with
    | none => exact emits_inTurn_nil
    | some v => exact emits_addfield hk (h v rfl)

instance {val : Option α} {encoder : α → Encoder Nat} {elem : α → Elem}
    [h : ∀ v, Emits (encoder v) [elem v]] :
    EmitsField (addOpt val fun v => addfield k (encoder v)) (k, val.map elem) :=
  emits_addOpt fun v _ => h v

/-! ## Integers -/

def integerDigits : Nat → Int → Octets
  | 0, _ => []
  | size + 1, n =>
    (if n / 256 ≠ 0 ∧ n / 256 ≠ -1 then integerDigits size (n / 256) else []) ++ [lowOctet n]

/-- The contents of an integer: a first octet whose top bit says otherwise is
preceded by one that holds the sign. -/
def integerOctets (n : Int) : Octets :=
  let digits := integerDigits 4 n
  if n > 0 ∧ digits.headD 0 &&& 0x80 = 0x80 then 0 :: digits
  else if n < 0 ∧ digits.headD 0 &&& 0x80 ≠ 0x80 then 0xff :: digits
  else digits

def integerElem (n : Int) : Elem := .prim 2 (integerOctets n)

def int32Elem (n : Int32) : Elem := integerElem n.toInt

/-- The loop emits the digits, the highest one last. -/
theorem integerLoop_run {size : Nat} {n : Int} (hlo : -256 ^ (size + 1) ≤ n)
    (hhi : n < 256 ^ (size + 1)) (buf : Octets) :
    integerLoop (size + 1) n buf = .ok (((integerDigits (size + 1) n).length,
      (integerDigits (size + 1) n).headD 0), integerDigits (size + 1) n ++ buf) ∧
    integerDigits (size + 1) n ≠ [] := by
  have hfirst : insertOctet (lowOctet n) buf = .ok ((), lowOctet n :: buf) := rfl
  induction size generalizing n buf with
  | zero =>
    have hend : ¬(n / 256 ≠ 0 ∧ n / 256 ≠ -1) := by omega
    have hone : integerDigits (0 + 1) n = [lowOctet n] := by
      rw [integerDigits, if_neg hend]
      rfl
    rw [integerLoop, hone]
    simp only [if_neg hend]
    exact ⟨rfl, cons_ne_nil _ _⟩
  | succ size ih =>
    rw [integerDigits, integerLoop, stateT_bind_of_ok hfirst]
    by_cases hmore : n / 256 ≠ 0 ∧ n / 256 ≠ -1
    · obtain ⟨hrun, hne⟩ := ih (n := n / 256) (by omega) (by omega) (lowOctet n :: buf) rfl
      obtain ⟨digit, rest, hdigits⟩ := exists_cons_of_ne_nil hne
      rw [hdigits] at hrun
      simp only [if_pos hmore, hdigits]
      rw [stateT_bind_of_ok hrun]
      simp [stateT_pure]
    · simp only [if_neg hmore]
      exact ⟨rfl, cons_ne_nil _ _⟩

theorem topBit (b : UInt8) :
    (b &&& 0x80 ≠ 0 ↔ 128 ≤ b.toNat) ∧ (b &&& 0x80 = 0x80 ↔ 128 ≤ b.toNat) := by
  have key : ∀ n < 256, (UInt8.ofNat n &&& 0x80 ≠ 0 ↔ 128 ≤ n) ∧
      (UInt8.ofNat n &&& 0x80 = 0x80 ↔ 128 ≤ n) := by decide +kernel
  simpa using key b.toNat b.toNat_lt

instance emits_integer (val : Int32) : Emits (asn1EncodeInteger val) [int32Elem val] := by
  refine emits_prim (by decide) fun buf => ?_
  have hlo := val.le_toInt
  have hhi := val.toInt_lt
  obtain ⟨hrun, -⟩ := @integerLoop_run 3 val.toInt (by omega) (by omega) buf
  have hpos : val > 0 ↔ val.toInt > 0 := by
    rw [gt_iff_lt, Int32.lt_iff_toInt_lt]
    rfl
  have hneg : val < 0 ↔ val.toInt < 0 := by
    rw [Int32.lt_iff_toInt_lt]
    rfl
  rw [asn1EncodeInteger, stateT_bind_of_ok hrun]
  simp only [hpos, hneg, integerOctets]
  split_ifs <;> rfl

instance emits_unsigned (val : UInt32) :
    Emits (asn1EncodeUnsignedInteger val) [integerElem val.toNat] := by
  refine emits_prim (by decide) fun buf => ?_
  have hhi := val.toNat_lt
  obtain ⟨hrun, -⟩ := @integerLoop_run 3 val.toNat (by omega) (by omega) buf
  have hbit : ∀ b : UInt8, b &&& 0x80 ≠ 0 ↔ b &&& 0x80 = 0x80 := fun b => by
    rw [(topBit b).1, (topBit b).2]
  rw [asn1EncodeUnsignedInteger, stateT_bind_of_ok hrun]
  simp only [hbit, integerOctets]
  by_cases hzero : (val.toNat : Int) = 0
  · rw [hzero]
    rfl
  have hpos : (val.toNat : Int) > 0 := by omega
  have hneg : ¬(val.toNat : Int) < 0 := by omega
  simp only [hpos, hneg, true_and, false_and, if_false]
  split_ifs <;> rfl

def octetsElem (s : Octets) : Elem := .prim 4 s

def stringElem (s : Octets) : Elem := .prim 27 s

instance (s : Octets) : Emits (asn1EncodeOctetstring s) [octetsElem s] :=
  emits_prim (by decide) fun _ => rfl

instance emits_string (s : Octets) : Emits (asn1EncodeGeneralstring s) [stringElem s] :=
  emits_prim (by decide) fun _ => rfl

def flagOctets (val : Flags) : Octets :=
  [0, UInt8.ofNat (val >>> 24).toNat, UInt8.ofNat (val >>> 16).toNat,
    UInt8.ofNat (val >>> 8).toNat, UInt8.ofNat val.toNat]

def flagsElem (val : Flags) : Elem := .prim 3 (flagOctets val)

instance emits_flags (val : Flags) : Emits (asn1EncodeKrb5Flags val) [flagsElem val] :=
  emits_prim (by decide) fun _ => rfl

def timeElem (val : Timestamp) : Elem := .prim 24 (timeText (gmtime val))

instance emits_time (val : Timestamp) : Emits (asn1EncodeGeneraltime val) [timeElem val] := by
  refine emits_prim (by decide) fun buf => ?_
  have hbounds := gmtime_bounds val
  rw [asn1EncodeGeneraltime]
  rw [if_neg (by omega)]
  rfl

end Krb5.Asn1
