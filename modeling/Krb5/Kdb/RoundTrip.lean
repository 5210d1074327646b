import Krb5.Kdb.Xdr
import Krb5.Name.RoundTrip

/-!
# Round trip of database records

`Reads r bs n a`: the reader `r` takes `bs` for `a`, counts `n` for it and leaves what follows.
-/

namespace Krb5.Kdb

open Lib List Name

variable {princ : Principal}

/-- The count has to be enough, and what follows is left as it is. -/
def Reads {α : Type} (r : Decoding α) (bs : Octets) (n : Nat) (a : α) : Prop :=
  ∀ (rest : Octets) (left : Nat), r ⟨bs ++ rest, (n + left : Nat)⟩ = .ok (a, ⟨rest, left⟩)

namespace Reads

variable {α β : Type} {r : Decoding α} {a : α} {bs bs' : Octets} {n n' : Nat}

theorem pure (a : α) : Reads (pure a) [] 0 a := by
  intro rest left
  rw [Nat.zero_add]
  rfl

variable {b : β} {f : α → Decoding β}

theorem bind (h : Reads r bs n a) (h' : Reads (f a) bs' n' b) :
    Reads (r >>= f) (bs ++ bs') (n + n') b := by
  intro rest left
  rw [append_assoc, Nat.add_assoc, stateT_bind_of_ok (h _ _)]
  exact h' rest left

theorem skip (h : Reads r [] 0 a) (h' : Reads (f a) bs n b) : Reads (r >>= f) bs n b := by
  have hboth := h.bind h'
  rwa [Nat.zero_add] at hboth

theorem map (h : Reads r bs n a) (g : α → β) : Reads (r >>= fun x => Pure.pure (g x)) bs n (g a) := by
  have hboth := h.bind (f := fun x => Pure.pure (g x)) (pure (g a))
  rwa [append_nil] at hboth

theorem countDown (n : Nat) : Reads (countDown n) [] n () := by
  intro rest left
  have hleft : ((n + left : Nat) : Int) - (n : Int) = (left : Nat) := by omega
  rw [Kdb.countDown]
  rw [hleft]
  rfl

theorem counted {k : Int} {f : Unit → Decoding β} (hk : k = (n : Nat)) (h : Reads (f ()) bs n' b) :
    Reads (Kdb.countDown k >>= f) bs (n + n') b := by
  subst hk
  exact (countDown n).bind h

theorem octets (bs : Octets) : Reads (octets bs.length) bs 0 bs := by
  intro rest left
  rw [Kdb.octets, if_pos (by simp), take_left, drop_left, Nat.zero_add]

theorem int16 (v : BitVec 16) : Reads int16 (le16 v) 0 v := by
  intro rest left
  show Except.ok (ofLe16 _ _, _) = _
  rw [ofLe16_octets, Nat.zero_add]
  rfl

theorem int32 (v : BitVec 32) : Reads int32 (le32 v) 0 v := by
  intro rest left
  show Except.ok (ofLe32 _ _ _ _, _) = _
  rw [ofLe32_octets, Nat.zero_add]
  rfl

theorem word16 {v : BitVec 16} {f : BitVec 16 → Decoding β} (h : Reads (f v) bs n b) :
    Reads (Kdb.int16 >>= f) (le16 v ++ bs) n b := by
  have hboth := (int16 v).bind h
  rwa [Nat.zero_add] at hboth

theorem word32 {v : BitVec 32} {f : BitVec 32 → Decoding β} (h : Reads (f v) bs n b) :
    Reads (Kdb.int32 >>= f) (le32 v ++ bs) n b := by
  have hboth := (int32 v).bind h
  rwa [Nat.zero_add] at hboth

theorem refuseIf {refuses : Bool} {code : Code} {f : Unit → Decoding β} (hrefuses : refuses = false)
    (h : Reads (f ()) bs n b) : Reads (Kdb.refuseIf refuses code >>= f) bs n b := by
  have hpass : Reads (Kdb.refuseIf refuses code) [] 0 () := by
    intro rest left
    rw [Kdb.refuseIf, hrefuses, if_neg Bool.false_ne_true, nil_append, Nat.zero_add]
  exact hpass.skip h

theorem times {element : Decoding α} {enc : α → Octets} {size : α → Nat} {l : List α}
    (h : ∀ a ∈ l, Reads element (enc a) (size a) a) {k : Nat} (hk : l.length = k) :
    Reads (Lib.times element k) (l.flatMap enc) (l.map size).sum ⟨l, hk⟩ := by
  subst hk
  induction l with
  | nil => exact pure _
  | cons a l ih =>
    have htail := ih fun b hb => h b (mem_cons_of_mem a hb)
    have hmap := htail.map fun m => (⟨a :: m.1, congrArg (· + 1) m.2⟩ :
      { m : List α // m.length = l.length + 1 })
    exact (h a mem_cons_self).bind hmap

end Reads

variable {k : Nat} {text : Octets}

theorem toInt_ofNat (hk : k < 2 ^ 15) : (Int16.ofBitVec (.ofNat 16 k)).toInt = k :=
  Int16.toInt_ofNat_of_lt hk

theorem not_neg_of_counted {n : Int16} (h : n.toInt = k) :
    decide (n < 0) = false ∧ n.toNatClampNeg = k := by
  refine ⟨?_, ?_⟩
  · rw [decide_eq_false_iff_not, Int16.lt_iff_toInt_lt, h]
    simp
  · rw [Int16.toNatClampNeg, h, Int.toNat_natCast]

theorem reads_typed (type : Int16) {contents : Octets} (hlen : contents.length < 2 ^ 15) :
    Reads typed (typedOctets type contents) (4 + contents.length) (type, contents) := by
  show Reads typed _ (4 + (contents.length + 0)) _
  refine .counted rfl (.word16 (.word16 ?_))
  obtain ⟨hneg, hclamp⟩ := not_neg_of_counted (toInt_ofNat hlen)
  refine .counted (toInt_ofNat hlen) (.refuseIf hneg ?_)
  rw [hclamp]
  exact (Reads.octets contents).map fun cs => (type, cs)

theorem reads_tlData {tl : TlData} (hlen : tl.contents.length < 2 ^ 15) :
    Reads tlData (typedOctets tl.type tl.contents) (4 + tl.contents.length) tl :=
  (reads_typed tl.type hlen).map fun p => TlData.mk p.1 p.2

theorem reads_keyPart {part : KeyPart} (hlen : part.contents.length < 2 ^ 15) :
    Reads keyPart (typedOctets part.type part.contents) (4 + part.contents.length) part :=
  (reads_typed part.type hlen).map fun p => KeyPart.mk p.1 p.2

def keySize (key : KeyData) : Nat := 4 + (key.parts.map fun part => 4 + part.contents.length).sum

theorem reads_keyData {key : KeyData} (hlen : ∀ part ∈ key.parts, part.contents.length < 2 ^ 15) :
    Reads keyData (keyDataOctets key) (keySize key) key := by
  have hparts := Reads.times (fun part hpart => reads_keyPart (hlen part hpart)) key.length_parts
  refine .counted rfl (.word16 (.word16 ?_))
  simp only [Int16.ofBitVec_toBitVec, key.ver_le]
  exact hparts.map fun parts =>
    (⟨key.ver, key.kvno, parts.1, parts.2, key.ver_le⟩ : KeyData)

theorem parseName_in_memory (defaultRealm : Except Name.Code Octets) (hnul : (0 : UInt8) ∉ text)
    (rest : Octets) : parseName defaultRealm (text ++ [0] ++ rest) =
      parseName defaultRealm (text ++ [0]) := by
  unfold parseName
  rw [cstring_in_memory hnul, cstring_snoc_nul hnul]

variable {defaultRealm : Except Name.Code Octets}

theorem reads_princName (hnul : (0 : UInt8) ∉ text) (hlen : text.length + 1 < 2 ^ 15)
    (hparse : parseName defaultRealm (text ++ [0]) = .ok princ) :
    Reads (princName defaultRealm) (nameOctets text) (2 + (text.length + 1)) princ := by
  refine .counted rfl (.word16 ?_)
  intro rest left
  have hzero : (!(text ++ [0] ++ rest).contains 0) = false := by simp
  have hsize : (decide ((Int16.ofBitVec (.ofNat 16 (text.length + 1))).toInt ≠
      (cstring (text ++ [0] ++ rest)).length + 1) || decide (((text.length + 1 + left : Nat) : Int) <
      (Int16.ofBitVec (.ofNat 16 (text.length + 1))).toInt)) = false := by
    rw [toInt_ofNat hlen, cstring_in_memory hnul, Bool.or_eq_false_iff]
    exact ⟨by simp, decide_eq_false (by omega)⟩
  have hdrop : (text ++ [0] ++ rest).drop ((cstring (text ++ [0] ++ rest)).length + 1) = rest := by
    rw [cstring_in_memory hnul]
    exact drop_left' (by simp)
  have hleft : ((text.length + 1 + left : Nat) : Int) -
      (Int16.ofBitVec (.ofNat 16 (text.length + 1))).toInt = (left : Nat) := by
    rw [toInt_ofNat hlen]
    omega
  rw [stateT_get_bind, stateT_bind_of_ok (by rw [hzero]; rfl)]
  rw [parseName_in_memory defaultRealm hnul rest, hparse]
  show (do
    refuseIf _ .truncatedRecord
    set (⟨_, _⟩ : Cursor)
    return princ : Decoding Principal) _ = _
  rw [stateT_bind_of_ok (by rw [hsize]; rfl), hdrop, hleft]
  rfl

/-! ## A whole record -/

/-- The lengths are such that a record can hold them. -/
structure Fits (entry : DbEntry) : Prop where
  len : entry.len = v1BaseLength
  noExtra : entry.eData = []
  counted : entry.nTlData.toInt = entry.tlData.length
  keys : entry.keyData.length < 2 ^ 15
  tlData : ∀ tl ∈ entry.tlData, tl.contents.length < 2 ^ 15
  keyData : ∀ key ∈ entry.keyData, ∀ part ∈ key.parts, part.contents.length < 2 ^ 15
  name : ∀ name, unparseName entry.princ = .ok name → (cstring name).length < 2 ^ 15 - 1

section Record

variable {entry : DbEntry}

theorem length_typedOctets (type : Int16) (contents : Octets) :
    (typedOctets type contents).length = contents.length + 4 := by
  simp only [typedOctets, length_append, length_le16]
  omega

theorem length_keyDataOctets (key : KeyData) : (keyDataOctets key).length =
    4 + (key.parts.map fun part => part.contents.length + 4).sum := by
  simp only [keyDataOctets, length_append, length_le16, length_flatMap, length_typedOctets]

theorem length_contentsOctets (hlen : entry.len = v1BaseLength) (text : Octets) :
    (contentsOctets entry text).length = contentLength entry text := by
  have hbase : entry.len.toNatClampNeg = 38 := by
    rw [hlen]
    rfl
  simp only [contentsOctets, contentLength, baseOctets, nameOctets, length_append,
    length_le16, length_le32, length_flatMap, length_typedOctets, length_keyDataOctets,
    length_singleton]
  omega

theorem contentLength_eq (hlen : entry.len = v1BaseLength) (hextra : entry.eData = [])
    (text : Octets) : contentLength entry text = 38 + (2 + (text.length + 1) +
      ((entry.tlData.map fun tl => 4 + tl.contents.length).sum +
        (entry.keyData.map keySize).sum)) := by
  have hbase : entry.len.toNatClampNeg = 38 := by
    rw [hlen]
    rfl
  have hkey : keySize = fun key : KeyData =>
      4 + (key.parts.map fun part => part.contents.length + 4).sum := by
    funext key
    simp [keySize, Nat.add_comm 4 (List.length _)]
  simp only [contentLength, hextra, hkey, Nat.add_comm 4 (List.length _), length_nil]
  omega

/-- The reader of the record gets each part in its turn. -/
theorem reads_entry {text : Octets} (hfits : Fits entry)
    (hname : Reads (princName defaultRealm) (nameOctets text) (2 + (text.length + 1)) princ) :
    Reads (decodeEntry defaultRealm) (contentsOctets entry text) (contentLength entry text)
      { entry with princ } := by
  have htls := Reads.times (fun tl htl => reads_tlData (hfits.tlData tl htl))
    (not_neg_of_counted hfits.counted).2.symm
  have hkeys := Reads.times (fun key hkey => reads_keyData (hfits.keyData key hkey))
    (not_neg_of_counted (toInt_ofNat hfits.keys)).2.symm
  rw [contentLength_eq hfits.len hfits.noExtra]
  simp only [contentsOctets, baseOctets, append_assoc, hfits.noExtra]
  refine .counted rfl (.word16 (.word32 (.word32 (.word32 (.word32 (.word32 (.word32 (.word32
    (.word32 (.word16 ?_))))))))))
  refine .refuseIf (not_neg_of_counted hfits.counted).1 (.word16 ?_)
  refine .refuseIf (not_neg_of_counted (toInt_ofNat hfits.keys)).1 ?_
  -- There is no extra data behind a base of the known size.
  have hnone : ((Int16.ofBitVec entry.len.toBitVec).toInt - v1BaseLength.toInt).toNat = 0 := by
    rw [hfits.len]
    rfl
  rw [hnone]
  refine .skip (Reads.octets []) (hname.bind (htls.bind ?_))
  exact hkeys.map _

/-- The record names the principal by a text that is parsed back, without its type. -/
theorem exists_nameText (defaultRealm : Except Name.Code Octets) (hfits : Fits entry)
    (hdata : entry.princ.data ≠ []) (hrealm : entry.princ.realm ≠ []) : ∃ text,
    (∀ type, encodePrincContents { entry with princ := { entry.princ with type } } =
      .ok ⟨contentLength entry text, contentsOctets entry text⟩) ∧
    decodePrincContents defaultRealm (contentsOctets entry text) =
      .ok { entry with princ := { entry.princ with type := ntPrincipal } } := by
  obtain ⟨d, ds, hprinc⟩ := exists_cons_of_ne_nil hdata
  have hunparse : ∀ type, unparseName { entry.princ with type } =
      .ok (nameText d ds entry.princ.realm ++ [0]) := by
    intro type
    have := unparseName_eq d ds entry.princ.realm type
    rwa [← hprinc] at this
  have hnul := nul_notMem_nameText d ds entry.princ.realm
  have htext := cstring_snoc_nul hnul
  have hshort := hfits.name _ (hunparse entry.princ.type)
  rw [htext] at hshort
  have hread := reads_entry hfits (reads_princName hnul (by omega)
    (parseName_nameText defaultRealm d ds hrealm))
  refine ⟨nameText d ds entry.princ.realm, fun type => ?_, ?_⟩
  · rw [encodePrincContents, hunparse, mapError_ok, ok_bind, htext,
      if_neg (not_not_intro hfits.counted.symm), if_neg (not_not_intro hfits.len)]
    rfl
  · have hwhole := hread [] 0
    rw [append_nil, Nat.add_zero, ← length_contentsOctets hfits.len] at hwhole
    rw [decodePrincContents, hwhole, ← hprinc]
    rfl

/-- The record of an entry takes the size that was found for it, and reading it gives the
entry back. The type of the name is not in the record. -/
theorem decode_encode_entry (defaultRealm : Except Name.Code Octets) (entry : DbEntry)
    (hfits : Fits entry) (hdata : entry.princ.data ≠ []) (hrealm : entry.princ.realm ≠ []) :
    ∃ content, encodePrincContents entry = .ok content ∧ content.data.length = content.length ∧
      decodePrincContents defaultRealm content.data =
        .ok { entry with princ := { entry.princ with type := ntPrincipal } } := by
  obtain ⟨text, hwrite, hread⟩ := exists_nameText defaultRealm hfits hdata hrealm
  exact ⟨_, hwrite entry.princ.type, length_contentsOctets hfits.len _, hread⟩

end Record

def sampleEntry (princ : Principal) : DbEntry where
  len := 38
  attributes := 0x80
  maxLife := 36000
  maxRenewableLife := 0
  expiration := -1
  pwExpiration := 0
  lastSuccess := 0
  lastFailed := 0
  failAuthCount := 0
  nTlData := 1
  eData := []
  princ := princ
  tlData := [⟨1, [1, 2, 3, 4]⟩]
  keyData := [⟨2, 3, [⟨1, [8, 0, 9]⟩, ⟨1, []⟩], rfl, two_le_array⟩,
    ⟨1, 3, [⟨16, [7]⟩], rfl, one_le_array⟩]

theorem fits_sampleEntry {name : Octets}
    (hname : unparseName princ = .ok name) (hshort : (cstring name).length < 2 ^ 15 - 1) :
    Fits (sampleEntry princ) where
  len := rfl
  noExtra := rfl
  counted := rfl
  keys := by simp [sampleEntry]
  tlData := by simp [sampleEntry]
  keyData := by simp [sampleEntry]
  name := by
    intro name' hname'
    cases hname.symm.trans hname'
    exact hshort

theorem decode_encode_sampleEntry : ∃ content,
    encodePrincContents (sampleEntry ⟨[0x52], [[0x61]], 1⟩) = .ok content ∧
      content.data.length = content.length ∧
      decodePrincContents (.error .configNodefrealm) content.data =
        .ok (sampleEntry ⟨[0x52], [[0x61]], 1⟩) :=
  decode_encode_entry _ _ (fits_sampleEntry rfl (by decide)) (by decide) (by decide)

/-- The name with an empty realm is written, and refused when it is read. -/
theorem decode_encode_no_realm : Fits (sampleEntry ⟨[], [[0x61]], 1⟩) ∧
    ∃ content, encodePrincContents (sampleEntry ⟨[], [[0x61]], 1⟩) = .ok content ∧
      decodePrincContents (.ok [0x52]) content.data = .error (.name .parseMalformed) :=
  ⟨fits_sampleEntry rfl (by decide), ⟨_, rfl, by decide +kernel⟩⟩

end Krb5.Kdb
