import Krb5.Asn1.Scalars

/-!
# The codec of structures

For each structure of `asn1_k_encode.c` and `asn1_k_decode.c` the element that its
encoder emits, and the verdict of its decoder on every encoding of that element.
Fields stand in the order of their numbers.
-/

namespace Krb5.Asn1

open Lib Lib.Ber Accepts

variable {fuel : Nat} (present : Bool)

variable {α : Type} {k : Nat}

@[simp] theorem given_getD (val default : α) :
    (given present val).getD default = if present then val else default := by
  cases present <;> rfl

@[simp] theorem given_eq_some {present : Bool} {val v : α} :
    given present val = some v ↔ present ∧ val = v := by
  cases present <;> simp [given]

theorem given_map {β : Type} (val : α) (f : α → β) :
    (given present val).map f = given present (f val) := by
  cases present <;> rfl

theorem given_ne_zero_getD (n : Int32) : (given (n ≠ 0) n).getD 0 = n := by
  rw [given_getD]
  split <;> simp_all

theorem given_ne_nil_getD (s : Octets) : (given (s ≠ []) s).getD [] = s := by
  rw [given_getD]
  split <;> simp_all

def EncData.received (x : EncData) : EncData :=
  { x with ciphertext := x.ciphertext.filter (· ≠ []) }

theorem ciphertext_received (x : EncData) :
    (if x.ciphertext.getD [] = [] then none else some (x.ciphertext.getD [])) =
      (EncData.received x).ciphertext := by
  cases h : x.ciphertext with
  | none => simp [EncData.received, h]
  | some c => by_cases hc : c = [] <;> simp [EncData.received, h, Option.filter]

/-! ## Names, addresses and encrypted data -/

def principalNameElem (x : Principal) : Elem := .record [
  (0, some (int32Elem x.type)),
  (1, some (.sequence (x.data.map stringElem)))]

instance (x : Principal) :
    Emits (asn1EncodePrincipalName x) [principalNameElem x] := by
  have hdata : Emits (makeseqOf asn1EncodeGeneralstring x.data)
      [.sequence (x.data.map stringElem)] := emits_makeseqOf emits_string
  have hfield : EmitsField (do
      let sum ← makeseqOf asn1EncodeGeneralstring x.data
      return sum + (← asn1MakeEtag .contextSpecific 1 sum))
      (1, some (.sequence (x.data.map stringElem))) := by
    refine ⟨fun hk => ?_⟩
    refine emits_wrapped (.explicit hk (hdata.wf _ (List.mem_singleton_self _))) hdata ?_ rfl
    intro n buf
    exact asn1MakeTag_run hk .contextSpecific true n buf
  exact emits_record

def encDataElem (x : EncData) : Elem := .record [
  (0, some (int32Elem x.enctype)),
  (1, (given (x.kvno ≠ 0) x.kvno).map int32Elem),
  (2, some (octetsElem (x.ciphertext.getD [])))]

instance emits_encData (x : EncData) : Emits (asn1EncodeEncryptedData x) [encDataElem x] :=
  emits_record

theorem Accepts.encData (x : EncData) :
    Accepts fuel (asn1DecodeEncryptedData fuel) .any (encDataElem x) (EncData.received x) := by
  refine .plain .inner [1] ?_ rfl (by decide) (by decide)
  refine .req (.integer _) ?_
  refine .opt .integer ?_
  refine .req (.octets _) ?_
  refine .of_eq ?_
  rw [given_ne_zero_getD, ciphertext_received]
  rfl

def components {α : Type} (decoder : Decoder α) : Fields α := do
  let data ← onSubbuf decoder
  if (← get).tag.indef then getEoc
  nextTag
  return data

theorem takes_components (decoder : Decoder α) : Takes 1 (components decoder) decoder := by
  intro w st hw htag
  have hiff : (st.tag.taglen = 0 ∧ st.tag.indef) = (st.tag.indef) := by
    rw [htag]
    cases w <;> simp [tagOf]
  rw [components, getFieldBody, stateT_get_bind]
  simp only [hiff]
  cases hdec : decoder st.subbuf with
  | error e =>
    have hrun : onSubbuf decoder st = .error e := by
      rw [onSubbuf, stateT_get_bind]
      simp only [hdec]
      rfl
    rw [stateT_bind_of_error hrun, stateT_bind_of_error hrun]
  | ok r =>
    have hrun : onSubbuf decoder st = .ok (r.1, ⟨r.2, st.tag⟩) := by
      rw [onSubbuf, stateT_get_bind]
      simp only [hdec]
      rfl
    rw [stateT_bind_of_ok hrun, stateT_bind_of_ok hrun, stateT_get_bind]

theorem onSubbuf_map {β : Type} (f : α → β) (decoder : Decoder α) :
    onSubbuf (f <$> decoder) = f <$> onSubbuf decoder := by
  simp only [onSubbuf, map_bind]
  refine bind_congr fun st => ?_
  have hrun : (f <$> decoder) st.subbuf = (decoder st.subbuf).map fun r => (f r.1, r.2) := rfl
  rw [hrun]
  cases decoder st.subbuf <;> rfl

theorem Accepts.principalName (x : Principal) :
    Accepts fuel (asn1DecodePrincipalName fuel) .any (principalNameElem x) (x.type, x.data) := by
  -- the length that is left plays no part on an element that ends with its components
  have hdata : Accepts fuel (Prod.snd <$> sequenceOfNoTagvars fuel asn1DecodeGeneralstring) .any
      (.sequence (x.data.map stringElem)) x.data := by
    have hsnd : Prod.snd <$> sequenceOfNoTagvars fuel asn1DecodeGeneralstring =
        sequenceOfWith (fun _ tag => tag.taglen) (fun _ vals => vals) fuel
          asn1DecodeGeneralstring := by simp [sequenceOfWith, map_bind]
    rw [hsnd]
    exact (array fun s _ => .string s).any_of_each
  refine .simpleWith .inner fun _ => ?_
  simp only [map_bind]
  refine .req (.integer _) ?_
  have hprog : Follows fuel .inner [] (fun _ => .any)
      (components (Prod.snd <$> sequenceOfNoTagvars fuel asn1DecodeGeneralstring) >>= fun data =>
        pure (x.type, data)) [(1, some _)] (x.type, x.data) :=
    .req hdata (.value _) (takes_components _)
  convert hprog using 1
  rw [components, onSubbuf_map, bind_assoc, bind_map_left]
  congr 1
  funext r
  rw [bind_assoc]
  congr 1
  funext st
  split <;> simp

def typedStringElem (k : Nat) (type : Int32) (contents : Octets) : Elem := .record [
  (k, some (int32Elem type)),
  (k + 1, some (octetsElem contents))]

theorem emits_typedString (type : Int32) (contents : Octets) (hk : k + 1 < 31 := by decide) :
    Emits (typedString k type contents) [typedStringElem k type contents] :=
  emits_record rfl (by simp; omega)

theorem Accepts.typed (hk : k + 1 < 31) (type : Int32) (contents : Octets)
    (make : Int32 → Octets → α) :
    Accepts fuel (structureOf fuel do
      let type ← getField k asn1DecodeInteger
      let contents ← getField (k + 1 : Nat) asn1DecodeOctetstring
      return make type contents) .any (typedStringElem k type contents) (make type contents) := by
  refine .simple .inner ?_
  refine .req (.integer _) ?_ (takes_getField _) (Nat.lt_of_succ_lt hk) (by simp)
  refine .req (.octets _) ?_ (takes_getField _) hk (by simp)
  exact .value _

def hostAddressElem (x : Address) : Elem := typedStringElem 0 x.addrtype x.contents
def authdataElem (x : Authdata) : Elem := typedStringElem 0 x.adType x.contents
def encryptionKeyElem (x : Keyblock) : Elem := typedStringElem 0 x.enctype x.contents
def checksumElem (x : Checksum) : Elem := typedStringElem 0 x.checksumType x.contents
def paDataElem (x : PaData) : Elem := typedStringElem 1 x.paType x.contents

theorem Accepts.hostAddress (x : Address) :
    Accepts fuel (asn1DecodeHostAddress fuel) .any (hostAddressElem x) x :=
  typed (by decide) x.addrtype x.contents Address.mk

theorem Accepts.authdata (x : Authdata) :
    Accepts fuel (asn1DecodeAuthdataElt fuel) .any (authdataElem x) x :=
  typed (by decide) x.adType x.contents Authdata.mk

theorem Accepts.encryptionKey (x : Keyblock) :
    Accepts fuel (asn1DecodeEncryptionKey fuel) .any (encryptionKeyElem x) x :=
  typed (by decide) x.enctype x.contents Keyblock.mk

theorem Accepts.checksum (x : Checksum) :
    Accepts fuel (asn1DecodeChecksum fuel) .any (checksumElem x) x :=
  typed (by decide) x.checksumType x.contents Checksum.mk

theorem Accepts.paData (x : PaData) : Accepts fuel (asn1DecodePaData fuel) .any (paDataElem x) x :=
  typed (by decide) x.paType x.contents PaData.mk

def transitedElem (x : Transited) : Elem := typedStringElem 0 (octetInteger x.trType) x.trContents

theorem Accepts.octet (val : UInt8) :
    Accepts fuel asn1DecodeOctet .any (int32Elem (octetInteger val)) val := by
  have hback : UInt8.ofNat (octetInteger val).toUInt32.toNat = val := by
    have hall : ∀ n < 256, UInt8.ofNat (octetInteger (UInt8.ofNat n)).toUInt32.toNat =
        UInt8.ofNat n := by decide +kernel
    simpa using hall val.toNat val.toNat_lt
  have h := (@integer fuel (octetInteger val)).map fun n => UInt8.ofNat n.toUInt32.toNat
  rw [hback] at h
  exact h

theorem Accepts.transited (x : Transited) :
    Accepts fuel (asn1DecodeTransitedEncoding fuel) .any (transitedElem x) x := by
  refine .simple .inner ?_
  refine .req (.octet _) ?_
  refine .req (.octets _) ?_
  exact .value _

def kvnoElem : Elem := int32Elem 5

instance : EmitsField (kvnoField k) (k, some kvnoElem) := emits_field

def ticketBodyElem (x : SealedTicket) : Elem := .record [
  (0, some kvnoElem),
  (1, some (stringElem x.server.realm)),
  (2, some (principalNameElem x.server)),
  (3, some (encDataElem x.encPart))]

def ticketElem (x : SealedTicket) : Elem := .application 1 (ticketBodyElem x)

instance emits_ticket (x : SealedTicket) : Emits (asn1EncodeTicket x) [ticketElem x] :=
  emits_apptag emits_record

def SealedTicket.received (x : SealedTicket) : SealedTicket :=
  { x with encPart := EncData.received x.encPart }

theorem Accepts.ticket (x : SealedTicket) :
    Accepts fuel (asn1DecodeTicket fuel) .any (ticketElem x) (SealedTicket.received x) := by
  have hbody : Accepts fuel (structureOf fuel do
      let vno ← getField 0 asn1DecodeKvno
      if vno ≠ kvno5 then throw .badPvno
      let realm ← getField 1 asn1DecodeRealm
      let name ← getField 2 (asn1DecodePrincipalName fuel)
      let encPart ← getField 3 (asn1DecodeEncryptedData fuel)
      return (⟨⟨realm, name.2, name.1⟩, encPart⟩ : SealedTicket)) .any (ticketBodyElem x)
      (SealedTicket.received x) := by
    refine .simple .inner ?_
    refine .req (.integer 5) ?_
    refine .req (.string _) ?_
    refine .req (.principalName _) ?_
    refine .req (.encData _) ?_
    exact .value _
  intro t buf p hwf herase hfuel hplaced
  obtain ⟨hget, hcls, hcons, hnum, c, hc, hce, hcwf, hle, hcplaced⟩ :=
    asn1GetTag_application (by decide) hwf herase hplaced
  rw [asn1DecodeTicket, stateT_bind_of_ok hget, hcls, hcons, hnum]
  refine ((hbody hcwf hce (by omega) hcplaced).bind_ok ?_).congr (by simp [Shape.Good])
  rintro b rfl
  exact ⟨_, application_end hc hcons hwf hplaced _, rfl⟩

/-! ## Arrays -/

section Array

variable {encoder : α → Encoder Nat} {elem : α → Elem} {val : Option (List α)}
  {xs : List α} [h : ∀ x, Emits (encoder x) [elem x]]

def arrayElem (elem : α → Elem) (xs : List α) : Elem := .sequence (xs.map elem)

instance emits_array : Emits (makeseqOf encoder xs) [arrayElem elem xs] := emits_makeseqOf h

variable (encoder) in

theorem emits_someOf (hne : xs ≠ []) : Emits (someOf encoder xs) [arrayElem elem xs] := by
  rw [someOf, if_neg hne]
  exact emits_array

omit h in
theorem ne_nil_of_mem_nonempty (h : xs ∈ nonempty val) : xs ≠ [] := by
  obtain ⟨-, hne⟩ := Option.filter_eq_some_iff.mp h
  simpa using hne

/-- An array that is left out when it is empty, in front of an encoder that refuses an
empty one. -/
instance : EmitsField (addOpt (nonempty val) fun xs => addfield k (someOf encoder xs))
    (k, (nonempty val).map (arrayElem elem)) :=
  emits_addOpt fun _ hxs => emits_someOf _ (ne_nil_of_mem_nonempty hxs)

end Array

instance (x : Address) :
    Emits (asn1EncodeHostAddress x) [hostAddressElem x] := emits_typedString ..

instance (x : Authdata) :
    Emits (asn1EncodeKrb5AuthdataElt x) [authdataElem x] := emits_typedString ..

instance emits_encryptionKey (x : Keyblock) :
    Emits (asn1EncodeEncryptionKey x) [encryptionKeyElem x] := emits_typedString ..

instance (x : Checksum) :
    Emits (asn1EncodeChecksum x) [checksumElem x] := emits_typedString ..

instance (x : PaData) :
    Emits (asn1EncodePaData x) [paDataElem x] := emits_typedString ..

instance (x : Transited) :
    Emits (asn1EncodeTransitedEncoding x) [transitedElem x] := emits_typedString ..

theorem Accepts.hostAddresses (xs : List Address) :
    Accepts fuel (asn1DecodeHostAddresses fuel) .any (arrayElem hostAddressElem xs) xs :=
  (array fun x _ => hostAddress x).any_of_each

theorem Accepts.authorizationData (xs : List Authdata) :
    Accepts fuel (asn1DecodeAuthorizationData fuel) .any (arrayElem authdataElem xs) xs :=
  (array fun x _ => authdata x).any_of_each

theorem Accepts.sequenceOfPaData (xs : List PaData) :
    Accepts fuel (asn1DecodeSequenceOfPaData fuel) .any (arrayElem paDataElem xs) xs :=
  (array fun x _ => paData x).any_of_each

theorem Accepts.sequenceOfEnctype (xs : List Int32) :
    Accepts fuel (asn1DecodeSequenceOfEnctype fuel) .any (arrayElem int32Elem xs) xs :=
  (array fun x _ => integer x).any_of_each

theorem Accepts.sequenceOfTicket (xs : List SealedTicket) :
    Accepts fuel (asn1DecodeSequenceOfTicket fuel) .any (arrayElem ticketElem xs)
      (xs.map SealedTicket.received) :=
  (sequence fun x _ => ticket x).any_of_each

def timesAt (ks : List Nat) (k : Nat) : Shape := if k ∈ ks then .time else .any

end Krb5.Asn1
