import Krb5.Name.RoundTrip
import Krb5.Ser.Parts

/-!
# What the serializers of single structures write and read

For each structure: the octets that are written, that its externalizer writes them in a
buffer of the announced size and never anything else, and that its internalizer reads them
back. Announced is what is written, except for keys.
-/

namespace Krb5.Ser

open Lib List Name

variable {n : Nat} {magic : Int32} {s : Octets} {size : Except Code Nat}

/-- The sizer announces `n`; the externalizer writes `bs` where it finds that much room, and
`bs` or nothing elsewhere. -/
structure Serial (size : Except Code Nat) (w : Externalizer Unit) (n : Nat) (bs : Octets) :
    Prop where
  size_eq : size = .ok n
  puts : Puts w n bs
  wrote : Wrote w bs

theorem Serial.ifRoom {w : Externalizer Unit} {need : Nat} {bs : Octets} (hsize : size = .ok n)
    (hputs : Puts w need bs) (hle : need ≤ n) : Serial size (ifRoom size w) n bs := by
  subst hsize
  exact ⟨rfl, hputs.within hle, Wrote.within hputs hle⟩

variable {α : Type}

section Reading

theorem gets_int32 (v : Int32) : Gets serUnpackInt32 (be32 v) v := Gets.int32 Code.enomem v

theorem toNat_ofNat_int32 (h : n < 2 ^ 31) : (Int32.ofNat n).toUInt32.toNat = n := by
  rw [Int32.toUInt32_ofNat', UInt32.toNat_ofNat']
  omega

theorem gets_bytes {bs : Octets} (h : bs.length < 2 ^ 31) :
    Gets (serUnpackBytes (.ofNat bs.length)) bs bs := by
  rw [serUnpackBytes, toNat_ofNat_int32 h]
  exact Gets.bytes Code.enomem bs

theorem gets_expectMagic (magic : Int32) : Gets (expectMagic magic) (be32 magic) () := by
  intro rest
  rw [expectMagic, stateT_bind_of_ok (Gets.int32OrZero magic rest), if_neg (not_not.mpr rfl)]
  rfl

theorem expectMagic_refuses (hmagic : magic ≠ 0)
    (h : head32 s ≠ some magic) : expectMagic magic s = .error .einval := by
  have hne : (head32 s).getD 0 ≠ magic := by
    cases hs : head32 s with
    | none => exact hmagic.symm
    | some v =>
      intro hv
      exact h (hs.trans (congrArg some hv))
  show (if (head32 s).getD 0 ≠ magic then throw .einval else pure () : Internalizer Unit) _ = _
  rw [if_pos hne]
  rfl

theorem expectInts_bind {ints : Nat} (h : 4 * ints ≤ s.length) (f : Unit → Internalizer α) :
    (expectInts ints >>= f) s = f () s :=
  stateT_bind_of_ok (if_pos h)

end Reading

/-! ## Items -/

def itemOctets (magic type : Int32) (contents : Octets) : Octets :=
  be32 magic ++ (be32 type ++ (be32 (.ofNat contents.length) ++ (contents ++ be32 magic)))

@[simp] theorem length_itemOctets (magic type : Int32) (contents : Octets) :
    (itemOctets magic type contents).length = 16 + contents.length := by
  simp only [itemOctets, length_append, length_be32]
  omega

theorem head32_itemOctets (magic type : Int32) (contents rest : Octets) :
    head32 (itemOctets magic type contents ++ rest) = some magic := by
  rw [itemOctets, append_assoc, head32_be32]

theorem puts_int32 (v : Int32) : Puts (silently (serPackInt32 v)) 4 (be32 v) :=
  (Puts.int32 Code.enomem v).silently

theorem puts_bytes (bs : Octets) : Puts (silently (serPackBytes bs)) bs.length bs :=
  (Puts.bytes Code.enomem bs).silently

theorem serial_item (magic type : Int32) (contents : Octets) (hsize : size = .ok n)
    (hn : 16 + contents.length ≤ n) :
    Serial size (externalizeItem magic size type contents) n (itemOctets magic type contents) := by
  refine Serial.ifRoom hsize ?_ hn
  have h := (puts_int32 magic).seq ((puts_int32 type).seq
    ((puts_int32 (.ofNat contents.length)).seq ((puts_bytes contents).seq (puts_int32 magic))))
  exact h.mono (by omega)

theorem gets_item (magic : Int32) {ints : Nat} (hints : ints ≤ 3) (make : Int32 → Octets → α)
    (type : Int32) {contents : Octets} (hlen : contents.length < 2 ^ 31) :
    Gets (internalizeItem magic ints make) (itemOctets magic type contents)
      (make type contents) := by
  intro rest
  rw [internalizeItem, itemOctets]
  simp only [append_assoc]
  rw [(gets_expectMagic magic).bind, expectInts_bind, (gets_int32 type).bind,
    (gets_int32 _).bind, (gets_bytes hlen).bind, (gets_expectMagic magic).bind]
  · rfl
  · simp only [length_append, length_be32]
    omega

theorem internalizeItem_refuses (hmagic : magic ≠ 0) (ints : Nat) (make : Int32 → Octets → α)
    (h : head32 s ≠ some magic) : internalizeItem magic ints make s = .error .einval :=
  stateT_bind_of_error (expectMagic_refuses hmagic h)

def addressOctets (address : Address) : Octets :=
  itemOctets kv5mAddress address.addrtype address.contents

def keyblockOctets (keyblock : Keyblock) : Octets :=
  itemOctets kv5mKeyblock keyblock.enctype keyblock.contents

def checksumOctets (checksum : Checksum) : Octets :=
  itemOctets kv5mChecksum checksum.checksumType checksum.contents

def authdataOctets (authdata : Authdata) : Octets :=
  itemOctets kv5mAuthdata authdata.adType authdata.contents

theorem serial_address (address : Address) :
    Serial (addressSize address) (addressExternalize address) (16 + address.contents.length)
      (addressOctets address) :=
  serial_item _ _ _ rfl (Nat.le_refl _)

theorem serial_keyblock (keyblock : Keyblock) :
    Serial (keyblockSize keyblock) (keyblockExternalize keyblock)
      (20 + keyblock.contents.length) (keyblockOctets keyblock) :=
  serial_item _ _ _ rfl (by omega)

theorem serial_checksum (checksum : Checksum) :
    Serial (checksumEsize checksum) (checksumExternalize checksum)
      (16 + checksum.contents.length) (checksumOctets checksum) :=
  serial_item _ _ _ rfl (Nat.le_refl _)

theorem serial_authdata (authdata : Authdata) :
    Serial (authdataSize authdata) (authdataExternalize authdata)
      (16 + authdata.contents.length) (authdataOctets authdata) :=
  serial_item _ _ _ rfl (Nat.le_refl _)

theorem gets_address {address : Address} (h : address.contents.length < 2 ^ 31) :
    Gets addressInternalize (addressOctets address) address :=
  gets_item _ (by decide) _ _ h

theorem gets_keyblock {keyblock : Keyblock} (h : keyblock.contents.length < 2 ^ 31) :
    Gets keyblockInternalize (keyblockOctets keyblock) keyblock :=
  gets_item _ (by decide) _ _ h

theorem gets_checksum {checksum : Checksum} (h : checksum.contents.length < 2 ^ 31) :
    Gets checksumInternalize (checksumOctets checksum) checksum :=
  gets_item _ (by decide) _ _ h

theorem gets_authdata {authdata : Authdata} (h : authdata.contents.length < 2 ^ 31) :
    Gets authdataInternalize (authdataOctets authdata) authdata :=
  gets_item _ (by decide) _ _ h

/-! ## Principals -/

/-- The text of a name that has a component. -/
def principalText (principal : Principal) : Octets :=
  match principal.data with
  | [] => []
  | d :: ds => nameText d ds principal.realm

def principalOctets (principal : Principal) : Octets :=
  be32 kv5mPrincipal ++ (be32 (.ofNat (principalText principal).length) ++
    (principalText principal ++ be32 kv5mPrincipal))

@[simp] theorem length_principalOctets (principal : Principal) :
    (principalOctets principal).length = 12 + (principalText principal).length := by
  simp only [principalOctets, length_append, length_be32]
  omega

variable {principal : Principal}

theorem unparseName_principalText (hdata : principal.data ≠ []) :
    unparseName principal = .ok (principalText principal ++ [0]) ∧
      cstring (principalText principal ++ [0]) = principalText principal := by
  obtain ⟨realm, data, type⟩ := principal
  obtain ⟨d, ds, rfl⟩ := exists_cons_of_ne_nil hdata
  exact ⟨unparseName_eq d ds realm type, cstring_nameText d ds realm⟩

theorem principalSize_no_data (hdata : principal.data = []) :
    principalSize principal = .error .fault := by
  have hfault : unparseName principal = .error .fault := by
    simp [unparseName, unparseNameExt, hdata]
  rw [principalSize, hfault]
  rfl

theorem serial_principal (hdata : principal.data ≠ []) :
    Serial (principalSize principal) (principalExternalize principal)
      (12 + (principalText principal).length) (principalOctets principal) := by
  obtain ⟨hunparse, htext⟩ := unparseName_principalText hdata
  have hsize : principalSize principal = .ok (12 + (principalText principal).length) := by
    rw [principalSize, hunparse]
    show Except.ok (3 * 4 + (cstring _).length) = _
    rw [htext]
  have hputs : Puts (do
      silently (serPackInt32 kv5mPrincipal)
      silently (serPackInt32 (.ofNat (cstring (principalText principal ++ [0])).length))
      silently (serPackBytes (cstring (principalText principal ++ [0])))
      silently (serPackInt32 kv5mPrincipal))
      (4 + (4 + ((principalText principal).length + 4))) (principalOctets principal) := by
    rw [htext]
    exact (puts_int32 _).seq ((puts_int32 _).seq ((puts_bytes _).seq (puts_int32 _)))
  rw [principalExternalize, hunparse]
  exact Serial.ifRoom hsize hputs (by omega)

variable (defaultRealm : Except Name.Code Octets)

theorem principalInternalize_octets {d realm : Octets} {ds : List Octets} {type : Int32}
    (hlen : (nameText d ds realm).length < 2 ^ 31) (rest : Octets) :
    principalInternalize defaultRealm (principalOctets ⟨realm, d :: ds, type⟩ ++ rest) =
      (do
        let parsed ← ofName (parseName defaultRealm (nameText d ds realm ++ [0]))
        return (parsed, rest)) := by
  rw [principalInternalize, principalOctets]
  simp only [principalText, append_assoc]
  rw [(gets_expectMagic _).bind, (gets_int32 _).bind, (gets_bytes hlen).bind, stateT_lift_bind]
  rfl

theorem gets_principal (hdata : principal.data ≠ []) (hrealm : principal.realm ≠ [])
    (hlen : (principalText principal).length < 2 ^ 31) :
    Gets (principalInternalize defaultRealm) (principalOctets principal)
      { principal with type := ntPrincipal } := by
  intro rest
  obtain ⟨realm, data, type⟩ := principal
  obtain ⟨d, ds, rfl⟩ := exists_cons_of_ne_nil hdata
  rw [principalInternalize_octets defaultRealm hlen, parseName_nameText defaultRealm d ds hrealm]
  rfl

theorem principalInternalize_no_realm (hdata : principal.data ≠ []) (hrealm : principal.realm = [])
    (hlen : (principalText principal).length < 2 ^ 31) (rest : Octets) :
    principalInternalize defaultRealm (principalOctets principal ++ rest) =
      .error (.name .parseMalformed) := by
  obtain ⟨realm, data, type⟩ := principal
  obtain ⟨d, ds, rfl⟩ := exists_cons_of_ne_nil hdata
  obtain rfl : realm = [] := hrealm
  rw [principalInternalize_octets defaultRealm hlen, parseName_no_realm]
  rfl

section Member

variable {octets : α → Octets}

def memberOctets (octets : α → Octets) (member : Option α) : Octets := member.elim [] octets

@[simp] theorem memberOctets_some (a : α) : memberOctets octets (some a) = octets a := rfl

variable {member : Option α} {more : Octets}

theorem serial_member {size : α → Except Code Nat} {externalize : α → Externalizer Unit}
    {n : α → Nat} (h : ∀ a ∈ member, Serial (size a) (externalize a) (n a) (octets a)) :
    Serial (memberSize size member) (memberExternalize externalize member) (member.elim 0 n)
      (memberOctets octets member) := by
  cases member with
  | none => exact ⟨rfl, Puts.pure, Wrote.pure⟩
  | some a => exact h a rfl

theorem head32_member {other : Int32} (hoctets : ∀ a rest, head32 (octets a ++ rest) = some magic)
    (hne : magic ≠ other) (hmore : head32 more ≠ some other) :
    head32 (memberOctets octets member ++ more) ≠ some other := by
  cases member with
  | none => exact hmore
  | some a =>
    rw [memberOctets_some, hoctets]
    exact fun h => hne (Option.some.inj h)

theorem attempt_member {internalize : Internalizer α} {back : α → α}
    (hgets : ∀ a ∈ member, Gets internalize (octets a) (back a))
    (hrefuses : ∀ s, head32 s ≠ some magic → internalize s = .error .einval)
    (hmore : head32 more ≠ some magic) : attempt internalize (memberOctets octets member ++ more) =
      .ok ((member.map back, none), more) := by
  cases member with
  | none =>
    show attempt internalize more = _
    rw [attempt, hrefuses more hmore]
    rfl
  | some a =>
    rw [memberOctets_some, attempt, hgets a rfl more]
    rfl

end Member

@[simp] theorem attemptUnless_none (internalize : Internalizer α) :
    attemptUnless none internalize = attempt internalize := rfl

theorem attemptUnless_some_bind {β : Type} (code : Code) (internalize : Internalizer α)
    (f : Option α × Option Code → Internalizer β) (s : Octets) :
    (attemptUnless (some code) internalize >>= f) s = f (none, some code) s := rfl

/-! ## Authenticators -/

variable (authdata : List Authdata)

theorem authdataSizes_eq :
    authdataSizes authdata = .ok (authdata.map fun a => 16 + a.contents.length).sum := by
  induction authdata with
  | nil => rfl
  | cons a rest ih =>
    rw [authdataSizes, ih]
    rfl

theorem puts_authdataAll :
    Puts (authdataExternalizeAll authdata) (authdata.map fun a => 16 + a.contents.length).sum
      (authdata.flatMap authdataOctets) := by
  induction authdata with
  | nil => exact Puts.pure
  | cons a rest ih => exact (serial_authdata a).puts.seq ih

theorem gets_authdataAll {authdata : List Authdata}
    (hlen : ∀ a ∈ authdata, a.contents.length < 2 ^ 31) :
    Gets (authdataInternalizeAll authdata.length) (authdata.flatMap authdataOctets) authdata := by
  induction authdata with
  | nil => exact Gets.pure []
  | cons a rest ih =>
    intro more
    have hfirst := gets_authdata (hlen a mem_cons_self)
    rw [flatMap_cons, append_assoc]
    show (authdataInternalize >>= _) _ = _
    rw [hfirst.bind, (ih fun b hb => hlen b (mem_cons_of_mem a hb)).bind]
    rfl

namespace HeldAuthenticator

variable (a : HeldAuthenticator)

def octets : Octets :=
  be32 kv5mAuthenticator ++ (be32 a.ctime ++ (be32 a.cusec ++ (be32 a.seqNumber ++
    (memberOctets principalOctets a.client ++ (memberOctets checksumOctets a.checksum ++
      (memberOctets keyblockOctets a.subkey ++
        (be32 (.ofNat (a.authorizationData.getD []).length) ++
          ((a.authorizationData.getD []).flatMap authdataOctets ++ be32 kv5mAuthenticator))))))))

def need : Nat :=
  24 + a.client.elim 0 (fun c => 12 + (principalText c).length) +
    a.checksum.elim 0 (fun c => 16 + c.contents.length) +
    a.subkey.elim 0 (fun k => 20 + k.contents.length) +
    ((a.authorizationData.getD []).map fun d => 16 + d.contents.length).sum

/-- What comes back: the name has lost its type, and there is an array for the
authorization data. -/
def back : HeldAuthenticator :=
  { a with
    client := a.client.map fun c => { c with type := ntPrincipal }
    authorizationData := some (a.authorizationData.getD []) }

/-- Everything that is counted is counted in a C `int`. -/
structure Fits : Prop where
  client : ∀ c ∈ a.client, (principalText c).length < 2 ^ 31
  checksum : ∀ c ∈ a.checksum, c.contents.length < 2 ^ 31
  subkey : ∀ k ∈ a.subkey, k.contents.length < 2 ^ 31
  count : (a.authorizationData.getD []).length < 2 ^ 31
  authdata : ∀ d ∈ a.authorizationData.getD [], d.contents.length < 2 ^ 31

variable {a}

theorem back_eq_self :
    a.back = a ↔ (∀ c ∈ a.client, c.type = ntPrincipal) ∧ a.authorizationData ≠ none := by
  obtain ⟨client, checksum, cusec, ctime, subkey, seqNumber, authdata⟩ := a
  cases client with
  | none => cases authdata <;> simp [back]
  | some c =>
    obtain ⟨realm, data, type⟩ := c
    cases authdata <;> simp [back, eq_comm]

theorem head32_octets (rest : Octets) : head32 (a.octets ++ rest) = some kv5mAuthenticator := by
  rw [octets, append_assoc, head32_be32]

theorem serial (hcli : ∀ c ∈ a.client, c.data ≠ []) :
    Serial (authenticatorSize a) (authenticatorExternalize a) a.need a.octets := by
  have hcli := serial_member fun c hc => serial_principal (hcli c hc)
  have hchecksum := serial_member fun c (_ : c ∈ a.checksum) => serial_checksum c
  have hsubkey := serial_member fun k (_ : k ∈ a.subkey) => serial_keyblock k
  have hsize : authenticatorSize a = .ok a.need := by
    rw [authenticatorSize, hcli.size_eq, hchecksum.size_eq, hsubkey.size_eq, authdataSizes_eq]
    rfl
  have hputs := (puts_int32 kv5mAuthenticator).seq ((puts_int32 a.ctime).seq
    ((puts_int32 a.cusec).seq ((puts_int32 a.seqNumber).seq (hcli.puts.seq
      (hchecksum.puts.seq (hsubkey.puts.seq
        ((puts_int32 (.ofNat (a.authorizationData.getD []).length)).seq
          ((puts_authdataAll (a.authorizationData.getD [])).seq
            (puts_int32 kv5mAuthenticator)))))))))
  refine Serial.ifRoom hsize hputs ?_
  rw [need]
  omega

theorem length_octets : a.octets.length + 4 * a.subkey.toList.length = a.need := by
  have hcli : (memberOctets principalOctets a.client).length =
      a.client.elim 0 fun c => 12 + (principalText c).length := by
    cases a.client with
    | none => rfl
    | some c => exact length_principalOctets c
  have hchecksum : (memberOctets checksumOctets a.checksum).length =
      a.checksum.elim 0 fun c => 16 + c.contents.length := by
    cases a.checksum with
    | none => rfl
    | some c => exact length_itemOctets _ _ _
  have hsubkey : (memberOctets keyblockOctets a.subkey).length + 4 * a.subkey.toList.length =
      a.subkey.elim 0 fun k => 20 + k.contents.length := by
    cases a.subkey with
    | none => rfl
    | some k =>
      show (itemOctets _ _ _).length + 4 * 1 = 20 + k.contents.length
      rw [length_itemOctets]
      omega
  have hauthdata : ∀ authdata : List Authdata, (authdata.flatMap authdataOctets).length =
      (authdata.map fun d => 16 + d.contents.length).sum := by
    intro authdata
    simp [length_flatMap, authdataOctets, length_itemOctets]
  simp only [octets, need, length_append, length_be32, hauthdata]
  omega

theorem count_ne (hn : n < 2 ^ 31) (hmagic : magic.toInt < 0)
    (rest : Octets) : head32 (be32 (.ofNat n) ++ rest) ≠ some magic := by
  rw [head32_be32]
  intro h
  have hval := Int32.toInt_ofNat_of_lt hn
  rw [Option.some.inj h] at hval
  omega

/-- An authenticator is read back if its client has a realm and components. -/
theorem gets (defaultRealm : Except Name.Code Octets) (hfits : a.Fits)
    (hcli : ∀ c ∈ a.client, c.data ≠ [] ∧ c.realm ≠ []) :
    Gets (authenticatorInternalize defaultRealm) a.octets a.back := by
  intro rest
  rw [authenticatorInternalize, octets]
  simp only [append_assoc]
  rw [(gets_expectMagic _).bind, expectInts_bind, (gets_int32 _).bind, (gets_int32 _).bind,
    (gets_int32 _).bind]
  swap
  · simp only [length_append, length_be32]
    omega
  -- What stands behind each optional member is not taken for it.
  have hcnt : ∀ magic : Int32, magic.toInt < 0 → ∀ more : Octets,
      head32 (be32 (.ofNat (a.authorizationData.getD []).length) ++ more) ≠ some magic :=
    fun magic hmagic more => count_ne hfits.count hmagic more
  have hsubkey : ∀ magic : Int32, magic.toInt < 0 → kv5mKeyblock ≠ magic → ∀ more : Octets,
      head32 (memberOctets keyblockOctets a.subkey ++
        (be32 (.ofNat (a.authorizationData.getD []).length) ++ more)) ≠ some magic :=
    fun magic hmagic hne more => head32_member (fun k => head32_itemOctets _ _ _) hne
      (hcnt magic hmagic more)
  have hchecksum : ∀ more : Octets, head32 (memberOctets checksumOctets a.checksum ++
      (memberOctets keyblockOctets a.subkey ++
        (be32 (.ofNat (a.authorizationData.getD []).length) ++ more))) ≠ some kv5mPrincipal :=
    fun more => head32_member (fun c => head32_itemOctets _ _ _) (by decide)
      (hsubkey _ (by decide) (by decide) more)
  have hreadClient : ∀ more : Octets, head32 more ≠ some kv5mPrincipal →
      attempt (principalInternalize defaultRealm) (memberOctets principalOctets a.client ++ more) =
        .ok ((a.back.client, none), more) :=
    fun more => attempt_member
      (fun c hc => gets_principal defaultRealm (hcli c hc).1 (hcli c hc).2
        (hfits.client c hc))
      fun s hs => stateT_bind_of_error (expectMagic_refuses (by decide) hs)
  have hreadChecksum : ∀ more : Octets, head32 more ≠ some kv5mChecksum →
      attempt checksumInternalize (memberOctets checksumOctets a.checksum ++ more) =
        .ok ((a.checksum.map id, none), more) :=
    fun more => attempt_member (fun c hc => gets_checksum (hfits.checksum c hc))
      fun s hs => internalizeItem_refuses (by decide) _ _ hs
  have hreadSubkey : ∀ more : Octets, head32 more ≠ some kv5mKeyblock →
      attempt keyblockInternalize (memberOctets keyblockOctets a.subkey ++ more) =
        .ok ((a.subkey.map id, none), more) :=
    fun more => attempt_member (fun k hk => gets_keyblock (hfits.subkey k hk))
      fun s hs => internalizeItem_refuses (by decide) _ _ hs
  rw [stateT_bind_of_ok (hreadClient _ (hchecksum _)), attemptUnless_none,
    stateT_bind_of_ok (hreadChecksum _ (hsubkey _ (by decide) (by decide) _)), attemptUnless_none,
    stateT_bind_of_ok (hreadSubkey _ (hcnt _ (by decide) _)), (gets_int32 _).bind,
    Int32.toInt_ofNat_of_lt hfits.count, Int.toNat_natCast, (gets_authdataAll hfits.authdata).bind,
    Option.map_id, Option.map_id]
  rfl

/-- Without a realm the name of the client is not read back. -/
theorem internalize_no_realm (defaultRealm : Except Name.Code Octets) (hfits : a.Fits)
    {client : Principal} (hcli : a.client = some client) (hdata : client.data ≠ [])
    (hrealm : client.realm = []) (rest : Octets) :
    authenticatorInternalize defaultRealm (a.octets ++ rest) = .error .einval := by
  have hlen := hfits.client client hcli
  have hattempt : ∀ more : Octets,
      attempt (principalInternalize defaultRealm) (principalOctets client ++ more) =
        .ok ((none, some (.name .parseMalformed)), principalOctets client ++ more) := by
    intro more
    rw [attempt, principalInternalize_no_realm defaultRealm hdata hrealm hlen]
  rw [authenticatorInternalize, octets, hcli, memberOctets_some]
  simp only [append_assoc]
  rw [(gets_expectMagic _).bind, expectInts_bind, (gets_int32 _).bind, (gets_int32 _).bind,
    (gets_int32 _).bind, stateT_bind_of_ok (hattempt _), attemptUnless_some_bind,
    attemptUnless_some_bind, principalOctets]
  swap
  · simp only [length_append, length_be32]
    omega
  simp only [append_assoc]
  rw [(gets_int32 _).bind, show kv5mPrincipal.toInt.toNat = 0 by decide,
    authdataInternalizeAll, pure_bind]
  have htrailer : ∀ more : Octets, expectMagic kv5mAuthenticator
      (be32 (.ofNat (principalText client).length) ++ more) = .error .einval :=
    fun more => expectMagic_refuses (by decide) (count_ne hlen (by decide) more)
  exact stateT_bind_of_error (htrailer _)

end HeldAuthenticator

end Krb5.Ser
