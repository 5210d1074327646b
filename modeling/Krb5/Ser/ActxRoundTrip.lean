import Krb5.Ser.ActxFacts

/-!
# Authentication contexts come back

When a context that was externalized is the one that is internalized again, and when what
was announced is what was written.
-/

namespace Krb5.Ser

open Lib Auth List

variable {e : Octets}

namespace FullContext

/-- The contents that are written are counted in a C `int`. -/
structure Fits (x : FullContext) : Prop where
  remoteAddr : ∀ a ∈ x.remoteAddr, a.contents.length < 2 ^ 31
  localAddr : ∀ a ∈ x.localAddr, a.contents.length < 2 ^ 31
  keyblock : ∀ k ∈ x.keyblock, k.contents.length < 2 ^ 31
  localSubkey : ∀ k ∈ x.localSubkey, k.contents.length < 2 ^ 31
  remoteSubkey : ∀ k ∈ x.remoteSubkey, k.contents.length < 2 ^ 31
  authentp : ∀ a ∈ x.authentp, a.Fits

variable {x : FullContext}

theorem Fits.remotePort' (h : x.Fits) : ∀ a ∈ x.remotePort', a.contents.length < 2 ^ 31 := by
  intro a ha
  obtain ⟨_, _, ha⟩ := Option.bind_eq_some_iff.mp ha
  exact h.remoteAddr a ha

theorem Fits.localPort' (h : x.Fits) : ∀ a ∈ x.localPort', a.contents.length < 2 ^ 31 := by
  intro a ha
  obtain ⟨_, _, ha⟩ := Option.bind_eq_some_iff.mp ha
  exact h.localAddr a ha

/-! ## Reading -/

/-- The context when the token behind `localSubkey` is read. -/
def readAhead (x : FullContext) : FullContext :=
  { x with
    remotePort := x.remotePort'
    localPort := x.localPort'
    iVector := x.iVector.map (·.take 8)
    remoteSubkey := none
    rcache := false
    authentp := none }

def back (x : FullContext) : FullContext :=
  { x.readAhead with
    remoteSubkey := x.remoteSubkey
    authentp := x.authentp.map HeldAuthenticator.back }

theorem gets_ivector (h : x.IvectorOk) :
    Gets ivectorInternalize x.ivectorOctets (x.iVector.map (·.take 8)) := by
  intro rest
  cases hiv : x.iVector with
  | none =>
    rw [ivectorOctets, hiv]
    rfl
  | some ivector =>
    obtain ⟨key, _, _, hlen⟩ := h ivector hiv
    have htake : (ivector.take 8).length = 8 := by
      rw [length_take]
      omega
    have hbytes : Gets (serUnpackBytes (.ofNat 8)) (ivector.take 8) (ivector.take 8) := by
      have hlt : (ivector.take 8).length < 2 ^ 31 := by omega
      have := gets_bytes hlt
      rwa [htake] at this
    rw [ivectorInternalize, unpackIvlen, ivectorOctets, hiv]
    rw [append_assoc, (Gets.int32 Code.fault (.ofNat 8)).bind, if_neg (by decide), hbytes.bind]
    rfl

/-- The members with tokens are read back one by one. -/
theorem internalize_tokens (defaultRealm : Except Name.Code Octets) (hfits : x.Fits)
    (hiv : x.IvectorOk) {more : Octets}
    (hmore : ∀ token ∈ [tokenRaddr, tokenRport, tokenLaddr, tokenLport, tokenKeyblock,
      tokenLskblock], head32 more ≠ some token) :
    authContextInternalize defaultRealm
        (x.fixedOctets ++ (x.ivectorOctets ++ x.tokenOctets more)) =
      (do
        let tag ← serUnpackInt32
        endInternalize defaultRealm x.readAhead tag) more := by
  rw [authContextInternalize, fixedOctets]
  simp only [append_assoc]
  rw [(gets_expectMagic _).bind, expectInts_bind, (gets_int32 _).bind, (gets_int32 _).bind,
    (gets_int32 _).bind, (gets_int32 _).bind, (gets_int32 _).bind, (gets_ivector hiv).bind]
  swap
  · simp only [length_append, length_be32]
    omega
  have haddr : ∀ {member : Option Address}, (∀ a ∈ member, a.contents.length < 2 ^ 31) →
      ∀ a ∈ member, Gets addressInternalize (addressOctets a) a :=
    fun h a ha => gets_address (h a ha)
  have hkeyblock : ∀ {member : Option Keyblock}, (∀ k ∈ member, k.contents.length < 2 ^ 31) →
      ∀ k ∈ member, Gets keyblockInternalize (keyblockOctets k) k :=
    fun h k hk => gets_keyblock (h k hk)
  have hmore {token : Int32} (h : token ∈ [tokenRaddr, tokenRport, tokenLaddr, tokenLport,
      tokenKeyblock, tokenLskblock] := by decide) := hmore token h
  -- One member after another; the tokens behind it are not its own.
  refine (tagged_bind (haddr hfits.remoteAddr) (head32_tagged (head32_tagged (head32_tagged
    (head32_tagged (head32_tagged hmore))))) _).trans ?_
  dsimp only
  refine (tagged_bind (haddr hfits.remotePort') (head32_tagged (head32_tagged (head32_tagged
    (head32_tagged hmore)))) _).trans ?_
  dsimp only
  refine (tagged_bind (haddr hfits.localAddr)
    (head32_tagged (head32_tagged (head32_tagged hmore))) _).trans ?_
  dsimp only
  refine (tagged_bind (haddr hfits.localPort') (head32_tagged (head32_tagged hmore)) _).trans ?_
  dsimp only
  refine (tagged_bind (hkeyblock hfits.keyblock) (head32_tagged hmore) _).trans ?_
  dsimp only
  exact tagged_bind (hkeyblock hfits.localSubkey) hmore _

theorem head32_authentp {other : Int32} (hne : kv5mAuthenticator ≠ other)
    (he : head32 e ≠ some other) :
    head32 (memberOctets HeldAuthenticator.octets x.authentp ++ e) ≠ some other :=
  head32_member (fun _ => HeldAuthenticator.head32_octets) hne he

section

variable (defaultRealm : Except Name.Code Octets) (hfits : x.Fits)
include hfits

theorem end_bind (ctx : FullContext)
    (he : x.remoteSubkey.isSome ∨ x.authentp.isSome ∨ ∃ rest, e = be32 kv5mAuthContext ++ rest) :
    (do
      let tag ← serUnpackInt32
      endInternalize defaultRealm ctx tag) (x.endOctets ++ e) =
    trailerInternalize defaultRealm { ctx with remoteSubkey := x.remoteSubkey }
      (memberOctets HeldAuthenticator.octets x.authentp ++ e) := by
  have hnext : x.remoteSubkey.isSome ∨ ∃ tag rest, tag ≠ tokenRskblock ∧
      memberOctets HeldAuthenticator.octets x.authentp ++ e = be32 tag ++ rest := by
    rcases he with hsubkey | hauthentp | ⟨rest, rfl⟩
    · exact .inl hsubkey
    · obtain ⟨a, ha⟩ := Option.isSome_iff_exists.mp hauthentp
      rw [ha]
      exact .inr ⟨_, _, by decide, rfl⟩
    · right
      cases x.authentp with
      | none => exact ⟨kv5mAuthContext, rest, by decide, rfl⟩
      | some a =>
        exact ⟨_, _, by decide, rfl⟩
  rw [endOctets, append_assoc]
  exact last_bind (fun k hk => gets_keyblock (hfits.remoteSubkey k hk)) hnext _

theorem internalize_body
    (hiv : x.IvectorOk) (he : e = [] ∨ ∃ rest, e = be32 kv5mAuthContext ++ rest) :
    authContextInternalize defaultRealm (x.body ++ e) =
      (do
        let tag ← serUnpackInt32
        endInternalize defaultRealm x.readAhead tag) (x.endOctets ++ e) := by
  have hbody : x.body ++ e =
      x.fixedOctets ++ (x.ivectorOctets ++ x.tokenOctets (x.endOctets ++ e)) := by
    simp [body, tokenOctets]
  rw [hbody]
  refine internalize_tokens defaultRealm hfits hiv fun token htoken => ?_
  have hend : ∀ token ∈ [tokenRaddr, tokenRport, tokenLaddr, tokenLport, tokenKeyblock,
      tokenLskblock], tokenRskblock ≠ token ∧ kv5mAuthenticator ≠ token ∧
        kv5mAuthContext ≠ token := forall_mem_of_all (by decide)
  obtain ⟨hsubkey, hauthentp, htrailer⟩ := hend token htoken
  rw [endOctets, append_assoc]
  refine head32_tagged (head32_authentp hauthentp ?_) hsubkey
  rcases he with rfl | ⟨rest, rfl⟩
  · intro h
    cases h
  · exact fun h => htrailer (Option.some.inj ((head32_be32 _ rest).symm.trans h))

theorem internalize_body_no_realm
    (hiv : x.IvectorOk) {a : HeldAuthenticator} (ha : x.authentp = some a) {client : Principal}
    (hcli : a.client = some client) (hdata : client.data ≠ []) (hrealm : client.realm = [])
    (he : e = [] ∨ ∃ rest, e = be32 kv5mAuthContext ++ rest) :
    authContextInternalize defaultRealm (x.body ++ e) = .error .einval := by
  have hattempt : attempt (authenticatorInternalize defaultRealm) (a.octets ++ e) =
      .ok ((none, none), a.octets ++ e) := by
    rw [attempt, HeldAuthenticator.internalize_no_realm defaultRealm (hfits.authentp a ha) hcli
      hdata hrealm]
  have hauthentp : authentpInternalize defaultRealm (a.octets ++ e) = .ok (none, a.octets ++ e) := by
    rw [authentpInternalize, stateT_bind_of_ok hattempt]
    rfl
  rw [internalize_body defaultRealm hfits hiv he,
    end_bind defaultRealm hfits _ (.inr (.inl (by rw [ha]; rfl))), ha, memberOctets_some,
    trailerInternalize, stateT_bind_of_ok hauthentp]
  rfl

variable (hcli : ∀ a ∈ x.authentp, ∀ c ∈ a.client, c.data ≠ [] ∧ c.realm ≠ [])
include hcli

theorem authentp_octets (he : head32 e ≠ some kv5mAuthenticator) :
    authentpInternalize defaultRealm (memberOctets HeldAuthenticator.octets x.authentp ++ e) =
      .ok (x.authentp.map HeldAuthenticator.back, e) := by
  have hattempt := attempt_member
    (fun a ha => HeldAuthenticator.gets defaultRealm (hfits.authentp a ha) (hcli a ha))
    (fun s hs => stateT_bind_of_error (expectMagic_refuses (by decide) hs)) he
  rw [authentpInternalize, stateT_bind_of_ok hattempt]
  rfl

theorem gets_written (hiv : x.IvectorOk) :
    Gets (authContextInternalize defaultRealm) (x.body ++ be32 kv5mAuthContext) x.back := by
  intro rest
  have hne : head32 (be32 kv5mAuthContext ++ rest) ≠ some kv5mAuthenticator := by
    rw [head32_be32]
    decide
  rw [append_assoc, internalize_body defaultRealm hfits hiv (.inr ⟨rest, rfl⟩),
    end_bind defaultRealm hfits _ (.inr (.inr ⟨rest, rfl⟩)), trailerInternalize,
    stateT_bind_of_ok (authentp_octets defaultRealm hfits hcli hne)]
  rfl

theorem internalize_body_short (hiv : x.IvectorOk) :
    authContextInternalize defaultRealm x.body = .error .enomem := by
  have hbody := internalize_body defaultRealm hfits hiv (.inl rfl)
  rw [append_nil] at hbody
  rw [hbody]
  have hne : head32 [] ≠ some kv5mAuthenticator := nofun
  by_cases hmore : x.remoteSubkey.isSome ∨ x.authentp.isSome
  · rw [end_bind defaultRealm hfits x.readAhead (hmore.imp_right .inl), trailerInternalize,
      stateT_bind_of_ok (authentp_octets defaultRealm hfits hcli hne)]
    rfl
  · -- Not even a token follows.
    simp only [not_or, Bool.not_eq_true, Option.isSome_eq_false_iff, Option.isNone_iff_eq_none]
      at hmore
    rw [endOctets, hmore.1, hmore.2]
    rfl

end

/-! ## When a context comes back -/

/-- What of a context the serializer does not change. -/
structure Restorable (x : FullContext) : Prop where
  remotePort : x.remotePort = none ∨ x.remotePort = x.remoteAddr
  localPort : x.localPort = none ∨ x.localPort = x.localAddr
  ivector : ∀ ivector ∈ x.iVector, ∃ key ∈ x.keyblock,
    (Crypto.encProvider key.enctype).isSome ∧ ivector.length = 8
  client : ∀ a ∈ x.authentp, ∀ c ∈ a.client,
    c.data ≠ [] ∧ c.realm ≠ [] ∧ c.type = Name.ntPrincipal
  authdata : ∀ a ∈ x.authentp, a.authorizationData ≠ none

/-- There is no key, for which more is announced than is written. -/
structure Keyless (x : FullContext) : Prop where
  keyblock : x.keyblock = none
  localSubkey : x.localSubkey = none
  remoteSubkey : x.remoteSubkey = none
  subkey : ∀ a ∈ x.authentp, a.subkey = none

theorem port_eq {port address : Option Address} :
    (port.bind fun _ => address) = port ↔ port = none ∨ port = address := by
  cases port with
  | none => simp
  | some p => simp [eq_comm]

theorem back_eq_self :
    x.back = { x with rcache := false } ↔
      (x.remotePort = none ∨ x.remotePort = x.remoteAddr) ∧
      (x.localPort = none ∨ x.localPort = x.localAddr) ∧
      (∀ ivector ∈ x.iVector, ivector.length ≤ 8) ∧
      (∀ a ∈ x.authentp, a.back = a) := by
  have hivector : x.iVector.map (·.take 8) = x.iVector ↔
      ∀ ivector ∈ x.iVector, ivector.length ≤ 8 := by
    cases x.iVector <;> simp
  have hauthentp : x.authentp.map HeldAuthenticator.back = x.authentp ↔
      ∀ a ∈ x.authentp, a.back = a := by
    cases x.authentp <;> simp
  rw [← hivector, ← hauthentp, ← port_eq, ← port_eq]
  constructor
  · intro h
    exact ⟨congrArg (·.remotePort) h, congrArg (·.localPort) h, congrArg (·.iVector) h,
      congrArg (·.authentp) h⟩
  · rintro ⟨hremote, hlocal, hiv, hauth⟩
    rw [back, readAhead, remotePort', localPort', hremote, hlocal, hiv, hauth]

theorem Restorable.ivectorOk (h : x.Restorable) : x.IvectorOk := by
  intro ivector hiv
  obtain ⟨key, hkey, henc, hlen⟩ := h.ivector ivector hiv
  exact ⟨key, hkey, henc, by omega⟩

theorem Restorable.back_eq (h : x.Restorable) : x.back = { x with rcache := false } := by
  refine back_eq_self.mpr ⟨h.remotePort, h.localPort, fun ivector hiv => ?_, fun a ha => ?_⟩
  · obtain ⟨_, _, _, hlen⟩ := h.ivector ivector hiv
    omega
  · exact HeldAuthenticator.back_eq_self.mpr ⟨fun c hc => (h.client a ha c hc).2.2, h.authdata a ha⟩

def need (x : FullContext) : Nat :=
  (x.iVector.elim 0 fun _ => 8) + 32 + x.remoteAddr.elim 0 (fun a => 4 + (16 + a.contents.length)) +
    x.remotePort.elim 0 (fun a => 4 + (16 + a.contents.length)) +
    x.localAddr.elim 0 (fun a => 4 + (16 + a.contents.length)) +
    x.localPort.elim 0 (fun a => 4 + (16 + a.contents.length)) +
    x.keyblock.elim 0 (fun k => 4 + (20 + k.contents.length)) +
    x.localSubkey.elim 0 (fun k => 4 + (20 + k.contents.length)) +
    x.remoteSubkey.elim 0 (fun k => 4 + (20 + k.contents.length)) +
    x.authentp.elim 0 (fun a => a.need)

variable (token : Int32)

theorem serial_port {port address : Option Address} (h : port = none ∨ port = address) :
    Serial (taggedSize addressSize port) (taggedExternalize token addressExternalize port address)
      (port.elim 0 fun a => 4 + (16 + a.contents.length))
      (taggedOctets token addressOctets (port.bind fun _ => address)) := by
  have hport := serial_addressMember token port
  rw [port_eq.mpr h]
  rcases h with rfl | rfl
  · exact hport
  · exact hport

theorem Restorable.serial (h : x.Restorable) :
    Serial (authContextSize x) (authContextExternalize x) x.need
      (x.body ++ be32 kv5mAuthContext) := by
  have hremotePort := serial_port tokenRport h.remotePort
  have hlocalPort := serial_port tokenLport h.localPort
  have hauthentp := serial_member fun a ha =>
    HeldAuthenticator.serial fun c hc => (h.client a ha c hc).1
  have hsize : authContextSize x = .ok x.need := by
    rw [authContextSize, ivectorSize_eq h.ivectorOk, hremotePort.size_eq, hlocalPort.size_eq,
      (serial_addressMember tokenRaddr x.remoteAddr).size_eq,
      (serial_addressMember tokenLaddr x.localAddr).size_eq,
      (serial_keyblockMember tokenKeyblock x.keyblock).size_eq,
      (serial_keyblockMember tokenLskblock x.localSubkey).size_eq,
      (serial_keyblockMember tokenRskblock x.remoteSubkey).size_eq, hauthentp.size_eq]
    rfl
  have haddr := fun token member => (serial_addressMember token member).puts
  have hkey := fun token member => (serial_keyblockMember token member).puts
  have hmembers : Puts (membersExternalize x) _ (x.tokenOctets x.endOctets) :=
    (haddr _ _).seq (hremotePort.puts.seq ((haddr _ _).seq (hlocalPort.puts.seq ((hkey _ _).seq
      ((hkey _ _).seq ((hkey _ _).seq hauthentp.puts))))))
  have hputs := (puts_fixed (x := x)).seq ((puts_ivector h.ivectorOk).seq
    (hmembers.seq (puts_int32 kv5mAuthContext)))
  rw [← append_assoc x.ivectorOctets] at hputs
  refine Serial.ifRoom hsize hputs ?_
  rw [need]
  omega

theorem length_addressMember (member : Option Address) :
    (taggedOctets token addressOctets member).length =
      member.elim 0 fun a => 4 + (16 + a.contents.length) := by
  cases member with
  | none => rfl
  | some a =>
    show (be32 token ++ addressOctets a).length = 4 + (16 + a.contents.length)
    rw [length_append, length_be32, addressOctets, length_itemOctets]

theorem length_keyblockMember (member : Option Keyblock) :
    (taggedOctets token keyblockOctets member).length + 4 * member.toList.length =
      member.elim 0 fun k => 4 + (20 + k.contents.length) := by
  cases member with
  | none => rfl
  | some k =>
    show (be32 token ++ keyblockOctets k).length + 4 * 1 = 4 + (20 + k.contents.length)
    rw [length_append, length_be32, keyblockOctets, length_itemOctets]
    omega

theorem length_ivectorOctets (h : x.IvectorOk) :
    x.ivectorOctets.length = 4 + x.iVector.elim 0 fun _ => 8 := by
  cases hiv : x.iVector with
  | none =>
    rw [ivectorOctets, hiv]
    rfl
  | some ivector =>
    obtain ⟨_, _, _, hlen⟩ := h ivector hiv
    rw [ivectorOctets, hiv]
    show (be32 (.ofNat 8) ++ ivector.take 8).length = 4 + 8
    rw [length_append, length_be32, length_take]
    omega

def keys (x : FullContext) : Nat :=
  x.keyblock.toList.length + x.localSubkey.toList.length + x.remoteSubkey.toList.length +
    x.authentp.elim 0 fun a => a.subkey.toList.length

theorem Restorable.length_written (h : x.Restorable) :
    (x.body ++ be32 kv5mAuthContext).length + 4 * x.keys = x.need := by
  have hauthentp : (memberOctets HeldAuthenticator.octets x.authentp).length +
      4 * (x.authentp.elim 0 fun a => a.subkey.toList.length) =
        x.authentp.elim 0 (fun a => a.need) := by
    cases x.authentp with
    | none => rfl
    | some a => exact HeldAuthenticator.length_octets
  have hremotePort : x.remotePort' = x.remotePort := port_eq.mpr h.remotePort
  have hlocalPort : x.localPort' = x.localPort := port_eq.mpr h.localPort
  have hfixed : x.fixedOctets.length = 24 := rfl
  have hkeyblock := length_keyblockMember tokenKeyblock x.keyblock
  have hlocal := length_keyblockMember tokenLskblock x.localSubkey
  have hremote := length_keyblockMember tokenRskblock x.remoteSubkey
  simp only [body, tokenOctets, endOctets, hremotePort, hlocalPort, length_append,
    length_be32, length_ivectorOctets h.ivectorOk, length_addressMember, keys, need]
  omega

theorem keyless_iff : x.Keyless ↔ x.keys = 0 := by
  have hnone : ∀ {α : Type} (o : Option α), o = none ↔ o.toList.length = 0 := by
    intro α o
    cases o <;> simp
  have hauthentp : (∀ a ∈ x.authentp, a.subkey = none) ↔
      (x.authentp.elim 0 fun a => a.subkey.toList.length) = 0 := by
    cases x.authentp with
    | none => simp
    | some a => simp
  constructor
  · intro h
    have h₁ := (hnone _).mp h.keyblock
    have h₂ := (hnone _).mp h.localSubkey
    have h₃ := (hnone _).mp h.remoteSubkey
    have h₄ := hauthentp.mp h.subkey
    rw [keys]
    omega
  · intro h
    rw [keys] at h
    exact ⟨(hnone _).mpr (by omega), (hnone _).mpr (by omega), (hnone _).mpr (by omega),
      hauthentp.mpr (by omega)⟩

/-- Externalized into a buffer of the announced size and `extra` octets, the context comes
back, but for its replay cache, and nothing is left to read. -/
def Restores (defaultRealm : Except Name.Code Octets) (extra : Nat) (x : FullContext) : Prop :=
  ∃ n s, authContextSize x = .ok n ∧ authContextExternalize x ⟨[], n + extra⟩ = .ok ((), s) ∧
    authContextInternalize defaultRealm s.written = .ok ({ x with rcache := false }, [])

/-- And exactly the announced number of octets was written. -/
def RoundTrips (defaultRealm : Except Name.Code Octets) (extra : Nat) (x : FullContext) : Prop :=
  ∃ n bs, authContextSize x = .ok n ∧
    authContextExternalize x ⟨[], n + extra⟩ = .ok ((), ⟨bs, extra⟩) ∧ bs.length = n ∧
    authContextInternalize defaultRealm bs = .ok ({ x with rcache := false }, [])

section RoundTrip

variable {defaultRealm : Except Name.Code Octets} {extra : Nat}

theorem Restorable.externalize (h : x.Restorable) :
    authContextExternalize x ⟨[], x.need + extra⟩ =
      .ok ((), ⟨x.body ++ be32 kv5mAuthContext, extra + 4 * x.keys⟩) := by
  have hlen := h.length_written
  rw [h.serial.puts.run _ (show x.need ≤ x.need + extra by omega), Sink.push]
  simp only [nil_append, Except.ok.injEq, Prod.mk.injEq, Sink.mk.injEq, true_and]
  omega

theorem Restorable.gets (h : x.Restorable) (hfits : x.Fits) :
    Gets (authContextInternalize defaultRealm) (x.body ++ be32 kv5mAuthContext)
      { x with rcache := false } := by
  rw [← h.back_eq]
  exact gets_written defaultRealm hfits
    (fun a ha c hc => ⟨(h.client a ha c hc).1, (h.client a ha c hc).2.1⟩) h.ivectorOk

theorem Restorable.internalize (h : x.Restorable) (hfits : x.Fits) :
    authContextInternalize defaultRealm (x.body ++ be32 kv5mAuthContext) =
      .ok ({ x with rcache := false }, []) := by
  have hread : Gets (authContextInternalize defaultRealm) _ _ := h.gets hfits
  simpa only [append_nil] using hread []

/-- A context that comes back is as it was written, which fixes what is lost in writing. -/
theorem Restores.restorable (h : x.Restores defaultRealm extra) (hfits : x.Fits) :
    x.Restorable := by
  obtain ⟨n, s, hsize, hext, hint⟩ := h
  have hdata := client_data_ne_nil hsize
  obtain ⟨hiv, hwritten⟩ := externalize_cases hext
  obtain ⟨e, he, hwritten⟩ : ∃ e, (e = [] ∨ ∃ rest, e = be32 kv5mAuthContext ++ rest) ∧
      s.written = x.body ++ e := by
    rcases hwritten with hshort | hwhole
    · exact ⟨[], .inl rfl, by rw [hshort, append_nil]⟩
    · exact ⟨_, .inr ⟨[], (append_nil _).symm⟩, hwhole⟩
  rw [hwritten] at hint
  have hcli : ∀ a ∈ x.authentp, ∀ c ∈ a.client, c.data ≠ [] ∧ c.realm ≠ [] := by
    intro a ha c hc
    refine ⟨hdata a ha c hc, fun hrealm => ?_⟩
    rw [internalize_body_no_realm defaultRealm hfits hiv ha hc (hdata a ha c hc) hrealm he] at hint
    cases hint
  have hback : x.back = { x with rcache := false } := by
    rcases he with rfl | ⟨rest, rfl⟩
    · rw [append_nil, internalize_body_short defaultRealm hfits hcli hiv] at hint
      cases hint
    · rw [← append_assoc, gets_written defaultRealm hfits hcli hiv rest] at hint
      exact congrArg Prod.fst (Except.ok.inj hint)
  obtain ⟨hremotePort, hlocalPort, hle, hauthentp⟩ := back_eq_self.mp hback
  refine ⟨hremotePort, hlocalPort, fun ivector hivector => ?_, fun a ha c hc => ?_, fun a ha => ?_⟩
  · obtain ⟨key, hkey, henc, hge⟩ := hiv ivector hivector
    exact ⟨key, hkey, henc, Nat.le_antisymm (hle ivector hivector) hge⟩
  · obtain ⟨hne, hrealm⟩ := hcli a ha c hc
    exact ⟨hne, hrealm, (HeldAuthenticator.back_eq_self.mp (hauthentp a ha)).1 c hc⟩
  · exact (HeldAuthenticator.back_eq_self.mp (hauthentp a ha)).2

/-- A context comes back if and only if each of its ports is absent or the address of its
side, an initial vector has the length its key asks for, and the client of an authenticator
is a name of the type and form that a text is read as, with an array of authorization data.
What is announced is moreover what is written if and only if there is no key. -/
theorem auth_context_round_trip (defaultRealm : Except Name.Code Octets) (extra : Nat)
    (x : FullContext) (hfits : x.Fits) :
    (x.Restores defaultRealm extra ↔ x.Restorable) ∧
    (x.RoundTrips defaultRealm extra ↔ x.Restorable ∧ x.Keyless) := by
  have hrestores : x.Restores defaultRealm extra ↔ x.Restorable := by
    constructor
    · exact fun h => h.restorable hfits
    · exact fun h => ⟨x.need, _, h.serial.size_eq, h.externalize, h.internalize hfits⟩
  refine ⟨hrestores, ?_⟩
  rw [keyless_iff]
  constructor
  · rintro ⟨n, bs, hsize, hext, -, hint⟩
    have h := hrestores.mp ⟨n, _, hsize, hext, hint⟩
    obtain rfl : x.need = n := Except.ok.inj (h.serial.size_eq.symm.trans hsize)
    rw [h.externalize] at hext
    simp only [Except.ok.injEq, Prod.mk.injEq, Sink.mk.injEq] at hext
    exact ⟨h, by omega⟩
  · rintro ⟨h, hkeys⟩
    have hlength := h.length_written
    have hext : authContextExternalize x ⟨[], x.need + extra⟩ = _ := h.externalize
    rw [hkeys] at hext hlength
    exact ⟨x.need, _, h.serial.size_eq, hext, hlength, h.internalize hfits⟩

end RoundTrip

/-- A context with an address and nothing else. -/
def addressOnly : FullContext where
  authContextFlags := 1
  remoteAddr := some ⟨2, [10, 0, 0, 1]⟩
  remotePort := none
  localAddr := none
  localPort := none
  keyblock := none
  localSubkey := none
  remoteSubkey := none
  remoteSeqNumber := 7
  localSeqNumber := -3
  safeCksumtype := 8
  iVector := none
  rcache := false
  reqCksumtype := 7
  authentp := none

/-- It comes back, from a buffer of the announced size. -/
theorem auth_context_round_trip_address : addressOnly.RoundTrips (.error .configNodefrealm) 0 :=
  (auth_context_round_trip (.error .configNodefrealm) 0 addressOnly
    ⟨by decide, nofun, nofun, nofun, nofun, nofun⟩).2.mpr
    ⟨⟨.inl rfl, .inl rfl, nofun, nofun, nofun⟩, ⟨rfl, rfl, rfl, nofun⟩⟩

/-- A port that is smaller than the address: in a buffer of the announced size the trailer is
left out, and in a larger one the address comes back for the port. Of a key four octets are
announced that are not written. -/
theorem auth_context_port_lost :
    (∃ s t, authContextSize { addressOnly with remotePort := some ⟨0x101, [0, 88]⟩ } = .ok 78 ∧
      authContextExternalize { addressOnly with remotePort := some ⟨0x101, [0, 88]⟩ } ⟨[], 78⟩ =
        .ok ((), s) ∧
      authContextInternalize (.error .configNodefrealm) s.written = .error .enomem ∧
      authContextExternalize { addressOnly with remotePort := some ⟨0x101, [0, 88]⟩ } ⟨[], 80⟩ =
        .ok ((), t) ∧
      authContextInternalize (.error .configNodefrealm) t.written =
        .ok ({ addressOnly with remotePort := some ⟨2, [10, 0, 0, 1]⟩ }, [])) ∧
    (∃ bs, authContextSize { addressOnly with keyblock := some ⟨1, [1, 2, 3, 4, 5, 6, 7, 8]⟩ } =
        .ok 88 ∧
      authContextExternalize { addressOnly with keyblock := some ⟨1, [1, 2, 3, 4, 5, 6, 7, 8]⟩ }
        ⟨[], 88⟩ = .ok ((), ⟨bs, 4⟩) ∧ bs.length = 84) := by
  refine ⟨⟨_, _, by decide +kernel, rfl, by decide +kernel, rfl, by decide +kernel⟩,
    ⟨_, by decide +kernel, rfl, ?_⟩⟩
  decide +kernel

end FullContext

end Krb5.Ser
