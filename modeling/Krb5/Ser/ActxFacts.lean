import Krb5.Ser.Actx
import Krb5.Ser.PartsFacts

/-!
# What is written of an authentication context, and what is read back

The octets of a context as `krb5_auth_context_externalize` lays them out.
-/

namespace Krb5.Ser

open Lib Auth

/-! ## Tagged members -/

section Tagged

variable {α : Type} {octets : α → Octets} {token : Int32}

def taggedOctets (token : Int32) (octets : α → Octets) : Option α → Octets :=
  memberOctets fun a => be32 token ++ octets a

variable {member : Option α} {more : Octets} {externalize : α → Externalizer Unit} {β : Type}
  {internalize : Internalizer α}

theorem head32_tagged {other : Int32} (hmore : head32 more ≠ some other)
    (hne : token ≠ other := by decide) :
    head32 (taggedOctets token octets member ++ more) ≠ some other :=
  head32_member (fun a rest => by rw [List.append_assoc, head32_be32]) hne hmore

theorem serial_tagged {size : α → Except Code Nat} {n : α → Nat}
    (hfour : ∀ a, 4 ≤ (octets a).length) (h : ∀ a, Serial (size a) (externalize a) (n a) (octets a))
    :
    Serial (taggedSize size member) (taggedExternalize token externalize member member)
      (member.elim 0 fun a => 4 + n a) (taggedOctets token octets member) := by
  cases member with
  | none => exact ⟨rfl, Puts.pure, Wrote.pure⟩
  | some a =>
    refine ⟨?_, (puts_int32 token).seq (h a).puts, (h a).wrote.silently_int32 (hfour a) token⟩
    rw [taggedSize, (h a).size_eq]
    show Except.ok (n a + 4) = _
    rw [Nat.add_comm]
    rfl

theorem wrote_tagged (hfour : ∀ a, 4 ≤ (octets a).length)
    (h : ∀ a, Wrote (externalize a) (octets a)) (member arg : Option α) :
    Wrote (taggedExternalize token externalize member arg)
      (taggedOctets token octets (member.bind fun _ => arg)) := by
  cases member with
  | none => exact Wrote.pure
  | some a =>
    cases arg with
    | none =>
      intro s s' hrun
      obtain ⟨_, _, _, hthrow⟩ := stateT_bind_eq_ok.mp hrun
      exact absurd hthrow stateT_throw_ne_ok
    | some b => exact (h b).silently_int32 (hfour b) token

/-- A member that may be missing is known by its token. -/
theorem tagged_bind (hgets : ∀ a ∈ member, Gets internalize (octets a) a)
    (hmore : head32 more ≠ some token) (f : Option α × Int32 → Internalizer β) : (do
      let tag ← serUnpackInt32
      let r ← taggedInternalize token internalize tag
      f r) (taggedOctets token octets member ++ more) =
    (do
      let tag ← serUnpackInt32
      f (member, tag)) more := by
  cases member with
  | none =>
    show (serUnpackInt32 >>= _) more = (serUnpackInt32 >>= _) more
    cases hhead : head32 more with
    | none =>
      have hshort : serUnpackInt32 more = .error .enomem := by
        rw [serUnpackInt32, unpackInt32, hhead]
      rw [stateT_bind_of_error hshort, stateT_bind_of_error hshort]
    | some tag =>
      have hne : tag ≠ token := fun h => hmore (hhead.trans (congrArg some h))
      have hread : serUnpackInt32 more = .ok (tag, more.drop 4) := by
        rw [serUnpackInt32, unpackInt32, hhead]
      rw [stateT_bind_of_ok hread, stateT_bind_of_ok hread, taggedInternalize, if_neg hne]
      rfl
  | some a =>
    show (serUnpackInt32 >>= _) ((be32 token ++ octets a) ++ more) = _
    rw [List.append_assoc, (gets_int32 token).bind, taggedInternalize, if_pos rfl, bind_assoc,
      (hgets a rfl).bind]
    simp

theorem last_bind (hgets : ∀ a ∈ member, Gets internalize (octets a) a)
    (hmore : member.isSome ∨ ∃ tag rest, tag ≠ token ∧ more = be32 tag ++ rest)
    (f : Option α → Internalizer β) : (do
      let tag ← serUnpackInt32
      let r ← lastInternalize token internalize tag
      f r) (taggedOctets token octets member ++ more) = f member more := by
  cases member with
  | none =>
    obtain ⟨tag, rest, hne, rfl⟩ := hmore.resolve_left Bool.false_ne_true
    show (serUnpackInt32 >>= _) (be32 tag ++ rest) = _
    rw [(gets_int32 tag).bind, lastInternalize, if_neg hne]
    rfl
  | some a =>
    show (serUnpackInt32 >>= _) ((be32 token ++ octets a) ++ more) = _
    rw [List.append_assoc, (gets_int32 token).bind, lastInternalize, if_pos rfl, bind_assoc,
      (hgets a rfl).bind, pure_bind]

end Tagged

/-! ## The octets of a context -/

namespace FullContext

variable (x : FullContext)

def fixedOctets : Octets :=
  be32 kv5mAuthContext ++ (be32 (.ofBitVec x.authContextFlags) ++ (be32 x.remoteSeqNumber ++
    (be32 x.localSeqNumber ++ (be32 x.reqCksumtype ++ be32 x.safeCksumtype))))

def ivectorOctets : Octets :=
  match x.iVector with
  | none => be32 0
  | some ivector => be32 (.ofNat 8) ++ ivector.take 8

def remotePort' : Option Address := x.remotePort.bind fun _ => x.remoteAddr

def localPort' : Option Address := x.localPort.bind fun _ => x.localAddr

/-- The members that the internalizer finds by reading ahead, with what follows them. -/
def tokenOctets (more : Octets) : Octets :=
  taggedOctets tokenRaddr addressOctets x.remoteAddr ++
    (taggedOctets tokenRport addressOctets x.remotePort' ++
      (taggedOctets tokenLaddr addressOctets x.localAddr ++
        (taggedOctets tokenLport addressOctets x.localPort' ++
          (taggedOctets tokenKeyblock keyblockOctets x.keyblock ++
            (taggedOctets tokenLskblock keyblockOctets x.localSubkey ++ more)))))

def endOctets : Octets :=
  taggedOctets tokenRskblock keyblockOctets x.remoteSubkey ++
    memberOctets HeldAuthenticator.octets x.authentp

/-- All but the trailer. -/
def body : Octets := x.fixedOctets ++ (x.ivectorOctets ++ x.tokenOctets x.endOctets)

/-- The initial vector can be written: there is a key to tell its length by. -/
def IvectorOk : Prop :=
  ∀ ivector ∈ x.iVector, ∃ key ∈ x.keyblock,
    (Crypto.encProvider key.enctype).isSome ∧ 8 ≤ ivector.length

variable {x}

theorem cBlockSize_of_isSome {enctype : Int32} (h : (Crypto.encProvider enctype).isSome) :
    cBlockSize enctype = .ok 8 := by
  obtain ⟨enc, henc⟩ := Option.isSome_iff_exists.mp h
  rw [cBlockSize, henc]

theorem puts_fixed : Puts (fixedExternalize x) 24 x.fixedOctets :=
  (puts_int32 _).seq ((puts_int32 _).seq ((puts_int32 _).seq ((puts_int32 _).seq
    ((puts_int32 _).seq (puts_int32 _)))))

theorem puts_ivector (h : x.IvectorOk) :
    Puts (ivectorExternalize x) (4 + x.iVector.elim 0 fun _ => 8) x.ivectorOctets := by
  cases hiv : x.iVector with
  | none =>
    rw [ivectorExternalize, ivectorOctets, hiv]
    exact puts_int32 0
  | some ivector =>
    obtain ⟨key, hkey, henc, hlen⟩ := h ivector hiv
    have htake : (ivector.take 8).length = 8 := by
      rw [List.length_take]
      omega
    have hbytes := puts_bytes (ivector.take 8)
    rw [htake] at hbytes
    rw [ivectorExternalize, ivectorOctets, hiv, Option.mem_def.mp hkey]
    dsimp only
    rw [cBlockSize_of_isSome henc, show (liftM (Except.ok 8) : Externalizer Nat) = pure 8 from rfl,
      pure_bind, if_neg (by omega)]
    exact (puts_int32 (.ofNat 8)).seq hbytes

variable {s' s : Sink} {n : Nat}

theorem ivectorOk_of_externalize (h : ivectorExternalize x s = .ok ((), s')) : x.IvectorOk := by
  intro ivector hiv
  rw [ivectorExternalize, Option.mem_def.mp hiv] at h
  cases hkey : x.keyblock with
  | none =>
    rw [hkey] at h
    exact absurd h stateT_throw_ne_ok
  | some key =>
    rw [hkey] at h
    obtain ⟨obuf, hobuf, h⟩ := stateT_lift_bind_eq_ok.mp h
    have henc : (Crypto.encProvider key.enctype).isSome ∧ obuf = 8 := by
      rw [cBlockSize] at hobuf
      split at hobuf
      · rename_i henc
        cases hobuf
        exact ⟨by rw [henc]; rfl, rfl⟩
      · cases hobuf
    obtain ⟨henc, rfl⟩ := henc
    obtain ⟨_, _, _, h⟩ := stateT_bind_eq_ok.mp h
    refine ⟨key, rfl, henc, ?_⟩
    by_contra hshort
    rw [if_pos (by omega)] at h
    obtain ⟨_, _, hthrow, _⟩ := stateT_bind_eq_ok.mp h
    exact stateT_throw_ne_ok hthrow

/-! ## Writing -/

theorem four_le_addressOctets (address : Address) : 4 ≤ (addressOctets address).length := by
  rw [addressOctets, length_itemOctets]
  omega

theorem four_le_keyblockOctets (keyblock : Keyblock) : 4 ≤ (keyblockOctets keyblock).length := by
  rw [keyblockOctets, length_itemOctets]
  omega

theorem client_data_ne_nil (h : authContextSize x = .ok n) :
    ∀ a ∈ x.authentp, ∀ c ∈ a.client, c.data ≠ [] := by
  intro a ha c hc hdata
  obtain ⟨size, hsize⟩ : ∃ size, authenticatorSize a = .ok size := by
    simp only [authContextSize, Option.mem_def.mp ha, bind_eq_ok] at h
    obtain ⟨_, _, _, _, _, _, _, _, _, _, _, _, _, _, _, _, size, hsize, _⟩ := h
    exact ⟨size, hsize⟩
  rw [authenticatorSize, Option.mem_def.mp hc, memberSize, principalSize_no_data hdata] at hsize
  cases hsize

theorem serial_addressMember (token : Int32) (member : Option Address) :
    Serial (taggedSize addressSize member)
      (taggedExternalize token addressExternalize member member)
      (member.elim 0 fun a => 4 + (16 + a.contents.length))
      (taggedOctets token addressOctets member) :=
  serial_tagged four_le_addressOctets serial_address

theorem serial_keyblockMember (token : Int32) (member : Option Keyblock) :
    Serial (taggedSize keyblockSize member)
      (taggedExternalize token keyblockExternalize member member)
      (member.elim 0 fun k => 4 + (20 + k.contents.length))
      (taggedOctets token keyblockOctets member) :=
  serial_tagged four_le_keyblockOctets serial_keyblock

theorem wrote_members (hcli : ∀ a ∈ x.authentp, ∀ c ∈ a.client, c.data ≠ []) :
    Wrote (membersExternalize x) (x.tokenOctets x.endOctets) := by
  have haddr := fun token member => (serial_addressMember token member).wrote
  have hkey := fun token member => (serial_keyblockMember token member).wrote
  have hport : ∀ token member arg, Wrote (taggedExternalize token addressExternalize member arg)
        (taggedOctets token addressOctets (member.bind fun _ => arg)) :=
    fun _ => wrote_tagged four_le_addressOctets fun address => (serial_address address).wrote
  have hauthentp := serial_member fun a ha => HeldAuthenticator.serial (hcli a ha)
  exact (haddr _ _).seq ((hport _ _ _).seq ((haddr _ _).seq ((hport _ _ _).seq ((hkey _ _).seq
    ((hkey _ _).seq ((hkey _ _).seq hauthentp.wrote))))))

theorem authContextSize_ge (h : authContextSize x = .ok n) :
    ∃ ivector, ivectorSize x = .ok ivector ∧ ivector + 32 ≤ n := by
  simp only [authContextSize, bind_eq_ok] at h
  obtain ⟨ivector, hivector, _, _, _, _, _, _, _, _, _, _, _, _, _, _, _, _, h⟩ := h
  cases h
  exact ⟨ivector, hivector, by omega⟩

theorem ivectorSize_eq (h : x.IvectorOk) : ivectorSize x = .ok (x.iVector.elim 0 fun _ => 8) := by
  cases hiv : x.iVector with
  | none =>
    rw [ivectorSize, hiv]
    rfl
  | some ivector =>
    obtain ⟨key, hkey, henc, _⟩ := h ivector hiv
    rw [ivectorSize, hiv, Option.mem_def.mp hkey]
    exact cBlockSize_of_isSome henc

theorem silently_int32_cases (v : Int32) (h : silently (serPackInt32 v) s = .ok ((), s')) :
    s' = s ∨ s' = s.push (be32 v) := by
  by_cases hroom : 4 ≤ s.remain
  · rw [(puts_int32 v).run s hroom] at h
    cases h
    exact .inr rfl
  · rw [silently, serPackInt32, packInt32, packBytes,
      if_neg (show ¬(be32 v).length ≤ s.remain from hroom)] at h
    cases h
    exact .inl rfl

/-- The closing word is all that can be missing. -/
theorem externalize_cases {room : Nat} (h : authContextExternalize x ⟨[], room⟩ = .ok ((), s')) :
    x.IvectorOk ∧ (s'.written = x.body ∨ s'.written = x.body ++ be32 kv5mAuthContext) := by
  rw [authContextExternalize] at h
  cases hsize : authContextSize x with
  | error code =>
    rw [hsize] at h
    cases code <;> exact absurd h stateT_throw_ne_ok
  | ok n =>
    rw [hsize, ifRoom, within] at h
    split at h
    · rename_i hroom
      obtain ⟨ivector, hivector, hge⟩ := authContextSize_ge hsize
      have hfixed : x.fixedOctets.length = 24 := rfl
      have hroom : n ≤ room := hroom
      rw [stateT_bind_of_ok (puts_fixed.run _ (show 24 ≤ room by omega))] at h
      obtain ⟨_, s₁, hiv, h⟩ := stateT_bind_eq_ok.mp h
      have hok := ivectorOk_of_externalize hiv
      rw [ivectorSize_eq hok, Except.ok.injEq] at hivector
      rw [(puts_ivector hok).run _ (show _ ≤ room - x.fixedOctets.length by omega)] at hiv
      cases hiv
      obtain ⟨_, s₂, hmembers, htrailer⟩ := stateT_bind_eq_ok.mp h
      obtain ⟨_, rfl⟩ := wrote_members (client_data_ne_nil hsize) hmembers
      rw [Sink.push_push, Sink.push_push] at htrailer
      refine ⟨hok, ?_⟩
      rcases silently_int32_cases _ htrailer with rfl | rfl
      · simp [Sink.push, body]
      · simp [Sink.push, body]
    · cases h

end FullContext

end Krb5.Ser
