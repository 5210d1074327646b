import Krb5.Ser.ActxRoundTrip
import Krb5.Ser.Sctx

/-!
# A security context that is exported and imported again

The names lose their types, and everything else comes back, the queue with it: whatever is presented
to the imported context is judged as the exported one would have judged it.
-/

namespace Krb5.Ser

open Lib Name
open Krb5.Gss (Queue queueLength)

theorem gets_seed (seed : Vector UInt8 16) : Gets unpackSeed seed.toList seed := by
  intro rest
  have hlen : seed.toList.length = 16 := seed.size_toArray
  have hbytes := Gets.bytes Code.enomem seed.toList
  rw [hlen] at hbytes
  rw [unpackSeed, hbytes.bind, dif_pos hlen]
  rfl

open List

variable (big : Bool) (words : List UInt32)

theorem hostWords_hostOctets : hostWords big (words.flatMap (hostOctets big)) = words := by
  induction words with
  | nil => rfl
  | cons word words ih =>
    have hword : word.toInt32.toUInt32 = word := rfl
    cases big <;> show (ofBe32 _ _ _ _).toUInt32 :: hostWords _ (words.flatMap _) = _ <;>
      rw [ofBe32_octets, hword, ih]

theorem length_hostOctets : (words.flatMap (hostOctets big)).length = 4 * words.length := by
  have hword (word) : (hostOctets big word).length = 4 := by cases big <;> rfl
  simp [length_flatMap, hword, Nat.mul_comm]

variable (q : Queue)

theorem queueOfWords_queueWords : queueOfWords (queueWords q) = some q := by
  obtain ⟨doReplay, doSequence, firstnum, elem, start, length, hpos, hle⟩ := q
  have hstart : (UInt32.ofNat start).toNat = start := by
    have := start.isLt
    rw [UInt32.toNat_ofNat']
    simp only [queueLength] at this
    omega
  have hlen : (UInt32.ofNat length).toNat = length := by
    rw [UInt32.toNat_ofNat']
    simp only [queueLength] at hle
    omega
  have hvalid : (UInt32.ofNat start).toNat < queueLength ∧ 0 < (UInt32.ofNat length).toNat ∧
      (UInt32.ofNat length).toNat ≤ queueLength ∧ (List.ofFn elem).length = queueLength := by
    rw [hstart, hlen]
    exact ⟨start.isLt, hpos, hle, rfl⟩
  rw [queueWords, queueOfWords, dif_pos hvalid]
  congr 2
  · cases doReplay <;> rfl
  · cases doSequence <;> rfl
  rw [Ring.mk.injEq]
  refine ⟨funext fun i => ?_, Fin.ext hstart, hlen⟩
  rw [get_ofFn]
  rfl

def oidOctets (oid : Octets) : Octets :=
  be32 kv5mGssOid ++ (be32 (.ofNat oid.length) ++ (oid ++ be32 kv5mGssOid))

theorem puts_oid (oid : Octets) :
    Puts (kgOidExternalize oid) (4 + (4 + (oid.length + 4))) (oidOctets oid) :=
  (puts_int32 _).seq ((puts_int32 _).seq ((puts_bytes _).seq (puts_int32 _)))

theorem gets_oid {oid : Octets} (h : oid.length < 2 ^ 31) :
    Gets kgOidInternalize (oidOctets oid) oid := by
  intro rest
  have hlen : Gets (unpackOr kv5mGssOid) (be32 (.ofNat oid.length)) (.ofNat oid.length) := by
    intro more
    rw [unpackOr, head32_be32]
    rfl
  have hmem : Gets (unpackIntoMemory (.ofNat oid.length)) oid (some oid) := by
    intro more
    rw [unpackIntoMemory, toNat_ofNat_int32 h, if_pos (by simp), take_left, drop_left]
  rw [kgOidInternalize, oidOctets]
  simp only [append_assoc]
  rw [(gets_expectMagic _).bind, hlen.bind, hmem.bind]
  rfl

def queueOctets (big : Bool) (q : Queue) : Octets :=
  be32 kv5mGssQueue ++ ((queueWords q).flatMap (hostOctets big) ++ be32 kv5mGssQueue)

theorem length_queueImage : ((queueWords q).flatMap (hostOctets big)).length = sizeofQueue := by
  rw [length_hostOctets]
  rfl

theorem puts_queue :
    Puts (kgQueueExternalize big q) (4 + (sizeofQueue + 4)) (queueOctets big q) := by
  have himage : Puts (gQueueExternalize big q) sizeofQueue
      ((queueWords q).flatMap (hostOctets big)) :=
    ⟨(length_queueImage big q).le, fun s hs => if_pos hs⟩
  exact (puts_int32 _).seq (himage.seq (puts_int32 _))

theorem gets_queue : Gets (kgQueueInternalize big) (queueOctets big q) (some q) := by
  intro rest
  have hlen := length_queueImage big q
  have himage : Gets (gQueueInternalize big) ((queueWords q).flatMap (hostOctets big)) q := by
    intro more
    rw [gQueueInternalize, if_pos (by rw [length_append]; omega),
      take_left' hlen, drop_left' hlen, hostWords_hostOctets,
      queueOfWords_queueWords]
  rw [kgQueueInternalize, queueOctets]
  simp only [append_assoc]
  rw [gets_expectMagic]
  dsimp only
  rw [himage, ok_bind, gets_expectMagic]

/-! ## Contexts -/

variable (ctypes : List Int32)

theorem puts_ctypes :
    Puts (ctypesExternalize ctypes) (4 * ctypes.length) (ctypes.flatMap be32) := by
  induction ctypes with
  | nil => exact Puts.pure
  | cons ctype ctypes ih =>
    have hputs := (Puts.int32 Code.enomem ctype).seq ih
    rw [length_cons, Nat.mul_succ, Nat.add_comm]
    exact hputs

theorem gets_ctypes : Gets (ctypesInternalize ctypes.length) (ctypes.flatMap be32) ctypes := by
  induction ctypes with
  | nil => exact Gets.pure []
  | cons ctype ctypes ih =>
    intro rest
    rw [flatMap_cons, append_assoc]
    show (serUnpackInt32 >>= _) _ = _
    rw [(gets_int32 ctype).bind, ih.bind]
    rfl

theorem gets_attempt {α : Type} {internalize : Internalizer α} {bs : Octets} {a : α}
    (h : Gets internalize bs a) : Gets (attempt internalize) bs (some a, none) := by
  intro rest
  rw [attempt, h rest]

theorem gets_unpackOr (ibuf v : Int32) : Gets (unpackOr ibuf) (be32 v) v := by
  intro rest
  rw [unpackOr, head32_be32]
  rfl

/-- The serializer writes this authentication context and gets it back. -/
structure ActxSerializer.RestoresAt {α : Type} (actx : ActxSerializer α) (a : α) (need : Nat)
    (octets : Octets) : Prop where
  serial : Serial (actx.size a) (actx.externalize a) need octets
  gets : Gets actx.internalize octets a

/-- That of `ser_actx.c` does for the contexts that it does not change. -/
theorem FullContext.Restorable.restoresAt {x : FullContext} (h : x.Restorable) (hfits : x.Fits)
    (hrcache : x.rcache = false) (defaultRealm : Except Name.Code Octets) :
    (actxSerializer defaultRealm).RestoresAt x x.need (x.body ++ be32 kv5mAuthContext) where
  serial := h.serial
  gets := by
    have hself : { x with rcache := false } = x := by
      rw [← hrcache]
    have hgets : Gets (authContextInternalize defaultRealm) _ _ := h.gets hfits
    rwa [hself] at hgets

namespace GssCtxIdRec

variable {α : Type}

/-- What a context has when it is established. -/
structure Established (ctx : GssCtxIdRec α) : Prop where
  established : ctx.established ≠ 0
  here : ∃ name, ctx.here = some name
  there : ∃ name, ctx.there = some name
  subkey : ∃ key, ctx.subkey = some key
  enc : ∃ key, ctx.enc = some key
  seq : ∃ key, ctx.seq = some key
  seqstate : ∃ queue, ctx.seqstate = some queue
  mechUsed : ∃ oid, ctx.mechUsed = some oid

/-- The names have a text that is read again. -/
structure Named (ctx : GssCtxIdRec α) : Prop where
  here : ∀ name ∈ ctx.here, name.data ≠ [] ∧ name.realm ≠ []
  there : ∀ name ∈ ctx.there, name.data ≠ [] ∧ name.realm ≠ []

/-- What is counted is counted in a C `int`. -/
structure Fits (ctx : GssCtxIdRec α) : Prop where
  here : ∀ name ∈ ctx.here, (principalText name).length < 2 ^ 31
  there : ∀ name ∈ ctx.there, (principalText name).length < 2 ^ 31
  subkey : ∀ key ∈ ctx.subkey, key.contents.length < 2 ^ 31
  enc : ∀ key ∈ ctx.enc, key.contents.length < 2 ^ 31
  seq : ∀ key ∈ ctx.seq, key.contents.length < 2 ^ 31
  mechUsed : ∀ oid ∈ ctx.mechUsed, oid.length < 2 ^ 31
  ctypes : ctx.ctypes.length < 2 ^ 31

def staticOctets (ctx : GssCtxIdRec α) : Octets :=
  be32 kgContext ++ (be32 ctx.initiate ++ (be32 ctx.gssFlags.toInt32 ++ (be32 ctx.seedInit ++
    (ctx.seed.toList ++ (be32 ctx.signalg ++ (be32 ctx.cksumSize ++ (be32 ctx.sealalg ++
      (be32 ctx.endtime ++ (be32 (.ofBitVec ctx.krbFlags) ++ (be32 ctx.seqSend.toInt32 ++
        (be32 ctx.seqRecv.toInt32 ++ (be32 ctx.established ++ (be32 ctx.bigEndian ++
          be32 (.ofNat ctx.ctypes.length))))))))))))))

/-- What is written, `octets` being what is written of the authentication context. -/
def octets (big : Bool) (ctx : GssCtxIdRec α) (octets : Octets) : Octets :=
  ctx.staticOctets ++ (memberOctets oidOctets ctx.mechUsed ++
    (memberOctets principalOctets ctx.here ++ (memberOctets principalOctets ctx.there ++
      (memberOctets keyblockOctets ctx.subkey ++ (memberOctets keyblockOctets ctx.enc ++
        (memberOctets keyblockOctets ctx.seq ++ (memberOctets (queueOctets big) ctx.seqstate ++
          (octets ++ (ctx.ctypes.flatMap be32 ++ be32 kgContext)))))))))

theorem puts_static (ctx : GssCtxIdRec α) : Puts (staticExternalize ctx) 72 ctx.staticOctets := by
  have hseed := puts_bytes ctx.seed.toList
  rw [show ctx.seed.toList.length = 16 from ctx.seed.size_toArray] at hseed
  exact (puts_int32 _).seq ((puts_int32 _).seq ((puts_int32 _).seq ((puts_int32 _).seq
    (hseed.seq ((puts_int32 _).seq ((puts_int32 _).seq ((puts_int32 _).seq ((puts_int32 _).seq
      ((puts_int32 _).seq ((puts_int32 _).seq ((puts_int32 _).seq ((puts_int32 _).seq
        ((puts_int32 _).seq (puts_int32 _))))))))))))))

/-- What is announced, `actxNeed` being what is announced for the authentication context. -/
def need (ctx : GssCtxIdRec α) (actxNeed : Nat) : Nat :=
  80 + 4 * ctx.ctypes.length + ctx.here.elim 0 (fun p => 12 + (principalText p).length) +
    ctx.there.elim 0 (fun p => 12 + (principalText p).length) +
    ctx.subkey.elim 0 (fun k => 20 + k.contents.length) +
    ctx.enc.elim 0 (fun k => 20 + k.contents.length) +
    ctx.seq.elim 0 (fun k => 20 + k.contents.length) +
    ctx.mechUsed.elim 0 (fun oid => 12 + oid.length) + ctx.seqstate.elim 0 (fun _ => 108) + actxNeed

section Serial

variable {actx : ActxSerializer α} {ctx : GssCtxIdRec α} {actxNeed : Nat} {actxOctets : Octets}

theorem serial (hest : ctx.Established) (hnamed : ctx.Named)
    (hactx : actx.RestoresAt ctx.authContext actxNeed actxOctets) (big : Bool) :
    Serial (kgCtxSize actx ctx) (kgCtxExternalize actx big ctx) (ctx.need actxNeed)
      (ctx.octets big actxOctets) := by
  have hhere := serial_member fun p hp => serial_principal (hnamed.here p hp).1
  have hthere := serial_member fun p hp => serial_principal (hnamed.there p hp).1
  have hkey := fun member : Option Keyblock =>
    serial_member fun k (_ : k ∈ member) => serial_keyblock k
  obtain ⟨oid, hoid⟩ := hest.mechUsed
  obtain ⟨queue, hqueue⟩ := hest.seqstate
  have hsize : kgCtxSize actx ctx = .ok (ctx.need actxNeed) := by
    rw [kgCtxSize, hhere.size_eq, hthere.size_eq, (hkey ctx.subkey).size_eq,
      (hkey ctx.enc).size_eq, (hkey ctx.seq).size_eq, hactx.serial.size_eq, need,
      hoid, hqueue]
    rfl
  have hputs := (puts_static ctx).seq ((puts_oid oid).seq (hhere.puts.seq (hthere.puts.seq
    ((hkey ctx.subkey).puts.seq ((hkey ctx.enc).puts.seq ((hkey ctx.seq).puts.seq
      ((puts_queue big queue).seq (hactx.serial.puts.seq ((puts_ctypes ctx.ctypes).seq
        (puts_int32 kgContext))))))))))
  rw [kgCtxExternalize, octets, hoid, hqueue]
  refine Serial.ifRoom hsize hputs ?_
  rw [need, hoid, hqueue]
  simp only [Option.elim_some, sizeofQueue]
  omega

theorem length_octets (hest : ctx.Established) (big : Bool) (hle : actxOctets.length ≤ actxNeed) :
    ctx.need actxNeed =
      (ctx.octets big actxOctets).length + 16 + (actxNeed - actxOctets.length) := by
  obtain ⟨here, hhere⟩ := hest.here
  obtain ⟨there, hthere⟩ := hest.there
  obtain ⟨subkey, hsubkey⟩ := hest.subkey
  obtain ⟨enc, henc⟩ := hest.enc
  obtain ⟨seq, hseq⟩ := hest.seq
  obtain ⟨queue, hqueue⟩ := hest.seqstate
  obtain ⟨oid, hoid⟩ := hest.mechUsed
  have hstatic : ctx.staticOctets.length = 72 := by
    simp [staticOctets]
  have hctypes : (ctx.ctypes.flatMap be32).length = 4 * ctx.ctypes.length := by
    simp [length_flatMap, Nat.mul_comm]
  have hqueueLength : (queueOctets big queue).length = 108 := by
    simp only [queueOctets, length_append, length_be32, length_queueImage, sizeofQueue]
  have hkey : ∀ key : Keyblock, (keyblockOctets key).length = 16 + key.contents.length :=
    fun key => length_itemOctets _ _ _
  have hoidLength : (oidOctets oid).length = 12 + oid.length := by
    simp only [oidOctets, length_append, length_be32]
    omega
  simp only [need, octets, hhere, hthere, hsubkey, henc, hseq, hqueue, hoid, memberOctets_some,
    Option.elim_some, length_append, hkey, length_principalOctets, length_be32]
  omega

def retyped (ctx : GssCtxIdRec α) : GssCtxIdRec α :=
  { ctx with
    here := ctx.here.map fun name => { name with type := ntPrincipal }
    there := ctx.there.map fun name => { name with type := ntPrincipal } }

theorem gets_rest (hctypes : ctx.ctypes.length < 2 ^ 31)
    (hactx : actx.RestoresAt ctx.authContext actxNeed actxOctets) :
    Gets (restInternalize actx (.ofNat ctx.ctypes.length))
      (actxOctets ++ (ctx.ctypes.flatMap be32 ++ be32 kgContext)) (ctx.authContext, ctx.ctypes) := by
  intro rest
  rw [restInternalize]
  simp only [append_assoc]
  rw [hactx.gets.bind, Int32.toInt_ofNat_of_lt hctypes, Int.toNat_natCast, (gets_ctypes _).bind]
  rfl

/-- An established context is read back with the types of its names lost. -/
theorem gets (defaultRealm : Except Name.Code Octets) (hest : ctx.Established) (hnamed : ctx.Named)
    (hfits : ctx.Fits) (hactx : actx.RestoresAt ctx.authContext actxNeed actxOctets) (big : Bool) :
    Gets (kgCtxInternalize actx big defaultRealm) (ctx.octets big actxOctets) ctx.retyped := by
  intro rest
  obtain ⟨here, hhere⟩ := hest.here
  obtain ⟨there, hthere⟩ := hest.there
  obtain ⟨subkey, hsubkey⟩ := hest.subkey
  obtain ⟨enc, henc⟩ := hest.enc
  obtain ⟨seq, hseq⟩ := hest.seq
  obtain ⟨queue, hqueue⟩ := hest.seqstate
  obtain ⟨oid, hoid⟩ := hest.mechUsed
  have hmech : Gets mechInternalize (oidOctets oid) (some oid) := by
    intro more
    rw [mechInternalize, (gets_attempt (gets_oid (hfits.mechUsed oid hoid))).bind]
    rfl
  have hname : ∀ {name : Principal}, name.data ≠ [] ∧ name.realm ≠ [] →
      (principalText name).length < 2 ^ 31 →
      Gets (attempt (principalInternalize defaultRealm)) (principalOctets name)
        (some { name with type := ntPrincipal }, none) :=
    fun h hlen => gets_attempt (gets_principal defaultRealm h.1 h.2 hlen)
  have hkey : ∀ {key : Keyblock}, key.contents.length < 2 ^ 31 →
      Gets (attempt keyblockInternalize) (keyblockOctets key) (some key, none) :=
    fun h => gets_attempt (gets_keyblock h)
  have hstatic : ∀ {β : Type} (f : Unit → Internalizer β) {s : Octets}, 56 ≤ s.length →
      (expectStatic >>= f) s = f () s := fun f s h => stateT_bind_of_ok (if_pos h)
  rw [kgCtxInternalize, octets, staticOctets, hhere, hthere, hsubkey, henc, hseq, hqueue, hoid]
  simp only [memberOctets_some]
  simp only [append_assoc]
  rw [(gets_expectMagic _).bind, hstatic, (gets_int32 _).bind, (gets_int32 _).bind,
    (gets_int32 _).bind, (gets_seed _).bind, (gets_int32 _).bind, (gets_int32 _).bind,
    (gets_int32 _).bind, (gets_int32 _).bind, (gets_int32 _).bind, (gets_int32 _).bind,
    (gets_int32 _).bind, (gets_unpackOr _ _).bind, (gets_unpackOr _ _).bind,
    (gets_unpackOr _ _).bind, hmech.bind,
    (hname (hnamed.here here hhere) (hfits.here here hhere)).bind, attemptUnless_none,
    (hname (hnamed.there there hthere) (hfits.there there hthere)).bind, attemptUnless_none,
    (hkey (hfits.subkey subkey hsubkey)).bind, attemptUnless_none,
    (hkey (hfits.enc enc henc)).bind, attemptUnless_none, (hkey (hfits.seq seq hseq)).bind]
  swap
  · simp only [length_append, length_be32]
    omega
  dsimp only
  have hrest := gets_rest hfits.ctypes hactx rest
  simp only [append_assoc] at hrest
  rw [(gets_queue big queue).bind, stateT_bind_of_ok hrest, retyped, hhere, hthere, hsubkey, henc,
    hseq, hqueue, hoid]
  rfl

end Serial

/-! ## The context in use -/

/-- The part of the record that tokens are made and judged with. -/
def view (ctx : GssCtxIdRec α) : Option Gss.Ctx := do
  let enc ← ctx.enc
  let seq ← ctx.seq
  let seqstate ← ctx.seqstate
  let mechUsed ← ctx.mechUsed
  return { initiate := ctx.initiate != 0
           signalg := ctx.signalg.toUInt32.toNat
           cksumSize := ctx.cksumSize.toUInt32.toNat
           sealalg := ctx.sealalg.toUInt32.toNat
           enc, seq
           endtime := ctx.endtime
           seqSend := ctx.seqSend
           seqstate
           established := ctx.established != 0
           bigEndian := ctx.bigEndian != 0
           mechUsed }

end GssCtxIdRec

/-- A token that comes in, and when. -/
structure Presented where
  clock : Except Gss.Code Timestamp
  token : Octets
  message : Octets
  toktype : Gss.Toktype

/-- What `kg_unseal` says of one token after another, until it has no result. -/
def judge (crypto : Gss.Crypto) : Option Gss.Ctx → List Presented → List (Option Gss.Unsealed)
  | _, [] => []
  | handle, p :: ps =>
    match Gss.kgUnseal crypto p.clock handle p.token p.message p.toktype with
    | none => [none]
    | some r => some r :: judge crypto r.ctx ps

/-- An established context with names of a component and a realm is exported, in any buffer
of the announced size, into 16 octets less than are announced, besides what the serializer of
the authentication context leaves; the import takes all of them, has everything of the context
but the types of its names, and judges every sequence of tokens as the context would have. -/
theorem export_import {α : Type} (actx : ActxSerializer α) (big : Bool)
    (defaultRealm : Except Name.Code Octets) (extra : Nat) (ctx : GssCtxIdRec α)
    (hest : ctx.Established) (hnamed : ctx.Named) (hfits : ctx.Fits) {actxNeed : Nat}
    {actxOctets : Octets} (hactx : actx.RestoresAt ctx.authContext actxNeed actxOctets) :
    ∃ n bs imported, kgCtxSize actx ctx = .ok n ∧
      kgCtxExternalize actx big ctx ⟨[], n + extra⟩ = .ok ((), ⟨bs, n + extra - bs.length⟩) ∧
      n = bs.length + 16 + (actxNeed - actxOctets.length) ∧
      kgCtxInternalize actx big defaultRealm bs = .ok (imported, []) ∧
      imported = ctx.retyped ∧
      ∀ crypto ps, judge crypto imported.view ps = judge crypto ctx.view ps := by
  have hserial := GssCtxIdRec.serial hest hnamed hactx big
  have hgets := GssCtxIdRec.gets defaultRealm hest hnamed hfits hactx big []
  rw [append_nil] at hgets
  refine ⟨_, _, _, hserial.size_eq, ?_,
    GssCtxIdRec.length_octets hest big hactx.serial.puts.length_le, hgets, rfl, fun _ _ => rfl⟩
  exact hserial.puts.run _ (Nat.le_add_right _ _)

/-- A context with DES keys between a client and a service of that realm. -/
def desContext (realm : Octets) : GssCtxIdRec FullContext where
  initiate := 1
  gssFlags := 0x3e
  seedInit := 0
  seed := Vector.replicate 16 0
  here := some ⟨realm, [ascii "joe"], 1⟩
  there := some ⟨realm, [ascii "host", ascii "b"], 3⟩
  subkey := some ⟨4, List.replicate 8 2⟩
  signalg := 0
  cksumSize := 8
  sealalg := 0
  enc := some ⟨4, List.replicate 8 0xf2⟩
  seq := some ⟨4, List.replicate 8 2⟩
  endtime := 100
  krbFlags := 0
  seqSend := 7
  seqRecv := 9
  seqstate := some (Gss.gOrderInit (fun _ => 0) 9 true true)
  established := 1
  bigEndian := 0
  authContext := FullContext.addressOnly
  mechUsed := some Gss.gssMechKrb5Old
  ctypes := [8]

/-- It is exported and imported, with the serializer of `ser_actx.c`. -/
theorem export_import_des : ∃ n bs imported,
    kgCtxSize (actxSerializer (.error .configNodefrealm)) (desContext [82]) = .ok n ∧
      kgCtxExternalize (actxSerializer (.error .configNodefrealm)) false (desContext [82])
        ⟨[], n + 0⟩ = .ok ((), ⟨bs, n + 0 - bs.length⟩) ∧ n = bs.length + 16 + (56 - 56) ∧
      kgCtxInternalize (actxSerializer (.error .configNodefrealm)) false
        (.error .configNodefrealm) bs = .ok (imported, []) ∧
      imported = (desContext [82]).retyped ∧
      ∀ crypto ps, judge crypto imported.view ps = judge crypto (desContext [82]).view ps := by
  have hactx := FullContext.Restorable.restoresAt (x := FullContext.addressOnly)
    ⟨.inl rfl, .inl rfl, nofun, nofun, nofun⟩ ⟨by decide, nofun, nofun, nofun, nofun, nofun⟩ rfl
    (.error .configNodefrealm)
  refine export_import (actxSerializer (.error .configNodefrealm)) false (.error .configNodefrealm)
    0 (desContext [82]) ?_ ?_ ?_ hactx
  · exact ⟨by decide, ⟨_, rfl⟩, ⟨_, rfl⟩, ⟨_, rfl⟩, ⟨_, rfl⟩, ⟨_, rfl⟩, ⟨_, rfl⟩, ⟨_, rfl⟩⟩
  · exact ⟨by decide, by decide⟩
  · exact ⟨by decide, by decide, by decide, by decide, by decide, by decide, by decide⟩

/-- What is written is shorter than announced; a name without a realm is not read, and one
without a component has no size. -/
theorem export_not_exact :
    kgCtxSize (actxSerializer (.error .configNodefrealm)) (desContext [82]) = .ok 386 ∧
    ((kgCtxExternalize (actxSerializer (.error .configNodefrealm)) false (desContext [82])
        ⟨[], 386⟩).toOption.map fun r => (r.2.written.length, r.2.remain)) = some (370, 16) ∧
    ((kgCtxExternalize (actxSerializer (.error .configNodefrealm)) false (desContext [])
        ⟨[], 384⟩).toOption.map fun r =>
      (kgCtxInternalize (actxSerializer (.error .configNodefrealm)) false
        (.error .configNodefrealm) r.2.written).isOk) = some false ∧
    kgCtxSize (actxSerializer (.error .configNodefrealm))
      { desContext [82] with here := some ⟨[82], [], 1⟩ } = .error .fault := by
  refine ⟨?_, ?_, ?_, ?_⟩ <;> decide +kernel

end Krb5.Ser
