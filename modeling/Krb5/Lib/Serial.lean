import Mathlib.Data.BitVec
import Krb5.Lib.Checked

/-!
# Packing into a buffer with a limit

`Puts w need bs` says that `w` writes `bs` wherever `need` octets are free, `Wrote w bs` that `w`
wrote `bs` whenever it came back, `Gets r bs a` that `r` takes `bs` for `a` and leaves what follows,
and `Spelled r enc val` that `r` accepts nothing else than what `enc` writes.
-/

namespace Krb5.Lib

open List

/-- The octet of a word that starts at bit `i`. -/
def octetAt (v : Int32) (i : Nat) : UInt8 := ⟨(v.toBitVec >>> i).setWidth 8⟩

def be32 (v : Int32) : List UInt8 := [octetAt v 24, octetAt v 16, octetAt v 8, octetAt v 0]

def ofBe32 (a b c d : UInt8) : Int32 :=
  .ofBitVec (a.toBitVec ++ b.toBitVec ++ c.toBitVec ++ d.toBitVec)

variable (v : Int32)

@[simp] theorem length_be32 : (be32 v).length = 4 := rfl

theorem ofBe32_octets : ofBe32 (octetAt v 24) (octetAt v 16) (octetAt v 8) (octetAt v 0) = v := by
  apply Int32.toBitVec_inj.mp
  simp only [ofBe32, octetAt, Int32.toBitVec_ofBitVec]
  grind

theorem be32_ofBe32 (a b c d : UInt8) : be32 (ofBe32 a b c d) = [a, b, c, d] := by
  have hoctet {x y : UInt8} (h : x.toBitVec = y.toBitVec) : x = y := UInt8.toBitVec_inj.mp h
  simp only [be32, ofBe32, octetAt, Int32.toBitVec_ofBitVec]
  refine congr_arg₂ _ (hoctet ?_) (congr_arg₂ _ (hoctet ?_) (congr_arg₂ _ (hoctet ?_)
    (congr_arg₂ _ (hoctet ?_) rfl)))
  all_goals grind

/-- The word at the front. -/
def head32 : List UInt8 → Option Int32
  | a :: b :: c :: d :: _ => some (ofBe32 a b c d)
  | _ => none

@[simp] theorem head32_be32 (rest : List UInt8) : head32 (be32 v ++ rest) = some v :=
  congrArg some (ofBe32_octets v)

def le16 (v : BitVec 16) : List UInt8 := [⟨v.setWidth 8⟩, ⟨(v >>> 8).setWidth 8⟩]

def ofLe16 (a b : UInt8) : BitVec 16 := b.toBitVec ++ a.toBitVec

def le32 (v : BitVec 32) : List UInt8 :=
  [⟨v.setWidth 8⟩, ⟨(v >>> 8).setWidth 8⟩, ⟨(v >>> 16).setWidth 8⟩, ⟨(v >>> 24).setWidth 8⟩]

def ofLe32 (a b c d : UInt8) : BitVec 32 :=
  d.toBitVec ++ c.toBitVec ++ b.toBitVec ++ a.toBitVec

@[simp] theorem length_le16 (v : BitVec 16) : (le16 v).length = 2 := rfl

@[simp] theorem length_le32 (v : BitVec 32) : (le32 v).length = 4 := rfl

theorem ofLe16_octets (v : BitVec 16) : ofLe16 ⟨v.setWidth 8⟩ ⟨(v >>> 8).setWidth 8⟩ = v := by
  simp only [ofLe16]
  grind

theorem ofLe32_octets (v : BitVec 32) : ofLe32 ⟨v.setWidth 8⟩ ⟨(v >>> 8).setWidth 8⟩
    ⟨(v >>> 16).setWidth 8⟩ ⟨(v >>> 24).setWidth 8⟩ = v := by
  simp only [ofLe32]
  grind

/-! ## Writers -/

/-- What was written, and the room behind it. -/
structure Sink where
  written : List UInt8
  remain : Nat
deriving DecidableEq, Repr

def Sink.push (s : Sink) (bs : List UInt8) : Sink := ⟨s.written ++ bs, s.remain - bs.length⟩

@[simp] theorem Sink.push_nil (s : Sink) : s.push [] = s := by
  simp [Sink.push]

@[simp] theorem Sink.push_push (s : Sink) (bs cs : List UInt8) :
    (s.push bs).push cs = s.push (bs ++ cs) := by
  simp [Sink.push, Nat.sub_sub]

variable {ε : Type}

abbrev Packing (ε : Type) := StateT Sink (Except ε)

def packBytes (short : ε) (bs : List UInt8) : Packing ε Unit := fun s =>
  if bs.length ≤ s.remain then .ok ((), s.push bs) else .error short

def packInt32 (short : ε) (v : Int32) : Packing ε Unit := packBytes short (be32 v)

/-- A failure is not looked at. -/
def silently (w : Packing ε Unit) : Packing ε Unit := fun s =>
  match w s with
  | .ok r => .ok r
  | .error _ => .ok ((), s)

/-- `w`, in a buffer that has the room. -/
def within (short : ε) (required : Nat) (w : Packing ε Unit) : Packing ε Unit := fun s =>
  if required ≤ s.remain then w s else .error short

structure Puts (w : Packing ε Unit) (need : Nat) (bs : List UInt8) : Prop where
  length_le : bs.length ≤ need
  run : ∀ s : Sink, need ≤ s.remain → w s = .ok ((), s.push bs)

/-- Whenever `w` comes back, `bs` is written and there was room for it. -/
def Wrote (w : Packing ε Unit) (bs : List UInt8) : Prop :=
  ∀ ⦃s s' : Sink⦄, w s = .ok ((), s') → bs.length ≤ s.remain ∧ s' = s.push bs

variable {w w' : Packing ε Unit} {need need' : Nat} {bs bs' : List UInt8} {short : ε}

namespace Puts

theorem pure : Puts (pure () : Packing ε Unit) 0 [] where
  length_le := Nat.le_refl 0
  run s _ := by
    rw [Sink.push_nil]
    rfl

theorem bytes (short : ε) (bs : List UInt8) : Puts (packBytes short bs) bs.length bs where
  length_le := Nat.le_refl _
  run _ h := if_pos h

theorem int32 (short : ε) (v : Int32) : Puts (packInt32 short v) 4 (be32 v) :=
  bytes short (be32 v)

theorem silently (h : Puts w need bs) : Puts (silently w) need bs where
  length_le := h.length_le
  run s hs := by
    rw [Lib.silently, h.run s hs]

theorem seq (h : Puts w need bs) (h' : Puts w' need' bs') :
    Puts (do w; w') (need + need') (bs ++ bs') where
  length_le := by
    have := h.length_le
    have := h'.length_le
    rw [length_append]
    omega
  run s hs := by
    have hroom : need' ≤ (s.push bs).remain := by
      have := h.length_le
      show need' ≤ s.remain - bs.length
      omega
    rw [stateT_bind_of_ok (h.run s (by omega)), h'.run _ hroom, Sink.push_push]

theorem mono (h : Puts w need bs) (hle : need ≤ need') : Puts w need' bs where
  length_le := Nat.le_trans h.length_le hle
  run s hs := h.run s (Nat.le_trans hle hs)

theorem within (h : Puts w need bs) (hle : need ≤ need') :
    Puts (within short need' w) need' bs where
  length_le := Nat.le_trans h.length_le hle
  run s hs := (if_pos hs).trans (h.run s (Nat.le_trans hle hs))

end Puts

namespace Wrote

theorem pure : Wrote (pure () : Packing ε Unit) [] := by
  intro s s' h
  cases h
  exact ⟨Nat.zero_le _, (Sink.push_nil s).symm⟩

theorem within (h : Puts w need bs) (hle : need ≤ need') : Wrote (within short need' w) bs := by
  intro s s' hrun
  rw [Lib.within] at hrun
  split at hrun
  · rename_i hroom
    rw [h.run s (Nat.le_trans hle hroom)] at hrun
    cases hrun
    exact ⟨Nat.le_trans (Nat.le_trans h.length_le hle) hroom, rfl⟩
  · cases hrun

theorem seq (h : Wrote w bs) (h' : Wrote w' bs') : Wrote (do w; w') (bs ++ bs') := by
  intro s s' hrun
  obtain ⟨_, t, hw, hw'⟩ := stateT_bind_eq_ok.mp hrun
  obtain ⟨hroom, rfl⟩ := h hw
  obtain ⟨hroom', rfl⟩ := h' hw'
  refine ⟨?_, Sink.push_push s bs bs'⟩
  have : bs'.length ≤ s.remain - bs.length := hroom'
  rw [length_append]
  omega

/-- A word that finds no room is dropped; what follows it does not come back then, if it
needs as much. -/
theorem silently_int32 (h : Wrote w bs) (hfour : 4 ≤ bs.length) (v : Int32) :
    Wrote (do silently (packInt32 short v); w) (be32 v ++ bs) := by
  intro s s' hrun
  obtain ⟨_, t, hv, hw⟩ := stateT_bind_eq_ok.mp hrun
  by_cases hroom : 4 ≤ s.remain
  · rw [(Puts.int32 short v).silently.run s hroom] at hv
    cases hv
    obtain ⟨hleft, rfl⟩ := h hw
    have : bs.length ≤ s.remain - 4 := hleft
    refine ⟨?_, Sink.push_push s (be32 v) bs⟩
    rw [length_append, length_be32]
    omega
  · have hdropped : silently (packInt32 short v) s = .ok ((), s) := by
      rw [silently, packInt32, packBytes, if_neg (show ¬(be32 v).length ≤ s.remain from hroom)]
    rw [hdropped] at hv
    cases hv
    exact absurd (Nat.le_trans hfour (h hw).1) hroom

end Wrote

/-! ## Readers -/

def times {m : Type → Type} [Monad m] {α : Type} (element : m α) :
    (n : Nat) → m { l : List α // l.length = n }
  | 0 => pure ⟨[], rfl⟩
  | n + 1 => do
      let a ← element
      let l ← times element n
      return ⟨a :: l.1, congrArg (· + 1) l.2⟩

abbrev Unpacking (ε : Type) := StateT (List UInt8) (Except ε)

def unpackBytes (short : ε) (n : Nat) : Unpacking ε (List UInt8) := fun s =>
  if n ≤ s.length then .ok (s.take n, s.drop n) else .error short

def unpackInt32 (short : ε) : Unpacking ε Int32 := fun s =>
  match head32 s with
  | some v => .ok (v, s.drop 4)
  | none => .error short

/-- Zero stands for a word that is not there. -/
def unpackInt32OrZero : Unpacking ε Int32 := fun s => .ok ((head32 s).getD 0,
  if (head32 s).isSome then s.drop 4 else s)

variable {α β : Type} {r : Unpacking ε α} {a : α}

def Gets (r : Unpacking ε α) (bs : List UInt8) (a : α) : Prop :=
  ∀ rest : List UInt8, r (bs ++ rest) = .ok (a, rest)

namespace Gets

theorem pure (a : α) : Gets (pure a : Unpacking ε α) [] a := fun _ => rfl

theorem bytes (short : ε) (bs : List UInt8) : Gets (unpackBytes short bs.length) bs bs := by
  intro rest
  rw [unpackBytes, if_pos (by simp), take_left, drop_left]

theorem int32 (short : ε) (v : Int32) : Gets (unpackInt32 short) (be32 v) v := by
  intro rest
  rw [unpackInt32, head32_be32]
  rfl

theorem int32OrZero (v : Int32) : Gets (unpackInt32OrZero : Unpacking ε Int32) (be32 v) v := by
  intro rest
  rw [unpackInt32OrZero, head32_be32]
  rfl

theorem times {enc : β → List UInt8} {g : β → α} {l : List β} (h : ∀ b ∈ l, Gets r (enc b) (g b))
    {k : Nat} (hk : (l.map g).length = k) : Gets (times r k) (l.flatMap enc) ⟨l.map g, hk⟩ := by
  subst hk
  induction l with
  | nil => exact fun _ => rfl
  | cons b l ih =>
    intro rest
    have htail := ih fun c hc => h c (mem_cons_of_mem b hc)
    rw [flatMap_cons, append_assoc]
    exact (stateT_bind_of_ok (h b mem_cons_self _)).trans (stateT_bind_of_ok (htail rest))

theorem bind (h : Gets r bs a) (f : α → Unpacking ε β) (rest : List UInt8) :
    (r >>= f) (bs ++ rest) = f a rest :=
  stateT_bind_of_ok (h rest)

theorem andThen {f : α → Unpacking ε β} {b : β} (h : Gets r bs a) (h' : Gets (f a) bs' b) :
    Gets (r >>= f) (bs ++ bs') b := by
  intro rest
  rw [append_assoc, h.bind]
  exact h' rest

theorem map (h : Gets r bs a) (g : α → β) : Gets (r >>= fun x => Pure.pure (g x)) bs (g a) := by
  intro rest
  rw [h.bind]
  rfl

end Gets

/-- The reader accepts only what `enc` writes for some `x`, and gives `val x` then. -/
def Spelled {σ : Type} (r : Unpacking ε α) (enc : σ → List UInt8) (val : σ → α) : Prop :=
  ∀ ⦃s : List UInt8⦄ ⦃a : α⦄ ⦃rest : List UInt8⦄, r s = .ok (a, rest) →
    ∃ x, a = val x ∧ s = enc x ++ rest

namespace Spelled

variable {σ : Type} {enc : σ → List UInt8} {val : σ → α}

theorem bytes (short : ε) (n : Nat) :
    Spelled (unpackBytes short n) (fun bs : { bs : List UInt8 // bs.length = n } => bs.1)
      Subtype.val := by
  intro s bs rest h
  rw [unpackBytes] at h
  split at h
  · cases h
    exact ⟨⟨s.take n, by rw [length_take]; omega⟩, rfl, (take_append_drop n s).symm⟩
  · cases h

theorem int32 (short : ε) : Spelled (unpackInt32 short) be32 fun v => v := by
  intro s v rest h
  rw [unpackInt32] at h
  split at h
  · rename_i hhead
    cases h
    rcases s with _ | ⟨a, _ | ⟨b, _ | ⟨c, _ | ⟨d, s⟩⟩⟩⟩
    · cases hhead
    · cases hhead
    · cases hhead
    · cases hhead
    · cases hhead
      exact ⟨_, rfl, congrArg (· ++ s) (be32_ofBe32 a b c d).symm⟩
  · cases h

theorem map (h : Spelled r enc val) (g : α → β) :
    Spelled (r >>= fun a => Pure.pure (g a)) enc fun x => g (val x) := by
  intro s b rest hrun
  obtain ⟨a, s', ha, hb⟩ := stateT_bind_eq_ok.mp hrun
  obtain ⟨x, rfl, rfl⟩ := h ha
  cases hb
  exact ⟨x, rfl, rfl⟩

theorem times (h : Spelled r enc val) {n : Nat} {s rest : List UInt8} {l : { l : List α // l.length = n }}
    (hrun : Lib.times r n s = .ok (l, rest)) :
    ∃ xs : List σ, xs.length = n ∧ l.1 = xs.map val ∧ s = xs.flatMap enc ++ rest := by
  induction n generalizing s with
  | zero =>
    cases hrun
    exact ⟨[], rfl, rfl, rfl⟩
  | succ n ih =>
    obtain ⟨a, s', ha, hrun⟩ := stateT_bind_eq_ok.mp hrun
    obtain ⟨l', s'', hl, hrun⟩ := stateT_bind_eq_ok.mp hrun
    cases hrun
    obtain ⟨x, rfl, rfl⟩ := h ha
    obtain ⟨xs, rfl, hval, rfl⟩ := ih hl
    refine ⟨x :: xs, rfl, ?_, ?_⟩
    · rw [map_cons, ← hval]
    · rw [flatMap_cons, append_assoc]

end Spelled

end Krb5.Lib
