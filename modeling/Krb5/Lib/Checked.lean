import Mathlib.Data.List.Forall2
import Mathlib.Tactic.Basic

/-!
# Checked computations

Inversion of `Except` programs (what has to hold for a `do` block to return),
and sequences of guards: a function that tests one condition after another and
leaves at the first that holds is a list of `Guard`s, and what it has
established when it returns is that none of them held.
-/

namespace Krb5.Lib

open List

variable {ε α β : Type} {b : β}

theorem bind_eq_ok {x : Except ε α} {f : α → Except ε β} :
    (x >>= f) = .ok b ↔ ∃ a, x = .ok a ∧ f a = .ok b := by
  cases x <;> simp [bind, Except.bind]

variable {e : ε} {a : α} {l : List α}

theorem bind_eq_error {x : Except ε α} {f : α → Except ε β} :
    (x >>= f) = .error e ↔ x = .error e ∨ ∃ a, x = .ok a ∧ f a = .error e := by
  cases x <;> simp [bind, Except.bind]

theorem ok_bind (a : α) (f : α → Except ε β) : (Except.ok a >>= f) = f a := rfl

theorem map_eq_ok {x : Except ε α} {f : α → β} : x.map f = .ok b ↔ ∃ a, x = .ok a ∧ f a = b := by
  cases x <;> simp [Except.map]

section

variable {ε' : Type} {f : ε → ε'}

@[simp] theorem mapError_ok : (.ok a : Except ε α).mapError f = .ok a := rfl

@[simp] theorem mapError_error : (.error e : Except ε α).mapError f = .error (f e) := rfl

theorem mapError_eq_ok {x : Except ε α} : x.mapError f = .ok a ↔ x = .ok a := by
  cases x <;> simp

end

/-! ## Loops -/

section Loops

variable {f : α → Except ε Unit}

theorem forM_eq_ok (h : ∀ a ∈ l, f a = .ok ()) : l.forM f = .ok () := by
  induction l with
  | nil => rfl
  | cons a l ih =>
    show (f a >>= fun _ => l.forM f) = _
    rw [h a mem_cons_self]
    exact ih fun b hb => h b (mem_cons_of_mem a hb)

/-- A loop in which there is one way to fail fails if one of its rounds does. -/
theorem forM_eq_error (h : ∀ a ∈ l, f a = .ok () ∨ f a = .error e) (hex : ∃ a ∈ l, f a = .error e) :
    l.forM f = .error e := by
  induction l with
  | nil =>
    obtain ⟨a, ha, -⟩ := hex
    cases ha
  | cons a l ih =>
    show (f a >>= fun _ => l.forM f) = _
    rcases h a mem_cons_self with ha | ha
    · rw [ha]
      refine ih (fun b hb => h b (mem_cons_of_mem a hb)) ?_
      obtain ⟨b, hb, hfail⟩ := hex
      rcases mem_cons.mp hb with rfl | hb
      · cases ha.symm.trans hfail
      · exact ⟨b, hb, hfail⟩
    · rw [ha]
      rfl

end Loops

section Pairs

variable {R : α → β → Prop} {m : List β}

theorem forall₂_mem_right (h : List.Forall₂ R l m) {b : β} (hb : b ∈ m) : ∃ a ∈ l, R a b := by
  induction h with
  | nil => cases hb
  | @cons a b' l m hab _ ih =>
    rcases mem_cons.mp hb with rfl | hb
    · exact ⟨a, mem_cons_self, hab⟩
    · obtain ⟨a', ha', hR⟩ := ih hb
      exact ⟨a', mem_cons_of_mem a ha', hR⟩

theorem forall₂_mem_left (h : List.Forall₂ R l m) (ha : a ∈ l) : ∃ b ∈ m, R a b := by
  have hflip : List.Forall₂ (flip R) m l := h.flip
  exact forall₂_mem_right hflip ha

theorem forall₂_set (h : List.Forall₂ R l m) {b : β} (hab : R a b) (i : Nat) :
    List.Forall₂ R (l.set i a) (m.set i b) := by
  induction h generalizing i with
  | nil => exact .nil
  | cons hfirst hrest ih =>
    cases i with
    | zero => exact .cons hab hrest
    | succ i => exact .cons hfirst (ih i)

end Pairs

theorem mapM_eq_ok {f : α → Except ε β} {m : List β} :
    l.mapM f = .ok m ↔ List.Forall₂ (fun a b => f a = .ok b) l m := by
  induction l generalizing m with
  | nil =>
    rw [List.forall₂_nil_left_iff]
    exact ⟨fun h => (Except.ok.inj h).symm, fun h => congrArg Except.ok h.symm⟩
  | cons a l ih =>
    rw [mapM_cons, List.forall₂_cons_left_iff]
    simp only [bind_eq_ok, ih]
    constructor
    · rintro ⟨b, hb, m', hm', h⟩
      cases h
      exact ⟨b, m', hb, hm', rfl⟩
    · rintro ⟨b, m', hb, hm', rfl⟩
      exact ⟨b, hb, m', hm', rfl⟩

/-- An error that a computation never ends in. -/
def Avoids (e : ε) (x : Except ε α) : Prop := x ≠ .error e

namespace Avoids

variable {x : Except ε α}

theorem ok (a : α) : Avoids e (.ok a) := fun h => nomatch h

theorem error {e' : ε} (h : e' ≠ e) : Avoids e (.error e' : Except ε α) :=
  fun heq => h (Except.error.inj heq)

theorem bind {f : α → Except ε β} (hx : Avoids e x) (hf : ∀ a, Avoids e (f a)) : Avoids e (x >>= f) := by
  intro h
  rcases bind_eq_error.mp h with h | ⟨a, -, h⟩
  · exact hx h
  · exact hf a h

theorem mapError {ε' : Type} {y : Except ε' α} {g : ε' → ε} (h : ∀ e', g e' ≠ e) :
    Avoids e (y.mapError g) := by
  cases y with
  | ok a => exact ok a
  | error e' => exact error (h e')

theorem mapM {f : α → Except ε β} (hf : ∀ a, Avoids e (f a)) (l : List α) : Avoids e (l.mapM f) := by
  induction l with
  | nil => exact ok []
  | cons a l ih =>
    rw [mapM_cons]
    exact (hf a).bind fun b => ih.bind fun m => ok (b :: m)

end Avoids

/-! ## With a state -/

section StateT

variable {σ : Type} {x : StateT σ (Except ε) α} {f : α → StateT σ (Except ε) β} {s s' : σ}
  {r : β × σ}

theorem stateT_bind_eq_ok : (x >>= f) s = .ok r ↔ ∃ a s', x s = .ok (a, s') ∧ f a s' = .ok r := by
  show (x s >>= fun p => f p.1 p.2) = .ok r ↔ _
  rw [bind_eq_ok]
  constructor
  · rintro ⟨⟨a, s'⟩, hx, hf⟩
    exact ⟨a, s', hx, hf⟩
  · rintro ⟨a, s', hx, hf⟩
    exact ⟨(a, s'), hx, hf⟩

theorem stateT_pure (a : α) : (pure a : StateT σ (Except ε) α) s = .ok (a, s) := rfl

theorem stateT_bind_of_ok (h : x s = .ok (a, s')) : (x >>= f) s = f a s' := by
  show (x s >>= fun p => f p.1 p.2) = f a s'
  rw [h]
  rfl

theorem stateT_bind_of_error (h : x s = .error e) : (x >>= f) s = .error e := by
  show (x s >>= fun p => f p.1 p.2) = .error e
  rw [h]
  rfl

theorem stateT_get_bind (g : σ → StateT σ (Except ε) β) : (get >>= g) s = g s s := rfl

theorem stateT_lift_bind (y : Except ε α) :
    ((liftM y : StateT σ (Except ε) α) >>= f) s = (y >>= fun a => f a s) := by
  cases y <;> rfl

theorem stateT_lift_bind_eq_ok {y : Except ε α} :
    ((liftM y : StateT σ (Except ε) α) >>= f) s = .ok r ↔ ∃ a, y = .ok a ∧ f a s = .ok r := by
  cases y with
  | error e =>
    constructor
    · intro h
      cases h
    · rintro ⟨a, ha, _⟩
      cases ha
  | ok a =>
    constructor
    · intro h
      exact ⟨a, rfl, h⟩
    · rintro ⟨b, hb, h⟩
      cases hb
      exact h

theorem stateT_throw_ne_ok {r : α × σ} : (throw e : StateT σ (Except ε) α) s ≠ .ok r := nofun

end StateT

/-- `if (refuses) return error;`. -/
structure Guard (ε : Type) where
  refuses : Bool
  error : ε

/-- The guards one after another. -/
def runGuards : List (Guard ε) → Except ε Unit
  | [] => .ok ()
  | g :: gs => if g.refuses then .error g.error else runGuards gs

theorem runGuards_eq_ok {gs : List (Guard ε)} {u : Unit} :
    runGuards gs = .ok u ↔ ∀ g ∈ gs, g.refuses = false := by
  induction gs with
  | nil => simp [runGuards]
  | cons g gs ih => cases hg : g.refuses <;> simp [runGuards, hg, ih]

/-- The error is that of one of the guards. -/
theorem runGuards_eq_error {gs : List (Guard ε)} {err : ε} (h : runGuards gs = .error err) :
    ∃ g ∈ gs, g.error = err := by
  induction gs with
  | nil => cases h
  | cons g gs ih =>
    simp only [runGuards] at h
    split at h
    · cases h
      exact ⟨g, mem_cons_self, rfl⟩
    · obtain ⟨g', hg', herr⟩ := ih h
      exact ⟨g', mem_cons_of_mem _ hg', herr⟩

theorem runGuards_append (gs hs : List (Guard ε)) :
    runGuards (gs ++ hs) = (runGuards gs >>= fun _ => runGuards hs) := by
  induction gs with
  | nil => rfl
  | cons g gs ih =>
    simp only [cons_append, runGuards]
    split
    · rfl
    · exact ih

end Krb5.Lib
