import Krb5.Lib.Checked

/-!
# Programs with a state and an error code

A C function that changes structures it is given and returns zero or an error
code is an `Action`. In contrast to a computation in `Except`, the state is
there after an error as well. `wp x Q s` says that `x`, started in `s`, ends in
a result and a state that satisfy `Q`; the rules follow the program text.
-/

namespace Krb5.Lib

variable {σ ε α β : Type}

/-- A program on states `σ` that returns an `α` or an error. -/
structure Action (σ ε α : Type) where
  run : σ → Except ε α × σ

namespace Action

/-- `if ((retval = x)) return retval;`, with the value of `x` for what follows. -/
protected def bind (x : Action σ ε α) (f : α → Action σ ε β) : Action σ ε β where
  run s :=
    match x.run s with
    | (.ok a, s') => (f a).run s'
    | (.error e, s') => (.error e, s')

instance : Monad (Action σ ε) where
  pure a := ⟨fun s => (.ok a, s)⟩
  bind := Action.bind

def fail (e : ε) : Action σ ε α := ⟨fun s => (.error e, s)⟩

def get : Action σ ε σ := ⟨fun s => (.ok s, s)⟩

def modify (f : σ → σ) : Action σ ε Unit := ⟨fun s => (.ok (), f s)⟩

/-- A call that leaves the state alone. -/
def ofExcept (x : Except ε α) : Action σ ε α := ⟨fun s => (x, s)⟩

/-- `if (refuses) return e;`. -/
def failIf (refuses : Bool) (e : ε) : Action σ ε Unit :=
  if refuses then fail e else pure ()

/-- `x`, with `cleanup` on the way out when it fails. -/
def onError (x : Action σ ε α) (cleanup : σ → σ) : Action σ ε α where
  run s :=
    match x.run s with
    | (.ok a, s') => (.ok a, s')
    | (.error e, s') => (.error e, cleanup s')

/-- `x`, with `cleanup` on the way out in any case. -/
def always (x : Action σ ε α) (cleanup : σ → σ) : Action σ ε α :=
  ⟨fun s => ((x.run s).1, cleanup (x.run s).2)⟩

/-- `x`, with its error codes changed on the way out. -/
def mapError (f : ε → ε) (x : Action σ ε α) : Action σ ε α where
  run s := ((x.run s).1.mapError f, (x.run s).2)

/-- `x`, whose error is not passed on. -/
def attempt (x : Action σ ε α) : Action σ ε (Option α) where
  run s := (.ok (x.run s).1.toOption, (x.run s).2)

/-- `x`, with one of its error codes taken for the end of a loop. -/
def upTo [DecidableEq ε] (x : Action σ ε α) (e : ε) : Action σ ε (Option α) where
  run s :=
    match x.run s with
    | (.ok a, s') => (.ok (some a), s')
    | (.error e', s') => if e' = e then (.ok none, s') else (.error e', s')

/-- The error of `x` under another code. -/
def withError (e : ε) (x : Action σ ε α) : Action σ ε α where
  run s :=
    match x.run s with
    | (.ok a, s') => (.ok a, s')
    | (.error _, s') => (.error e, s')

end Action

/-- What holds of the result and the state `x` ends in. -/
def wp (x : Action σ ε α) (Q : Except ε α → σ → Prop) (s : σ) : Prop := Q (x.run s).1 (x.run s).2

/-- A postcondition with a part for each outcome. -/
def post (ok : α → σ → Prop) (err : ε → σ → Prop) : Except ε α → σ → Prop
  | .ok a, s => ok a s
  | .error e, s => err e s

variable {x : Action σ ε α} {s : σ}

section Rules

variable {f : α → Action σ ε β} (ok : α → σ → Prop) (err : ε → σ → Prop)

@[simp] theorem post_ok (a : α) :
    post ok err (.ok a) s = ok a s := rfl

@[simp] theorem post_error (e : ε) :
    post ok err (.error e) s = err e s := rfl

@[simp] theorem wp_pure (a : α) (Q : Except ε α → σ → Prop) :
    wp (pure a : Action σ ε α) Q s = Q (.ok a) s := rfl

@[simp] theorem wp_get (Q : Except ε σ → σ → Prop) :
    wp (Action.get : Action σ ε σ) Q s = Q (.ok s) s := rfl

@[simp] theorem wp_modify (f : σ → σ) (Q : Except ε Unit → σ → Prop) :
    wp (Action.modify f : Action σ ε Unit) Q s = Q (.ok ()) (f s) := rfl

@[simp] theorem wp_ofExcept (y : Except ε α) (Q : Except ε α → σ → Prop) :
    wp (Action.ofExcept y : Action σ ε α) Q s = Q y s := rfl

@[simp] theorem wp_bind (Q : Except ε β → σ → Prop) :
    wp (x >>= f) Q s = wp x (post (fun a => wp (f a) Q) fun e => Q (.error e)) s := by
  simp only [wp, bind, Action.bind]
  rcases x.run s with ⟨_ | _, _⟩ <;> rfl

theorem wp_get_bind {f : σ → Action σ ε β} {Q : Except ε β → σ → Prop} :
    wp (Action.get >>= f) Q s = wp (f s) Q s := rfl

@[simp] theorem wp_withError (e : ε) (Q : Except ε α → σ → Prop) :
    wp (x.withError e) Q s = wp x (post (fun a => Q (.ok a)) fun _ => Q (.error e)) s := by
  simp only [wp, Action.withError]
  rcases x.run s with ⟨_ | _, _⟩ <;> rfl

@[simp] theorem wp_onError (cleanup : σ → σ) (Q : Except ε α → σ → Prop) :
    wp (x.onError cleanup) Q s =
      wp x (post (fun a => Q (.ok a)) fun e s' => Q (.error e) (cleanup s')) s := by
  simp only [wp, Action.onError]
  rcases x.run s with ⟨_ | _, _⟩ <;> rfl

@[simp] theorem wp_always (cleanup : σ → σ) (Q : Except ε α → σ → Prop) :
    wp (x.always cleanup) Q s = wp x (fun r s' => Q r (cleanup s')) s := rfl

@[simp] theorem wp_upTo [DecidableEq ε] (e : ε) (Q : Except ε (Option α) → σ → Prop) :
    wp (x.upTo e) Q s =
      wp x (post (fun a => Q (.ok (some a)))
        fun e' s' => if e' = e then Q (.ok none) s' else Q (.error e') s') s := by
  simp only [wp, Action.upTo]
  rcases x.run s with ⟨e' | _, _⟩
  · by_cases he : e' = e <;> simp [he]
  · rfl

theorem wp_failIf (refuses : Bool) (e : ε) (Q : Except ε Unit → σ → Prop) :
    wp (Action.failIf refuses e : Action σ ε Unit) Q s =
      if refuses then Q (.error e) s else Q (.ok ()) s := by
  cases refuses <;> rfl

variable {a : α} {s' t : σ} {e : ε} {b : β} {Q : Except ε β → σ → Prop} {y r : Except ε α}

theorem bind_of_ok (h : x.run s = (.ok a, s')) : (x >>= f).run s = (f a).run s' := by
  simp [bind, Action.bind, h]

theorem bind_of_error (h : x.run s = (.error e, s')) : (x >>= f).run s = (.error e, s') := by
  simp [bind, Action.bind, h]

theorem bind_congr_run {y : Action σ ε α} (h : x.run s = y.run t) :
    (x >>= f).run s = (y >>= f).run t := by
  simp [bind, Action.bind, h]

theorem run_bind_eq_ok :
    (x >>= f).run s = (.ok b, t) ↔ ∃ a s', x.run s = (.ok a, s') ∧ (f a).run s' = (.ok b, t) := by
  simp only [bind, Action.bind]
  rcases x.run s with ⟨_ | a, s'⟩ <;> simp [and_assoc]

@[simp] theorem run_ofExcept (y : Except ε α) :
    (Action.ofExcept y : Action σ ε α).run s = (y, s) := rfl

@[simp] theorem run_get : (Action.get : Action σ ε σ).run s = (.ok s, s) := rfl

@[simp] theorem run_modify (g : σ → σ) :
    (Action.modify g : Action σ ε Unit).run s = (.ok (), g s) := rfl

@[simp] theorem run_pure (a : α) : (pure a : Action σ ε α).run s = (.ok a, s) := rfl

theorem run_ofExcept_bind_eq_ok :
    (Action.ofExcept y >>= f).run s = (.ok b, t) ↔ ∃ a, y = .ok a ∧ (f a).run s = (.ok b, t) := by
  rw [run_bind_eq_ok]
  constructor
  · rintro ⟨a, s', hy, hf⟩
    cases hy
    exact ⟨a, rfl, hf⟩
  · rintro ⟨a, rfl, hf⟩
    exact ⟨a, s, rfl, hf⟩

theorem run_eq_of_fst (h : (x.run s).1 = r) : x.run s = (r, (x.run s).2) := by
  rw [← h]

theorem run_failIf_bind_eq_ok {refuses : Bool} {g : Unit → Action σ ε β} :
    (Action.failIf refuses e >>= g).run s = (.ok b, t) ↔
      refuses = false ∧ (g ()).run s = (.ok b, t) := by
  cases refuses with
  | false => exact ⟨fun h => ⟨rfl, h⟩, fun h => h.2⟩
  | true => exact ⟨fun h => (nomatch h), fun h => (nomatch h.1)⟩

theorem run_get_bind (g : σ → Action σ ε β) : (Action.get >>= g).run s = (g s).run s := rfl

theorem run_modify_bind (g : σ → σ) (k : Unit → Action σ ε β) :
    (Action.modify g >>= k).run s = (k ()).run (g s) := rfl

theorem onError_of_ok (h : x.run s = (.ok a, s')) (cleanup : σ → σ) :
    (x.onError cleanup).run s = (.ok a, s') := by
  simp [Action.onError, h]

theorem withError_of_ok (h : x.run s = (.ok a, s')) (e : ε) :
    (x.withError e).run s = (.ok a, s') := by
  simp [Action.withError, h]

theorem upTo_of_ok [DecidableEq ε] (h : x.run s = (.ok a, s')) (e : ε) :
    (x.upTo e).run s = (.ok (some a), s') := by
  simp [Action.upTo, h]

theorem run_upTo_eq_none [DecidableEq ε] :
    (x.upTo e).run s = (.ok none, t) ↔ x.run s = (.error e, t) := by
  simp only [Action.upTo]
  rcases x.run s with ⟨e' | a, s'⟩
  · by_cases he : e' = e <;> simp [he]
  · simp

theorem run_mapError_eq_ok {g : ε → ε} :
    (x.mapError g).run s = (.ok a, t) ↔ x.run s = (.ok a, t) := by
  simp only [Action.mapError]
  rcases x.run s with ⟨e' | a', s'⟩ <;> simp

theorem run_attempt_eq_ok {a : Option α} :
    x.attempt.run s = (.ok a, t) ↔ (x.run s).1.toOption = a ∧ (x.run s).2 = t := by
  simp [Action.attempt]

theorem wp_mono {P Q : Except ε α → σ → Prop} (h : wp x P s) (hPQ : ∀ r s', P r s' → Q r s') :
    wp x Q s :=
  hPQ _ _ h

/-- Sequencing: what `x` establishes is what `f` starts from. -/
theorem wp_seq {P : α → σ → Prop} {E : ε → σ → Prop} (hx : wp x (post P E) s)
    (hok : ∀ a s', P a s' → wp (f a) Q s') (herr : ∀ e s', E e s' → Q (.error e) s') :
    wp (x >>= f) Q s := by
  rw [wp_bind]
  refine wp_mono hx fun r s' h => ?_
  cases r with
  | ok a => exact hok a s' h
  | error e => exact herr e s' h

/-- Sequencing behind a step of which one thing is known in any case. -/
theorem wp_seq_run {P : σ → Prop} (hx : wp x (fun _ s' => P s') s)
    (hok : ∀ a s', x.run s = (.ok a, s') → P s' → wp (f a) Q s')
    (herr : ∀ e s', P s' → Q (.error e) s') : wp (x >>= f) Q s := by
  rw [wp_bind, wp]
  rw [wp] at hx
  rcases hrun : x.run s with ⟨e | a, s'⟩ <;> rw [hrun] at hx
  · exact herr e s' hx
  · exact hok a s' hrun hx

theorem wp_ofExcept_bind (hok : ∀ a, y = .ok a → wp (f a) Q s)
    (herr : ∀ e, y = .error e → Q (.error e) s) : wp (Action.ofExcept y >>= f) Q s := by
  cases y with
  | ok a => exact hok a rfl
  | error e => exact herr e rfl

theorem wp_bind_of_ok (h : x.run s = (.ok a, s')) : wp (x >>= f) Q s = wp (f a) Q s' := by
  rw [wp, bind_of_ok h, wp]

theorem wp_run {Q : Except ε α → σ → Prop} (h : wp x Q s) (hrun : x.run s = (r, s')) : Q r s' := by
  rw [wp, hrun] at h
  exact h

end Rules

/-- An error leaves the state as it was. -/
def Careful (x : Action σ ε α) : Prop := ∀ ⦃s t : σ⦄ ⦃e : ε⦄, x.run s = (.error e, t) → t = s

namespace Careful

variable {f : α → Action σ ε β}

/-- What holds of the state holds after an error, and is left to what follows otherwise. -/
theorem bind_state (hx : Careful x) {P : σ → Prop} (hs : P s)
    (hf : ∀ a t, x.run s = (.ok a, t) → P ((f a).run t).2) : P ((x >>= f).run s).2 := by
  rcases hrun : x.run s with ⟨e | a, t⟩
  · rw [bind_of_error hrun, hx hrun]
    exact hs
  · rw [bind_of_ok hrun]
    exact hf a t hrun

theorem ofExcept_bind (y : Except ε α) (hf : ∀ a, Careful (f a)) :
    Careful (Action.ofExcept y >>= f) := by
  intro s t e h
  cases y with
  | ok a => exact hf a h
  | error e' =>
    cases h
    rfl

theorem failIf_bind (refuses : Bool) (e : ε) {g : Unit → Action σ ε β} (hg : Careful (g ())) :
    Careful (Action.failIf refuses e >>= g) := by
  intro s t e h
  cases refuses with
  | false => exact hg h
  | true =>
    cases h
    rfl

theorem get_bind {g : σ → Action σ ε β} (hg : ∀ s, Careful (g s)) : Careful (Action.get >>= g) := by
  intro s t e h
  exact hg s h

theorem modify_bind_pure (g : σ → σ) (a : α) :
    Careful (Action.modify g >>= fun _ => Pure.pure a : Action σ ε α) := by
  intro s t e h
  cases h

theorem modify (g : σ → σ) : Careful (Action.modify g : Action σ ε Unit) := by
  intro s t e h
  cases h

end Careful

/-- The state is not changed in any case. -/
def Silent (x : Action σ ε α) : Prop := ∀ s, (x.run s).2 = s

section Silent

variable {f : α → Action σ ε β}

namespace Silent

theorem pure (a : α) : Silent (pure a : Action σ ε α) := fun _ => rfl

theorem fail (e : ε) : Silent (Action.fail e : Action σ ε α) := fun _ => rfl

theorem ofExcept (y : Except ε α) : Silent (Action.ofExcept y : Action σ ε α) := fun _ => rfl

theorem get : Silent (Action.get : Action σ ε σ) := fun _ => rfl

theorem failIf (refuses : Bool) (e : ε) : Silent (Action.failIf refuses e : Action σ ε Unit) := by
  cases refuses <;> exact fun _ => rfl

variable (hx : Silent x)
include hx

theorem mapError (g : ε → ε) : Silent (x.mapError g) := fun s => hx s

theorem attempt : Silent x.attempt := fun s => hx s

theorem upTo [DecidableEq ε] (e : ε) : Silent (x.upTo e) := by
  intro s
  have := hx s
  simp only [Action.upTo]
  rcases hrun : x.run s with ⟨e' | a, t⟩
  · rw [hrun] at this
    by_cases he : e' = e <;> simpa [he] using this
  · rw [hrun] at this
    exact this

theorem run_of_ok {t : σ} {a : α} (h : x.run s = (.ok a, t)) : t = s := by
  have := hx s
  rw [h] at this
  exact this

theorem exists_run_of_isOk (h : (x.run s).1.isOk) : ∃ a, x.run s = (.ok a, s) := by
  have hs := hx s
  rcases hrun : x.run s with ⟨e | a, t⟩
  · rw [hrun] at h
    cases h
  · rw [hrun] at hs
    cases hs
    exact ⟨a, rfl⟩

theorem careful : Careful x := by
  intro s t e h
  have := hx s
  rw [h] at this
  exact this

theorem bind_state {P : σ → Prop} (hs : P s) (hf : ∀ a, x.run s = (.ok a, s) → P ((f a).run s).2) :
    P ((x >>= f).run s).2 := by
  refine hx.careful.bind_state hs fun a t hrun => ?_
  cases hx.run_of_ok hrun
  exact hf a hrun

theorem bind (hf : ∀ a, Silent (f a)) : Silent (x >>= f) := fun s =>
  hx.bind_state (P := (· = s)) rfl fun a _ => hf a s

/-- What goes before has left the state as it was. -/
theorem bind_careful (hf : ∀ a, Careful (f a)) : Careful (x >>= f) := by
  intro s t e h
  rcases hrun : x.run s with ⟨e' | a, u⟩
  · rw [bind_of_error hrun] at h
    cases h
    exact hx.careful hrun
  · cases hx.run_of_ok hrun
    rw [bind_of_ok hrun] at h
    exact hf a h

end Silent

theorem run_silent_bind_eq_ok (hx : Silent x) {t : σ} {b : β} :
    (x >>= f).run s = (.ok b, t) ↔ ∃ a, x.run s = (.ok a, s) ∧ (f a).run s = (.ok b, t) := by
  rw [run_bind_eq_ok]
  constructor
  · rintro ⟨a, s', hrun, hf⟩
    cases hx.run_of_ok hrun
    exact ⟨a, hrun, hf⟩
  · rintro ⟨a, hrun, hf⟩
    exact ⟨a, s, hrun, hf⟩

end Silent

end Krb5.Lib
