import Mathlib.Tactic.TypeStar

/-!
# Runs of a labelled transition relation

A run is a start state, the events taken and the state they lead to. Events are
appended at the end, so that an induction over a run sees the last step.
-/

namespace Krb5.Lib

variable {σ ε : Type*}

/-- `Run step s es t`: the events `es` lead from `s` to `t`. -/
inductive Run (step : σ → ε → σ → Prop) (s : σ) : List ε → σ → Prop
  | nil : Run step s [] s
  | snoc {es : List ε} {t u : σ} {e : ε} : Run step s es t → step t e u → Run step s (es ++ [e]) u

variable {step : σ → ε → σ → Prop} {s t : σ} {es : List ε}

/-- A relation between the events so far and the state reached holds after
every run when it holds at the start and every step keeps it. -/
theorem Run.history (R : List ε → σ → Prop) (h0 : R [] s)
    (hstep : ∀ es t e u, R es t → step t e u → R (es ++ [e]) u) (hrun : Run step s es t) :
    R es t := by
  induction hrun with
  | nil => exact h0
  | snoc _ hlast ih => exact hstep _ _ _ _ ih hlast

/-- The same where each event of the run has a property. -/
theorem Run.history_of_forall {P : ε → Prop} (R : List ε → σ → Prop) (h0 : R [] s)
    (hstep : ∀ es t e u, R es t → step t e u → P e → R (es ++ [e]) u) (hrun : Run step s es t)
    (hall : ∀ e ∈ es, P e) : R es t := by
  induction hrun with
  | nil => exact h0
  | snoc _ hlast ih =>
    rw [List.forall_mem_append, List.forall_mem_singleton] at hall
    exact hstep _ _ _ _ (ih hall.1) hlast hall.2

theorem Run.cons {u : σ} {e : ε} (h : step s e t) (hrun : Run step t es u) :
    Run step s (e :: es) u := by
  induction hrun with
  | nil => exact Run.nil.snoc h
  | snoc _ hlast ih => exact ih.snoc hlast

/-- The run of a deterministic program on given inputs: its events and the state
it ends in. -/
def trace {ι : Type*} (exec : ι → σ → ε × σ) : List ι → σ → List ε × σ
  | [], s => ([], s)
  | i :: is, s =>
    let (es, t) := trace exec is (exec i s).2
    ((exec i s).1 :: es, t)

/-- It is a run if its events are such that they are steps. -/
theorem run_trace {ι : Type*} {exec : ι → σ → ε × σ} {P : ε → Prop}
    (hstep : ∀ i s, P (exec i s).1 → step s (exec i s).1 (exec i s).2) (is : List ι)
    (hall : ∀ e ∈ (trace exec is s).1, P e) :
    Run step s (trace exec is s).1 (trace exec is s).2 := by
  induction is generalizing s with
  | nil => exact Run.nil
  | cons i is ih =>
    simp only [trace, List.mem_cons, forall_eq_or_imp] at hall
    exact (ih hall.2).cons (hstep i s hall.1)

end Krb5.Lib
