import Mathlib.Data.List.Infix
import Mathlib.Logic.Relation

/-!
# Numbered streams

A sender numbers what it sends, counting modulo `n`. The receiver may be
presented with it in any order, any number of times; it accepts what carries the
number of things it has accepted so far. While fewer than `n` things are sent,
what was accepted is the start of what was sent.
-/

namespace Krb5.Lib

variable {α : Type*}

/-- What was sent, and what was accepted. -/
structure Stream (α : Type*) where
  sent : List α
  accepted : List α

namespace Stream

/-- A thing is sent, one that was sent is accepted, or something else happens. -/
inductive Step (n : Nat) (s : Stream α) : Stream α → Prop
  | send (a : α) : Step n s ⟨s.sent ++ [a], s.accepted⟩
  | accept {i : Nat} {a : α} : s.sent[i]? = some a → i % n = s.accepted.length % n →
      Step n s ⟨s.sent, s.accepted ++ [a]⟩
  | idle : Step n s s

theorem isPrefix_concat {xs ys : List α} {a : α} (h : xs <+: ys) (ha : ys[xs.length]? = some a) :
    xs ++ [a] <+: ys := by
  obtain ⟨rest, rfl⟩ := h
  rw [List.getElem?_append_right (le_refl _), Nat.sub_self] at ha
  cases rest with
  | nil => cases ha
  | cons b rest =>
    cases ha
    exact ⟨rest, by simp⟩

variable {n : Nat}

theorem Step.isPrefix_accepted {s t : Stream α} (hstep : Step n s t) (hsent : t.sent.length < n)
    (h : s.accepted <+: s.sent) : t.accepted <+: t.sent := by
  cases hstep with
  | send a => exact h.trans (List.prefix_append _ _)
  | accept hi hmod =>
    -- Both numbers are below `n`, so they are the same.
    have hlt : _ < s.sent.length := (List.getElem?_eq_some_iff.mp hi).1
    have hle := h.length_le
    rw [Nat.mod_eq_of_lt (hlt.trans hsent), Nat.mod_eq_of_lt (hle.trans_lt hsent)] at hmod
    exact isPrefix_concat h (hmod ▸ hi)
  | idle => exact h

theorem Step.length_sent_le {s t : Stream α} (hstep : Step n s t) :
    s.sent.length ≤ t.sent.length := by
  cases hstep <;> simp

/-- What was accepted in a run is the start of what was sent. -/
theorem accepted_isPrefix_sent {s : Stream α} (hrun : Relation.ReflTransGen (Step n) ⟨[], []⟩ s)
    (hsent : s.sent.length < n) : s.accepted <+: s.sent := by
  induction hrun with
  | refl => exact List.prefix_rfl
  | tail _ hstep ih =>
    exact hstep.isPrefix_accepted hsent (ih (hstep.length_sent_le.trans_lt hsent))

end Stream

end Krb5.Lib
