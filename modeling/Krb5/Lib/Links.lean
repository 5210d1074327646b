import Krb5.Lib.Action
import Mathlib.Data.List.Nodup

/-!
# Singly linked lists

Cells with a pointer to the next one, and a root from which they are reached. A cell that is not
allocated cannot be read or written. `Holds` says which list the cells make up; the lemmas say
what becomes of it when a cell is unlinked and freed, changed or put in front.
-/

namespace Krb5.Lib

open List

variable {α : Type}

structure Cell (α : Type) where
  next : Option Nat
  val : α

/-- The root of a list, and the cells by their addresses. -/
structure Links (α : Type) where
  root : Option Nat
  cells : Nat → Option (Cell α)

/-- A cell is used that is not allocated. -/
inductive Dangling
  | mk
deriving DecidableEq, Repr

namespace Links

abbrev Access (α : Type) := Action (Links α) Dangling

def empty : Links α := ⟨none, fun _ => none⟩

def setCell (s : Links α) (a : Nat) (cell : Option (Cell α)) : Links α :=
  { s with cells := fun b => if b = a then cell else s.cells b }

def load (a : Nat) : Access α (Cell α) where
  run s :=
    match s.cells a with
    | some cell => (.ok cell, s)
    | none => (.error .mk, s)

def modifyVal (a : Nat) (f : α → α) : Access α Unit where
  run s :=
    match s.cells a with
    | some cell => (.ok (), s.setCell a (some ⟨cell.next, f cell.val⟩))
    | none => (.error .mk, s)

/-- `p->next`, where no address stands for that of the root. -/
def next (last : Option Nat) : Access α (Option Nat) where
  run s :=
    match last with
    | none => (.ok s.root, s)
    | some a =>
      match s.cells a with
      | some cell => (.ok cell.next, s)
      | none => (.error .mk, s)

def setNext (last q : Option Nat) : Access α Unit where
  run s :=
    match last with
    | none => (.ok (), { s with root := q })
    | some a =>
      match s.cells a with
      | some cell => (.ok (), s.setCell a (some ⟨q, cell.val⟩))
      | none => (.error .mk, s)

def free (a : Nat) : Access α Unit where
  run s :=
    match s.cells a with
    | some _ => (.ok (), s.setCell a none)
    | none => (.error .mk, s)

/-- A cell at `a`, which has been allocated for it, comes in front. -/
def push (a : Nat) (val : α) (s : Links α) : Links α :=
  { s.setCell a (some ⟨s.root, val⟩) with root := some a }

/-! ## The list -/

def headAddr (l : List (Nat × α)) : Option Nat := l.head?.map Prod.fst

def lastAddr (l : List (Nat × α)) : Option Nat := l.getLast?.map Prod.fst

/-- The cells from the root on are those of `l`, in this order. -/
structure Holds (s : Links α) (l : List (Nat × α)) : Prop where
  root : s.root = headAddr l
  cell : ∀ {pre a v post}, l = pre ++ (a, v) :: post → s.cells a = some ⟨headAddr post, v⟩
  nodup : (l.map Prod.fst).Nodup

theorem holds_empty : Holds (empty : Links α) [] where
  root := rfl
  cell h := by simp at h
  nodup := nodup_nil

variable {s : Links α} {pre post : List (Nat × α)} {a : Nat} {v : α}

@[simp] theorem headAddr_cons (c : Nat × α) (l : List (Nat × α)) : headAddr (c :: l) = some c.1 := rfl

theorem lastAddr_append_singleton (l : List (Nat × α)) (c : Nat × α) : lastAddr (l ++ [c]) = some c.1 := by
  rw [lastAddr, getLast?_concat, Option.map_some]

namespace Holds

theorem run_next (h : Holds s (pre ++ post)) : (next (lastAddr pre)).run s = (.ok (headAddr post), s) := by
  obtain rfl | ⟨pre', c, rfl⟩ := eq_nil_or_concat' pre
  · simp [next, lastAddr, h.root]
  · rw [append_assoc] at h
    rw [lastAddr_append_singleton]
    simp [next, h.cell (rfl : _ = pre' ++ (c.1, c.2) :: post)]

section

variable (h : Holds s (pre ++ (a, v) :: post))
include h

theorem run_load : (load a).run s = (.ok ⟨headAddr post, v⟩, s) := by
  simp [load, h.cell rfl]

theorem ne_of_mem {c : Nat × α} (hc : c ∈ pre ∨ c ∈ post) : c.1 ≠ a := by
  have hnodup := h.nodup
  rw [map_append] at hnodup
  obtain ⟨-, hpost, hdisj⟩ := nodup_append.mp hnodup
  obtain hc | hc := hc
  · exact hdisj c.1 (mem_map_of_mem hc) a mem_cons_self
  · rintro rfl
    exact (nodup_cons.mp hpost).1 (mem_map.mpr ⟨c, hc, rfl⟩)

/-- A cell is changed in its place. -/
theorem run_modifyVal (f : α → α) :
    ∃ s', (modifyVal a f).run s = (.ok (), s') ∧ Holds s' (pre ++ (a, f v) :: post) := by
  refine ⟨s.setCell a (some ⟨headAddr post, f v⟩), by simp [modifyVal, h.cell rfl], ?_, ?_, ?_⟩
  · rw [setCell, h.root]
    cases pre <;> rfl
  · intro pre' b w post' hsplit
    rw [setCell]
    dsimp only
    obtain ⟨mid, rfl, hrest⟩ | ⟨mid, rfl, hrest⟩ := append_eq_append_iff.mp hsplit
    · cases mid with
      | nil =>
        cases hrest
        exact if_pos rfl
      | cons c mid =>
        cases hrest
        rw [if_neg (h.ne_of_mem (.inr (mem_append_right mid mem_cons_self)))]
        have hold : pre ++ (a, v) :: (mid ++ (b, w) :: post') = (pre ++ (a, v) :: mid) ++ (b, w) :: post' := by
          simp
        exact h.cell hold
    · cases mid with
      | nil =>
        cases hrest
        exact if_pos rfl
      | cons c mid =>
        cases hrest
        rw [if_neg (h.ne_of_mem (.inl (mem_append_right pre' mem_cons_self)))]
        rw [h.cell (append_assoc pre' _ _)]
        cases mid <;> rfl
  · have hnodup := h.nodup
    rw [map_append] at hnodup ⊢
    exact hnodup

/-- When the cell behind `pre` is left out, the last cell of `pre` is the only other one with
another cell behind it. -/
theorem unlink_cases {c : Nat} {x : α} {pre' post' : List (Nat × α)}
    (hsplit : pre ++ post = pre' ++ (c, x) :: post') :
    c ≠ a ∧ (pre = pre' ++ [(c, x)] ∧ post' = post ∨
      lastAddr pre ≠ some c ∧ s.cells c = some ⟨headAddr post', x⟩) := by
  have hne {d : Nat × α} (hd : d ∈ pre ++ post) : d.1 ≠ a := h.ne_of_mem (mem_append.mp hd)
  refine ⟨hne (hsplit ▸ mem_append_right pre' mem_cons_self), ?_⟩
  have hbehind (mid : List (Nat × α)) (hpost : post = mid ++ (c, x) :: post') :
      lastAddr pre ≠ some c ∧ s.cells c = some ⟨headAddr post', x⟩ := by
    have hold : pre ++ (a, v) :: post = (pre ++ (a, v) :: mid) ++ (c, x) :: post' := by simp [hpost]
    refine ⟨fun hlast => ?_, h.cell hold⟩
    obtain ⟨d, hd, hdc⟩ := Option.map_eq_some_iff.mp hlast
    rw [hold] at h
    exact h.ne_of_mem (.inl (mem_append_left _ (mem_of_getLast? hd))) hdc
  obtain ⟨mid, rfl, hpost⟩ | ⟨mid, rfl, hrest⟩ := append_eq_append_iff.mp hsplit
  · exact .inr (hbehind mid hpost)
  cases mid with
  | nil => exact .inr (hbehind [] hrest.symm)
  | cons d mid =>
    cases hrest
    have hold : pre' ++ (c, x) :: mid ++ (a, v) :: post =
        pre' ++ (c, x) :: (mid ++ (a, v) :: post) := by simp
    rw [hold] at h
    obtain rfl | ⟨mid', d, rfl⟩ := eq_nil_or_concat' mid
    · exact .inl ⟨rfl, rfl⟩
    refine .inr ⟨fun hlast => ?_, ?_⟩
    · rw [← cons_append, ← append_assoc, lastAddr_append_singleton] at hlast
      exact h.ne_of_mem (.inr (by simp)) (Option.some.inj hlast)
    · rw [h.cell rfl]
      cases mid' <;> rfl

/-- A cell is taken out: the link to it is set past it first. -/
theorem run_unlink :
    ∃ s' s'', (setNext (lastAddr pre) (headAddr post)).run s = (.ok (), s') ∧
      (free a).run s' = (.ok (), s'') ∧ Holds s'' (pre ++ post) := by
  have hnodup : ((pre ++ post).map Prod.fst).Nodup :=
    h.nodup.sublist (((sublist_cons_self _ post).append_left pre).map Prod.fst)
  have hcell := h.cell rfl
  obtain rfl | ⟨pre', ⟨b, w⟩, rfl⟩ := eq_nil_or_concat' pre
  · refine ⟨{ s with root := headAddr post }, ({ s with root := headAddr post } : Links α).setCell a none,
      rfl, by simp [free, hcell], rfl, ?_, hnodup⟩
    intro pre' c x post' hsplit
    obtain ⟨hca, ⟨hnil, -⟩ | ⟨-, hc⟩⟩ := h.unlink_cases hsplit
    · exact absurd hnil.symm (by simp)
    · exact (if_neg hca).trans hc
  have hlast : s.cells b = some ⟨some a, w⟩ := by
    rw [append_assoc] at h
    exact h.cell rfl
  have hab : a ≠ b := fun hab => (h.ne_of_mem (.inl (mem_append_right pre' mem_cons_self))) hab.symm
  refine ⟨s.setCell b (some ⟨headAddr post, w⟩), (s.setCell b (some ⟨headAddr post, w⟩)).setCell a none,
    ?_, ?_, ?_, ?_, hnodup⟩
  · rw [lastAddr_append_singleton]
    simp [setNext, hlast]
  · simp [free, setCell, if_neg hab, hcell]
  · show s.root = _
    rw [h.root]
    cases pre' <;> rfl
  · intro pre'' c x post' hsplit
    obtain ⟨hca, ⟨hpre, rfl⟩ | ⟨hnot, hc⟩⟩ := h.unlink_cases hsplit
    · obtain ⟨-, hbw⟩ := append_inj' hpre rfl
      cases hbw
      simp [setCell, if_neg hca]
    · have hcb : c ≠ b := by
        rintro rfl
        exact hnot (lastAddr_append_singleton _ _)
      simp [setCell, if_neg hca, if_neg hcb, hc]

end

/-- A new cell in front. -/
theorem push {l : List (Nat × α)} (h : Holds s l) (hfree : s.cells a = none) (v : α) :
    Holds (s.push a v) ((a, v) :: l) := by
  have hne {pre' : List (Nat × α)} {b : Nat} {w : α} {post' : List (Nat × α)}
      (hsplit : l = pre' ++ (b, w) :: post') : b ≠ a := by
    rintro rfl
    rw [h.cell hsplit] at hfree
    cases hfree
  refine ⟨rfl, ?_, ?_⟩
  · intro pre' b w post' hsplit
    rw [Links.push, setCell]
    dsimp only
    cases pre' with
    | nil =>
      cases hsplit
      rw [if_pos rfl, h.root]
    | cons c pre' =>
      cases hsplit
      rw [if_neg (hne rfl)]
      exact h.cell rfl
  · rw [map_cons, nodup_cons]
    refine ⟨fun hmem => ?_, h.nodup⟩
    obtain ⟨c, hc, hca⟩ := mem_map.mp hmem
    obtain ⟨pre', post', hsplit⟩ := append_of_mem hc
    exact hne hsplit hca

end Holds

end Links

end Krb5.Lib
