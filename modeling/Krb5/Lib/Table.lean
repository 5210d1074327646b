import Mathlib.Data.List.AList

/-!
# Counted tables

A table has finitely many keys with a value each. `count p` is the number of values that
satisfy `p`; an insertion and a removal change it by what was there and what is there
afterwards.
-/

namespace Krb5.Lib

open List

abbrev Table (κ α : Type) := AList fun _ : κ => α

namespace Table

variable {κ α : Type} [DecidableEq κ] (p : α → Bool) (t : Table κ α) (k : κ)

/-- The number of values with the property. -/
def count (p : α → Bool) (t : Table κ α) : Nat := t.entries.countP fun e => p e.2

/-- One for a value with the property, none for one without or for no value. -/
def weight (p : α → Bool) (v : Option α) : Nat := v.elim 0 fun v => (p v).toNat

@[simp] theorem weight_some (v : α) : weight p (some v) = (p v).toNat := rfl

theorem countP_kerase (l : List (Sigma fun _ : κ => α)) :
    (l.kerase k).countP (fun e => p e.2) + weight p (l.dlookup k) =
      l.countP fun e => p e.2 := by
  induction l with
  | nil => rfl
  | cons e l ih =>
    obtain ⟨k', v⟩ := e
    by_cases hk : k' = k
    · subst hk
      have herase : kerase k' (⟨k', v⟩ :: l) = l := kerase_cons_eq rfl
      rw [herase, dlookup_cons_eq, countP_cons, weight_some]
      cases p v <;> rfl
    · have herase : kerase k (⟨k', v⟩ :: l) = ⟨k', v⟩ :: l.kerase k :=
        kerase_cons_ne (Ne.symm hk)
      have hlook := dlookup_cons_ne l ⟨k', v⟩ (Ne.symm hk)
      rw [herase, hlook, countP_cons, countP_cons]
      omega

theorem count_erase : count p (t.erase k) + weight p (t.lookup k) = count p t :=
  countP_kerase p k t.entries

theorem count_insert (v : α) :
    count p (t.insert k v) + weight p (t.lookup k) = count p t + (p v).toNat := by
  have herase := count_erase p t k
  have hinsert : count p (t.insert k v) = count p (t.erase k) + (p v).toNat := by
    rw [count, AList.entries_insert, countP_cons]
    cases p v <;> rfl
  omega

end Table

end Krb5.Lib
