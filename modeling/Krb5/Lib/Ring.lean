import Mathlib.Data.BitVec

/-!
# Circular buffers

A ring of `n` slots of which `length` are in use, from slot `start` on and round
the end. An insertion behind one of the elements moves those behind it up by a
slot; in a full ring this goes over the first one, and the ring then starts with
the second.
-/

namespace Krb5.Lib

open List

variable {i j : Nat}

/-- A ring with at least one element in it. -/
structure Ring (n : Nat) (α : Type) where
  elem : Fin n → α
  start : Fin n
  length : Nat
  length_pos : 0 < length
  length_le : length ≤ n

namespace Ring

variable {n : Nat} [NeZero n] {α : Type}

/-- The slot with that number, counted round the ring. -/
def slot (i : Nat) : Fin n := Fin.ofNat n i

def get (r : Ring n α) (i : Nat) : α := r.elem (slot i)

def toList (r : Ring n α) : List α := (List.range r.length).map fun i => r.get (r.start + i)

def last (r : Ring n α) : α := r.get (r.start + r.length - 1)

/-- `count` elements behind number `after` moved up, the last of them first. -/
def moveUp (elem : Fin n → α) (after : Nat) : Nat → Fin n → α
  | 0 => elem
  | count + 1 =>
    moveUp (Function.update elem (slot (after + count + 2)) (elem (slot (after + count + 1))))
      after count

/-- An element inserted behind the one with number `after`. -/
def insert (r : Ring n α) (after : Nat) (a : α) : Ring n α where
  elem := Function.update (moveUp r.elem after (r.start + r.length - 1 - after)) (slot (after + 1)) a
  start := if r.length = n then slot (r.start + 1) else r.start
  length := if r.length = n then r.length else r.length + 1
  length_pos := by
    have := r.length_pos
    split <;> omega
  length_le := by
    have := r.length_le
    split <;> omega

/-- The list, without its first element if it is longer than `n`. -/
def atMost (n : Nat) (l : List α) : List α := if l.length ≤ n then l else l.tail

theorem slot_congr (h : i % n = j % n) : (slot i : Fin n) = slot j := Fin.ext h

theorem slot_ne (hlt : i < j) (hround : j < i + n) : (slot i : Fin n) ≠ slot j := by
  intro h
  have hmod : j % n = i % n := (congrArg Fin.val h).symm
  have hzero := Nat.sub_mod_eq_zero_of_mod_eq hmod
  rw [Nat.mod_eq_of_lt (by omega)] at hzero
  omega

theorem moveUp_of_ne (elem : Fin n → α) {after count : Nat} {s : Fin n}
    (h : ∀ j < count, s ≠ slot (after + 2 + j)) : moveUp elem after count s = elem s := by
  induction count generalizing elem with
  | zero => rfl
  | succ count ih =>
    rw [moveUp, ih _ fun j hj => h j (by omega), Function.update_of_ne]
    rw [show after + count + 2 = after + 2 + count by omega]
    exact h count (Nat.lt_succ_self _)

theorem moveUp_slot (elem : Fin n → α) {after count : Nat} (hcnt : count < n)
    (hj : j < count) : moveUp elem after count (slot (after + 2 + j)) = elem (slot (after + 1 + j)) := by
  induction count generalizing elem with
  | zero => omega
  | succ count ih =>
    rw [moveUp, show after + count + 2 = after + 2 + count by omega,
      show after + count + 1 = after + 1 + count by omega]
    rcases Nat.lt_or_eq_of_le (Nat.le_of_lt_succ hj) with hlt | rfl
    · rw [ih _ (by omega) hlt, Function.update_of_ne (slot_ne (by omega) (by omega))]
    · rw [moveUp_of_ne _ fun i hi => (slot_ne (by omega) (by omega)).symm, Function.update_self]

/-! ## Insertion -/

section Insert

variable (r : Ring n α) {k : Nat} (a : α)

theorem insert_below (hk : k < r.length) (hi : i ≤ k) (hkept : 0 < i ∨ r.length < n) :
    (r.insert (r.start + k) a).elem (slot (r.start + i)) = r.get (r.start + i) := by
  have := r.length_le
  simp only [insert]
  rw [Function.update_of_ne (slot_ne (by omega) (by omega)),
    moveUp_of_ne _ fun j hj => slot_ne (by omega) (by omega), get]

theorem insert_at : (r.insert (r.start + k) a).elem (slot (r.start + (k + 1))) = a := by
  simp [insert, Nat.add_assoc]

theorem insert_above (hk : k + 1 < i) (hi : i ≤ r.length) :
    (r.insert (r.start + k) a).elem (slot (r.start + i)) = r.get (r.start + (i - 1)) := by
  have := r.length_le
  obtain ⟨j, rfl⟩ := Nat.exists_eq_add_of_lt hk
  simp only [insert]
  rw [Function.update_of_ne (slot_ne (by omega) (by omega)).symm,
    show (r.start : Nat) + (k + 1 + j + 1) = r.start + k + 2 + j by omega,
    moveUp_slot _ (by omega) (by omega)]
  congr 2
  omega

theorem getElem?_toList :
    r.toList[i]? = if i < r.length then some (r.get (r.start + i)) else none := by
  simp only [toList, getElem?_map]
  split
  · rename_i hlt
    rw [getElem?_range hlt, Option.map_some]
  · rename_i hge
    rw [getElem?_eq_none (by simpa using hge), Option.map_none]

@[simp] theorem length_toList : r.toList.length = r.length := by simp [toList]

theorem getElem?_insert_list {l : List α} (hk : k < l.length) (i : Nat) :
    (l.take (k + 1) ++ a :: l.drop (k + 1))[i]? =
      if i ≤ k then l[i]? else if i = k + 1 then some a else l[i - 1]? := by
  have hlen : (l.take (k + 1)).length = k + 1 := by
    rw [length_take]
    omega
  split
  · rw [getElem?_append_left (by omega), getElem?_take, if_pos (by omega)]
  rw [getElem?_append_right (by omega), hlen]
  split
  · rw [show i - (k + 1) = 0 by omega, getElem?_cons_zero]
  · rw [show i - (k + 1) = i - 1 - (k + 1) + 1 by omega, getElem?_cons_succ, getElem?_drop]
    congr 1
    omega

/-- The inserted list, read from the array. -/
private theorem getElem?_inserted (hk : k < r.length) (hkept : 0 < i ∨ r.length < n) :
    (r.toList.take (k + 1) ++ a :: r.toList.drop (k + 1))[i]? =
      if i < r.length + 1 then some ((r.insert (r.start + k) a).elem (slot (r.start + i)))
      else none := by
  rw [getElem?_insert_list a (by rwa [length_toList]), getElem?_toList, getElem?_toList]
  rcases Nat.lt_trichotomy i (k + 1) with hi | rfl | hi
  · rw [if_pos (by omega), if_pos (by omega), if_pos (by omega),
      r.insert_below a hk (by omega) hkept]
  · rw [if_neg (by omega), if_pos rfl, if_pos (by omega), insert_at]
  · rw [if_neg (show ¬i ≤ k by omega), if_neg (show ¬i = k + 1 by omega)]
    by_cases hin : i < r.length + 1
    · rw [if_pos (by omega), if_pos hin, r.insert_above a hi (by omega)]
    · rw [if_neg (by omega), if_neg hin]

private theorem toList_insert_of_lt (hk : k < r.length) (hroom : r.length < n) :
    (r.insert (r.start + k) a).toList = r.toList.take (k + 1) ++ a :: r.toList.drop (k + 1) := by
  refine ext_getElem? fun i => ?_
  have hlen : (r.insert (r.start + k) a).length = r.length + 1 := if_neg (Nat.ne_of_lt hroom)
  have hstart : (r.insert (r.start + k) a).start = r.start := if_neg (Nat.ne_of_lt hroom)
  rw [r.getElem?_inserted a hk (.inr hroom), getElem?_toList, hlen, hstart, get]

private theorem toList_insert_of_eq (hk : k < r.length) (hfull : r.length = n) :
    (r.insert (r.start + k) a).toList =
      (r.toList.take (k + 1) ++ a :: r.toList.drop (k + 1)).tail := by
  refine ext_getElem? fun i => ?_
  have hlen : (r.insert (r.start + k) a).length = r.length := if_pos hfull
  have hstart : (r.insert (r.start + k) a).start = slot (r.start + 1) := if_pos hfull
  -- the new start is one further on, up to a round
  have hslot : (slot ((slot (r.start + 1) : Fin n) + i) : Fin n) = slot (r.start + (i + 1)) := by
    refine slot_congr ?_
    show ((r.start + 1) % n + i) % n = _
    rw [Nat.mod_add_mod]
    congr 1
    omega
  rw [getElem?_tail, r.getElem?_inserted a hk (.inl (by omega)), getElem?_toList, hlen, hstart, get,
    hslot]
  simp only [Nat.add_lt_add_iff_right]

theorem toList_insert (hk : k < r.length) :
    (r.insert (r.start + k) a).toList =
      atMost n (r.toList.take (k + 1) ++ a :: r.toList.drop (k + 1)) := by
  have hlen : (r.toList.take (k + 1) ++ a :: r.toList.drop (k + 1)).length = r.length + 1 := by
    simp only [length_append, length_take, length_cons, length_drop, length_toList]
    omega
  rw [atMost]
  rcases Nat.lt_or_eq_of_le r.length_le with hroom | hfull
  · rw [if_pos (by omega), r.toList_insert_of_lt a hk hroom]
  · rw [if_neg (by omega), r.toList_insert_of_eq a hk hfull]

end Insert

theorem getLast?_atMost_concat (l : List α) (a : α) : (atMost n (l ++ [a])).getLast? = some a := by
  have hpos := Nat.pos_of_ne_zero (NeZero.ne n)
  unfold atMost
  split
  · exact getLast?_concat
  · rename_i hlong
    rw [length_append, length_singleton] at hlong
    rw [tail_append_of_ne_nil (ne_nil_of_length_pos (by omega)), getLast?_concat]

theorem getLast?_toList (r : Ring n α) : r.toList.getLast? = some r.last := by
  have := r.length_pos
  rw [getLast?_eq_getElem?, getElem?_toList, length_toList, if_pos (by omega)]
  congr 2
  omega

end Ring

end Krb5.Lib
