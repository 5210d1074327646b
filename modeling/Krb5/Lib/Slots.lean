import Mathlib.Data.List.DropRight
import Mathlib.Data.List.ReduceOption
import Mathlib.Tactic.Basic

/-!
# Slots that are filled round and round

An array that grows by one slot at a time up to a limit, which is given with each insertion.
Elements go into the slot `next`, which returns to the first one at the limit.

In the order that starts with the slot `next` the elements are met from the oldest to the newest.
An insertion takes the first slot of this order and puts it at the end (`toList_push`), unless
`next` returns while there are elements beyond the limit.
-/

namespace Krb5.Lib

open List

/-- The slots, of which some may be free, and the one that is filled next. -/
structure Slots (α : Type) where
  slots : List (Option α)
  next : Nat

namespace Slots

variable {α : Type} {s s' : Slots α} {limit : Nat} {x : α} {l : List α}

def empty : Slots α := ⟨[], 0⟩

/-- Up to the limit there is a new slot for each insertion. -/
def grown (limit : Nat) (s : Slots α) : List (Option α) :=
  if s.slots.length < limit then s.slots ++ [none] else s.slots

/-- An element is put into the next slot; there may be no such slot. -/
def push (limit : Nat) (x : α) (s : Slots α) : Option (Slots α) :=
  if s.next < (s.grown limit).length then
    some ⟨(s.grown limit).set s.next (some x), if s.next + 1 = limit then 0 else s.next + 1⟩
  else none

/-- The slots from the next one on. -/
def order (slots : List (Option α)) (next : Nat) : List (Option α) :=
  slots.drop next ++ slots.take next

/-- The elements from the oldest to the newest. -/
def toList (s : Slots α) : List α := (order s.slots s.next).reduceOption

def oldest (s : Slots α) : Option α := (s.slots[s.next]?).join

/-- Nothing is stored in the slots from the limit on. -/
def FreeFrom (limit : Nat) (s : Slots α) : Prop := (s.slots.drop limit).reduceOption = []

theorem length_grown (limit : Nat) (s : Slots α) : (s.grown limit).length =
    if s.slots.length < limit then s.slots.length + 1 else s.slots.length := by
  rw [grown]
  split
  · rw [length_append, length_singleton]
  · rfl

theorem push_eq_some : s.push limit x = some s' ↔ s.next < (s.grown limit).length ∧
    s' = ⟨(s.grown limit).set s.next (some x), if s.next + 1 = limit then 0 else s.next + 1⟩ := by
  rw [push]
  split
  · rename_i h
    exact ⟨fun heq => ⟨h, (Option.some.inj heq).symm⟩, fun heq => congrArg some heq.2.symm⟩
  · rename_i h
    exact ⟨fun heq => (nomatch heq), fun heq => absurd heq.1 h⟩

theorem length_push_le (h : s.push limit x = some s') :
    s'.slots.length ≤ max s.slots.length limit := by
  obtain ⟨-, rfl⟩ := push_eq_some.mp h
  rw [length_set, length_grown]
  split <;> omega

theorem reduceOption_order_grown (hnext : s.next ≤ s.slots.length) :
    (order (s.grown limit) s.next).reduceOption = s.toList := by
  rw [grown]
  split
  · rw [order, drop_append_of_le_length hnext, take_append_of_le_length hnext, toList, order]
    simp only [reduceOption_append, append_assoc]
    rfl
  · rfl

theorem order_eq_cons {slots : List (Option α)} {next : Nat} (h : next < slots.length) :
    order slots next = slots[next] :: (slots.drop (next + 1) ++ slots.take next) := by
  rw [order, drop_eq_getElem_cons h, cons_append]

theorem getElem_grown (h : s.next < (s.grown limit).length) (hnext : s.next ≤ s.slots.length) :
    (s.grown limit)[s.next] = s.oldest := by
  rw [oldest]
  rcases Nat.lt_or_eq_of_le hnext with hlt | heq
  · rw [getElem?_eq_getElem hlt]
    simp only [grown] at h ⊢
    split
    · exact getElem_append_left hlt
    · rfl
  · have hnone : s.slots[s.next]? = none := getElem?_eq_none (Nat.le_of_eq heq.symm)
    rw [hnone]
    simp only [grown] at h ⊢
    split at h
    · rename_i hlim
      simp only [if_pos hlim, heq]
      exact getElem_concat_length rfl _
    · omega

theorem FreeFrom.grown (h : s.FreeFrom limit) : ((s.grown limit).drop limit).reduceOption = [] := by
  rw [Slots.grown]
  split
  · rename_i hlt
    rw [drop_eq_nil_of_le]
    · rfl
    · rw [length_append]
      exact hlt
  · exact h

/-- A full ring loses the oldest value for the new one. -/
theorem toList_push (h : s.push limit x = some s') (hnext : s.next ≤ s.slots.length)
    (hfree : s.next + 1 = limit → s.FreeFrom limit) :
    ∃ rest, s.toList = s.oldest.toList ++ rest ∧ s'.toList = rest ++ [x] := by
  obtain ⟨hlt, rfl⟩ := push_eq_some.mp h
  have hset : (s.grown limit).set s.next (some x) =
      (s.grown limit).take s.next ++ some x :: (s.grown limit).drop (s.next + 1) := by
    rw [set_eq_take_append_cons_drop, if_pos hlt]
  have hlen := length_take_of_le hlt.le
  refine ⟨((s.grown limit).drop (s.next + 1) ++ (s.grown limit).take s.next).reduceOption, ?_, ?_⟩
  · rw [← reduceOption_order_grown hnext, order_eq_cons hlt, getElem_grown hlt hnext]
    cases s.oldest <;> rfl
  show (order ((s.grown limit).set s.next (some x)) (if s.next + 1 = limit then 0 else
    s.next + 1)).reduceOption = _
  rw [hset, order]
  split
  · -- the next slot is the first one: what comes behind the new element is free
    rename_i hlim
    have hrest : ((s.grown limit).drop (s.next + 1)).reduceOption = [] := by
      rw [hlim]
      exact (hfree hlim).grown
    rw [drop_zero, take_zero, append_nil, reduceOption_append,
      reduceOption_cons_of_some, reduceOption_append, hrest, nil_append]
  · rw [drop_append, take_append, hlen, drop_eq_nil_of_le (by omega), take_of_length_le (by omega)]
    simp [reduceOption_append]

theorem mem_toList {a : α} : a ∈ s.toList ↔ some a ∈ s.slots := by
  rw [toList, reduceOption_mem_iff, order, mem_append, or_comm, ← mem_append, take_append_drop]

/-! ## One limit for all insertions -/

/-- The array after the insertions of `l`: as long as it grows, `next` is its end. -/
structure Filled (limit : Nat) (s : Slots α) (l : List α) : Prop where
  pos : s.next < limit
  growing : s.slots.length < limit → s.next = s.slots.length
  length_le : s.slots.length ≤ limit
  length_eq : s.toList.length = s.slots.length
  holds : s.toList = l.rtake limit

theorem filled_empty (h : 0 < limit) : Filled limit (empty : Slots α) [] :=
  ⟨h, fun _ => rfl, Nat.zero_le _, rfl, rtake_nil limit |>.symm⟩

theorem Filled.next_le (h : Filled limit s l) : s.next ≤ s.slots.length := by
  have := h.pos
  by_cases hlt : s.slots.length < limit
  · exact Nat.le_of_eq (h.growing hlt)
  · omega

theorem Filled.freeFrom (h : Filled limit s l) : s.FreeFrom limit := by
  rw [FreeFrom, drop_eq_nil_of_le h.length_le]
  rfl

theorem length_order (slots : List (Option α)) (next : Nat) : (order slots next).length = slots.length := by
  rw [order, length_append, length_drop, length_take]
  omega

theorem oldest_of_length_eq (h : s.toList.length = s.slots.length) (hlt : s.next < s.slots.length) :
    ∃ a, s.oldest = some a := by
  rw [← length_order s.slots s.next, toList, reduceOption_length_eq_iff, order_eq_cons hlt] at h
  obtain ⟨a, ha⟩ := Option.isSome_iff_exists.mp (h _ mem_cons_self)
  refine ⟨a, ?_⟩
  rw [oldest, getElem?_eq_getElem hlt, ha]
  rfl

theorem eq_map_reduceOption {l : List (Option α)} (h : ∀ o ∈ l, o.isSome) :
    l = l.reduceOption.map some := by
  induction l with
  | nil => rfl
  | cons o l ih =>
    obtain ⟨a, rfl⟩ := Option.isSome_iff_exists.mp (h o mem_cons_self)
    rw [reduceOption_cons_of_some, map_cons, ← ih fun o' ho' => h o' (mem_cons_of_mem _ ho')]

theorem order_eq_map (h : s.toList.length = s.slots.length) : order s.slots s.next = s.toList.map some := by
  rw [← length_order s.slots s.next, toList, reduceOption_length_eq_iff] at h
  exact eq_map_reduceOption h

theorem oldest_of_next_eq (h : s.next = s.slots.length) : s.oldest = none := by
  rw [oldest, getElem?_eq_none (Nat.le_of_eq h.symm)]
  rfl

theorem rtake_of_length_le {n : Nat} (h : l.length ≤ n) : l.rtake n = l := by
  rw [List.rtake, Nat.sub_eq_zero_of_le h, drop_zero]

/-- The slots hold the last values, as many as the limit allows. -/
theorem Filled.push (h : Filled limit s l) (x : α) :
    ∃ s', s.push limit x = some s' ∧ Filled limit s' (l ++ [x]) := by
  obtain ⟨m, rfl⟩ : ∃ m, limit = m + 1 := ⟨limit - 1, by have := h.pos; omega⟩
  have hslot : s.next < (s.grown (m + 1)).length := by
    have := h.pos
    have := h.next_le
    rw [length_grown]
    split <;> omega
  have hpush : s.push (m + 1) x = some _ := push_eq_some.mpr ⟨hslot, rfl⟩
  refine ⟨_, hpush, ?_⟩
  obtain ⟨rest, hold, hnew⟩ := toList_push hpush h.next_le fun _ => h.freeFrom
  have hlen : ((s.grown (m + 1)).set s.next (some x)).length = (s.grown (m + 1)).length :=
    length_set
  have hrtake := h.holds.symm.trans hold
  rw [length_grown] at hlen
  have hcnt := h.length_eq
  rw [hold, length_append] at hcnt
  rcases Nat.lt_or_eq_of_le h.length_le with hlt | hfull
  · -- the array grows, and nothing is lost
    have hnext := h.growing hlt
    rw [oldest_of_next_eq hnext] at hrtake hcnt
    rw [if_pos hlt] at hlen
    have hall : l.length ≤ m := by
      have := congrArg List.length hrtake
      rw [List.rtake, length_drop] at this
      simp only [Option.toList_none, nil_append] at this hcnt
      omega
    rw [rtake_of_length_le (by omega)] at hrtake
    refine ⟨?_, fun hlt' => ?_, ?_, ?_, ?_⟩
    · show (if s.next + 1 = m + 1 then 0 else s.next + 1) < m + 1
      split <;> omega
    · rw [hlen] at hlt' ⊢
      rw [if_neg (by omega), hnext]
    · rw [hlen]
      exact hlt
    · rw [hnew, hlen, ← hcnt]
      simp
    · rw [hnew, rtake_of_length_le (by simp; omega), hrtake]
      simp
  · -- the oldest element makes room
    obtain ⟨a, ha⟩ := oldest_of_length_eq h.length_eq (by rw [hfull]; exact h.pos)
    rw [ha] at hrtake hcnt
    rw [if_neg (by omega)] at hlen
    refine ⟨?_, fun hlt' => ?_, ?_, ?_, ?_⟩
    · show (if s.next + 1 = m + 1 then 0 else s.next + 1) < m + 1
      have := h.pos
      split <;> omega
    · rw [hlen] at hlt'
      omega
    · rw [hlen]
      exact h.length_le
    · rw [hnew, hlen, length_append, ← hcnt]
      exact Nat.add_comm _ _
    · have hrest : rest = l.rtake m := by
        have hm : l.length - (m + 1) + 1 = l.length - m := by
          have := congrArg List.length hrtake
          rw [List.rtake, length_drop, length_append] at this
          omega
        rw [List.rtake, ← hm, ← drop_drop, ← List.rtake, hrtake]
        rfl
      rw [hnew, rtake_concat_succ, hrest]

/-! ## Limits that change

Each element has the time of its insertion. While the elements are met in the order of their
times, the next slot is free or has the oldest of them. -/

section Times

variable {time : α → Nat} {now : Nat}

/-- The next slot is free or holds the oldest element. -/
def OldestNext (time : α → Nat) (s : Slots α) : Prop :=
  ∀ a, s.oldest = some a → ∀ b ∈ s.toList, time a ≤ time b

/-- An insertion under this limit leaves `next` inside the array, and it returns to the first
slot only where nothing is stored beyond the limit. -/
def Steady (limit : Nat) (s : Slots α) : Prop :=
  if s.next + 1 = limit then s.FreeFrom limit else s.next + 1 < (s.grown limit).length

/-- An array that has been filled in steady insertions. -/
structure Aged (time : α → Nat) (now : Nat) (s : Slots α) : Prop where
  inside : s.next < s.slots.length ∨ s.slots = [] ∧ s.next = 0
  sorted : s.toList.Pairwise (time · < time ·)
  past : ∀ a ∈ s.toList, time a < now
  first : ∀ o, s.slots[0]? = some o → o.isSome = true

theorem aged_empty : Aged time now (empty : Slots α) :=
  ⟨.inr ⟨rfl, rfl⟩, .nil, fun _ h => (nomatch h), fun _ h => (nomatch h)⟩

theorem Aged.next_le (h : Aged time now s) : s.next ≤ s.slots.length := by
  rcases h.inside with hlt | ⟨-, hzero⟩
  · exact hlt.le
  · rw [hzero]
    exact Nat.zero_le _

theorem oldestNext_of_sorted (h : s.toList.Pairwise (time · < time ·)) : OldestNext time s := by
  intro a ha b hb
  have hlt : s.next < s.slots.length := by
    by_contra hge
    rw [oldest, getElem?_eq_none (Nat.le_of_not_lt hge)] at ha
    cases ha
  rw [oldest, getElem?_eq_getElem hlt] at ha
  rw [toList, order_eq_cons hlt, show s.slots[s.next] = some a from ha] at h hb
  rcases mem_cons.mp hb with rfl | hb
  · exact Nat.le_refl _
  · exact (rel_of_pairwise_cons h hb).le

theorem Steady.slot (h : s.Steady limit) (hnext : s.next ≤ s.slots.length) :
    s.next < (s.grown limit).length := by
  rw [Steady] at h
  rw [length_grown] at h ⊢
  split at h
  · split <;> omega
  · omega

theorem Steady.next_lt (h : s.Steady limit) (hpush : s.push limit x = some s') :
    s'.next < s'.slots.length := by
  obtain ⟨hslot, rfl⟩ := push_eq_some.mp hpush
  rw [length_set]
  rw [Steady] at h
  split at h
  · rename_i hlim
    rw [if_pos hlim]
    exact Nat.zero_lt_of_lt hslot
  · rename_i hlim
    rw [if_neg hlim]
    exact h

/-- A steady insertion keeps the order of age. -/
theorem Aged.push (h : Aged time now s) (hsteady : s.Steady limit) (hpush : s.push limit x = some s')
    (hx : time x = now) : Aged time (now + 1) s' := by
  have hfree : s.next + 1 = limit → s.FreeFrom limit := fun hlim => by
    rwa [Steady, if_pos hlim] at hsteady
  obtain ⟨rest, hold, hnew⟩ := toList_push hpush h.next_le hfree
  have hsub : rest.Sublist s.toList := hold ▸ sublist_append_right _ _
  refine ⟨.inl (hsteady.next_lt hpush), ?_, ?_, ?_⟩
  · rw [hnew, pairwise_append]
    refine ⟨h.sorted.sublist hsub, pairwise_singleton _ _, fun a ha b hb => ?_⟩
    rw [mem_singleton.mp hb, hx]
    exact h.past a (hsub.subset ha)
  · intro a ha
    rw [hnew, mem_append, mem_singleton] at ha
    rcases ha with ha | rfl
    · exact Nat.lt_succ_of_lt (h.past a (hsub.subset ha))
    · exact Nat.lt_succ_of_le hx.le
  · obtain ⟨hslot, rfl⟩ := push_eq_some.mp hpush
    intro o ho
    rw [getElem?_set] at ho
    split at ho
    · cases ho
      rfl
    -- the first slot has been filled by the first insertion
    rename_i hne
    refine h.first o ?_
    have hlen : 0 < s.slots.length := by
      rcases h.inside with hlt | ⟨-, hzero⟩
      · omega
      · exact absurd hzero hne
    rw [grown] at ho
    split at ho
    · rwa [getElem?_append_left hlen] at ho
    · exact ho

/-- Returning to the first slot with values beyond the limit, the oldest is not next. -/
theorem Aged.not_oldestNext (h : Aged time now s) (hpush : s.push limit x = some s') (hx : time x = now)
    (hlim : s.next + 1 = limit) (hfree : ¬s.FreeFrom limit) : ¬OldestNext time s' := by
  obtain ⟨b, hb⟩ := exists_mem_of_ne_nil _ hfree
  have hbeyond : some b ∈ s.slots.drop (s.next + 1) := by
    rw [hlim]
    exact reduceOption_mem_iff.mp hb
  have hlong : s.next + 1 < s.slots.length := by
    by_contra hge
    rw [drop_eq_nil_of_le (by omega)] at hbeyond
    cases hbeyond
  have hgrown : s.grown limit = s.slots := if_neg (by omega)
  obtain ⟨-, rfl⟩ := push_eq_some.mp hpush
  rw [if_pos hlim, hgrown]
  have hset : s.slots.set s.next (some x) = s.slots.take s.next ++ some x :: s.slots.drop (s.next + 1) := by
    rw [set_eq_take_append_cons_drop, if_pos (by omega)]
  have hmem : b ∈ toList ⟨s.slots.set s.next (some x), 0⟩ := by
    rw [mem_toList, hset]
    exact mem_append_right _ (mem_cons_of_mem _ hbeyond)
  have hbs : b ∈ s.toList := mem_toList.mpr (mem_of_mem_drop hbeyond)
  intro holdest
  rcases Nat.eq_zero_or_pos s.next with hzero | hpos
  · -- the slot that was filled comes again
    have hx' : oldest ⟨s.slots.set s.next (some x), 0⟩ = some x := by
      rw [oldest, hzero, getElem?_set_self (by omega)]
      rfl
    have := holdest x hx' b hmem
    have := h.past b hbs
    omega
  -- the first slot comes, which was filled after those beyond the limit
  obtain ⟨a, ha⟩ := Option.isSome_iff_exists.mp
    (h.first (s.slots[0]) (getElem?_eq_getElem (by omega)))
  have ha' : oldest ⟨s.slots.set s.next (some x), 0⟩ = some a := by
    show (s.slots.set s.next (some x))[0]?.join = some a
    rw [getElem?_set_ne (by omega), getElem?_eq_getElem (by omega), ha]
    rfl
  have hle := holdest a ha' b hmem
  have hbefore : some a ∈ s.slots.take s.next := by
    rw [← ha]
    exact mem_take_iff_getElem.mpr ⟨0, by omega, rfl⟩
  have hsorted := h.sorted
  rw [toList, order, reduceOption_append, pairwise_append] at hsorted
  have hbs' : b ∈ (s.slots.drop s.next).reduceOption := by
    rw [reduceOption_mem_iff, drop_eq_getElem_cons (by omega)]
    exact mem_cons_of_mem _ hbeyond
  have := hsorted.2.2 b hbs' a (reduceOption_mem_iff.mpr hbefore)
  omega

theorem Aged.steady_iff (h : Aged time now s) (hx : time x = now) :
    (∃ s', s.push limit x = some s' ∧ s'.next < s'.slots.length ∧ OldestNext time s') ↔
      s.Steady limit := by
  constructor
  · rintro ⟨s', hpush, hlt, holdest⟩
    rw [Steady]
    split
    · rename_i hlim
      by_contra hfree
      exact h.not_oldestNext hpush hx hlim hfree holdest
    · rename_i hlim
      obtain ⟨-, rfl⟩ := push_eq_some.mp hpush
      rw [if_neg hlim] at hlt
      rwa [length_set] at hlt
  · intro hsteady
    have hpush : s.push limit x = some _ := push_eq_some.mpr ⟨hsteady.slot h.next_le, rfl⟩
    exact ⟨_, hpush, hsteady.next_lt hpush, oldestNext_of_sorted (h.push hsteady hpush hx).sorted⟩

end Times

end Slots

end Krb5.Lib
