import Krb5.Lib.Ring
import Krb5.Lib.Runs
import Mathlib.Data.List.Pairwise

/-!
# Sequence numbers of tokens (`util_ordering.c`)

A context keeps the sequence numbers of the last tokens in a queue, in order. As long as the numbers
have not come round past `2^32 - 1`, no number is accepted twice (`order_run`), and what is in the
queue decides every answer (`order_exact`).
-/

namespace Krb5.Gss

open Lib List

/-- The status codes of `g_order_check`, without the prefix `GSS_S`. -/
inductive OrderStatus
  | complete
  | gapToken
  | unseqToken
  | oldToken
  | duplicateToken
  | failure
deriving DecidableEq, Repr

def queueLength : Nat := 20

instance : NeZero queueLength := ⟨by decide⟩

/-- `queue`; `start`, `length` and `elem` are those of the ring. -/
structure Queue where
  doReplay : Bool
  doSequence : Bool
  firstnum : UInt32
  ring : Ring queueLength UInt32

/-- What `g_order_check` returns, the queue afterwards, and whether it called
`queue_insert`. -/
structure OrderResult where
  status : OrderStatus
  queue : Queue
  inserted : Bool

def Queue.qelem (q : Queue) (i : Nat) : UInt32 := q.ring.get i

def queueInsert (q : Queue) (after : Nat) (seqnum : UInt32) : Queue :=
  { q with ring := q.ring.insert after seqnum }

/-- `g_order_init`; `elem` is what the allocated memory holds. -/
def gOrderInit (elem : Fin queueLength → UInt32) (seqnum : UInt32)
    (doReplay doSequence : Bool) : Queue where
  doReplay := doReplay
  doSequence := doSequence
  firstnum := seqnum
  ring :=
    { elem := Function.update elem 0 (seqnum - 1)
      start := 0
      length := 1
      length_pos := by decide
      length_le := by decide }

/-- `q->do_replay && !q->do_sequence` chooses between two codes. -/
def Queue.code (q : Queue) (replayOnly otherwise : OrderStatus) : OrderStatus :=
  if q.doReplay && !q.doSequence then replayOnly else otherwise

/-- The loop of `g_order_check` from `i` on, over `count` elements. -/
def orderLoop (q : Queue) (seqnum : UInt32) : Nat → Nat → OrderResult
  | _, 0 => ⟨.failure, q, false⟩
  | i, count + 1 =>
    if seqnum = q.qelem i then ⟨.duplicateToken, q, false⟩
    else if q.qelem i < seqnum ∧ seqnum < q.qelem (i + 1) then
      ⟨q.code .complete .unseqToken, queueInsert q i seqnum, true⟩
    else orderLoop q seqnum (i + 1) count

def gOrderCheck (q : Queue) (seqnum : UInt32) : OrderResult :=
  let last := q.ring.start + q.ring.length - 1
  if !q.doReplay && !q.doSequence then ⟨.complete, q, false⟩
  else if seqnum = q.qelem last + 1 then ⟨.complete, queueInsert q last seqnum, true⟩
  else if seqnum > q.qelem last + 1 ∨ seqnum < q.firstnum then
    ⟨q.code .complete .gapToken, queueInsert q last seqnum, true⟩
  else if seqnum < q.qelem q.ring.start ∧ seqnum ≥ q.firstnum then
    ⟨q.code .oldToken .unseqToken, q, false⟩
  else if seqnum = q.qelem last then ⟨.duplicateToken, q, false⟩
  else orderLoop q seqnum q.ring.start (q.ring.length - 1)

/-- Whether the token is accepted: in order, after a gap, or out of order where
that is noted in the queue. -/
def OrderResult.accepted (r : OrderResult) : Bool :=
  match r.status with
  | .complete | .gapToken => true
  | .unseqToken => r.inserted
  | _ => false

/-! ## The queue as a list -/

def Queue.nums (q : Queue) : List UInt32 := q.ring.toList

/-- How a number gets into the queue: behind the last one, or between two that
are next to each other. -/
inductive Enters (first : UInt32) (l : List UInt32) (n : UInt32) : List UInt32 → Prop
  | last {x : UInt32} (hlast : l.getLast? = some x) (h : n = x + 1 ∨ n > x + 1 ∨ n < first) :
      Enters first l n (l ++ [n])
  | between {k : Nat} {x y : UInt32} (hx : l[k]? = some x) (hy : l[k + 1]? = some y) (hlow : x < n)
      (hhigh : n < y) (hfront : ∀ z, l.head? = some z → ¬(n < z ∧ n ≥ first)) :
      Enters first l n (l.take (k + 1) ++ n :: l.drop (k + 1))

inductive Checks (q : Queue) (n : UInt32) (r : OrderResult) : Prop
  | enters {l : List UInt32} (haccepted : r.accepted = true)
      (h : Enters q.firstnum q.nums n l) (hnums : r.queue.nums = Ring.atMost queueLength l)
      (hfirst : r.queue.firstnum = q.firstnum) (hreplay : r.queue.doReplay = true)
  | stays (hrefused : r.accepted = false) (hqueue : r.queue = q)

variable {q q' : Queue} {n first x y : UInt32} {l : List UInt32} {k : Nat}

section Check

theorem getElem?_nums (hk : k < q.ring.length) :
    q.nums[k]? = some (q.qelem (q.ring.start + k)) := by
  rw [Queue.nums, Ring.getElem?_toList, if_pos hk, Queue.qelem]

theorem nums_queueInsert (hk : k < q.ring.length) :
    (queueInsert q (q.ring.start + k) n).nums =
      Ring.atMost queueLength (q.nums.take (k + 1) ++ n :: q.nums.drop (k + 1)) :=
  q.ring.toList_insert n hk

theorem nums_queueInsert_last :
    (queueInsert q (q.ring.start + q.ring.length - 1) n).nums =
      Ring.atMost queueLength (q.nums ++ [n]) := by
  have hpos := q.ring.length_pos
  have hlen : q.nums.length = q.ring.length := q.ring.length_toList
  rw [show (q.ring.start : Nat) + q.ring.length - 1 = q.ring.start + (q.ring.length - 1) by omega,
    nums_queueInsert (by omega), take_of_length_le (by omega),
    drop_of_length_le (by omega)]

theorem accepted_code {status : OrderStatus} (h : status = .gapToken ∨ status = .unseqToken) :
    (OrderResult.mk (q.code .complete status) q' true).accepted := by
  rcases h with rfl | rfl <;> unfold Queue.code <;> split <;> rfl

/-- The loop compares the number with two neighbours in the queue at a time. -/
theorem orderLoop_checks (hreplay : q.doReplay)
    (hfront : ¬(n < q.qelem q.ring.start ∧ n ≥ q.firstnum)) {count : Nat}
    (hcnt : k + count = q.ring.length - 1) :
    Checks q n (orderLoop q n (q.ring.start + k) count) := by
  have hpos := q.ring.length_pos
  induction count generalizing k with
  | zero => exact .stays rfl rfl
  | succ count ih =>
    rw [orderLoop]
    split
    · exact .stays rfl rfl
    split
    · rename_i hbetween
      refine .enters (accepted_code (.inr rfl)) (.between (getElem?_nums (by omega))
        (getElem?_nums (by omega)) hbetween.1 hbetween.2 ?_) (nums_queueInsert (by omega)) rfl
        hreplay
      intro z hz
      rw [head?_eq_getElem?, getElem?_nums hpos] at hz
      cases hz
      exact hfront
    · exact ih (k := k + 1) (by omega)

theorem gOrderCheck_checks (hreplay : q.doReplay) : Checks q n (gOrderCheck q n) := by
  have hlast := q.ring.getLast?_toList
  unfold gOrderCheck
  simp only [hreplay, Bool.not_true, Bool.false_and, Bool.false_eq_true, if_false]
  split
  · rename_i hnext
    exact .enters rfl (.last hlast (.inl hnext)) nums_queueInsert_last rfl hreplay
  split
  · rename_i hlater
    exact .enters (accepted_code (.inl rfl)) (.last hlast (.inr hlater)) nums_queueInsert_last rfl
      hreplay
  split
  · refine .stays ?_ rfl
    unfold Queue.code
    split <;> rfl
  · rename_i hfront
    split
    · exact .stays rfl rfl
    · exact orderLoop_checks (k := 0) hreplay hfront (Nat.zero_add _)

end Check

/-! ## Numbers in order -/

section Order

theorem enters_last_iff (hmax : x ≠ 0xffffffff) (hn : first ≤ n) :
    (n = x + 1 ∨ n > x + 1 ∨ n < first) ↔ x < n := by
  have hx : x.toNat ≠ 0xffffffff := fun h => hmax (UInt32.toNat_inj.mp h)
  have hlt := x.toNat_lt
  have hsucc : (x + 1).toNat = x.toNat + 1 := by
    rw [UInt32.toNat_add, UInt32.toNat_one]
    omega
  have hle := UInt32.le_iff_toNat_le.mp hn
  simp only [← UInt32.toNat_inj, gt_iff_lt, UInt32.lt_iff_toNat_lt, hsucc]
  omega

variable (hrising : l.Pairwise (· < ·))
include hrising

theorem le_last {z : UInt32} (hlast : l.getLast? = some x)
    (hz : z ∈ l) : z ≤ x := by
  obtain ⟨front, rfl⟩ := List.getLast?_eq_some_iff.mp hlast
  rw [pairwise_append] at hrising
  rcases mem_append.mp hz with hz | hz
  · exact UInt32.le_of_lt (hrising.2.2 z hz x (mem_singleton_self x))
  · rw [mem_singleton.mp hz]
    exact UInt32.le_refl x

theorem head_le {z : UInt32} (hhead : l.head? = some z)
    (hy : y ∈ l) : z ≤ y := by
  obtain ⟨rest, rfl⟩ := List.head?_eq_some_iff.mp hhead
  rcases mem_cons.mp hy with rfl | hy
  · exact UInt32.le_refl _
  · exact UInt32.le_of_lt ((pairwise_cons.mp hrising).1 y hy)

theorem between_split
    (hx : l[k]? = some x) (hy : l[k + 1]? = some y) (hlow : x < n) (hhigh : n < y) :
    (∀ z ∈ l.take (k + 1), z < n) ∧ ∀ z ∈ l.drop (k + 1), n < z := by
  have hlast : (l.take (k + 1)).getLast? = some x := by simp [getLast?_take, hx]
  have hhead : (l.drop (k + 1)).head? = some y := by rw [head?_drop, hy]
  refine ⟨fun z hz => ?_, fun z hz => ?_⟩
  · exact UInt32.lt_of_le_of_lt (le_last hrising.take hlast hz) hlow
  · exact UInt32.lt_of_lt_of_le hhigh (head_le hrising.drop hhead hz)

theorem notMem_between
    (hx : l[k]? = some x) (hy : l[k + 1]? = some y) (hlow : x < n) (hhigh : n < y) : n ∉ l := by
  obtain ⟨hbelow, habove⟩ := between_split hrising hx hy hlow hhigh
  intro hin
  rw [← take_append_drop (k + 1) l, mem_append] at hin
  rcases hin with hin | hin
  · exact UInt32.lt_irrefl n (hbelow n hin)
  · exact UInt32.lt_irrefl n (habove n hin)

end Order

/-! ## The invariant -/

/-- The numbers in the queue rise, and every number accepted so far is among
them or below them. -/
structure Rising (acc l : List UInt32) : Prop where
  rising : l.Pairwise (· < ·)
  small : ∀ x ∈ l, x ≠ 0xffffffff
  seen : ∀ a ∈ acc, a ∈ l ∨ ∀ x ∈ l, a < x

/-- The same for a context that starts with 0, as long as the queue still has the
number in front of that, `2^32 - 1`. -/
structure FromZero (first : UInt32) (acc l : List UInt32) : Prop where
  first_zero : first = 0
  rising : l.Pairwise (· < ·)
  small : ∀ x ∈ l, x ≠ 0xffffffff
  seen : ∀ a ∈ acc, a ∈ l

inductive InOrder (first : UInt32) (acc : List UInt32) : List UInt32 → Prop
  | rising {l : List UInt32} (h : Rising acc l) : InOrder first acc l
  | fromZero {l : List UInt32} (h : FromZero first acc l) : InOrder first acc (0xffffffff :: l)

section Invariant

variable {acc l' : List UInt32}

theorem Enters.mem_iff (h : Enters first l n l') (z : UInt32) : z ∈ l' ↔ z ∈ l ∨ z = n := by
  cases h with
  | last => simp
  | @between k =>
    rw [mem_append, mem_cons, ← or_assoc, or_right_comm, ← mem_append, take_append_drop]

theorem Enters.length (h : Enters first l n l') : l'.length = l.length + 1 := by
  cases h with
  | last => simp
  | @between k =>
    simp only [length_append, length_cons, length_take, length_drop]
    omega

theorem Rising.split (h : Rising acc l) (hn : first ≤ n) (henters : Enters first l n l') :
    l'.Pairwise (· < ·) ∧ n ∉ l ∧ ∃ x ∈ l, x < n := by
  cases henters with
  | @last x hlast hlater =>
    have hx : x ∈ l := mem_of_getLast? hlast
    have hlt : x < n := (enters_last_iff (h.small x hx) hn).mp hlater
    have hall : ∀ z ∈ l, z < n := fun z hz => UInt32.lt_of_le_of_lt (le_last h.rising hlast hz) hlt
    rw [pairwise_append]
    exact ⟨⟨h.rising, pairwise_singleton _ _, by simpa using hall⟩,
      fun hin => UInt32.lt_irrefl n (hall n hin), x, hx, hlt⟩
  | @between k x y hx hy hlow hhigh hfront =>
    obtain ⟨hbelow, habove⟩ := between_split h.rising hx hy hlow hhigh
    refine ⟨?_, notMem_between h.rising hx hy hlow hhigh, x, mem_of_getElem? hx, hlow⟩
    rw [pairwise_append, pairwise_cons]
    refine ⟨h.rising.take, ⟨habove, h.rising.drop⟩, fun a ha b hb => ?_⟩
    rcases mem_cons.mp hb with rfl | hb
    · exact hbelow a ha
    · exact UInt32.lt_trans (hbelow a ha) (habove b hb)

theorem Rising.enters (h : Rising acc l) (hn : first ≤ n) (hmax : n ≠ 0xffffffff)
    (henters : Enters first l n l') : Rising (acc ++ [n]) l' := by
  have hmem := henters.mem_iff
  obtain ⟨hrising, -, x, hx, hlow⟩ := h.split hn henters
  refine ⟨hrising, fun z hz => ?_, fun a ha => ?_⟩
  · rcases (hmem z).mp hz with hz | rfl
    · exact h.small z hz
    · exact hmax
  rcases mem_append.mp ha with ha | ha
  · rcases h.seen a ha with hin | hlt
    · exact .inl ((hmem a).mpr (.inl hin))
    refine .inr fun z hz => ?_
    rcases (hmem z).mp hz with hz | rfl
    · exact hlt z hz
    · exact UInt32.lt_trans (hlt x hx) hlow
  · exact .inl ((hmem a).mpr (.inr (mem_singleton.mp ha)))

theorem Rising.atMost (h : Rising acc l) : Rising acc (Ring.atMost queueLength l) := by
  unfold Ring.atMost
  split
  · exact h
  cases l with
  | nil => exact h
  | cons x l =>
    have hrising := pairwise_cons.mp h.rising
    refine ⟨hrising.2, fun z hz => h.small z (mem_cons_of_mem x hz), fun a ha => ?_⟩
    rcases h.seen a ha with hin | hbelow
    · rcases mem_cons.mp hin with rfl | hin
      · exact .inr hrising.1
      · exact .inl hin
    · exact .inr fun z hz => hbelow z (mem_cons_of_mem x hz)

theorem Rising.refuses (h : Rising acc l) (hn : first ≤ n) (hacc : n ∈ acc) :
    ¬Enters first l n l' := by
  intro henters
  obtain ⟨-, hnot, x, hx, hlow⟩ := h.split hn henters
  rcases h.seen n hacc with hin | hbelow
  · exact hnot hin
  · exact UInt32.lt_asymm hlow (hbelow x hx)

theorem FromZero.rises (h : FromZero first acc l) : Rising acc l :=
  ⟨h.rising, h.small, fun a ha => .inl (h.seen a ha)⟩

theorem FromZero.enters_last (h : FromZero first acc l) (hmax : n ≠ 0xffffffff)
    (henters : Enters first (0xffffffff :: l) n l') :
    l' = 0xffffffff :: (l ++ [n]) ∧ (l = [] ∨ Enters first l n (l ++ [n])) := by
  cases henters with
  | last hlast hlater =>
    refine ⟨rfl, ?_⟩
    cases l with
    | nil => exact .inl rfl
    | cons y l => exact .inr (.last (by rwa [getLast?_cons_cons] at hlast) hlater)
  | between hx hy hlow hhigh hfront =>
    refine absurd ⟨?_, ?_⟩ (hfront _ rfl)
    · exact UInt32.lt_of_le_of_ne (UInt32.le_iff_toNat_le.mpr (Nat.le_of_lt_succ n.toNat_lt)) hmax
    · rw [h.first_zero]
      exact UInt32.zero_le

theorem FromZero.enters (h : FromZero first acc l) (hmax : n ≠ 0xffffffff)
    (henters : Enters first (0xffffffff :: l) n l') :
    l' = 0xffffffff :: (l ++ [n]) ∧ FromZero first (acc ++ [n]) (l ++ [n]) := by
  obtain ⟨hl', hend⟩ := h.enters_last hmax henters
  have hrises : (l ++ [n]).Pairwise (· < ·) ∧ ∀ x ∈ l ++ [n], x ≠ 0xffffffff := by
    rcases hend with rfl | hend
    · simpa using hmax
    · have := h.rises.enters (by rw [h.first_zero]; exact UInt32.zero_le) hmax hend
      exact ⟨this.rising, this.small⟩
  refine ⟨hl', h.first_zero, hrises.1, hrises.2, fun a ha => ?_⟩
  rcases mem_append.mp ha with ha | ha
  · exact mem_append_left _ (h.seen a ha)
  · exact mem_append_right _ ha

theorem InOrder.enters (h : InOrder first acc l) (hn : first ≤ n) (hmax : n ≠ 0xffffffff)
    (henters : Enters first l n l') :
    InOrder first (acc ++ [n]) (Ring.atMost queueLength l') := by
  cases h with
  | rising h => exact .rising (h.enters hn hmax henters).atMost
  | fromZero h =>
    obtain ⟨rfl, h'⟩ := h.enters hmax henters
    unfold Ring.atMost
    split
    · exact .fromZero h'
    · exact .rising h'.rises

theorem InOrder.refuses (h : InOrder first acc l) (hn : first ≤ n) (hacc : n ∈ acc) :
    ¬Enters first l n l' := by
  cases h with
  | rising h => exact h.refuses hn hacc
  | @fromZero l h =>
    intro henters
    have hin := h.seen n hacc
    rcases (h.enters_last (h.small n hin) henters).2 with rfl | hend
    · exact absurd hin not_mem_nil
    · exact h.rises.refuses hn hacc hend

end Invariant

/-! ## Runs -/

structure OrderEvent where
  seqnum : UInt32
  result : OrderResult

def OrderStep (q : Queue) (e : OrderEvent) (q' : Queue) : Prop :=
  gOrderCheck q e.seqnum = e.result ∧ q' = e.result.queue

def acceptedNums (es : List OrderEvent) : List UInt32 :=
  (es.filter fun e => e.result.accepted).map OrderEvent.seqnum

theorem acceptedNums_snoc (es : List OrderEvent) (e : OrderEvent) :
    acceptedNums (es ++ [e]) =
      acceptedNums es ++ if e.result.accepted then [e.seqnum] else [] := by
  simp only [acceptedNums]
  split
  · rename_i h
    simp [h]
  · rename_i h
    simp [h]

/-- The queue after some numbers, none of them below the first, nor `2^32 - 1`. -/
structure OrderInv (first : UInt32) (es : List OrderEvent) (q : Queue) : Prop where
  firstnum : q.firstnum = first
  doReplay : q.doReplay = true
  nums : InOrder first (acceptedNums es) q.nums

theorem OrderInv.init (elem : Fin queueLength → UInt32) (first : UInt32) (doSequence : Bool) :
    OrderInv first [] (gOrderInit elem first true doSequence) := by
  have hnums : (gOrderInit elem first true doSequence).nums = [first - 1] := rfl
  refine ⟨rfl, rfl, ?_⟩
  rw [hnums]
  by_cases hzero : first = 0
  · subst hzero
    exact .fromZero ⟨rfl, List.Pairwise.nil, by simp, by simp [acceptedNums]⟩
  refine .rising ⟨pairwise_singleton _ _, ?_, by simp [acceptedNums]⟩
  simp only [mem_singleton, forall_eq]
  intro hmax
  exact hzero (by rw [← UInt32.sub_add_cancel first 1, hmax]; rfl)

theorem OrderInv.step {es : List OrderEvent} {e : OrderEvent} (h : OrderInv first es q)
    (hstep : OrderStep q e q') (hn : first ≤ e.seqnum) (hmax : e.seqnum ≠ 0xffffffff) :
    OrderInv first (es ++ [e]) q' := by
  obtain ⟨hcheck, rfl⟩ := hstep
  have hchecks : Checks q e.seqnum e.result := hcheck ▸ gOrderCheck_checks h.doReplay
  cases hchecks with
  | enters haccepted henters hnums hfirst hreplay =>
    rw [h.firstnum] at henters hfirst
    refine ⟨hfirst, hreplay, ?_⟩
    rw [hnums, acceptedNums_snoc, if_pos haccepted]
    exact h.nums.enters hn hmax henters
  | stays hrefused hqueue =>
    rw [hqueue]
    refine ⟨h.firstnum, h.doReplay, ?_⟩
    rw [acceptedNums_snoc, if_neg (by simp [hrefused]), append_nil]
    exact h.nums

/-- In every run over numbers that are not below the first one and have not
reached `2^32 - 1`, no number is accepted twice. -/
theorem order_run {elem : Fin queueLength → UInt32} {first : UInt32} {doSequence : Bool}
    {es : List OrderEvent} {q : Queue}
    (hrun : Run OrderStep (gOrderInit elem first true doSequence) es q)
    (hnums : ∀ e ∈ es, first ≤ e.seqnum ∧ e.seqnum ≠ 0xffffffff) :
    ∀ n, first ≤ n → n ∈ acceptedNums es → (gOrderCheck q n).accepted = false := by
  have h := hrun.history_of_forall (OrderInv first) (.init elem first doSequence)
    (fun _ _ _ _ h hstep hnum => h.step hstep hnum.1 hnum.2) hnums
  intro n hn hacc
  cases gOrderCheck_checks (n := n) h.doReplay with
  | enters haccepted henters hnums hfirst hreplay =>
    rw [h.firstnum] at henters
    exact absurd henters (h.nums.refuses hn hacc)
  | stays hrefused hqueue => exact hrefused

def checkAll (first : UInt32) (doSequence : Bool) (nums : List UInt32) :
    List OrderEvent × Queue :=
  trace (fun n q => (⟨n, gOrderCheck q n⟩, (gOrderCheck q n).queue)) nums
    (gOrderInit (fun _ => 0) first true doSequence)

theorem checkAll_run (first : UInt32) (doSequence : Bool) (nums : List UInt32) :
    Run OrderStep (gOrderInit (fun _ => 0) first true doSequence)
      (checkAll first doSequence nums).1 (checkAll first doSequence nums).2 :=
  run_trace (P := fun _ => True) (fun _ _ _ => ⟨rfl, rfl⟩) nums fun _ _ => trivial

/-- 6 comes after 7 and is accepted, but not once more. -/
theorem order_run_refuses :
    acceptedNums (checkAll 5 true [5, 7, 6]).1 = [5, 7, 6] ∧
    (gOrderCheck (checkAll 5 true [5, 7, 6]).2 6).accepted = false := by
  refine ⟨by decide +kernel, order_run (checkAll_run 5 true [5, 7, 6]) ?_ 6 (by decide) ?_⟩ <;>
    decide +kernel

/-- Numbers that are accepted twice running: one below the first, and one after
`2^32 - 1`. -/
theorem order_accepts_twice :
    (3 ∈ (acceptedNums (checkAll 5 true [3]).1).reverse.take 20 ∧
      (gOrderCheck (checkAll 5 true [3]).2 3).accepted = true) ∧
    (0xfffffffe ∈ (acceptedNums (checkAll 0xfffffffd true
        [0xfffffffd, 0xfffffffe, 0xffffffff]).1).reverse.take 20 ∧
      (gOrderCheck (checkAll 0xfffffffd true
        [0xfffffffd, 0xfffffffe, 0xffffffff]).2 0xfffffffe).accepted = true) := by
  refine ⟨⟨?_, ?_⟩, ?_, ?_⟩ <;> decide +kernel

/-! ## Exact answers -/

/-- The queue holds the largest numbers of all there were, as many as it has room for. -/
structure Largest (all l : List UInt32) : Prop extends Rising all l where
  subset : ∀ x ∈ l, x ∈ all
  length_le : l.length ≤ queueLength
  full : (∀ a ∈ all, a ∈ l) ∨ l.length = queueLength

/-- The answer to a number when these are in the queue. -/
def orderAnswer (doSequence : Bool) (l : List UInt32) (n : UInt32) : OrderStatus :=
  if n ∈ l then .duplicateToken
  else if l.getLast?.any (n = · + 1) then .complete
  else if l.all (· < n) then if doSequence then .gapToken else .complete
  else if l.all (n < ·) then if doSequence then .unseqToken else .oldToken
  else if doSequence then .unseqToken else .complete

section Exact

variable {all l' : List UInt32}

/-- The queue keeps the largest numbers when one more enters. -/
theorem Largest.enters (h : Largest all l) (hn : first ≤ n) (hmax : n ≠ 0xffffffff)
    (henters : Enters first l n l') : Largest (all ++ [n]) (Ring.atMost queueLength l') := by
  have hsubset : ∀ x ∈ l', x ∈ all ++ [n] := by
    intro x hx
    rcases (henters.mem_iff x).mp hx with hx | rfl
    · exact mem_append_left _ (h.subset x hx)
    · exact mem_append_right _ (mem_singleton_self x)
  have hlen := henters.length
  have hle := h.length_le
  have hrising := (h.toRising.enters hn hmax henters).atMost
  unfold Ring.atMost at hrising ⊢
  split_ifs at hrising ⊢ with hroom
  · refine ⟨hrising, hsubset, hroom, ?_⟩
    rcases h.full with hall | hfull
    · refine .inl fun a ha => (henters.mem_iff a).mpr ?_
      rcases mem_append.mp ha with ha | ha
      · exact .inl (hall a ha)
      · exact .inr (mem_singleton.mp ha)
    · omega
  · refine ⟨hrising, fun x hx => hsubset x (mem_of_mem_tail hx), ?_, .inr ?_⟩ <;>
      rw [length_tail] <;> omega

theorem code_eq (hreplay : q.doReplay) (a b : OrderStatus) :
    q.code a b = if q.doSequence then b else a := by
  simp only [Queue.code, hreplay]
  cases q.doSequence <;> rfl

/-- The loop finds the number, or its place, between the element where it starts and
the last one. -/
theorem orderLoop_status (hreplay : q.doReplay) (hrising : q.nums.Pairwise (· < ·))
    (hlast : q.nums.getLast? = some x) (hx : n < x) {count : Nat}
    (hcnt : k + count = q.ring.length - 1) (hk : q.qelem (q.ring.start + k) ≤ n) :
    (orderLoop q n (q.ring.start + k) count).status =
      if n ∈ q.nums then .duplicateToken else if q.doSequence then .unseqToken else .complete := by
  have hpos := q.ring.length_pos
  have helem {i : Nat} (hi : i < q.ring.length) := getElem?_nums hi
  induction count generalizing k with
  | zero =>
    have hend := helem (i := k) (by omega)
    have hlen : q.nums.length = q.ring.length := q.ring.length_toList
    rw [getLast?_eq_getElem?, hlen, ← hcnt, Nat.add_zero, hend] at hlast
    cases hlast
    exact absurd hx (UInt32.not_lt.mpr hk)
  | succ count ih =>
    rw [orderLoop]
    by_cases heq : n = q.qelem (q.ring.start + k)
    · rw [if_pos heq, if_pos (mem_of_getElem? (heq ▸ helem (by omega)))]
    rw [if_neg heq]
    have hlow : q.qelem (q.ring.start + k) < n := UInt32.lt_of_le_of_ne hk (Ne.symm heq)
    by_cases hhigh : n < q.qelem (q.ring.start + k + 1)
    · rw [if_pos ⟨hlow, hhigh⟩, if_neg (notMem_between hrising (helem (i := k) (by omega))
        (helem (by omega)) hlow hhigh)]
      exact code_eq hreplay _ _
    · rw [if_neg fun h => hhigh h.2]
      exact ih (k := k + 1) (by omega) (UInt32.not_lt.mp hhigh)

/-- The answer depends on the numbers in the queue alone. -/
theorem gOrderCheck_status (hreplay : q.doReplay) (hall : Rising all q.nums)
    (hfirst : q.firstnum ≤ n) : (gOrderCheck q n).status = orderAnswer q.doSequence q.nums n := by
  have hlast : q.nums.getLast? = some (q.qelem (q.ring.start + q.ring.length - 1)) :=
    q.ring.getLast?_toList
  have hhead : q.nums.head? = some (q.qelem q.ring.start) := by
    rw [head?_eq_getElem?, getElem?_nums q.ring.length_pos, Nat.add_zero]
  generalize hx : q.qelem (q.ring.start + q.ring.length - 1) = x at hlast
  generalize hz : q.qelem q.ring.start = z at hhead
  have hle : ∀ y ∈ q.nums, y ≤ x := fun y hy => le_last hall.rising hlast hy
  have hmem : x ∈ q.nums := mem_of_getLast? hlast
  have habove (hlt : x < n) : (∀ y ∈ q.nums, y < n) ∧ n ∉ q.nums := by
    have hall (y : UInt32) (hy : y ∈ q.nums) : y < n := UInt32.lt_of_le_of_lt (hle y hy) hlt
    exact ⟨hall, fun hin => UInt32.lt_irrefl n (hall n hin)⟩
  have hlater := enters_last_iff (hall.small x hmem) hfirst
  unfold gOrderCheck orderAnswer
  simp only [hreplay, Bool.not_true, Bool.false_and, Bool.false_eq_true, if_false, hx, hz, hlast,
    Option.any_some, all_eq_true, decide_eq_true_eq, code_eq hreplay]
  by_cases hnext : n = x + 1
  · rw [if_pos hnext, if_neg (habove (hlater.mp (.inl hnext))).2, if_pos hnext]
  rw [if_neg hnext]
  by_cases hgap : n > x + 1 ∨ n < q.firstnum
  · obtain ⟨hbelow, hnot⟩ := habove (hlater.mp (.inr hgap))
    rw [if_pos hgap, if_neg hnot, if_neg hnext, if_pos hbelow]
  rw [if_neg hgap]
  have hnle : n ≤ x := UInt32.not_lt.mp fun hlt => (hlater.mpr hlt).elim hnext hgap
  have hnotabove : ¬∀ y ∈ q.nums, y < n := fun h => UInt32.not_lt.mpr hnle (h x hmem)
  by_cases hold : n < z ∧ n ≥ q.firstnum
  · have hbelow (y : UInt32) (hy : y ∈ q.nums) : n < y :=
      UInt32.lt_of_lt_of_le hold.1 (head_le hall.rising hhead hy)
    rw [if_pos hold, if_neg fun hin => UInt32.lt_irrefl n (hbelow n hin), if_neg hnext,
      if_neg hnotabove, if_pos hbelow]
  rw [if_neg hold]
  have hstart : z ≤ n := UInt32.not_lt.mp fun h => hold ⟨h, hfirst⟩
  have hnotbelow : ¬∀ y ∈ q.nums, n < y := fun h =>
    UInt32.not_lt.mpr hstart (h z (mem_of_head? hhead))
  by_cases hdup : n = x
  · rw [if_pos hdup, if_pos (hdup ▸ hmem)]
  · rw [if_neg hdup, if_neg hnext, if_neg hnotabove, if_neg hnotbelow]
    exact orderLoop_status (k := 0) hreplay hall.rising hlast (UInt32.lt_of_le_of_ne hnle hdup)
      (Nat.zero_add _) (hz ▸ hstart)

theorem doSequence_gOrderCheck : (gOrderCheck q n).queue.doSequence = q.doSequence := by
  have hloop (i count : Nat) : (orderLoop q n i count).queue.doSequence = q.doSequence := by
    induction count generalizing i with
    | zero => rfl
    | succ count ih =>
      rw [orderLoop]
      split_ifs
      · rfl
      · rfl
      · exact ih (i + 1)
  unfold gOrderCheck
  dsimp only
  split_ifs <;> first | rfl | exact hloop _ _

end Exact

/-- The queue after some numbers, with what was accepted of them. -/
structure OrderExact (first : UInt32) (doSequence : Bool) (es : List OrderEvent) (q : Queue) :
    Prop where
  firstnum : q.firstnum = first
  doReplay : q.doReplay = true
  doSequence : q.doSequence = doSequence
  nums : Largest ((first - 1) :: acceptedNums es) q.nums

theorem OrderExact.init (elem : Fin queueLength → UInt32) (hfirst : 1 ≤ first) (doSequence : Bool) :
    OrderExact first doSequence [] (gOrderInit elem first true doSequence) := by
  have hnums : (gOrderInit elem first true doSequence).nums = [first - 1] := rfl
  refine ⟨rfl, rfl, rfl, ?_⟩
  rw [hnums]
  refine ⟨⟨pairwise_singleton _ _, ?_, fun a ha => .inl ha⟩, fun x hx => hx,
    by simp [queueLength], .inl fun a ha => ha⟩
  simp only [mem_singleton, forall_eq]
  intro hmax
  rw [← UInt32.sub_add_cancel first 1, hmax] at hfirst
  exact absurd hfirst (by decide)

theorem OrderExact.step {doSequence : Bool} {es : List OrderEvent} {e : OrderEvent}
    (h : OrderExact first doSequence es q) (hstep : OrderStep q e q') (hn : first ≤ e.seqnum)
    (hmax : e.seqnum ≠ 0xffffffff) : OrderExact first doSequence (es ++ [e]) q' := by
  obtain ⟨hcheck, rfl⟩ := hstep
  have hchecks : Checks q e.seqnum e.result := hcheck ▸ gOrderCheck_checks h.doReplay
  have hdoSequence : e.result.queue.doSequence = doSequence :=
    hcheck ▸ doSequence_gOrderCheck.trans h.doSequence
  cases hchecks with
  | enters haccepted henters hnums hfirst hreplay =>
    rw [h.firstnum] at henters hfirst
    refine ⟨hfirst, hreplay, hdoSequence, ?_⟩
    rw [hnums, acceptedNums_snoc, if_pos haccepted]
    exact h.nums.enters hn hmax henters
  | stays hrefused hqueue =>
    have hacc : acceptedNums (es ++ [e]) = acceptedNums es := by
      rw [acceptedNums_snoc, if_neg (by simp [hrefused]), append_nil]
    rw [hqueue]
    exact ⟨h.firstnum, h.doReplay, h.doSequence, hacc ▸ h.nums⟩

/-- After every run over numbers from the first one to `2^32 - 2` the queue has the
largest numbers that were accepted, and by these every next number is answered. -/
theorem order_exact {elem : Fin queueLength → UInt32} {first : UInt32} {doSequence : Bool}
    {es : List OrderEvent} {q : Queue} (hfirst : 1 ≤ first)
    (hrun : Run OrderStep (gOrderInit elem first true doSequence) es q)
    (hnums : ∀ e ∈ es, first ≤ e.seqnum ∧ e.seqnum ≠ 0xffffffff) :
    Largest ((first - 1) :: acceptedNums es) q.nums ∧
    ∀ n, first ≤ n →
      (gOrderCheck q n).status = orderAnswer doSequence q.nums n ∧
      (gOrderCheck q n).status ≠ .failure := by
  obtain ⟨rfl, hreplay, rfl, hlargest⟩ := hrun.history_of_forall (OrderExact first doSequence)
    (.init elem hfirst doSequence) (fun _ _ _ _ h hstep hnum => h.step hstep hnum.1 hnum.2) hnums
  refine ⟨hlargest, fun n hn => ?_⟩
  have hstatus := gOrderCheck_status hreplay hlargest.toRising hn
  rw [hstatus]
  unfold orderAnswer
  split_ifs <;> decide

/-- After 5 and 7 the queue has 4, 5 and 7, and 6 is out of order. -/
theorem order_exact_six : (checkAll 5 true [5, 7]).2.nums = [4, 5, 7] ∧
    (gOrderCheck (checkAll 5 true [5, 7]).2 6).status = .unseqToken := by
  have hnums : (checkAll 5 true [5, 7]).2.nums = [4, 5, 7] := by decide +kernel
  have hseqnums : ∀ e ∈ (checkAll 5 true [5, 7]).1, 5 ≤ e.seqnum ∧ e.seqnum ≠ 0xffffffff := by
    decide +kernel
  have hstatus := ((order_exact (by decide) (checkAll_run 5 true [5, 7]) hseqnums).2 6
    (by decide)).1
  exact ⟨hnums, hstatus.trans (by decide)⟩

end Krb5.Gss
