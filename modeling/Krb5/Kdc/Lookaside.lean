import Krb5.Basic
import Krb5.Lib.Links

/-!
# The lookaside cache of the KDC (`replay.c`)

Replies are kept in a singly linked list, the latest in front. A search goes through the list up to
the first entry that matches and unlinks the stale ones it meets on its way.

`Lookaside.Holds` says which entries the list has.
-/

namespace Krb5.Kdc

open Lib List

/-- `krb5_kdc_replay_ent`, without the pointer. -/
structure ReplayEnt where
  numHits : Nat
  timein : Int32
  dbAge : Int32
  reqPacket : Octets
  replyPacket : Octets
  addr : Address
deriving DecidableEq, Repr

/-- The static variables of `replay.c`. -/
structure Lookaside where
  list : Links ReplayEnt
  hits : Nat
  calls : Nat
  maxHitsPerEntry : Nat
  numEntries : Nat

/-- What must not happen: a cell that is not allocated is used, or the loop goes on. -/
inductive LookasideFault
  | dangling
  | endless
deriving DecidableEq, Repr

abbrev LookasideCall := Action Lookaside LookasideFault

/-- What `krb5_timeofday` and `krb5_db_get_age` give. -/
structure Reading where
  timenow : Int32
  dbAge : Int32
deriving DecidableEq, Repr

def onList {α : Type} (x : Links.Access ReplayEnt α) : LookasideCall α where
  run s := ((x.run s.list).1.mapError fun _ => .dangling, { s with list := (x.run s.list).2 })

def abs32 (x : Int32) : Int32 := if x < 0 then -x else x

def staleTime : Int32 := 2 * 60

def stale (now : Reading) (ent : ReplayEnt) : Bool :=
  abs32 (ent.timein - now.timenow) ≥ staleTime || ent.dbAge != now.dbAge

def isMatch (now : Reading) (inpkt : Octets) (address : Address) (ent : ReplayEnt) : Bool :=
  ent.reqPacket == inpkt && ent.addr.contents == address.contents && ent.dbAge == now.dbAge

def collectStats (ent : ReplayEnt) (s : Lookaside) : Lookaside :=
  { s with maxHitsPerEntry := max s.maxHitsPerEntry ent.numHits }

/-- The loop of `kdc_check_lookaside`. No address for `last` stands for that of `root_ptr`. -/
def checkLoop (now : Reading) (inpkt : Octets) (address : Address) :
    Nat → Option Nat → Option Nat → LookasideCall (Option Octets)
  | 0, _, _ => .fail .endless
  | _ + 1, _, none => return none
  | fuel + 1, last, some eptr => do
      let cell ← onList (Links.load eptr)
      if isMatch now inpkt address cell.val then
        onList (Links.modifyVal eptr fun ent => { ent with numHits := ent.numHits + 1 })
        .modify fun s => { s with hits := s.hits + 1 }
        return some cell.val.replyPacket
      else if stale now cell.val then
        .modify (collectStats cell.val)
        onList (Links.setNext last cell.next)
        onList (Links.free eptr)
        let next ← onList (Links.next last)
        checkLoop now inpkt address fuel last next
      else checkLoop now inpkt address fuel (some eptr) cell.next

/-- `kdc_check_lookaside`: the reply, if there is one. As many rounds of the loop as there were
insertions are enough. -/
def kdcCheckLookaside (now : Option Reading) (inpkt : Octets) (address : Address) :
    LookasideCall (Option Octets) := do
  match now with
  | none => return none
  | some now =>
    .modify fun s => { s with calls := s.calls + 1 }
    let s ← .get
    checkLoop now inpkt address (s.numEntries + 1) none s.list.root

/-- `kdc_insert_lookaside`, with the address that `calloc` gives. -/
def kdcInsertLookaside (now : Option Reading) (eptr : Nat) (inpkt : Octets) (address : Address)
    (outpkt : Octets) : LookasideCall Unit := do
  match now with
  | none => return ()
  | some now =>
    .modify fun s => { s with
      list := s.list.push eptr ⟨0, now.timenow, now.dbAge, inpkt, outpkt, address⟩
      numEntries := s.numEntries + 1 }

def Lookaside.empty : Lookaside := ⟨Links.empty, 0, 0, 0, 0⟩

/-! ## The list -/

/-- The entries of the cache, of which there are at most as many as there were insertions. -/
structure Lookaside.Holds (s : Lookaside) (ents : List ReplayEnt) : Prop where
  list : ∃ l, s.list.Holds l ∧ l.map Prod.snd = ents
  length : ents.length ≤ s.numEntries

def swept (now : Reading) (inpkt : Octets) (address : Address) : List ReplayEnt → List ReplayEnt
  | [] => []
  | ent :: ents =>
    if isMatch now inpkt address ent then { ent with numHits := ent.numHits + 1 } :: ents
    else if stale now ent then swept now inpkt address ents
    else ent :: swept now inpkt address ents

variable {now : Reading} {inpkt : Octets} {address : Address} {s : Lookaside} {ents : List ReplayEnt}

theorem onList_of_ok {α : Type} {x : Links.Access ReplayEnt α} {a : α} {l : Links ReplayEnt}
    (h : x.run s.list = (.ok a, l)) : (onList x).run s = (.ok a, { s with list := l }) := by
  simp only [onList, h]
  rfl

theorem length_swept_le (ents : List ReplayEnt) : (swept now inpkt address ents).length ≤ ents.length := by
  induction ents with
  | nil => exact Nat.le_refl _
  | cons ent ents ih =>
    rw [swept]
    split
    · exact Nat.le_refl _
    split
    · exact Nat.le_succ_of_le ih
    · exact Nat.succ_le_succ ih

open Links in
/-- The search finds the first match and sweeps stale entries out on its way. -/
theorem checkLoop_holds {pre rest : List (Nat × ReplayEnt)} {fuel : Nat} (hfuel : rest.length < fuel)
    (h : s.list.Holds (pre ++ rest)) :
    ∃ s' l', (checkLoop now inpkt address fuel (lastAddr pre) (headAddr rest)).run s =
        (.ok (((rest.map Prod.snd).find? (isMatch now inpkt address)).map ReplayEnt.replyPacket), s') ∧
      s'.list.Holds (pre ++ l') ∧ l'.map Prod.snd = swept now inpkt address (rest.map Prod.snd) ∧
      s'.numEntries = s.numEntries := by
  induction rest generalizing pre fuel s with
  | nil =>
    obtain ⟨n, rfl⟩ := Nat.exists_eq_add_of_lt hfuel
    exact ⟨s, [], rfl, h, rfl, rfl⟩
  | cons c rest ih =>
    obtain ⟨a, ent⟩ := c
    obtain ⟨n, rfl⟩ := Nat.exists_eq_add_of_lt hfuel
    rw [headAddr_cons, checkLoop, bind_of_ok (onList_of_ok h.run_load), map_cons,
      find?_cons, swept]
    dsimp only
    by_cases hmatch : isMatch now inpkt address ent
    · obtain ⟨l, hmodify, hl⟩ := h.run_modifyVal fun ent => { ent with numHits := ent.numHits + 1 }
      rw [if_pos hmatch, if_pos hmatch, hmatch, bind_of_ok (onList_of_ok hmodify)]
      exact ⟨_, _, rfl, hl, rfl, rfl⟩
    have hfalse : isMatch now inpkt address ent = false := Bool.eq_false_iff.mpr hmatch
    rw [if_neg hmatch, if_neg hmatch, hfalse]
    have hlen : rest.length < ((a, ent) :: rest).length + n := by
      rw [length_cons]
      omega
    by_cases hstale : stale now ent
    · have hstats : (collectStats ent s).list.Holds (pre ++ (a, ent) :: rest) := h
      obtain ⟨l, l', hset, hfree, hl⟩ := hstats.run_unlink
      have hl' : ({ collectStats ent s with list := l' } : Lookaside).list.Holds (pre ++ rest) := hl
      rw [if_pos hstale, if_pos hstale, run_modify_bind, bind_of_ok (onList_of_ok hset),
        bind_of_ok (onList_of_ok hfree), bind_of_ok (onList_of_ok hl'.run_next)]
      exact ih hlen hl'
    · rw [if_neg hstale, if_neg hstale, ← lastAddr_append_singleton pre (a, ent)]
      rw [append_cons] at h
      obtain ⟨s', l', hrun, hl', hmap, hnum⟩ := ih hlen h
      exact ⟨s', (a, ent) :: l', hrun, append_cons pre _ _ ▸ hl', congrArg (ent :: ·) hmap, hnum⟩

theorem check_holds (h : s.Holds ents) :
    ∃ s', (kdcCheckLookaside (some now) inpkt address).run s =
        (.ok ((ents.find? (isMatch now inpkt address)).map ReplayEnt.replyPacket), s') ∧
      s'.Holds (swept now inpkt address ents) := by
  obtain ⟨⟨l, hl, rfl⟩, hlen⟩ := h
  rw [length_map] at hlen
  have hcounted : ({ s with calls := s.calls + 1 } : Lookaside).list.Holds ([] ++ l) := hl
  obtain ⟨s', l', hrun, hl', hmap, hnum⟩ := checkLoop_holds (Nat.lt_succ_of_le hlen) hcounted
  refine ⟨s', ?_, ⟨l', hl', hmap⟩, ?_⟩
  · rw [kdcCheckLookaside, run_modify_bind, run_get_bind]
    rw [hl.root]
    exact hrun
  · rw [hnum]
    refine Nat.le_trans (length_swept_le _) ?_
    rwa [length_map]

theorem insert_holds (h : s.Holds ents) {eptr : Nat} (hfree : s.list.cells eptr = none) (outpkt : Octets) :
    ∃ s', (kdcInsertLookaside (some now) eptr inpkt address outpkt).run s = (.ok (), s') ∧
      s'.Holds (⟨0, now.timenow, now.dbAge, inpkt, outpkt, address⟩ :: ents) := by
  obtain ⟨⟨l, hl, rfl⟩, hlen⟩ := h
  refine ⟨_, rfl, ⟨_, hl.push hfree _, rfl⟩, ?_⟩
  exact Nat.succ_le_succ hlen

theorem holds_empty : Lookaside.empty.Holds [] := ⟨⟨[], Links.holds_empty, rfl⟩, Nat.le_refl _⟩

end Krb5.Kdc
