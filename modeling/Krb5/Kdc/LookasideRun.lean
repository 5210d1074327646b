import Krb5.Kdc.Lookaside

/-!
# Histories of the lookaside cache

The log of a history has the entries as they were inserted, the latest first. `Tracks` relates it to
what the cache holds: nothing that is fresh has been unlinked. So the latest insertion that equals a
query is found while it is fresh.
-/

namespace Krb5.Kdc

open Lib List

/-- Calls with readings that do not decrease. `allowed` says which insertions are made. -/
inductive LookasideRun (allowed : Lookaside → Reading → Octets → Address → Prop) :
    Reading → Lookaside → List ReplayEnt → Prop
  | empty (now : Reading) : LookasideRun allowed now .empty []
  | checked {now now' : Reading} {s s' : Lookaside} {log : List ReplayEnt} {inpkt : Octets}
      {address : Address} {result : Except LookasideFault (Option Octets)}
      (run : LookasideRun allowed now s log)
      (htime : now.timenow ≤ now'.timenow) (hage : now.dbAge ≤ now'.dbAge)
      (hcheck : (kdcCheckLookaside (some now') inpkt address).run s = (result, s')) :
      LookasideRun allowed now' s' log
  | inserted {now now' : Reading} {s s' : Lookaside} {log : List ReplayEnt} {inpkt outpkt : Octets}
      {address : Address} {eptr : Nat} {result : Except LookasideFault Unit}
      (run : LookasideRun allowed now s log)
      (htime : now.timenow ≤ now'.timenow) (hage : now.dbAge ≤ now'.dbAge)
      (hallowed : allowed s now' inpkt address) (hfree : s.list.cells eptr = none)
      (hinsert : (kdcInsertLookaside (some now') eptr inpkt address outpkt).run s = (result, s')) :
      LookasideRun allowed now' s' (⟨0, now'.timenow, now'.dbAge, inpkt, outpkt, address⟩ :: log)

def ReplayEnt.asInserted (ent : ReplayEnt) : ReplayEnt := { ent with numHits := 0 }

def fresh (now : Reading) (ent : ReplayEnt) : Bool :=
  ent.dbAge == now.dbAge && now.timenow.toInt - ent.timein.toInt < 120

variable {now now' : Reading} {inpkt : Octets} {address : Address} {ent : ReplayEnt}
  {ents log l : List ReplayEnt}

theorem fresh_iff : fresh now ent ↔
    ent.dbAge = now.dbAge ∧ now.timenow.toInt - ent.timein.toInt < 120 := by
  rw [fresh, Bool.and_eq_true, beq_iff_eq, decide_eq_true_iff]

theorem isMatch_iff : isMatch now inpkt address ent ↔
    (ent.reqPacket = inpkt ∧ ent.addr.contents = address.contents) ∧ ent.dbAge = now.dbAge := by
  rw [isMatch, Bool.and_eq_true, Bool.and_eq_true, beq_iff_eq, beq_iff_eq, beq_iff_eq]

theorem stale_of_fresh (hpast : ent.timein ≤ now.timenow) (h : fresh now ent) :
    stale now ent = false := by
  obtain ⟨hage, htime⟩ := fresh_iff.mp h
  rw [Int32.le_iff_toInt_le] at hpast
  have hsub : (ent.timein - now.timenow).toInt = ent.timein.toInt - now.timenow.toInt := by
    rw [Int32.toInt_sub]
    apply Int.bmod_eq_of_le <;> omega
  have habs : abs32 (ent.timein - now.timenow) < staleTime := by
    have hstale : staleTime.toInt = 120 := rfl
    rw [abs32]
    split
    · rw [Int32.lt_iff_toInt_lt, Int32.toInt_neg, Int.bmod_eq_of_le] <;> omega
    · rw [Int32.lt_iff_toInt_lt]
      omega
  rw [stale, hage, decide_eq_false (Int32.not_le.mpr habs), bne_self_eq_false]
  rfl

/-! ## What is kept -/

/-- The cache holds entries of the log, and all that are fresh. -/
structure Tracks (now : Reading) (ents log : List ReplayEnt) : Prop where
  sublist : (ents.map ReplayEnt.asInserted).Sublist log
  past : ∀ e ∈ log, e.timein ≤ now.timenow ∧ e.dbAge ≤ now.dbAge
  sorted : log.Pairwise fun e e' => e'.timein ≤ e.timein
  kept : (ents.map ReplayEnt.asInserted).filter (fresh now) = log.filter (fresh now)

theorem tracks_nil (now : Reading) : Tracks now [] [] where
  sublist := .slnil
  past _ h := nomatch h
  sorted := .nil
  kept := rfl

section

variable (htime : now.timenow ≤ now'.timenow) (hage : now.dbAge ≤ now'.dbAge)
include htime hage

theorem fresh_of_fresh (hpast : ent.dbAge ≤ now.dbAge) (h : fresh now' ent) :
    fresh now ent := by
  obtain ⟨hdb, hlt⟩ := fresh_iff.mp h
  rw [Int32.le_iff_toInt_le] at htime
  refine fresh_iff.mpr ⟨Int32.le_antisymm hpast (hdb ▸ hage), by omega⟩

theorem filter_fresh_filter (hpast : ∀ e ∈ l, e.dbAge ≤ now.dbAge) :
    (l.filter (fresh now)).filter (fresh now') = l.filter (fresh now') := by
  rw [filter_filter]
  refine filter_congr fun e he => ?_
  cases hfresh : fresh now' e with
  | false => rfl
  | true => rw [fresh_of_fresh htime hage (hpast e he) hfresh, Bool.and_self]

theorem Tracks.advance (h : Tracks now ents log) : Tracks now' ents log where
  sublist := h.sublist
  past e he := ⟨Int32.le_trans (h.past e he).1 htime, Int32.le_trans (h.past e he).2 hage⟩
  sorted := h.sorted
  kept := by
    have hents : ∀ e ∈ ents.map ReplayEnt.asInserted, e.dbAge ≤ now.dbAge :=
      fun e he => (h.past e (h.sublist.subset he)).2
    rw [← filter_fresh_filter htime hage hents, h.kept,
      filter_fresh_filter htime hage fun e he => (h.past e he).2]

end

theorem map_swept_sublist (ents : List ReplayEnt) :
    ((swept now inpkt address ents).map ReplayEnt.asInserted).Sublist (ents.map ReplayEnt.asInserted) := by
  induction ents with
  | nil => exact .slnil
  | cons e ents ih =>
    rw [swept]
    split
    · exact List.Sublist.refl _
    split
    · exact ih.cons _
    · exact ih.cons_cons _

theorem filter_map_swept (hpast : ∀ e ∈ ents, e.timein ≤ now.timenow) :
    ((swept now inpkt address ents).map ReplayEnt.asInserted).filter (fresh now) =
      (ents.map ReplayEnt.asInserted).filter (fresh now) := by
  induction ents with
  | nil => rfl
  | cons e ents ih =>
    have ih := ih fun e' he' => hpast e' (mem_cons_of_mem e he')
    rw [swept]
    split
    · rfl
    split
    · rename_i hstale
      have hnot : ¬fresh now e.asInserted := by
        intro hfresh
        rw [stale_of_fresh (hpast e mem_cons_self) hfresh] at hstale
        cases hstale
      rw [ih, map_cons, filter_cons_of_neg hnot]
    · rw [map_cons, map_cons, filter_cons, filter_cons, ih]

theorem Tracks.sweep (h : Tracks now ents log) :
    Tracks now (swept now inpkt address ents) log where
  sublist := (map_swept_sublist ents).trans h.sublist
  past := h.past
  sorted := h.sorted
  kept := by
    refine (filter_map_swept fun e he => ?_).trans h.kept
    exact (h.past e.asInserted (h.sublist.subset (mem_map_of_mem he))).1

theorem Tracks.insert (h : Tracks now ents log) (inpkt outpkt : Octets) (address : Address) :
    Tracks now (⟨0, now.timenow, now.dbAge, inpkt, outpkt, address⟩ :: ents)
      (⟨0, now.timenow, now.dbAge, inpkt, outpkt, address⟩ :: log) where
  sublist := h.sublist.cons_cons _
  past := by
    rintro e (_ | ⟨_, he⟩)
    · exact ⟨Int32.le_refl _, Int32.le_refl _⟩
    · exact h.past e he
  sorted := pairwise_cons.mpr ⟨fun e he => (h.past e he).1, h.sorted⟩
  kept := by
    rw [map_cons, filter_cons, filter_cons, h.kept]
    rfl

/-- Sweeping does not change what is found while a match is fresh. -/
theorem find_filter_fresh (hsorted : l.Pairwise fun e e' => e'.timein ≤ e.timein)
    (h : ∃ e ∈ l, isMatch now inpkt address e ∧ now.timenow.toInt - e.timein.toInt < 120) :
    (l.filter (fresh now)).find? (isMatch now inpkt address) = l.find? (isMatch now inpkt address) := by
  induction l with
  | nil => rfl
  | cons e l ih =>
    obtain ⟨hbefore, hl⟩ := pairwise_cons.mp hsorted
    obtain ⟨i, hi, himatch, hitime⟩ := h
    rw [filter_cons, find?_cons]
    by_cases hmatch : isMatch now inpkt address e
    · -- the match `i` is not later than `e`
      have hfresh : fresh now e := by
        refine fresh_iff.mpr ⟨(isMatch_iff.mp hmatch).2, ?_⟩
        obtain rfl | hmem := mem_cons.mp hi
        · exact hitime
        · have := Int32.le_iff_toInt_le.mp (hbefore i hmem)
          omega
      rw [if_pos hfresh, find?_cons, hmatch]
    · have hmem : i ∈ l := by
        obtain rfl | hmem := mem_cons.mp hi
        · exact absurd himatch hmatch
        · exact hmem
      rw [Bool.eq_false_iff.mpr hmatch, ← ih hl ⟨i, hmem, himatch, hitime⟩]
      split
      · rw [find?_cons, Bool.eq_false_iff.mpr hmatch]
      · rfl

theorem find_map_asInserted (ents : List ReplayEnt) :
    ((ents.map ReplayEnt.asInserted).find? (isMatch now inpkt address)).map ReplayEnt.replyPacket =
      (ents.find? (isMatch now inpkt address)).map ReplayEnt.replyPacket := by
  rw [find?_map, Option.map_map]
  rfl

theorem Tracks.find (h : Tracks now ents log)
    (hex : ∃ e ∈ log, isMatch now inpkt address e ∧ now.timenow.toInt - e.timein.toInt < 120) :
    (ents.find? (isMatch now inpkt address)).map ReplayEnt.replyPacket =
      (log.find? (isMatch now inpkt address)).map ReplayEnt.replyPacket := by
  obtain ⟨i, hi, himatch, hitime⟩ := hex
  have hfresh : fresh now i := fresh_iff.mpr ⟨(isMatch_iff.mp himatch).2, hitime⟩
  have hkept : i ∈ ents.map ReplayEnt.asInserted := by
    have hmem : i ∈ log.filter (fresh now) := mem_filter.mpr ⟨hi, hfresh⟩
    rw [← h.kept] at hmem
    exact mem_of_mem_filter hmem
  rw [← find_map_asInserted, ← find_filter_fresh (h.sorted.sublist h.sublist) ⟨i, hkept, himatch, hitime⟩,
    h.kept, find_filter_fresh h.sorted ⟨i, hi, himatch, hitime⟩]

/-- A query would not be a hit: `kdc_insert_lookaside` assumes as much. -/
def Absent (s : Lookaside) (now : Reading) (inpkt : Octets) (address : Address) : Prop :=
  ((kdcCheckLookaside (some now) inpkt address).run s).1 = .ok none

/-- The entries are the latest of their kind. -/
def Latest (ents log : List ReplayEnt) : Prop :=
  ∀ e ∈ ents, ∀ now inpkt address, isMatch now inpkt address e = true →
    log.find? (isMatch now inpkt address) = some e.asInserted

theorem Latest.sweep (h : Latest ents log) : Latest (swept now inpkt address ents) log := by
  intro e he now' inpkt' address' hmatch
  have hmem := (map_swept_sublist ents).subset (mem_map_of_mem he)
  obtain ⟨e', he', heq⟩ := mem_map.mp hmem
  rw [← heq]
  refine h e' he' now' inpkt' address' ?_
  have hsame : isMatch now' inpkt' address' e'.asInserted = isMatch now' inpkt' address' e.asInserted := by
    rw [heq]
  exact hsame.trans hmatch

theorem Latest.insert (h : Latest ents log) (outpkt : Octets)
    (habsent : ents.find? (isMatch now inpkt address) = none) :
    Latest (⟨0, now.timenow, now.dbAge, inpkt, outpkt, address⟩ :: ents)
      (⟨0, now.timenow, now.dbAge, inpkt, outpkt, address⟩ :: log) := by
  rintro e (_ | ⟨_, he⟩) now' inpkt' address' hmatch
  · rw [find?_cons, hmatch]
    rfl
  rw [find?_cons]
  split
  · -- then the new entry and `e` would be of one kind
    rename_i hnew
    obtain ⟨⟨hreq, haddr⟩, hdb⟩ := isMatch_iff.mp hmatch
    obtain ⟨⟨hreq', haddr'⟩, hdb'⟩ := isMatch_iff.mp hnew
    have hthere : isMatch now inpkt address e :=
      isMatch_iff.mpr ⟨⟨hreq.trans hreq'.symm, haddr.trans haddr'.symm⟩, hdb.trans hdb'.symm⟩
    exact absurd hthere (List.find?_eq_none.mp habsent e he)
  · exact h e he now' inpkt' address' hmatch

/-! ## Histories -/

variable {allowed : Lookaside → Reading → Octets → Address → Prop} {s : Lookaside}

/-- Along a run the entries are those of the log. -/
theorem LookasideRun.tracks (h : LookasideRun allowed now s log) :
    ∃ ents, s.Holds ents ∧ Tracks now ents log ∧
      ((∀ s now inpkt address, allowed s now inpkt address → Absent s now inpkt address) →
        Latest ents log) := by
  induction h with
  | empty now => exact ⟨[], holds_empty, tracks_nil now, fun _ _ h => nomatch h⟩
  | checked _ htime hage hcheck ih =>
    obtain ⟨ents, hholds, htracks, hlatest⟩ := ih
    obtain ⟨s', hrun, hswept⟩ := check_holds hholds
    cases hrun.symm.trans hcheck
    exact ⟨_, hswept, (htracks.advance htime hage).sweep, fun hall => (hlatest hall).sweep⟩
  | inserted _ htime hage hallowed hfree hinsert ih =>
    obtain ⟨ents, hholds, htracks, hlatest⟩ := ih
    obtain ⟨s', hrun, hnew⟩ := insert_holds hholds hfree _
    cases hrun.symm.trans hinsert
    refine ⟨_, hnew, (htracks.advance htime hage).insert _ _ _, fun hall => (hlatest hall).insert _ ?_⟩
    obtain ⟨s'', hcheck, -⟩ := check_holds hholds
    have habsent := hall _ _ _ _ hallowed
    rw [Absent, hcheck] at habsent
    exact Option.map_eq_none_iff.mp (Except.ok.inj habsent)

/-- A query to the cache after any history. A hit is a reply that was inserted for an equal query
and the same age of the database. If there was such an insertion less than two minutes ago, the
query is a hit, and the reply is that of the latest one; and it is that of the latest one in any
case if nothing has been inserted that was there already. -/
theorem lookaside_hits (h : LookasideRun allowed now s log) (htime : now.timenow ≤ now'.timenow)
    (hage : now.dbAge ≤ now'.dbAge) (inpkt : Octets) (address : Address) :
    ∃ reply s', (kdcCheckLookaside (some now') inpkt address).run s = (.ok reply, s') ∧
      (∀ r, reply = some r → ∃ i ∈ log, isMatch now' inpkt address i = true ∧ i.replyPacket = r) ∧
      ((∃ i ∈ log, isMatch now' inpkt address i = true ∧ now'.timenow.toInt - i.timein.toInt < 120) →
        ∃ i, log.find? (isMatch now' inpkt address) = some i ∧ reply = some i.replyPacket) ∧
      ((∀ s now inpkt address, allowed s now inpkt address → Absent s now inpkt address) →
        ∀ r, reply = some r →
          ∃ i, log.find? (isMatch now' inpkt address) = some i ∧ i.replyPacket = r) := by
  obtain ⟨ents, hholds, htracks, hlatest⟩ := h.tracks
  obtain ⟨s', hrun, -⟩ := check_holds hholds
  have htracks := htracks.advance htime hage
  refine ⟨_, s', hrun, fun r hr => ?_, fun hex => ?_, fun hall r hr => ?_⟩
  · obtain ⟨e, he, rfl⟩ := Option.map_eq_some_iff.mp hr
    have hmem := htracks.sublist.subset (mem_map_of_mem (mem_of_find?_eq_some he))
    have hmatch : isMatch now' inpkt address e = true := find?_some he
    exact ⟨e.asInserted, hmem, hmatch, rfl⟩
  · rw [htracks.find hex]
    obtain ⟨i, hi, himatch, -⟩ := hex
    obtain ⟨i', hi'⟩ := Option.isSome_iff_exists.mp (List.find?_isSome.mpr ⟨i, hi, himatch⟩)
    exact ⟨i', hi', by rw [hi', Option.map_some]⟩
  · obtain ⟨e, he, rfl⟩ := Option.map_eq_some_iff.mp hr
    exact ⟨e.asInserted, hlatest hall e (mem_of_find?_eq_some he) _ _ _ (find?_some he), rfl⟩

section Samples

def sampleAddr : Address := ⟨2, [10, 0, 0, 1]⟩

def sampleFirst : Lookaside := ((kdcInsertLookaside (some ⟨0, 0⟩) 0 [1] sampleAddr [11]).run .empty).2

def sampleSecond : Lookaside := ((kdcInsertLookaside (some ⟨30, 0⟩) 1 [2] sampleAddr [22]).run sampleFirst).2

def sampleThird : Lookaside := ((kdcInsertLookaside (some ⟨50, 0⟩) 2 [1] sampleAddr [12]).run sampleSecond).2

def sampleSwept : Lookaside := ((kdcCheckLookaside (some ⟨180, 0⟩) [2] sampleAddr).run sampleThird).2

def sampleLog : List ReplayEnt :=
  [⟨0, 50, 0, [1], [12], sampleAddr⟩, ⟨0, 30, 0, [2], [22], sampleAddr⟩, ⟨0, 0, 0, [1], [11], sampleAddr⟩]

theorem run_sampleThird : LookasideRun (fun _ _ _ _ => True) ⟨50, 0⟩ sampleThird sampleLog := by
  have hfirst : LookasideRun (fun _ _ _ _ => True) ⟨0, 0⟩ sampleFirst _ :=
    .inserted (.empty ⟨0, 0⟩) (by decide) (by decide) trivial rfl rfl
  have hsecond : LookasideRun (fun _ _ _ _ => True) ⟨30, 0⟩ sampleSecond _ :=
    .inserted hfirst (by decide) (by decide) trivial rfl rfl
  exact .inserted hsecond (by decide) (by decide) trivial rfl rfl

theorem run_sampleSwept : LookasideRun (fun _ _ _ _ => True) ⟨180, 0⟩ sampleSwept sampleLog := by
  have hcheck : (kdcCheckLookaside (some ⟨180, 0⟩) [2] sampleAddr).run sampleThird = (_, sampleSwept) := rfl
  exact .checked run_sampleThird (by decide) (by decide) hcheck

end Samples

/-- The later of two answers to a packet; the earlier one is stale. -/
theorem lookaside_hits_latest :
    ∃ reply s', (kdcCheckLookaside (some ⟨160, 0⟩) [1] sampleAddr).run sampleThird = (.ok reply, s') ∧
      reply = some [12] := by
  obtain ⟨reply, s', hrun, -, hfresh, -⟩ := lookaside_hits run_sampleThird
    (by decide : (⟨50, 0⟩ : Reading).timenow ≤ (⟨160, 0⟩ : Reading).timenow) (by decide) [1] sampleAddr
  obtain ⟨i, hi, hreply⟩ := hfresh ⟨_, mem_cons_self, by decide, by decide⟩
  cases hi
  exact ⟨reply, s', hrun, hreply⟩

/-- The search for the other packet has unlinked the later answer and has not come to the earlier
one. -/
theorem earlier_reply_found :
    LookasideRun (fun _ _ _ _ => True) ⟨180, 0⟩ sampleSwept sampleLog ∧
      ((kdcCheckLookaside (some ⟨181, 0⟩) [1] sampleAddr).run sampleSwept).1 = .ok (some [11]) ∧
      (sampleLog.find? (isMatch ⟨181, 0⟩ [1] sampleAddr)).map ReplayEnt.replyPacket = some [12] :=
  ⟨run_sampleSwept, by decide +kernel, by decide +kernel⟩

end Krb5.Kdc
