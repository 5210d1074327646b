import Krb5.Rcache.FileFacts

/-!
# What recovery reads

The loop of `krb5_rc_dfl_recover` stores every record of the file that is alive
when it is read: afterwards a record is in the table, or a reading of the clock
has found it expired.
-/

namespace Krb5.Rcache

open Lib List

variable (clock : Clock)

/-- Reading `n` of the clock finds the authenticator alive. -/
def aliveAt (ctime : Timestamp) (lifespan : Deltat) (n : Nat) : Bool :=
  clock.fails n || !decide (ctime + lifespan < clock.time n)

/-- One of the first `k` readings of the clock found it expired. -/
def ExpiredBy (lifespan : Deltat) (rep : DonotReplay) (k : Nat) : Prop :=
  ∃ n < k, aliveAt clock rep.ctime lifespan n = false

variable {clock} {rep : DonotReplay} {s s' s'' : Proc} {reps reps' : List DonotReplay}

theorem ExpiredBy.mono {lifespan : Deltat} {k k' : Nat} (hk : k ≤ k')
    (h : ExpiredBy clock lifespan rep k) : ExpiredBy clock lifespan rep k' := by
  obtain ⟨n, hn, hexpired⟩ := h
  exact ⟨n, Nat.lt_of_lt_of_le hn hk, hexpired⟩

theorem ExpiredBy.passed {lifespan : Deltat} {k : Nat} {now : Timestamp}
    (h : ExpiredBy clock lifespan rep k) (hnow : ∀ n < k, clock.time n ≤ now)
    (hsum : rep.ctime.toInt + lifespan.toInt < 2 ^ 31) :
    rep.ctime.toInt + lifespan.toInt < now.toInt := by
  obtain ⟨n, hn, hexpired⟩ := h
  simp only [aliveAt, Bool.or_eq_false_iff, Bool.not_eq_false', decide_eq_true_eq] at hexpired
  have hlt := Int32.lt_iff_toInt_lt.mp hexpired.2
  have hle := Int32.le_iff_toInt_le.mp (hnow n hn)
  have hlow := Int32.le_toInt now
  rw [Int32.toInt_add] at hlt
  -- a sum below the range has passed in any case
  by_cases hrange : -2 ^ 31 ≤ rep.ctime.toInt + lifespan.toInt
  · rw [Int.bmod_eq_of_le (by omega) (by omega)] at hlt
    omega
  · omega

theorem alive_run (ctime : Timestamp) (lifespan : Deltat) (s : Proc) :
    (alive clock ctime lifespan).run s =
      (.ok (aliveAt clock ctime lifespan s.ticks), { s with ticks := s.ticks + 1 }) := by
  rw [alive, bind_of_ok (show (timeofday clock).run s = (.ok _, _) from rfl), aliveAt]
  cases clock.fails s.ticks <;> rfl

/-- From `s` to `s'` only the counters and the clock went on. -/
structure Counted (s s' : Proc) : Prop where
  fs : s'.fs = s.fs
  ticks : s.ticks ≤ s'.ticks
  t : s'.t = { s.t with numhits := s'.t.numhits, nummisses := s'.t.nummisses }

theorem Counted.refl (s : Proc) : Counted s s := ⟨rfl, Nat.le_refl _, rfl⟩

theorem Counted.trans (h : Counted s s') (h' : Counted s' s'') :
    Counted s s'' where
  fs := h'.fs.trans h.fs
  ticks := h.ticks.trans h'.ticks
  t := by
    rw [h'.t, h.t]

theorem counted_count (s : Proc) (live : Bool) :
    Counted s { s with ticks := s.ticks + 1, t := s.t.count live } := by
  cases live <;> exact ⟨rfl, Nat.le_succ _, rfl⟩

theorem searchChain_wp (rep : DonotReplay) (chain : List DonotReplay) (s : Proc) :
    wp (searchChain clock rep chain)
      (post (fun found s' => (found = true ↔ rep ∈ chain) ∧ Counted s s') fun _ _ => False) s := by
  induction chain generalizing s with
  | nil => simpa [searchChain] using Counted.refl s
  | cons old rest ih =>
    rw [searchChain]
    by_cases hcmp : cmp old rep
    · have hold : old = rep := cmp_iff.mp hcmp
      rw [if_pos hcmp]
      exact ⟨by simp [hold], Counted.refl s⟩
    have hold : rep ≠ old := fun h => hcmp (cmp_iff.mpr h.symm)
    rw [if_neg hcmp, wp_get_bind, wp_bind_of_ok (alive_run _ _ s)]
    refine wp_mono (ih _) fun r s' hr => ?_
    cases r with
    | ok found => exact ⟨by simp [hr.1, hold], (counted_count s _).trans hr.2⟩
    | error e => exact hr

/-! ## Records read -/

variable (clock) in

/-- From `s` to `s'` records were read into the table. -/
structure Loads (reps : List DonotReplay) (s s' : Proc) : Prop where
  fs : s'.fs = s.fs
  ticks : s.ticks ≤ s'.ticks
  t : s'.t = { s.t with
    numhits := s'.t.numhits, nummisses := s'.t.nummisses, tab := s'.t.tab
    d := { s.t.d with fd := s'.t.d.fd, mark := s'.t.d.mark } }
  kept : ∀ r ∈ s.t.tab.a, r ∈ s'.t.tab.a
  read : ∀ r ∈ reps, r ∈ s'.t.tab.a ∨ ExpiredBy clock s.t.lifespan r s'.ticks
  only : ∀ r ∈ s'.t.tab.a, r ∈ s.t.tab.a ∨ r ∈ reps

theorem Loads.lifespan (h : Loads clock reps s s') : s'.t.lifespan = s.t.lifespan := by
  rw [h.t]

theorem Loads.trans (h : Loads clock reps s s') (h' : Loads clock reps' s' s'') :
    Loads clock (reps ++ reps') s s'' where
  fs := h'.fs.trans h.fs
  ticks := h.ticks.trans h'.ticks
  t := by
    rw [h'.t, h.t]
  kept r hr := h'.kept r (h.kept r hr)
  read r hr := by
    rcases mem_append.mp hr with hr | hr
    · exact (h.read r hr).imp (h'.kept r) (.mono h'.ticks)
    · simpa [h.lifespan] using h'.read r hr
  only r hr := by
    rcases h'.only r hr with hr | hr
    · exact (h.only r hr).imp_right (mem_append_left _)
    · exact .inr (mem_append_right _ hr)

theorem Counted.loads (clock : Clock) (h : Counted s s') : Loads clock [] s s' := by
  have htab : s'.t.tab = s.t.tab := by rw [h.t]
  refine ⟨h.fs, h.ticks, by rw [h.t], ?_, by simp, ?_⟩
  · simp [htab]
  · simp [htab]

/-- A record is in the table afterwards, and the answer says whether it was before. -/
theorem rcStore_wp (rep : DonotReplay) (s : Proc) :
    wp (rcStore clock rep)
      (post (fun found s' => (found = true ↔ rep ∈ s.t.tab.a) ∧ Loads clock [rep] s s' ∧
        rep ∈ s'.t.tab.a ∧ s'.t.d = s.t.d) fun _ _ => False) s := by
  rw [rcStore, wp_get_bind]
  refine wp_seq (searchChain_wp rep _ s) ?_ fun _ _ h => h
  rintro found s' ⟨hfound, hcounted⟩
  rw [Table.mem_chain] at hfound
  have htab : s'.t.tab = s.t.tab := by rw [hcounted.t]
  have hd : s'.t.d = s.t.d := by rw [hcounted.t]
  cases found with
  | true =>
    have hmem : rep ∈ s'.t.tab.a := by rw [htab]; exact hfound.mp rfl
    have hloads : Loads clock [rep] s s' :=
      { hcounted.loads clock with
        read := by simpa using .inl hmem
        only := fun r hr => .inl (by rwa [htab] at hr) }
    exact ⟨hfound, hloads, hmem, hd⟩
  | false =>
    let s₁ : Proc := { s' with t := { s'.t with tab := s'.t.tab.insert rep } }
    have hmem : rep ∈ s₁.t.tab.a := mem_cons_self
    have hloads : Loads clock [rep] s s₁ :=
      { fs := hcounted.fs
        ticks := hcounted.ticks
        t := by simp only [s₁]; rw [hcounted.t]
        kept := fun r hr => mem_cons_of_mem _ (by rwa [htab])
        read := by simpa using .inl hmem
        only := fun r hr => by
          rcases mem_cons.mp hr with hr | hr
          · exact .inr (by simpa using hr)
          · exact .inl (by rwa [htab] at hr) }
    exact ⟨hfound, hloads, hmem, hd⟩

/-! What recovery puts into the table is alive. -/

variable (clock) in

/-- A reading of the clock from the `k`-th on, before the `k'`-th, found it alive. -/
def LiveIn (lifespan : Deltat) (rep : DonotReplay) (k k' : Nat) : Prop :=
  ∃ n, k ≤ n ∧ n < k' ∧ aliveAt clock rep.ctime lifespan n = true

theorem LiveIn.mono {lifespan : Deltat} {k k' n n' : Nat} (h : LiveIn clock lifespan rep k k')
    (hn : n ≤ k) (hn' : k' ≤ n') : LiveIn clock lifespan rep n n' := by
  obtain ⟨m, hlow, hhigh, halive⟩ := h
  exact ⟨m, hn.trans hlow, Nat.lt_of_lt_of_le hhigh hn', halive⟩

variable (clock) in

/-- Records were read into the table, each if it was alive. -/
structure LoadsLive (reps : List DonotReplay) (s s' : Proc) : Prop
    extends Loads clock reps s s' where
  live : ∀ r ∈ s'.t.tab.a, r ∈ s.t.tab.a ∨ LiveIn clock s.t.lifespan r s.ticks s'.ticks

theorem LoadsLive.trans (h : LoadsLive clock reps s s') (h' : LoadsLive clock reps' s' s'') :
    LoadsLive clock (reps ++ reps') s s'' where
  toLoads := h.toLoads.trans h'.toLoads
  live r hr := by
    rcases h'.live r hr with hr | hr
    · exact (h.live r hr).imp_right fun hl => hl.mono (Nat.le_refl _) h'.ticks
    · rw [h.lifespan] at hr
      exact .inr (hr.mono h.ticks (Nat.le_refl _))

theorem loadRecord_wp (rep : DonotReplay) (expired : Int32) (s : Proc) :
    wp (loadRecord clock rep.fetched expired)
      (post (fun _ s' => LoadsLive clock [rep] s s' ∧ s'.t.d = s.t.d) fun _ _ => False) s := by
  rw [loadRecord, wp_get_bind, wp_bind_of_ok (alive_run _ _ s)]
  have htick : Counted s { s with ticks := s.ticks + 1 } := ⟨rfl, Nat.le_succ _, rfl⟩
  cases hlive : aliveAt clock rep.fetched.ctime s.t.lifespan s.ticks with
  | false =>
    have hexpired : ExpiredBy clock s.t.lifespan rep (s.ticks + 1) :=
      ⟨s.ticks, Nat.lt_succ_self _, hlive⟩
    have hloads : LoadsLive clock [rep] s { s with ticks := s.ticks + 1 } :=
      { htick.loads clock with
        read := by simpa using .inr hexpired
        only := fun r hr => .inl hr
        live := fun r hr => .inl hr }
    exact ⟨hloads, rfl⟩
  | true =>
    simp only [rep_fetched]
    refine wp_seq (rcStore_wp rep _) ?_ fun _ _ h => h
    rintro found s' ⟨-, hloads, -, hd⟩
    refine ⟨⟨(htick.loads clock).trans hloads, fun r hr => ?_⟩, hd⟩
    refine (hloads.only r hr).imp_right fun hr => ?_
    rw [mem_singleton.mp hr]
    exact ⟨s.ticks, Nat.le_refl _, hloads.ticks, hlive⟩

/-- The descriptor at an offset, with the mark there. -/
def Proc.marked (s : Proc) (i off : Nat) : Proc :=
  s.setD { s.t.d with fd := some ⟨i, off⟩, mark := off }

theorem loads_setD (s : Proc) (fd : Option Fd) (mark : Nat) :
    LoadsLive clock [] s (s.setD { s.t.d with fd := fd, mark := mark }) where
  fs := rfl
  ticks := Nat.le_refl _
  t := rfl
  kept _ hr := hr
  read _ hr := absurd hr not_mem_nil
  only _ hr := .inl hr
  live _ hr := .inl hr

theorem ioMark_run {i off : Nat} (hfd : s.t.d.fd = some ⟨i, off⟩) :
    ioMark.run s = (.ok (), s.marked i off) := by
  simp [ioMark, Proc.marked, hfd]

/-- The loop reads the rest of the records. What is behind them must not be
enough for another one; the mark is then in front of it. -/
theorem loadLoop_wp {context : Context} {i : Nat} {front tail : Octets}
    (hdata : s.fs.data i = front ++ reps.flatMap record ++ tail) (htail : ¬Fetchable tail)
    (hmax : (s.fs.data i).length ≤ maxFile) (hfd : s.t.d.fd = some ⟨i, front.length⟩) {fuel : Nat}
    (hfuel : reps.length < fuel) (old : Option Fetched) (expired : Int32) :
    wp (loadLoop clock context (Int32.ofNat (s.fs.data i).length) fuel old expired)
      (post (fun _ s' => LoadsLive clock reps s s' ∧ (∃ off, s'.t.d.fd = some ⟨i, off⟩) ∧
        s'.t.d.mark = (front ++ reps.flatMap record).length) fun _ _ => False) s := by
  -- on the records still ahead; the mark is set in front of each
  induction reps generalizing s front fuel old expired with
  | nil =>
    obtain ⟨fuel, rfl⟩ := Nat.exists_eq_add_of_lt hfuel
    simp only [flatMap_nil, append_nil] at hdata ⊢
    rw [loadLoop, wp_bind_of_ok (ioMark_run hfd), wp_bind, wp_upTo]
    have hrest : ((s.marked i front.length).fs.data i).drop front.length = tail := by
      rw [show (s.marked i front.length).fs.data i = _ from hdata, drop_left]
    refine wp_mono (@ioFetch_rest context (s.marked i front.length) i _ _ hrest old _) ?_
    rintro (e | f) s' hr
    · obtain ⟨rfl, off, rfl⟩ := hr
      exact ⟨loads_setD s _ _, ⟨off, rfl⟩, rfl⟩
    · exact absurd hr htail
  | cons rep rest ih =>
    obtain ⟨fuel, rfl⟩ := Nat.exists_eq_add_of_lt hfuel
    rw [flatMap_cons, ← append_assoc] at hdata ⊢
    have hpre : front ++ record rep <+: s.fs.data i := by
      rw [hdata, append_assoc]
      exact prefix_append _ _
    have hfetch : ((ioFetch context old (Int32.ofNat (s.fs.data i).length)).upTo .ioEof).run
        (s.marked i front.length) = (.ok (some rep.fetched), _) :=
      upTo_of_ok (@ioFetch_record context (s.marked i front.length) i front rep hpre hmax _) _
    rw [loadLoop, wp_bind_of_ok (ioMark_run hfd), wp_bind_of_ok hfetch]
    refine wp_seq (loadRecord_wp rep expired _) ?_ fun _ _ h => h
    rintro expired' s' ⟨hloads, hd⟩
    have hloads : LoadsLive clock [rep] s s' := (loads_setD s _ _).trans hloads
    have hdata' : s'.fs.data i = s.fs.data i := by rw [hloads.fs]
    rw [← hdata']
    refine wp_mono (ih (by rw [hdata', hdata]) (by rwa [hdata']) (by rw [hd]; rfl)
      (by simp only [length_cons]; omega) _ _) fun r s'' hr => ?_
    cases r with
    | ok u => exact ⟨hloads.trans hr.1, hr.2⟩
    | error e => exact hr

end Krb5.Rcache
