import Krb5.Rcache.Safety

/-!
# Recovery after a write that was cut short

A crash can leave the file with whole records and the beginning of one more. Recovery stops in
front of that beginning, and what is stored from then on is written over it, as long as the
beginning ends before the time of its record. A read of less than the four octets of the time
counts as success, and so a record without all of its time is taken for a whole one.
-/

namespace Krb5.Rcache

open Lib List

variable {k : Nat}

/-! ## The beginning of a record -/

section Beginning

variable {rep : DonotReplay} {x : Nat}

theorem record_client (hlow : 4 ≤ x) (hhigh : x < rep.client.1.length + 4) :
    (record rep)[x]? ≠ some 0 := by
  have hat : (record rep)[x]? = rep.client.1[x - 4]? := by
    rw [record, CString.buffer]
    simp only [append_assoc]
    rw [getElem?_append_right (by simpa using hlow),
      getElem?_append_left (by rw [length_intOctets]; omega), length_intOctets]
  rw [hat]
  exact fun h => rep.client.2 (mem_of_getElem? h)

theorem record_server (hlow : rep.client.1.length + 9 ≤ x)
    (hhigh : x < rep.client.1.length + 9 + rep.server.1.length) : (record rep)[x]? ≠ some 0 := by
  have hfront : (intOctets (Int32.ofNat (rep.client.1.length + 1)) ++ rep.client.buffer ++
      intOctets (Int32.ofNat (rep.server.1.length + 1))).length = rep.client.1.length + 9 := by
    simp only [length_append, length_intOctets, length_buffer]
    omega
  have hat : (record rep)[x]? = rep.server.1[x - (rep.client.1.length + 9)]? := by
    rw [record, show rep.server.buffer = rep.server.1 ++ [0] from rfl, append_assoc, append_assoc,
      getElem?_append_right (by rw [hfront]; exact hlow), hfront, append_assoc,
      getElem?_append_left (by omega)]
  rw [hat]
  exact fun h => rep.server.2 (mem_of_getElem? h)

theorem last_octet_zero {bs : Octets} {n : Nat} (hlen : n + 4 ≤ bs.length)
    (hpos : 0 < octetsInt ((bs.drop n).take 4))
    (hlt : (octetsInt ((bs.drop n).take 4)).toNatClampNeg < 2 ^ 24) :
    bs[n + 3]? = some 0 := by
  have htake : ∃ a b c d, (bs.drop n).take 4 = [a, b, c, d] ∧ bs[n + 3]? = some d := by
    match h : bs.drop n with
    | a :: b :: c :: d :: rest =>
      refine ⟨a, b, c, d, rfl, ?_⟩
      rw [← getElem?_drop, h]
      rfl
    | [] | [_] | [_, _] | [_, _, _] =>
      have := congrArg List.length h
      simp at this
      omega
  obtain ⟨a, b, c, d, hbs, hd⟩ := htake
  rw [hbs] at hpos hlt
  rw [hd, octetsInt_last hpos hlt]

theorem take_record_client (hk : 4 ≤ k) :
    ((record rep).take k).take 4 = intOctets (Int32.ofNat (rep.client.1.length + 1)) := by
  rw [take_take, Nat.min_eq_left hk]
  exact take_left' (length_intOctets _)

theorem take_record_server (hk : rep.client.1.length + 9 ≤ k) :
    (((record rep).take k).drop (4 + (rep.client.1.length + 1))).take 4 =
      intOctets (Int32.ofNat (rep.server.1.length + 1)) := by
  simp only [record, append_assoc]
  rw [drop_take, take_take, Nat.min_eq_left (by omega), ← append_assoc,
    drop_left' (by simp), take_left' (length_intOctets _)]

theorem not_fetchable_take (hint : (record rep).length ≤ maxFile)
    (hcut : k + 4 ≤ (record rep).length) : ¬Fetchable ((record rep).take k) := by
  have hmax : (record rep).length < 2 ^ 31 := Nat.lt_of_le_of_lt hint (by decide)
  rw [length_record] at hcut hmax
  have hk : ((record rep).take k).length = k := by
    rw [length_take, length_record]
    omega
  rintro ⟨-, -, hlen⟩
  rw [take_record_client (by omega), octetsInt_intOctets,
    Int32.toNatClampNeg_ofNat_of_lt (by omega)] at hlen
  rw [take_record_server (by omega), octetsInt_intOctets,
    Int32.toNatClampNeg_ofNat_of_lt (by omega)] at hlen
  omega

/-- Nor are its octets, if others have been written over the first of them. The
last octets of both lengths would be zeros, the second one in front of the
server's name, and so the first one in the client's name. -/
theorem not_fetchable_drop {j : Nat} (hcut : k + 4 ≤ (record rep).length) (hk : k ≤ 2 ^ 24)
    (hj : 0 < j) : ¬Fetchable (((record rep).take k).drop j) := by
  rw [length_record] at hcut
  have hat : ∀ x, j + x < k → (((record rep).take k).drop j)[x]? = (record rep)[j + x]? := by
    intro x hx
    rw [getElem?_drop, getElem?_take, if_pos hx]
  have hrest : (((record rep).take k).drop j).length = k - j := by
    rw [length_drop, length_take, length_record]
    omega
  rintro ⟨hcli, hsrv, hlen⟩
  set n := (octetsInt ((((record rep).take k).drop j).take 4)).toNatClampNeg with hn
  set m := (octetsInt (((((record rep).take k).drop j).drop (4 + n)).take 4)).toNatClampNeg with hm
  have hnpos : 0 < n := by
    have hpos := Int32.lt_iff_toInt_lt.mp hcli
    exact Int.lt_toNat.mpr hpos
  have hfirst := @last_octet_zero (((record rep).take k).drop j) 0 (by omega) hcli
    (by rw [drop_zero]; omega)
  have hsecond := @last_octet_zero (((record rep).take k).drop j) (4 + n) (by omega) hsrv
    (by omega)
  rw [hat _ (by omega)] at hfirst hsecond
  have hfront : j + (4 + n + 3) < rep.client.1.length + 9 := by
    by_contra hbehind
    exact record_server (by omega) (by omega) hsecond
  exact record_client (by omega) (by omega) hfirst

/-- What is left of the beginning of a record, cut before its time. -/
def Leftover (tail : Octets) : Prop :=
  ∃ rep k j, (record rep).length ≤ maxFile ∧ k + 4 ≤ (record rep).length ∧ k ≤ 2 ^ 24 ∧
    tail = ((record rep).take k).drop j

theorem leftover_tails : Tails Leftover where
  nil := ⟨⟨⟨[], by simp⟩, ⟨[], by simp⟩, 0, 0⟩, 0, 0, by decide, by decide, by decide, rfl⟩
  drop := by
    rintro _ n ⟨rep, k, j, hint, hcut, hk, rfl⟩
    exact ⟨rep, k, j + n, hint, hcut, hk, drop_drop⟩
  stops := by
    rintro _ ⟨rep, k, j, hint, hcut, hk, rfl⟩
    rcases Nat.eq_zero_or_pos j with rfl | hj
    · exact not_fetchable_take hint hcut
    · exact not_fetchable_drop hcut hk hj

end Beginning

/-! ## Runs -/

/-- A file with the header, whole records and the first `k` octets of one more. -/
structure Crashed (fs : Fs) (name : Octets) (lifespan : Deltat) (i : Nat)
    (reps : List DonotReplay) (rep : DonotReplay) (k : Nat) : Prop where
  dir : fs.dir name = some i
  data : fs.data i = image lifespan reps ++ (record rep).take k
  size : (fs.data i).length ≤ maxFile
  cut : k < (record rep).length
  int : (record rep).length ≤ maxFile

/-- A call without an error, other than an explicit `krb5_rc_dfl_expunge`. -/
def RecoveryStep (clock : Clock) (context : Context) (name : Octets) (m : Machine) (e : Event)
    (m' : Machine) : Prop :=
  Step clock context name m e m' ∧ Quiet e.code ∧ e.op ≠ .expunge

def Machine.recover (clock : Clock) (context : Context) (name : Octets) (m : Machine) : Proc :=
  ((dflRecover clock context).run (m.proc (dflResolve (some name)))).2

/-- A recovery restores exactly these authenticators, as far as they are alive:
one that is missing has been found expired, and one that is there is one of
them and has been found alive. -/
def Restores (clock : Clock) (context : Context) (name : Octets) (lifespan : Deltat)
    (m : Machine) (entered : DonotReplay → Prop) : Prop :=
  (∀ r, entered r → r ∈ (m.recover clock context name).t.tab.a ∨
    ExpiredBy clock lifespan r (m.recover clock context name).ticks) ∧
  ∀ r ∈ (m.recover clock context name).t.tab.a, entered r ∧
    LiveIn clock lifespan r m.ticks (m.recover clock context name).ticks

theorem Present.restores {P : Octets → Prop} {clock : Clock} {context : Context} {name : Octets}
    {lifespan : Deltat} {i : Nat} {old reps : List DonotReplay} {es : List Event} {m : Machine}
    (hP : Tails P) (h : Present P old clock context name lifespan i reps es m) :
    Restores clock context name lifespan m (Entered old es) := by
  obtain ⟨-, i', reps', hcalled, hsynced, hlive⟩ := @dflRecover_wp P clock name lifespan context
    (m.proc (dflResolve (some name))) i reps hP h.file rfl h.span
  constructor
  · intro r hr
    rcases h.stored r hr with hin | hexpired
    · exact (hcalled.kept r hin).elim (hsynced.table r) .inr
    · exact .inr (hexpired.mono hcalled.ticks)
  · intro r hr
    refine ⟨h.only r ?_, (hlive r hr).resolve_left not_mem_nil⟩
    rcases hcalled.onlyTable r hr with hin | hin | hin
    · exact absurd hin not_mem_nil
    · exact hin
    · exact absurd hin not_mem_nil

/-- After a crash that cut a record before its time, every recovery restores the
whole records of the file and all that has been stored since. -/
theorem crash_run {clock : Clock} {context : Context} {name : Octets} {lifespan : Deltat}
    {i : Nat} {reps : List DonotReplay} {rep : DonotReplay} {k : Nat} {fs : Fs}
    {es : List Event} {m : Machine} (hfile : Crashed fs name lifespan i reps rep k)
    (hspan : orClockskew context lifespan = lifespan) (hcut : k + 4 ≤ (record rep).length)
    (hk : k ≤ 2 ^ 24) (hrun : Run (RecoveryStep clock context name) ⟨fs, 0, none⟩ es m) :
    Restores clock context name lifespan m (Entered reps es) := by
  have hinv : ∃ i' reps', Present Leftover reps clock context name lifespan i' reps' es m := by
    refine hrun.history (fun es m => ∃ i' reps',
      Present Leftover reps clock context name lifespan i' reps' es m) ⟨i, reps, ?_⟩ ?_
    · have htail : Leftover ((record rep).take k) := ⟨rep, k, 0, hfile.int, hcut, hk, rfl⟩
      exact
        { file := ⟨hfile.dir, ⟨_, htail, hfile.data⟩, hfile.size⟩
          span := hspan
          inits := by simp [Done]
          stored := fun r hr => .inl (hr.resolve_right (by simp [Done]))
          only := fun r hr => .inl hr
          idle := by simp
          onlyTable := by simp
          synced := by simp }
    · rintro es m e m' ⟨i', reps', h⟩ ⟨hstep, hquiet, hop⟩
      exact h.step leftover_tails hstep hquiet fun hexp => absurd hexp hop
  obtain ⟨i', reps', h⟩ := hinv
  exact h.restores leftover_tails

/-- A file with the first `k` octets of a record behind the header. -/
def crashedFs (k : Nat) : Fs where
  data _ := image 300 [] ++ (record (smallRep 1000)).take k
  dir n := if n = smallName then some 0 else none
  next := 1
  dir_lt := by
    intro n i h
    split at h
    · cases h
      decide
    · cases h

theorem crashed_crashedFs (hk : k < 24) :
    Crashed (crashedFs k) smallName 300 0 [] (smallRep 1000) k where
  dir := rfl
  data := rfl
  size := by
    have hhdr : (image 300 []).length = 6 := rfl
    have hmax : maxFile = 2 ^ 31 - 1 := rfl
    simp only [crashedFs, length_append, length_take]
    omega
  cut := hk
  int := by decide

theorem recoveryRun_of_play (ops : List Op) (hops : Op.expunge ∉ ops)
    (hplay : (play (stillClock 0 0 500) smallContext smallName ops ⟨crashedFs k, 0, none⟩).1 =
      ops.map (⟨·, .ok ()⟩)) :
    ∃ m, Run (RecoveryStep (stillClock 0 0 500) smallContext smallName) ⟨crashedFs k, 0, none⟩
        (ops.map (⟨·, .ok ()⟩)) m ∧
      m = (play (stillClock 0 0 500) smallContext smallName ops ⟨crashedFs k, 0, none⟩).2 := by
  refine ⟨_, ?_, rfl⟩
  rw [← hplay]
  refine run_trace (P := fun e => Quiet e.code ∧ e.op ≠ .expunge) (fun _ _ h => ⟨rfl, h⟩) ops ?_
  intro e he
  rw [show (trace _ _ _).1 = _ from hplay, mem_map] at he
  obtain ⟨op, hop, rfl⟩ := he
  exact ⟨.inl rfl, fun h => hops (h ▸ hop)⟩

/-- A record cut in the server's name, and another one stored over it: the next
recovery finds the second. -/
theorem crash_run_stores :
    ∃ es m, Done es (.store (smallRep 500)) ∧
      Restores (stillClock 0 0 500) smallContext smallName 300 m (Entered [] es) ∧
      (m.recover (stillClock 0 0 500) smallContext smallName).t.tab.a = [smallRep 500] := by
  obtain ⟨m, hrun, hm⟩ := @recoveryRun_of_play 14 [.resolve, .recover, .store (smallRep 500)]
    (by simp) rfl
  have hrestores := crash_run (crashed_crashedFs (by decide)) (by decide) (by decide) (by decide)
    hrun
  exact ⟨_, m, by simp [Done], hrestores, by rw [hm]; decide +kernel⟩

/-- A record with one octet of its time. Recovery restores it, with another time;
and of what is stored behind it the next recovery finds nothing. -/
theorem crash_confuses :
    Crashed (crashedFs 21) smallName 300 0 [] (smallRep 1000) 21 ∧
    ¬Restores (stillClock 0 0 500) smallContext smallName 300 ⟨crashedFs 21, 0, none⟩
      (Entered [] []) ∧
    ∃ es m, Run (RecoveryStep (stillClock 0 0 500) smallContext smallName)
        ⟨crashedFs 21, 0, none⟩ es m ∧ Done es (.store (smallRep 500)) ∧
      ¬((smallRep 500) ∈ (m.recover (stillClock 0 0 500) smallContext smallName).t.tab.a ∨
        ExpiredBy (stillClock 0 0 500) 300 (smallRep 500)
          (m.recover (stillClock 0 0 500) smallContext smallName).ticks) := by
  refine ⟨crashed_crashedFs (by decide), ?_, ?_⟩
  · intro h
    have hbogus : smallRep 232 ∈ (Machine.recover (stillClock 0 0 500) smallContext smallName
        ⟨crashedFs 21, 0, none⟩).t.tab.a := by decide +kernel
    simpa [Entered, Done] using (h.2 _ hbogus).1
  obtain ⟨m, hrun, hm⟩ := @recoveryRun_of_play 21 [.resolve, .recover, .store (smallRep 500)]
    (by simp) rfl
  refine ⟨_, m, hrun, by simp [Done], ?_⟩
  rintro (hin | ⟨n, -, hexpired⟩)
  · rw [hm] at hin
    exact absurd hin (by decide +kernel)
  · simp only [aliveAt, stillClock, Nat.not_lt_zero] at hexpired
    exact absurd hexpired (by decide +kernel)

end Krb5.Rcache
