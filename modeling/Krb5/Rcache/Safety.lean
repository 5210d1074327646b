import Krb5.Rcache.StepFacts

/-!
# Replays are refused

One process and its cache, over whole runs. Two things are asked of the calls. The sum of time and
lifespan must not overflow, since a record whose sum does counts as expired at once; and a cache
must not be expunged through a handle that has neither been initialised nor recovered, since the
file then gets the clock skew for a lifespan.
-/

namespace Krb5.Rcache

open Lib List

/-- No error but the refusal of a replay. -/
def Quiet (code : Except RcCode Unit) : Prop := code = .ok () ∨ code = .error .apErrRepeat

/-- The lifespan in the file of that name. -/
def fileLifespan (fs : Fs) (name : Octets) : Option Deltat :=
  (fs.dir name).map fun i => octetsInt (readAt (fs.data i) rcVno.length 4)

/-- What is asked of a call. -/
def Careful (context : Context) (name : Octets) (m : Machine) (op : Op) : Prop :=
  ∀ t, m.h = some t →
    (∀ rep, op = .store rep → rep.ctime.toInt + t.lifespan.toInt < 2 ^ 31) ∧
    (op = .expunge → fileLifespan m.fs name = some (orClockskew context t.lifespan))

def CarefulStep (clock : Clock) (context : Context) (name : Octets) (m : Machine) (e : Event)
    (m' : Machine) : Prop :=
  Step clock context name m e m' ∧ Quiet e.code ∧ Careful context name m e.op

variable {lifespan : Deltat} {reps old : List DonotReplay} {es : List Event} {e : Event}

theorem fileLifespan_of_holds {P : Octets → Prop} {fs : Fs} {name : Octets} {i : Nat}
    (h : HoldsUpTo P fs name lifespan i reps) : fileLifespan fs name = some lifespan := by
  obtain ⟨tail, -, hdata⟩ := h.data
  have hread := readAt_append (intOctets lifespan) rcVno (reps.flatMap record ++ tail)
  rw [length_intOctets] at hread
  rw [fileLifespan, h.dir, Option.map_some, hdata, image, header, append_assoc, hread,
    octetsInt_intOctets]

def Done (es : List Event) (op : Op) : Prop := ⟨op, .ok ()⟩ ∈ es

/-! ## The invariant -/

structure Absent (name : Octets) (es : List Event) (m : Machine) : Prop where
  dir : m.fs.dir name = none
  inits : ∀ span, ¬Done es (.init span)
  stores : ∀ rep, ¬Done es (.store rep)
  handle : ∀ t, m.h = some t → t.name = some name ∧ t.recovering = false ∧
    t.tab.a = [] ∧ t.d.fd = none

def Entered (old : List DonotReplay) (es : List Event) (rep : DonotReplay) : Prop :=
  rep ∈ old ∨ Done es (.store rep)

/-- Once there is one: it holds what it held before the first call (`old`) and
what was stored, as far as it has not been found expired, and so does the table
of a handle that is open. -/
structure Present (P : Octets → Prop) (old : List DonotReplay) (clock : Clock)
    (context : Context) (name : Octets) (lifespan : Deltat) (i : Nat) (reps : List DonotReplay)
    (es : List Event) (m : Machine) : Prop where
  file : HoldsUpTo P m.fs name lifespan i reps
  span : orClockskew context lifespan = lifespan
  inits : ∀ span, Done es (.init span) → orClockskew context span = lifespan
  stored : ∀ rep, Entered old es rep → rep ∈ reps ∨ ExpiredBy clock lifespan rep m.ticks
  only : ∀ r ∈ reps, Entered old es r
  idle : ∀ t, m.h = some t → Idle name lifespan t
  onlyTable : ∀ t, m.h = some t → ∀ r ∈ t.tab.a, Entered old es r
  synced : ∀ t, m.h = some t → t.d.fd = none ∨ Synced P clock name lifespan i reps (m.proc t)

/-- No sum of time and lifespan overflows. -/
def Small (lifespan : Deltat) (es : List Event) : Prop :=
  ∀ rep, Done es (.store rep) → rep.ctime.toInt + lifespan.toInt < 2 ^ 31

theorem done_snoc {op : Op} : Done (es ++ [e]) op ↔ Done es op ∨ e = ⟨op, .ok ()⟩ := by
  simp [Done, eq_comm]

variable {rep : DonotReplay}

theorem entered_snoc :
    Entered old (es ++ [e]) rep ↔ Entered old es rep ∨ e = ⟨.store rep, .ok ()⟩ := by
  rw [Entered, done_snoc, Entered, or_assoc]

section Steps

variable {P : Octets → Prop} {clock : Clock} {context : Context} {name : Octets} {i : Nat}
  {m m' : Machine}

theorem Present.sound {op : Op} (h : Present P old clock context name lifespan i reps es m)
    (hexpunge : op = .expunge → ∀ t, m.h = some t →
      fileLifespan m.fs name = some (orClockskew context t.lifespan)) :
    Sound P context name lifespan m i reps op where
  file := h.file
  span := h.span
  idle := h.idle
  expunge hop t ht := by
    have hspan := hexpunge hop t ht
    rw [fileLifespan_of_holds h.file] at hspan
    exact (Option.some.inj hspan).symm
  store rep _ t ht := .inr ((h.synced t ht).imp_right Synced.loaded)

variable {code : Except RcCode Unit} {t : Dfl} {s' s : Proc}

theorem Quiet.defined (h : Quiet code) : code ≠ .error .undefined := by
  rcases h with rfl | rfl <;> simp

/-- A step keeps the invariant of a file that is there. -/
theorem Present.step (hP : Tails P) (h : Present P old clock context name lifespan i reps es m)
    (hstep : Step clock context name m e m') (hquiet : Quiet e.code)
    (hexpunge : e.op = .expunge → ∀ t, m.h = some t →
      fileLifespan m.fs name = some (orClockskew context t.lifespan)) :
    ∃ i' reps', Present P old clock context name lifespan i' reps' (es ++ [e]) m' := by
  obtain ⟨i', reps', hp⟩ := (h.sound hexpunge).progress hP hstep
  -- what a quiet store concerns has been stored, now or before
  have hnow : ∀ r, e.op = .store r → Entered old (es ++ [e]) r := by
    intro r hop
    obtain ⟨t, ht⟩ := hstep.handle hop hquiet.defined
    rcases hquiet with hok | hrepeat
    · refine entered_snoc.mpr (.inr ?_)
      rw [← hop, ← hok]
    · exact entered_snoc.mpr (.inl (h.onlyTable t ht r ((hp.refused r hop t ht).mp hrepeat)))
  have hold : ∀ r, (∃ t, m.h = some t ∧ r ∈ t.tab.a) ∨ r ∈ reps ∨ e.op = .store r →
      Entered old (es ++ [e]) r := by
    rintro r (⟨t, ht, hr⟩ | hr | hr)
    · exact entered_snoc.mpr (.inl (h.onlyTable t ht r hr))
    · exact entered_snoc.mpr (.inl (h.only r hr))
    · exact hnow r hr
  refine ⟨i', reps', hp.file, h.span, ?_, ?_, fun r hr => hold r (hp.only r hr), hp.idle,
    fun t' ht' r hr => hold r (hp.onlyTable t' ht' r hr), hp.synced h.synced⟩
  · intro span hdone
    rcases done_snoc.mp hdone with hdone | rfl
    · exact h.inits span hdone
    · exact absurd rfl (hp.inits span rfl)
  · intro rep hentered
    rcases entered_snoc.mp hentered with hentered | rfl
    · exact (h.stored rep hentered).elim (hp.kept rep) fun hexp => .inr (hexp.mono hp.ticks)
    · exact hp.stored rep rfl rfl

theorem Small.step (hP : Tails P) (hsmall : Small lifespan es)
    (h : Present P old clock context name lifespan i reps es m)
    (hstep : Step clock context name m e m') (hcareful : Careful context name m e.op) :
    Small lifespan (es ++ [e]) := by
  intro rep hdone
  rcases done_snoc.mp hdone with hdone | rfl
  · exact hsmall rep hdone
  obtain ⟨i', reps', hp⟩ := (h.sound (by simp)).progress hP hstep
  obtain ⟨t, ht⟩ := hstep.handle rfl (by simp)
  rw [← ((h.idle t ht).opened (hp.opened rep rfl rfl t ht)).1]
  exact (hcareful t ht).1 rep rfl

/-! Without a file, only `krb5_rc_dfl_init` gets anywhere. -/

theorem dflRecover_missing (hname : s.t.name = some name) (hdir : s.fs.dir name = none) :
    wp (dflRecover clock context) (fun r _ => r = .error .ioUnknown) s := by
  rw [dflRecover, wp_get_bind, hname]
  have hopen : (ioOpen name).run s = (.error .ioUnknown, s.closeD) := by
    rw [ioOpen, bind_of_ok run_get, hdir]
    rfl
  rw [wp, bind_of_error hopen]

theorem dflStore_closed {rep : DonotReplay} (hout : rep ∉ s.t.tab.a) (hfd : s.t.d.fd = none) :
    wp (dflStore clock context rep) (fun r _ => r = .error .ioUnknown) s := by
  refine wp_seq (rcStore_wp rep s) ?_ fun _ _ h => h.elim
  rintro found s₁ ⟨hfound, -, -, hd⟩
  cases found with
  | true => exact absurd (hfound.mp rfl) hout
  | false =>
    have hwrite : (ioStore rep).run s₁ = (.error .ioUnknown, s₁) := by
      simp [ioStore, ioWrite, hd, hfd]
    rw [wp_bind_of_ok (show (Action.failIf false _ : Rc Unit).run s₁ = (.ok (), s₁) from rfl),
      wp, bind_of_error hwrite]

theorem quiet_call {x : Rc Unit} (hcall : call x m = (code, m')) (hquiet : Quiet code) :
    ∃ t, m.h = some t ∧ ∃ s', x.run (m.proc t) = (code, s') ∧ m' = ⟨s'.fs, s'.ticks, some s'.t⟩ := by
  cases hh : m.h with
  | none =>
    simp only [call, hh] at hcall
    cases hcall
    exact absurd rfl hquiet.defined
  | some t =>
    simp only [call, hh] at hcall
    cases hcall
    exact ⟨t, rfl, _, rfl, rfl⟩

theorem orClockskew_orClockskew (span : Deltat) :
    orClockskew context (orClockskew context span) = orClockskew context span := by
  simp only [orClockskew]
  split <;> simp_all

def Inv (clock : Clock) (context : Context) (name : Octets) (es : List Event) (m : Machine) :
    Prop :=
  Absent name es m ∨ ∃ lifespan i reps,
    Present Whole [] clock context name lifespan i reps es m ∧ Small lifespan es

section

variable (h : Absent name es m) {span : Deltat}
include h

theorem Absent.stores_snoc_init (rep : DonotReplay) :
    ¬Done (es ++ [⟨.init span, .ok ()⟩]) (.store rep) := by
  intro hdone
  rcases done_snoc.mp hdone with hdone | heq
  · exact h.stores rep hdone
  · cases heq

theorem Absent.init (ht : m.h = some t)
    (hrun : (dflInit context span).run (m.proc t) = (.ok (), s')) :
    Present Whole [] clock context name (orClockskew context span) m.fs.next []
      (es ++ [⟨.init span, .ok ()⟩]) ⟨s'.fs, s'.ticks, some s'.t⟩ := by
  obtain ⟨hname, hrec, htab, -⟩ := h.handle t ht
  have hfree : creatName m.fs context.pid t.name = some name := by
    simp [hname, creatName, h.dir]
  obtain ⟨s₁, hrun₁, hend, hcreated, hspan⟩ := @dflInit_run context (m.proc t) span name hfree
  obtain rfl : s₁ = s' := by simpa using hrun₁.symm.trans hrun
  have hfile : HoldsUpTo Whole s₁.fs name (orClockskew context span) m.fs.next [] :=
    ⟨by rw [hcreated.dir, if_pos rfl]; rfl, by exact hend.data, hend.size⟩
  refine ⟨hfile, orClockskew_orClockskew span, ?_, ?_, by simp, ?_, ?_, ?_⟩
  · intro span' hdone
    rcases done_snoc.mp hdone with hdone | heq
    · exact absurd hdone (h.inits span')
    · cases heq
      rfl
  · intro rep hentered
    exact absurd ((hentered.resolve_left not_mem_nil)) (h.stores_snoc_init rep)
  · rintro t' ⟨rfl⟩
    exact ⟨by rw [hcreated.t], by rw [hcreated.t]; exact hrec, fun _ => ⟨hspan, by rw [hcreated.t]⟩⟩
  · rw [hcreated.t]
    simp [Machine.proc, htab]
  · rintro t' ⟨rfl⟩
    refine .inr ⟨⟨hfile, by exact hend.fd, ?_, ?_, hspan⟩, by simp⟩
    · show s₁.t.d.fn = some name
      rw [hcreated.t]
    · show s₁.t.name = some name
      rw [hcreated.t]

theorem Absent.snoc (hfs : m'.fs = m.fs)
    (hinit : ∀ span, e.op ≠ .init span) (hstore : ∀ rep, e.op ≠ .store rep)
    (hh : ∀ t, m'.h = some t → t = dflResolve (some name)) : Absent name (es ++ [e]) m' where
  dir := by rw [hfs]; exact h.dir
  inits span hdone := by
    rcases done_snoc.mp hdone with hdone | rfl
    · exact h.inits span hdone
    · exact hinit span rfl
  stores rep hdone := by
    rcases done_snoc.mp hdone with hdone | rfl
    · exact h.stores rep hdone
    · exact hstore rep rfl
  handle t ht := by
    rw [hh t ht]
    exact ⟨rfl, rfl, rfl, rfl⟩

theorem Absent.store_not_quiet {rep : DonotReplay} (ht : m.h = some t)
    (hrun : (dflStore clock context rep).run (m.proc t) = (code, s')) : ¬Quiet code := by
  obtain ⟨-, -, htab, hfd⟩ := h.handle t ht
  have hcode := wp_run (@dflStore_closed clock context (m.proc t) rep
    (by simp [Machine.proc, htab]) hfd) hrun
  simp [Quiet, hcode]

theorem Absent.recover_not_quiet (ht : m.h = some t)
    (hrun : (dflRecover clock context).run (m.proc t) = (code, s')) : ¬Quiet code := by
  have hcode := wp_run (@dflRecover_missing clock context name (m.proc t) (h.handle t ht).1
    h.dir) hrun
  simp [Quiet, hcode]

/-- A step without a file keeps the invariant; `init` makes one. -/
theorem Absent.step (hstep : Step clock context name m e m')
    (hquiet : Quiet e.code) (hcareful : Careful context name m e.op) :
    Inv clock context name (es ++ [e]) m' := by
  obtain ⟨op, code⟩ := e
  rw [Step] at hstep
  cases op with
  | resolve =>
    cases hstep
    exact .inl (h.snoc rfl (by simp) (by simp) (by simp))
  | close =>
    cases hstep
    exact .inl (h.snoc rfl (by simp) (by simp) (by simp))
  | init span =>
    rw [exec] at hstep
    obtain ⟨t, ht, s', hrun, rfl⟩ := quiet_call hstep hquiet
    obtain ⟨hname, -⟩ := h.handle t ht
    have hfree : creatName m.fs context.pid t.name = some name := by
      simp [hname, creatName, h.dir]
    obtain ⟨s₁, hrun₁, -⟩ := @dflInit_run context (m.proc t) span name hfree
    obtain ⟨rfl, rfl⟩ : Except.ok () = code ∧ s₁ = s' := by
      simpa using hrun₁.symm.trans hrun
    exact .inr ⟨_, _, _, h.init ht hrun₁, fun rep hdone => absurd hdone (h.stores_snoc_init rep)⟩
  | recover =>
    rw [exec] at hstep
    obtain ⟨t, ht, s', hrun, rfl⟩ := quiet_call hstep hquiet
    exact absurd hquiet (h.recover_not_quiet ht hrun)
  | store rep =>
    rw [exec] at hstep
    obtain ⟨t, ht, s', hrun, rfl⟩ := quiet_call hstep hquiet
    exact absurd hquiet (h.store_not_quiet ht hrun)
  | expunge =>
    rw [exec] at hstep
    obtain ⟨t, ht, -⟩ := quiet_call hstep hquiet
    have hspan := (hcareful t ht).2 rfl
    simp [fileLifespan, h.dir] at hspan

end

end Steps

/-! ## Runs -/

/-- Before the first call: no handle, and no file under the name. -/
def Fresh (name : Octets) (m : Machine) : Prop := m.fs.dir name = none ∧ m.h = none

/-- In every run of careful calls without an error, an authenticator that was
stored is refused as long as its lifespan lasts, and one that was not stored is
not. `now` is the time of the call, which is not before any the clock has shown. -/
theorem rcache_run {clock : Clock} {context : Context} {name : Octets} {es : List Event}
    {m₀ m : Machine} (hstart : Fresh name m₀)
    (hrun : Run (CarefulStep clock context name) m₀ es m) :
    ∀ rep code m', Step clock context name m ⟨.store rep, code⟩ m' → Quiet code →
      (∀ span now, Done es (.init span) → Done es (.store rep) →
        (∀ n < m.ticks, clock.time n ≤ now) →
        now.toInt ≤ rep.ctime.toInt + (orClockskew context span).toInt →
        code = .error .apErrRepeat) ∧
      (¬Done es (.store rep) → code ≠ .error .apErrRepeat) := by
  have hinv : Inv clock context name es m := by
    refine hrun.history (Inv clock context name) (.inl ?_) ?_
    · exact ⟨hstart.1, by simp [Done], by simp [Done], by simp [hstart.2]⟩
    rintro es t e u (h | ⟨lifespan, i, reps, h, hsmall⟩) ⟨hstep, hquiet, hcareful⟩
    · exact h.step hstep hquiet hcareful
    · obtain ⟨i', reps', h'⟩ := h.step whole_tails hstep hquiet fun hop t ht => (hcareful t ht).2 hop
      exact .inr ⟨lifespan, i', reps', h', hsmall.step whole_tails h hstep hcareful⟩
  intro rep code m' hstep hquiet
  rcases hinv with h | ⟨lifespan, i, reps, h, hsmall⟩
  · -- without a file there is no quiet store
    rw [Step, exec] at hstep
    obtain ⟨t, ht, s', hrun, rfl⟩ := quiet_call hstep hquiet
    exact absurd hquiet (h.store_not_quiet ht hrun)
  obtain ⟨t, ht⟩ := hstep.handle rfl hquiet.defined
  obtain ⟨i', reps', hp⟩ := (h.sound (by simp)).progress whole_tails hstep
  have hrefused := hp.refused rep rfl t ht
  refine ⟨fun span now hinit hstored hnow hlast => ?_, fun hnever hcode => ?_⟩
  · rw [h.inits span hinit] at hlast
    have halive : ¬ExpiredBy clock lifespan rep m.ticks := by
      intro hexpired
      have := hexpired.passed hnow (hsmall rep hstored)
      omega
    rcases hquiet with hok | hrepeat
    · have hsynced := (h.synced t ht).resolve_left (hp.opened rep rfl hok t ht)
      have hin := (h.stored rep (.inr hstored)).resolve_right halive
      exact hrefused.mpr ((hsynced.table rep hin).resolve_right halive)
    · exact hrepeat
  · exact hnever ((h.onlyTable t ht rep (hrefused.mp hcode)).resolve_left not_mem_nil)

/-! A small cache: the calls made on it, and what they return. -/

def play (clock : Clock) (context : Context) (name : Octets) : List Op → Machine →
    List Event × Machine :=
  trace fun op m => (⟨op, (exec clock context name op m).1⟩, (exec clock context name op m).2)

/-- A clock that stands still, up to reading `k` and after it. -/
def stillClock (k : Nat) (before after : Timestamp) : Clock :=
  ⟨fun n => if n < k then before else after, fun _ => false⟩

def emptyMachine : Machine := ⟨⟨fun _ => [], fun _ => none, 0, by simp⟩, 0, none⟩

def smallContext : Context := ⟨100, ascii "1", fun _ => 0⟩

def smallName : Octets := ascii "rc"

def smallRep (ctime : Timestamp) : DonotReplay :=
  ⟨⟨ascii "host", by decide⟩, ⟨ascii "me", by decide⟩, 7, ctime⟩

/-- A cache with one authenticator, which is then refused. -/
theorem rcache_run_refuses :
    ∃ es m m' code, Run (CarefulStep (stillClock 0 0 1000) smallContext smallName)
        emptyMachine es m ∧
      Step (stillClock 0 0 1000) smallContext smallName m ⟨.store (smallRep 1000), code⟩ m' ∧
      code = .error .apErrRepeat := by
  let next (op : Op) (m : Machine) := (exec (stillClock 0 0 1000) smallContext smallName op m).2
  let m₁ := next .resolve emptyMachine
  let m₂ := next (.init 300) m₁
  let m₃ := next (.store (smallRep 1000)) m₂
  have hresolve : CarefulStep (stillClock 0 0 1000) smallContext smallName emptyMachine
      ⟨.resolve, .ok ()⟩ m₁ := ⟨rfl, .inl rfl, by simp [Careful]⟩
  have hinit : CarefulStep (stillClock 0 0 1000) smallContext smallName m₁
      ⟨.init 300, .ok ()⟩ m₂ := ⟨rfl, .inl rfl, by simp [Careful]⟩
  have hstore : CarefulStep (stillClock 0 0 1000) smallContext smallName m₂
      ⟨.store (smallRep 1000), .ok ()⟩ m₃ := by
    refine ⟨rfl, .inl rfl, ?_⟩
    rintro t ⟨rfl⟩
    refine ⟨?_, by simp⟩
    rintro rep ⟨rfl⟩
    decide
  have hagain : Step (stillClock 0 0 1000) smallContext smallName m₃
      ⟨.store (smallRep 1000), .error .apErrRepeat⟩ (next (.store (smallRep 1000)) m₃) := rfl
  have hrun := ((Run.nil.snoc hresolve).snoc hinit).snoc hstore
  refine ⟨_, m₃, _, _, hrun, hagain, ?_⟩
  exact (rcache_run ⟨rfl, rfl⟩ hrun _ _ _ hagain (.inr rfl)).1 300 1000 (by simp [Done])
    (by simp [Done]) (fun n _ => by simp [stillClock]) (by decide)

/-- A run without errors that ends with a stored authenticator accepted again,
at a time within its lifespan. -/
def Forgets (clock : Clock) (span : Deltat) (rep : DonotReplay) (now : Timestamp) : Prop :=
  ∃ es m m', Run (fun m e m' => Step clock smallContext smallName m e m' ∧ Quiet e.code)
      emptyMachine es m ∧
    Done es (.init span) ∧ Done es (.store rep) ∧ (∀ n < m.ticks, clock.time n ≤ now) ∧
    now.toInt ≤ rep.ctime.toInt + (orClockskew smallContext span).toInt ∧
    Step clock smallContext smallName m ⟨.store rep, .ok ()⟩ m'

theorem forgets_of_play {clock : Clock} {span : Deltat} {now : Timestamp} (ops : List Op)
    (hplay : (play clock smallContext smallName ops emptyMachine).1 = ops.map (⟨·, .ok ()⟩))
    (hinit : Op.init span ∈ ops) (hstore : Op.store rep ∈ ops) (hnow : ∀ n, clock.time n ≤ now)
    (hlast : now.toInt ≤ rep.ctime.toInt + (orClockskew smallContext span).toInt)
    (hagain : (exec clock smallContext smallName (.store rep)
      (play clock smallContext smallName ops emptyMachine).2).1 = .ok ()) :
    Forgets clock span rep now := by
  have hall : ∀ e ∈ (play clock smallContext smallName ops emptyMachine).1, e.code = .ok () := by
    rw [hplay]
    simp
  have hrun : Run (fun m e m' => Step clock smallContext smallName m e m' ∧ Quiet e.code)
      emptyMachine (play clock smallContext smallName ops emptyMachine).1
      (play clock smallContext smallName ops emptyMachine).2 :=
    run_trace (fun _ _ hok => ⟨rfl, .inl hok⟩) ops hall
  have hdone : ∀ op ∈ ops, Done (play clock smallContext smallName ops emptyMachine).1 op := by
    intro op hop
    rw [hplay]
    exact mem_map_of_mem hop
  refine ⟨_, _, _, hrun, ?_, ?_, fun n _ => hnow n, hlast, Prod.ext hagain rfl⟩
  · exact hdone _ hinit
  · exact hdone _ hstore

/-- Two ways to have a stored authenticator accepted again within its lifespan:
its time plus the lifespan overflows, or the cache was expunged by a handle
that was only resolved. -/
theorem rcache_forgets :
    Forgets (stillClock 0 0 2147483600) 300 (smallRep 2147483600) 2147483600 ∧
    Forgets (stillClock 1 1000 1200) 300 (smallRep 1000) 1200 := by
  constructor
  · refine forgets_of_play [.resolve, .init 300, .store (smallRep 2147483600), .close, .resolve,
      .recover] rfl (by simp) (by simp) ?_ (by decide) rfl
    simp [stillClock]
  · refine forgets_of_play [.resolve, .init 300, .store (smallRep 1000), .close, .resolve, .expunge,
      .close, .resolve, .recover] rfl (by simp) (by simp) ?_ (by decide) rfl
    intro n
    simp only [stillClock]
    split <;> decide

end Krb5.Rcache
