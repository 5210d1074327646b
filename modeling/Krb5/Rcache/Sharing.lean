import Krb5.Rcache.Safety

/-!
# A cache shared by several processes

Processes write at offsets of their own, and expunging puts a new file in the
place of the one the others have open. A record is safe if the process that
stores it is at the end of the file that has the name at that moment.
-/

namespace Krb5.Rcache

open Lib List

/-- What is asked of a call by one of the processes: in addition, that it does
not write but at the end of the named file. -/
def SharedCareful (context : Context) (name : Octets) (m : Machine) (op : Op) : Prop :=
  Careful context name m op ∧
  ∀ rep, op = .store rep → ∀ t, m.h = some t → rep ∉ t.tab.a → ∀ fd, t.d.fd = some fd →
    m.fs.dir name = some fd.ino ∧ fd.off = (m.fs.data fd.ino).length

/-- A cache with that lifespan, which none of the processes would change, and
handles between calls. -/
structure Shared {ι : Type} (contexts : ι → Context) (name : Octets) (lifespan : Deltat) (i : Nat)
    (reps : List DonotReplay) (n : Net ι) : Prop where
  file : Holds n.fs name lifespan i reps
  span : ∀ p, orClockskew (contexts p) lifespan = lifespan
  idle : ∀ p t, n.h p = some t → Idle name lifespan t

/-- The store was made by one of the processes and returned zero. -/
def StoredBy {ι : Type} (es : List (ι × Event)) (rep : DonotReplay) : Prop :=
  ∃ p, (p, ⟨.store rep, .ok ()⟩) ∈ es

section Steps

variable {ι : Type} {clock : Clock} {contexts : ι → Context} {name : Octets}
  {lifespan : Deltat} {i : Nat} {reps : List DonotReplay} {n n' : Net ι} {e : ι × Event}
  {es : List (ι × Event)}

/-- The invariant: what was stored is in the file or has been found expired. -/
structure SharedInv (clock : Clock) (contexts : ι → Context) (name : Octets) (lifespan : Deltat)
    (i : Nat) (reps : List DonotReplay) (es : List (ι × Event)) (n : Net ι) : Prop where
  shared : Shared contexts name lifespan i reps n
  stored : ∀ rep, StoredBy es rep → rep ∈ reps ∨ ExpiredBy clock lifespan rep n.ticks
  small : ∀ rep, StoredBy es rep → rep.ctime.toInt + lifespan.toInt < 2 ^ 31

theorem storedBy_snoc {rep : DonotReplay} :
    StoredBy (es ++ [e]) rep ↔ StoredBy es rep ∨ e.2 = ⟨.store rep, .ok ()⟩ := by
  constructor
  · rintro ⟨p, hp⟩
    rcases mem_append.mp hp with hp | hp
    · exact .inl ⟨p, hp⟩
    · exact .inr (by rw [← mem_singleton.mp hp])
  · rintro (⟨p, hp⟩ | hp)
    · exact ⟨p, mem_append_left _ hp⟩
    · exact ⟨e.1, mem_append_right _ (by rw [← hp]; exact mem_singleton_self _)⟩

theorem Shared.sound {p : ι} {op : Op} (h : Shared contexts name lifespan i reps n)
    (hcareful : SharedCareful (contexts p) name (n.machine p) op) :
    Sound Whole (contexts p) name lifespan (n.machine p) i reps op where
  file := h.file.upTo rfl
  span := h.span p
  idle t ht := h.idle p t ht
  expunge hop t ht := by
    have hspan := (hcareful.1 t ht).2 hop
    rw [show fileLifespan (n.machine p).fs name = _ from
      fileLifespan_of_holds (h.file.upTo (P := Whole) rfl)] at hspan
    exact (Option.some.inj hspan).symm
  store rep hop t ht := by
    by_cases hin : rep ∈ t.tab.a
    · exact .inl hin
    cases hfd : t.d.fd with
    | none => exact .inr (.inl rfl)
    | some fd =>
      obtain ⟨hdir, hoff⟩ := hcareful.2 rep hop t ht hin fd hfd
      have hidle := h.idle p t ht
      obtain ⟨hspan, hfn⟩ := hidle.opened (by simp [hfd])
      obtain rfl : i = fd.ino := Option.some.inj (h.file.dir.symm.trans hdir)
      rw [show (n.machine p).fs.data fd.ino = _ from h.file.data] at hoff
      refine .inr (.inr ⟨h.file.upTo rfl, ?_, hfn, hidle.named, hspan⟩)
      rw [← hoff]
      exact hfd

/-- A call of any process keeps the invariant of all. -/
theorem SharedInv.step [DecidableEq ι] (h : SharedInv clock contexts name lifespan i reps es n)
    (hstep : NetStep clock name contexts n e n')
    (hcareful : SharedCareful (contexts e.1) name (n.machine e.1) e.2.op) :
    ∃ i' reps', SharedInv clock contexts name lifespan i' reps' (es ++ [e]) n' := by
  obtain ⟨m', hlocal, rfl⟩ := hstep
  obtain ⟨i', reps', hp⟩ := (h.shared.sound hcareful).progress whole_tails hlocal
  refine ⟨i', reps', ⟨hp.file.holds, h.shared.span, ?_⟩, ?_, ?_⟩
  · intro p t ht
    simp only [Net.put] at ht
    split at ht
    · exact hp.idle t ht
    · exact h.shared.idle p t ht
  · intro rep hrep
    rcases storedBy_snoc.mp hrep with hrep | hrep
    · exact (h.stored rep hrep).elim (hp.kept rep) fun hexp => .inr (hexp.mono hp.ticks)
    · exact hp.stored rep (by rw [hrep]) (by rw [hrep])
  · intro rep hrep
    rcases storedBy_snoc.mp hrep with hrep | hrep
    · exact h.small rep hrep
    have hop : e.2.op = .store rep := by rw [hrep]
    have hcode : e.2.code = .ok () := by rw [hrep]
    obtain ⟨t, ht⟩ := hlocal.handle hop (by simp [hcode])
    rw [← ((h.shared.idle e.1 t ht).opened (hp.opened rep hop hcode t ht)).1]
    exact (hcareful.1 t ht).1 rep hop

end Steps

/-! ## Runs -/

/-- A careful step of one of the processes. -/
def SharedStep {ι : Type} [DecidableEq ι] (clock : Clock) (contexts : ι → Context)
    (name : Octets) (n : Net ι) (e : ι × Event) (n' : Net ι) : Prop :=
  NetStep clock name contexts n e n' ∧
    SharedCareful (contexts e.1) name (n.machine e.1) e.2.op

/-- What one of the processes finds when it resolves the cache and recovers it. -/
def Net.recover {ι : Type} (clock : Clock) (contexts : ι → Context) (name : Octets) (n : Net ι)
    (p : ι) : Proc :=
  ((dflRecover clock (contexts p)).run ⟨n.fs, n.ticks, dflResolve (some name)⟩).2

/-- In every interleaving of careful calls, an authenticator that one of the
processes stored is found by every later recovery, as long as its lifespan
lasts. -/
theorem shared_run {ι : Type} [DecidableEq ι] {clock : Clock} {contexts : ι → Context}
    {name : Octets} {lifespan : Deltat} {i : Nat} {reps : List DonotReplay} {n₀ n : Net ι}
    {es : List (ι × Event)} (hstart : Shared contexts name lifespan i reps n₀)
    (hrun : Run (SharedStep clock contexts name) n₀ es n) :
    ∀ rep, StoredBy es rep → ∀ p now,
      (∀ k < (n.recover clock contexts name p).ticks, clock.time k ≤ now) →
      now.toInt ≤ rep.ctime.toInt + lifespan.toInt →
      rep ∈ (n.recover clock contexts name p).t.tab.a := by
  have hinv : ∃ i' reps', SharedInv clock contexts name lifespan i' reps' es n := by
    refine hrun.history
      (fun es n => ∃ i' reps', SharedInv clock contexts name lifespan i' reps' es n) ?_ ?_
    · exact ⟨i, reps, hstart, by simp [StoredBy], by simp [StoredBy]⟩
    · rintro es t e u ⟨i', reps', h⟩ ⟨hstep, hcareful⟩
      exact h.step hstep hcareful
  obtain ⟨i', reps', h⟩ := hinv
  intro rep hstored p now hnow hlast
  obtain ⟨-, i'', reps'', hcalled, hsynced, -⟩ := @dflRecover_wp Whole clock name lifespan
    (contexts p) ⟨n.fs, n.ticks, dflResolve (some name)⟩ i' reps' whole_tails
    (h.shared.file.upTo rfl) rfl (h.shared.span p)
  have halive : ¬ExpiredBy clock lifespan rep (n.recover clock contexts name p).ticks := by
    intro hexpired
    have := hexpired.passed hnow (h.small rep hstored)
    omega
  have hin : rep ∈ reps' :=
    (h.stored rep hstored).resolve_right fun hexp => halive (hexp.mono hcalled.ticks)
  have hin' := (hcalled.kept rep hin).resolve_right halive
  exact (hsynced.table rep hin').resolve_right halive

/-! Two processes and a cache that has just been initialised. -/

def smallContexts : Bool → Context
  | true => smallContext
  | false => { smallContext with pid := ascii "2" }

def smallNet : Net Bool :=
  let m := (play (stillClock 0 0 1000) smallContext smallName [.resolve, .init 300] emptyMachine).2
  ⟨m.fs, m.ticks, fun _ => none⟩

theorem shared_smallNet : Shared smallContexts smallName 300 0 [] smallNet where
  file := ⟨rfl, rfl, by decide⟩
  span p := by cases p <;> rfl
  idle _ _ ht := by cases ht

def netPlay : List (Bool × Op) → Net Bool → List (Bool × Event) × Net Bool :=
  trace fun i n =>
    let r := exec (stillClock 0 0 1000) (smallContexts i.1) smallName i.2 (n.machine i.1)
    ((i.1, ⟨i.2, r.1⟩), n.put i.1 r.2)

/-- One of them stores, and the other one finds it. -/
theorem shared_run_found :
    ∃ es n, Run (SharedStep (stillClock 0 0 1000) smallContexts smallName) smallNet es n ∧
      StoredBy es (smallRep 1000) ∧
      smallRep 1000 ∈ (n.recover (stillClock 0 0 1000) smallContexts smallName false).t.tab.a := by
  let next (op : Op) (n : Net Bool) := (netPlay [(true, op)] n).2
  let n₁ := next .resolve smallNet
  let n₂ := next .recover n₁
  let n₃ := next (.store (smallRep 1000)) n₂
  have hresolve : SharedStep (stillClock 0 0 1000) smallContexts smallName smallNet
      (true, ⟨.resolve, .ok ()⟩) n₁ := ⟨⟨_, rfl, rfl⟩, by simp [SharedCareful, Careful]⟩
  have hrecover : SharedStep (stillClock 0 0 1000) smallContexts smallName n₁
      (true, ⟨.recover, .ok ()⟩) n₂ := ⟨⟨_, rfl, rfl⟩, by simp [SharedCareful, Careful]⟩
  have hstore : SharedStep (stillClock 0 0 1000) smallContexts smallName n₂
      (true, ⟨.store (smallRep 1000), .ok ()⟩) n₃ := by
    refine ⟨⟨_, rfl, rfl⟩, ?_, ?_⟩
    · rintro t ⟨rfl⟩
      refine ⟨?_, by simp⟩
      rintro rep ⟨rfl⟩
      decide
    · rintro rep - t ⟨rfl⟩ - fd ⟨rfl⟩
      exact ⟨rfl, rfl⟩
  have hrun := ((Run.nil.snoc hresolve).snoc hrecover).snoc hstore
  refine ⟨_, n₃, hrun, ⟨true, by simp⟩, ?_⟩
  exact shared_run shared_smallNet hrun _ ⟨true, by simp⟩ false 1000
    (fun k _ => by simp [stillClock]) (by decide)

/-- A run after which recovery succeeds but does not find a stored
authenticator, at a time within its lifespan. -/
def Loses (rep : DonotReplay) : Prop :=
  ∃ es n, Run (NetStep (stillClock 0 0 1000) smallName smallContexts) smallNet es n ∧
    StoredBy es rep ∧ 1000 ≤ rep.ctime.toInt + 300 ∧
    ((dflRecover (stillClock 0 0 1000) (smallContexts true)).run
      ⟨n.fs, n.ticks, dflResolve (some smallName)⟩).1 = .ok () ∧
    rep ∉ (n.recover (stillClock 0 0 1000) smallContexts smallName true).t.tab.a

theorem loses_of_netPlay {rep : DonotReplay} (ops : List (Bool × Op)) (found : List DonotReplay)
    (hplay : (netPlay ops smallNet).1 = ops.map fun i => (i.1, ⟨i.2, .ok ()⟩))
    (hstore : ∃ p, (p, Op.store rep) ∈ ops) (hlast : 1000 ≤ rep.ctime.toInt + 300)
    (hcode : ((dflRecover (stillClock 0 0 1000) (smallContexts true)).run
      ⟨(netPlay ops smallNet).2.fs, (netPlay ops smallNet).2.ticks,
        dflResolve (some smallName)⟩).1 = .ok ())
    (hfound : ((netPlay ops smallNet).2.recover (stillClock 0 0 1000) smallContexts smallName
      true).t.tab.a = found) (hout : rep ∉ found) : Loses rep := by
  obtain ⟨p, hp⟩ := hstore
  have hrun : Run (NetStep (stillClock 0 0 1000) smallName smallContexts) smallNet
      (netPlay ops smallNet).1 (netPlay ops smallNet).2 :=
    run_trace (P := fun _ => True) (fun _ _ _ => ⟨_, rfl, rfl⟩) ops fun _ _ => trivial
  refine ⟨_, _, hrun, ⟨p, ?_⟩, hlast, hcode, by rwa [hfound]⟩
  rw [hplay]
  exact mem_map.mpr ⟨(p, .store rep), hp, rfl⟩

/-- Both processes write at the same offset; or one puts a new file in the
place of the one the other then writes to. -/
theorem shared_loses : Loses (smallRep 1000) ∧ Loses (smallRep 1001) := by
  constructor
  · exact loses_of_netPlay [(true, .resolve), (true, .recover), (false, .resolve),
      (false, .recover), (true, .store (smallRep 1000)), (false, .store (smallRep 1001))]
      [smallRep 1001] rfl ⟨true, by simp⟩ (by decide) rfl rfl (by decide)
  · exact loses_of_netPlay [(true, .resolve), (true, .recover), (false, .resolve),
      (false, .recover), (true, .expunge), (false, .store (smallRep 1001))]
      [] rfl ⟨false, by simp⟩ (by decide) rfl rfl (by decide)

end Krb5.Rcache
