import Krb5.Rcache.LoadFacts

/-!
# What the cache functions do to the file

Each function is described by the records in the file before and after it.
Recovery and expunging keep every record that has not been found expired, and
leave the descriptor at the end of the file, whatever they return.
-/

namespace Krb5.Rcache

open Lib List Action

/-- The file of that name, number `i`, holds the header and the records. -/
structure Holds (fs : Fs) (name : Octets) (lifespan : Deltat) (i : Nat)
    (reps : List DonotReplay) : Prop where
  dir : fs.dir name = some i
  data : fs.data i = image lifespan reps
  size : (image lifespan reps).length ≤ maxFile

/-- The same, with what may lie behind the records. -/
structure HoldsUpTo (P : Octets → Prop) (fs : Fs) (name : Octets) (lifespan : Deltat) (i : Nat)
    (reps : List DonotReplay) : Prop where
  dir : fs.dir name = some i
  data : ∃ tail, P tail ∧ fs.data i = image lifespan reps ++ tail
  size : (fs.data i).length ≤ maxFile

variable {P : Octets → Prop} {fs : Fs} {clock : Clock} {name : Octets} {lifespan : Deltat}
  {context : Context} {s : Proc} {span : Deltat} {i : Nat} {reps : List DonotReplay}

theorem Holds.upTo (h : Holds fs name lifespan i reps) (hP : P []) :
    HoldsUpTo P fs name lifespan i reps :=
  ⟨h.dir, ⟨[], hP, by rw [h.data, append_nil]⟩, by rw [h.data]; exact h.size⟩

theorem HoldsUpTo.holds (h : HoldsUpTo Whole fs name lifespan i reps) :
    Holds fs name lifespan i reps := by
  obtain ⟨tail, rfl, hdata⟩ := h.data
  rw [append_nil] at hdata
  exact ⟨h.dir, hdata, by rw [← hdata]; exact h.size⟩

/-- And the handle has it open, at its end. -/
structure Loaded (P : Octets → Prop) (s : Proc) (name : Octets) (lifespan : Deltat) (i : Nat)
    (reps : List DonotReplay) : Prop where
  file : HoldsUpTo P s.fs name lifespan i reps
  fd : s.t.d.fd = some ⟨i, (image lifespan reps).length⟩
  fn : s.t.d.fn = some name
  name : s.t.name = some name
  lifespan : s.t.lifespan = lifespan

theorem Loaded.behind (h : Loaded P s name lifespan i reps) : Behind P s i (image lifespan reps) :=
  ⟨h.fd, h.file.data, h.file.size⟩

theorem ioOpen_run (h : HoldsUpTo P s.fs name lifespan i reps) :
    (ioOpen name).run s =
      (.ok (), s.setD { s.t.d with fd := some ⟨i, rcVno.length⟩, fn := some name }) := by
  let s₁ : Proc := s.setD { s.t.d with fd := some ⟨i, 0⟩, fn := some name }
  have hpre : [] ++ rcVno <+: s₁.fs.data i := by
    obtain ⟨tail, -, hdata⟩ := h.data
    rw [show s₁.fs.data i = _ from hdata]
    exact prefix_append _ _
  have hread : (ioRead 2).run s₁ = (.ok rcVno, s₁.seek i rcVno.length) :=
    ioRead_part hpre (by decide)
  have hvno : ioCheckVno.run s₁ = (.ok (), s₁.seek i rcVno.length) := by
    rw [ioCheckVno, bind_of_ok hread]
    rfl
  rw [ioOpen, bind_of_ok run_get, h.dir]
  exact onError_of_ok hvno _

theorem length_le_image (lifespan : Deltat) (reps : List DonotReplay) :
    reps.length ≤ (image lifespan reps).length := by
  rw [image, length_append]
  refine Nat.le_add_left_of_le (length_le_length_flatMap (fun rep => ?_) reps)
  rw [length_record]
  omega

/-- Every record of the file that is alive comes into the table. -/
theorem loadFile_wp (hP : Tails P) (h : HoldsUpTo P s.fs name lifespan i reps)
    (hfd : s.t.d.fd = some ⟨i, rcVno.length⟩) :
    wp (loadFile clock context)
      (post (fun _ s' =>
        LoadsLive clock reps { s with t := { s.t with lifespan := lifespan } } s' ∧
        s'.t.d.fd = some ⟨i, (image lifespan reps).length⟩) fun _ _ => False) s := by
  obtain ⟨tail, htail, hdata⟩ := h.data
  have hsize : ioSize.run s = (.ok (s.fs.data i).length, s) := by
    simp [ioSize, hfd]
  have hpre : rcVno ++ intOctets lifespan <+: s.fs.data i := by
    rw [hdata]
    exact prefix_append _ _
  have hspan : (ioReadInt s.t.lifespan).run s =
      (.ok lifespan, s.seek i (header lifespan).length) := by
    have hrun := ioReadInt_part s.t.lifespan hpre
    rwa [seek_self s i _ hfd] at hrun
  let s₁ : Proc := (s.seek i (header lifespan).length)
  let s₂ : Proc := { s₁ with t := { s₁.t with lifespan := lifespan } }
  have hrecords : s₂.fs.data i = header lifespan ++ reps.flatMap record ++ tail := hdata
  have hfuel : reps.length < (s.fs.data i).length + 1 := by
    have := length_le_image lifespan reps
    rw [hdata, length_append]
    omega
  rw [loadFile, wp_bind_of_ok hsize, wp_get_bind, wp_bind_of_ok (withError_of_ok hspan _),
    wp_bind_of_ok (show (modify _ : Rc Unit).run _ = (.ok (), s₂) from rfl)]
  refine wp_seq (@loadLoop_wp clock s₂ reps context i _ tail hrecords (hP.stops htail) h.size rfl _
    hfuel none 0) ?_ fun _ _ h => h
  rintro expired s' ⟨hloads, ⟨off, hfd'⟩, hmark⟩
  have hstart : LoadsLive clock [] { s with t := { s.t with lifespan := lifespan } } s₂ :=
    loads_setD _ _ _
  have hunmark : ioUnmark.run s' = (.ok (), s'.seek i (image lifespan reps).length) := by
    simp [ioUnmark, Proc.seek, hfd', hmark, image]
  rw [wp_bind_of_ok hunmark]
  have hend : LoadsLive clock [] s' (s'.seek i (image lifespan reps).length) := loads_setD _ _ _
  refine ⟨?_, rfl⟩
  have hall := (hstart.trans hloads).trans hend
  rwa [append_nil] at hall

/-! ## Rewriting -/

theorem dflInit_refused (hname : creatName s.fs context.pid s.t.name = none) :
    ∃ s', (dflInit context span).run s = (.error .ioPerm, s') ∧ s'.fs = s.fs ∧
      s'.ticks = s.ticks ∧
      s'.t = { s.t with
        lifespan := orClockskew context span, d := { s.t.d with fd := none, fn := none } } := by
  let s₁ : Proc := { s with t := { s.t with lifespan := orClockskew context span } }
  have hcreat : (ioCreat context.pid).run s₁ = (.error .ioPerm, s₁.closeD) := by
    rw [ioCreat, bind_of_ok run_get,
      show creatName s₁.fs context.pid s₁.t.name = none from hname]
    rfl
  refine ⟨s₁.closeD, ?_, rfl, rfl, rfl⟩
  rw [dflInit, bind_of_ok (show (modify _ : Rc Unit).run s = (.ok (), s₁) from rfl),
    bind_of_error hcreat]

theorem wp_withHandle (t : Dfl) (x : Rc Unit) (Q : Except RcCode Dfl → Proc → Prop) :
    wp (withHandle t x) Q s =
      wp x (post (fun _ s' => Q (.ok s'.t) { s' with t := s.t })
        fun e s' => Q (.error e) { s' with t := s.t }) { s with t := t } := by
  simp only [wp, withHandle]
  rcases x.run { s with t := t } with ⟨_ | _, _⟩ <;> rfl

/-- From `s` to `s'` the handle and the file of that name stayed the same. -/
structure Untouched (name : Octets) (s s' : Proc) : Prop where
  dir : s'.fs.dir name = s.fs.dir name
  data : ∀ k, k < s.fs.next → s'.fs.data k = s.fs.data k
  ticks : s'.ticks = s.ticks
  t : s'.t = s.t

theorem Untouched.loaded {s' : Proc} (h : Untouched name s s')
    (hloaded : Loaded P s name lifespan i reps) : Loaded P s' name lifespan i reps where
  file :=
    { dir := h.dir.trans hloaded.file.dir
      data := by rw [h.data i (s.fs.dir_lt hloaded.file.dir)]; exact hloaded.file.data
      size := by rw [h.data i (s.fs.dir_lt hloaded.file.dir)]; exact hloaded.file.size }
  fd := by rw [h.t]; exact hloaded.fd
  fn := by rw [h.t]; exact hloaded.fn
  name := by rw [h.t]; exact hloaded.name
  lifespan := by rw [h.t]; exact hloaded.lifespan

theorem Created.untouched {fn : Octets} {s' : Proc} {t : Dfl} (hne : name ≠ fn)
    (h : Created fn { s with t := t } s') : Untouched name s { s' with t := s.t } where
  dir := by rw [h.dir, if_neg hne]
  data k hk := h.other k (Nat.ne_of_lt hk)
  ticks := h.ticks
  t := rfl

/-- The file that takes the place of the old one holds the table. -/
theorem tmpCache_wp (span : Deltat) (hdir : s.fs.dir name ≠ none) :
    wp (withHandle (dflResolve none) do
        dflInit context span
        (storeAll s.t.tab.a).withError .io)
      (post (fun tmp s' => Untouched name s s' ∧ ∃ fn, tmp.d.fn = some fn ∧
          Holds s'.fs fn (orClockskew context span) s.fs.next s.t.tab.a ∧
          tmp.d.fd = some ⟨s.fs.next, (image (orClockskew context span) s.t.tab.a).length⟩)
        fun e s' => e ≠ .apErrRepeat ∧ Untouched name s s') s := by
  rw [wp_withHandle]
  cases hname : creatName s.fs context.pid none with
  | none =>
    obtain ⟨s', hrun, hfs, hticks, -⟩ := @dflInit_refused context
      { s with t := dflResolve none } span hname
    rw [wp, bind_of_error hrun]
    exact ⟨by simp, by rw [hfs], fun k _ => by rw [hfs], hticks, rfl⟩
  | some fn =>
    have hfree : s.fs.dir fn = none := by
      simpa using find?_some hname
    have hne : name ≠ fn := fun h => hdir (by rw [h, hfree])
    obtain ⟨s₁, hrun, hend, hcreated, -⟩ := @dflInit_run context
      { s with t := dflResolve none } span fn hname
    rw [wp_bind_of_ok hrun, wp_withError]
    refine wp_mono (storeAll_wp whole_tails hend s.t.tab.a) fun r s₂ hr => ?_
    cases r with
    | ok u =>
      obtain ⟨hend', hwrote⟩ := hr
      have hcreated := hcreated.wrote hwrote
      refine ⟨hcreated.untouched hne, fn, by rw [hcreated.t], ?_, hend'.fd⟩
      exact HoldsUpTo.holds ⟨by rw [hcreated.dir, if_pos rfl], hend'.data, hend'.size⟩
    | error e => exact ⟨by simp, (hcreated.wrote hr).untouched hne⟩

/-- The file is replaced by one with the table, or stays. -/
theorem rewrite_wp (hP : P []) (h : Loaded P s name lifespan i reps)
    (hspan : orClockskew context span = lifespan) :
    wp (rewrite context span) (fun r s' => r ≠ .error .apErrRepeat ∧ ∃ i' reps',
      Loaded P s' name lifespan i' reps' ∧ (reps' = reps ∨ reps' = s.t.tab.a) ∧
      s'.ticks = s.ticks ∧ s'.t.tab = s.t.tab ∧ s'.t.recovering = s.t.recovering) s := by
  have hdir : s.fs.dir name ≠ none := by simp [h.file.dir]
  rw [rewrite, wp_get_bind]
  refine wp_seq (tmpCache_wp span hdir) ?_ ?_
  · rintro tmp s₁ ⟨hsame, fn, hfn, hholds, hfd⟩
    rw [hspan] at hholds hfd
    have hloaded := hsame.loaded h
    have hmove : (ioMove tmp.d).run s₁ = (.ok (),
        { s₁ with fs := s₁.fs.rename fn name }.setD { s₁.t.d with fd := tmp.d.fd }) := by
      rw [ioMove, bind_of_ok run_get, hfn, hloaded.fn]
      simp only [hholds.dir]
      rfl
    rw [wp_bind_of_ok (withError_of_ok (ioSync_of_fd hloaded.fd) _), wp, withError_of_ok hmove]
    have hmoved : Holds (s₁.fs.rename fn name) name lifespan s.fs.next s.t.tab.a :=
      ⟨by simp [Fs.rename, hholds.dir], hholds.data, hholds.size⟩
    refine ⟨by simp, s.fs.next, s.t.tab.a, ⟨hmoved.upTo hP, hfd, hloaded.fn, hloaded.name,
      hloaded.lifespan⟩, .inr rfl, hsame.ticks, ?_, ?_⟩
    · simp [Proc.setD, hsame.t]
    · simp [Proc.setD, hsame.t]
  · rintro e s₁ ⟨hcode, hsame⟩
    exact ⟨by simpa using hcode, i, reps, hsame.loaded h, .inl rfl, hsame.ticks, by rw [hsame.t],
      by rw [hsame.t]⟩

/-! ## Recovery, expunging, storing -/

section Calls

variable (P clock name lifespan)

/-- A handle between calls; if it has a file open, that is the cache's, and its
lifespan is from there. -/
structure Idle (t : Dfl) : Prop where
  named : t.name = some name
  recovering : t.recovering = false
  opened : t.d.fd ≠ none → t.lifespan = lifespan ∧ t.d.fn = some name

/-- The handle is at the end of the file and has its records in the table, the
expired ones apart. -/
structure Synced (i : Nat) (reps : List DonotReplay) (s : Proc) : Prop where
  loaded : Loaded P s name lifespan i reps
  table : ∀ r ∈ reps, r ∈ s.t.tab.a ∨ ExpiredBy clock lifespan r s.ticks

/-- What a call leaves behind, when the file held `reps` before and `added` was
to be stored. -/
structure Called (added : List DonotReplay) (s : Proc) (reps : List DonotReplay) (s' : Proc)
    (i' : Nat) (reps' : List DonotReplay) : Prop where
  file : HoldsUpTo P s'.fs name lifespan i' reps'
  kept : ∀ r ∈ reps, r ∈ reps' ∨ ExpiredBy clock lifespan r s'.ticks
  only : ∀ r ∈ reps', r ∈ s.t.tab.a ∨ r ∈ reps ∨ r ∈ added
  onlyTable : ∀ r ∈ s'.t.tab.a, r ∈ s.t.tab.a ∨ r ∈ reps ∨ r ∈ added
  ticks : s.ticks ≤ s'.ticks
  idle : Idle name lifespan s'.t

variable {P clock name lifespan}

theorem Loaded.idle (h : Loaded P s name lifespan i reps) (hrec : s.t.recovering = false) :
    Idle name lifespan s.t :=
  ⟨h.name, hrec, fun _ => ⟨h.lifespan, h.fn⟩⟩

variable {s₁ s' s₂ : Proc} {i' : Nat} {reps' added : List DonotReplay} {rep : DonotReplay}

theorem Loads.synced (h : Loads clock reps s₁ s') (hfile : HoldsUpTo P s₁.fs name lifespan i reps)
    (hfd : s'.t.d.fd = some ⟨i, (image lifespan reps).length⟩) (hfn : s₁.t.d.fn = some name)
    (hname : s₁.t.name = some name) (hspan : s₁.t.lifespan = lifespan) :
    Synced P clock name lifespan i reps s' where
  loaded :=
    { file := by rwa [h.fs]
      fd := hfd
      fn := by rw [h.t]; exact hfn
      name := by rw [h.t]; exact hname
      lifespan := h.lifespan.trans hspan }
  table r hr := by
    rw [← hspan]
    exact h.read r hr

theorem Synced.rewrite_wp {span : Deltat} (hP : P []) (h : Synced P clock name lifespan i reps s)
    (hspan : orClockskew context span = lifespan) :
    wp (rewrite context span) (fun r s' => r ≠ .error .apErrRepeat ∧ ∃ i' reps',
      Synced P clock name lifespan i' reps' s' ∧ (reps' = reps ∨ reps' = s.t.tab.a) ∧
      s'.ticks = s.ticks ∧ s'.t.tab = s.t.tab ∧ s'.t.recovering = s.t.recovering) s := by
  refine wp_mono (Rcache.rewrite_wp hP h.loaded hspan) ?_
  rintro r s' ⟨hcode, i', reps', hloaded, hreps, hticks, htab, hrec⟩
  refine ⟨hcode, i', reps', ⟨hloaded, ?_⟩, hreps, hticks, htab, hrec⟩
  intro x hx
  rw [htab, hticks]
  rcases hreps with rfl | rfl
  · exact h.table x hx
  · exact .inl hx

theorem Synced.setRecovering (h : Synced P clock name lifespan i reps s) (recovering : Bool) :
    Synced P clock name lifespan i reps (s.setRecovering recovering) :=
  ⟨⟨h.loaded.file, h.loaded.fd, h.loaded.fn, h.loaded.name, h.loaded.lifespan⟩, h.table⟩

theorem Loads.called (h : Loads clock reps s₁ s₂) (hspan : s₁.t.lifespan = lifespan)
    (htab : s₁.t.tab = s.t.tab) (hticks : s₁.ticks = s.ticks)
    (hsynced : Synced P clock name lifespan i' reps' s') (hreps : reps' = reps ∨ reps' = s₂.t.tab.a)
    (htab' : s'.t.tab = s₂.t.tab) (hticks' : s'.ticks = s₂.ticks) (hrec : s'.t.recovering = false) :
    Called P clock name lifespan [] s reps s' i' reps' where
  file := hsynced.loaded.file
  kept r hr := by
    rcases hreps with rfl | rfl
    · exact .inl hr
    · rw [hticks', ← hspan]
      exact h.read r hr
  only r hr := by
    rcases hreps with rfl | rfl
    · exact .inr (.inl hr)
    · rw [← htab]
      exact (h.only r hr).imp_right .inl
  onlyTable r hr := by
    rw [htab'] at hr
    rw [← htab]
    exact (h.only r hr).imp_right .inl
  ticks := by
    rw [hticks', ← hticks]
    exact h.ticks
  idle := hsynced.loaded.idle hrec

/-- Recovering loses no record that is alive. -/
theorem dflRecover_wp (hP : Tails P) (hfile : HoldsUpTo P s.fs name lifespan i reps)
    (hname : s.t.name = some name)
    (hspan : orClockskew context lifespan = lifespan) :
    wp (dflRecover clock context) (fun r s' => r ≠ .error .apErrRepeat ∧ ∃ i' reps',
      Called P clock name lifespan [] s reps s' i' reps' ∧
      Synced P clock name lifespan i' reps' s' ∧
      ∀ r ∈ s'.t.tab.a, r ∈ s.t.tab.a ∨ LiveIn clock lifespan r s.ticks s'.ticks) s := by
  let s₁ : Proc := (s.setD { s.t.d with fd := some ⟨i, rcVno.length⟩, fn := some name }).setRecovering
    true
  rw [dflRecover, wp_get_bind, hname]
  rw [wp_bind_of_ok (ioOpen_run hfile),
    wp_bind_of_ok (show (modify _ : Rc Unit).run _ = (.ok (), s₁) from rfl), wp_always]
  rw [wp_bind, wp_onError]
  refine wp_mono (loadFile_wp (s := s₁) hP hfile rfl) fun r s₂ hr => ?_
  cases r with
  | error e => exact hr.elim
  | ok expired => ?_
  obtain ⟨hloads, hfd⟩ := hr
  have hsynced := hloads.synced hfile hfd rfl hname rfl
  have hrec : s₂.t.recovering := by rw [hloads.t]; rfl
  simp only [post_ok]
  split
  · -- too many have expired: the file is rewritten
    rw [expungeVia, wp_get_bind, if_pos hrec, hsynced.loaded.lifespan]
    refine wp_mono (hsynced.rewrite_wp hP.nil hspan) ?_
    rintro r s' ⟨hcode, i', reps', hsynced', hreps, hticks, htab, -⟩
    refine ⟨hcode, i', reps', hloads.called rfl rfl rfl (hsynced'.setRecovering false) hreps htab
      hticks rfl, hsynced'.setRecovering false, ?_⟩
    intro r hr
    rw [show (s'.setRecovering false).t.tab = s₂.t.tab from htab] at hr
    rw [show (s'.setRecovering false).ticks = s₂.ticks from hticks]
    exact hloads.live r hr
  · exact ⟨by simp, i, reps, hloads.called rfl rfl rfl (hsynced.setRecovering false) (.inl rfl) rfl
      rfl rfl, hsynced.setRecovering false, hloads.live⟩

theorem Called.rewritten {reps₁ : List DonotReplay} {i₁ : Nat}
    (h : Called P clock name lifespan added s reps s₁ i₁ reps₁)
    (hsynced : Synced P clock name lifespan i₁ reps₁ s₁)
    (hsynced' : Synced P clock name lifespan i' reps' s')
    (hreps : reps' = reps₁ ∨ reps' = s₁.t.tab.a) (hticks : s'.ticks = s₁.ticks)
    (htab : s'.t.tab = s₁.t.tab) (hrec : s'.t.recovering = s₁.t.recovering) :
    Called P clock name lifespan added s reps s' i' reps' where
  file := hsynced'.loaded.file
  kept r hr := by
    rw [hticks]
    rcases hreps with rfl | rfl
    · exact h.kept r hr
    · exact (h.kept r hr).elim (hsynced.table r) .inr
  only r hr := by
    rcases hreps with rfl | rfl
    · exact h.only r hr
    · exact h.onlyTable r hr
  onlyTable r hr := h.onlyTable r (by rwa [htab] at hr)
  ticks := by rw [hticks]; exact h.ticks
  idle := hsynced'.loaded.idle (hrec.trans h.idle.recovering)

theorem Called.of_resolve {fn : Option Octets}
    (h : Called P clock name lifespan added { s with t := dflResolve fn } reps s' i' reps') :
    Called P clock name lifespan added s reps s' i' reps' :=
  { h with
    only := fun r hr => .inr ((h.only r hr).resolve_left not_mem_nil)
    onlyTable := fun r hr => .inr ((h.onlyTable r hr).resolve_left not_mem_nil) }

/-- Expunging loses no record that is alive. -/
theorem dflExpunge_wp (hP : Tails P) (hfile : HoldsUpTo P s.fs name lifespan i reps)
    (hidle : Idle name lifespan s.t)
    (hspan : orClockskew context lifespan = lifespan)
    (hhandle : orClockskew context s.t.lifespan = lifespan) :
    wp (dflExpunge clock context) (fun r s' => r ≠ .error .apErrRepeat ∧ ∃ i' reps',
      Called P clock name lifespan [] s reps s' i' reps' ∧
      Synced P clock name lifespan i' reps' s') s := by
  let s₁ : Proc := { s with t := dflResolve s.t.name }
  rw [dflExpunge, expungeVia, wp_get_bind, if_neg (by simp [hidle.recovering]),
    wp_bind_of_ok (show (modify _ : Rc Unit).run s = (.ok (), s₁) from rfl), wp_bind]
  refine wp_mono (@dflRecover_wp P clock name lifespan context s₁ i reps hP hfile hidle.named hspan) ?_
  rintro r s₂ ⟨hcode, i₁, reps₁, hcalled, hsynced, -⟩
  cases r with
  | error e => exact ⟨by simpa using hcode, i₁, reps₁, hcalled.of_resolve, hsynced⟩
  | ok u =>
    rw [post_ok]
    refine wp_mono (hsynced.rewrite_wp hP.nil hhandle) ?_
    rintro r s' ⟨hcode, i', reps', hsynced', hreps, hticks, htab, hrec⟩
    exact ⟨hcode, i', reps',
      (hcalled.rewritten hsynced hsynced' hreps hticks htab hrec).of_resolve, hsynced'⟩

/-! Storing first looks the authenticator up. -/

theorem Loads.unchanged (h : Loads clock added s s') (hfile : HoldsUpTo P s.fs name lifespan i reps)
    (hidle : Idle name lifespan s.t) (hd : s'.t.d = s.t.d) :
    Called P clock name lifespan added s reps s' i reps where
  file := by rwa [h.fs]
  kept r hr := .inl hr
  only r hr := .inr (.inl hr)
  onlyTable r hr := (h.only r hr).imp_right .inr
  ticks := h.ticks
  idle :=
    { named := by rw [h.t]; exact hidle.named
      recovering := by rw [h.t]; exact hidle.recovering
      opened := by rw [hd, h.lifespan]; exact hidle.opened }

theorem Loads.loaded (h : Loads clock added s s') (hd : s'.t.d = s.t.d)
    (hloaded : Loaded P s name lifespan i reps) : Loaded P s' name lifespan i reps where
  file := by rw [h.fs]; exact hloaded.file
  fd := by rw [hd]; exact hloaded.fd
  fn := by rw [hd]; exact hloaded.fn
  name := by rw [h.t]; exact hloaded.name
  lifespan := h.lifespan.trans hloaded.lifespan

theorem Loads.keepsSynced (h : Loads clock added s s') (hd : s'.t.d = s.t.d)
    (hsynced : Synced P clock name lifespan i reps s) : Synced P clock name lifespan i reps s' where
  loaded := h.loaded hd hsynced.loaded
  table r hr := (hsynced.table r hr).imp (h.kept r) (.mono h.ticks)

theorem image_snoc (lifespan : Deltat) (reps : List DonotReplay) (rep : DonotReplay) :
    image lifespan reps ++ record rep = image lifespan (reps ++ [rep]) := by
  simp [image]

theorem Loaded.wrote (h : Loaded P s name lifespan i reps)
    (hend : Behind P s' i (image lifespan reps ++ record rep)) (hwrote : Wrote i s s') :
    Loaded P s' name lifespan i (reps ++ [rep]) := by
  rw [image_snoc] at hend
  exact
    { file := ⟨by rw [hwrote.dir]; exact h.file.dir, hend.data, hend.size⟩
      fd := hend.fd
      fn := by rw [hwrote.t]; exact h.fn
      name := by rw [hwrote.t]; exact h.name
      lifespan := by rw [hwrote.t]; exact h.lifespan }

/-- What `krb5_rc_dfl_store` has done when it returns `r`. -/
structure StoreDone (P : Octets → Prop) (clock : Clock) (name : Octets) (lifespan : Deltat)
    (rep : DonotReplay) (s : Proc) (i : Nat) (reps : List DonotReplay) (r : Except RcCode Unit)
    (s' : Proc) (i' : Nat) (reps' : List DonotReplay) : Prop where
  called : Called P clock name lifespan [rep] s reps s' i' reps'
  stored : r = .ok () → rep ∈ reps' ∨ ExpiredBy clock lifespan rep s'.ticks
  synced : Synced P clock name lifespan i reps s → Synced P clock name lifespan i' reps' s'
  closed : s.t.d.fd = none → s'.t.d.fd = none

/-- Behind the write: now and then the file is expunged. -/
theorem storeTail_wp (hP : Tails P) (hloaded : Loaded P s name lifespan i (reps ++ [rep]))
    (hmem : rep ∈ s.t.tab.a) (hrec : s.t.recovering = false)
    (hspan : orClockskew context lifespan = lifespan) :
    wp (if s.t.numhits + excessreps < s.t.nummisses then dflExpunge clock context
        else ioSync.withError .io)
      (fun r s' => r ≠ .error .apErrRepeat ∧ ∃ i' reps',
        Called P clock name lifespan [] s (reps ++ [rep]) s' i' reps' ∧
        ((∀ x ∈ reps, x ∈ s.t.tab.a ∨ ExpiredBy clock lifespan x s.ticks) →
          Synced P clock name lifespan i' reps' s')) s := by
  split
  · refine wp_mono (@dflExpunge_wp P clock name lifespan context s i _ hP hloaded.file
      (hloaded.idle hrec) hspan (by rw [hloaded.lifespan]; exact hspan)) ?_
    rintro r s' ⟨hcode, i', reps', hcalled, hsynced⟩
    exact ⟨hcode, i', reps', hcalled, fun _ => hsynced⟩
  rw [wp, withError_of_ok (ioSync_of_fd hloaded.fd)]
  refine ⟨by simp, i, reps ++ [rep], ?_, fun htable => ⟨hloaded, ?_⟩⟩
  · exact
      { file := hloaded.file
        kept := fun r hr => .inl hr
        only := fun r hr => .inr (.inl hr)
        onlyTable := fun r hr => .inl hr
        ticks := Nat.le_refl _
        idle := hloaded.idle hrec }
  · intro x hx
    rcases mem_append.mp hx with hx | hx
    · exact htable x hx
    · rw [mem_singleton.mp hx]
      exact .inl hmem

theorem Called.stored (h : Called P clock name lifespan [] s₂ (reps ++ [rep]) s' i' reps')
    (htab : s₂.t.tab = s₁.t.tab) (hticks : s₂.ticks = s₁.ticks) (hloads : Loads clock [rep] s s₁) :
    Called P clock name lifespan [rep] s reps s' i' reps' := by
  have hfrom : ∀ r, r ∈ s₂.t.tab.a ∨ r ∈ reps ++ [rep] ∨ r ∈ [] →
      r ∈ s.t.tab.a ∨ r ∈ reps ∨ r ∈ [rep] := by
    rintro r (hr | hr | hr)
    · rw [htab] at hr
      exact (hloads.only r hr).imp_right .inr
    · exact .inr (mem_append.mp hr)
    · exact absurd hr not_mem_nil
  exact
    { h with
      kept := fun r hr => h.kept r (mem_append_left _ hr)
      only := fun r hr => hfrom r (h.only r hr)
      onlyTable := fun r hr => hfrom r (h.onlyTable r hr)
      ticks := hloads.ticks.trans (hticks ▸ h.ticks) }

/-- A store refuses exactly what the table has, and keeps what was there. -/
theorem dflStore_wp (hP : Tails P) (hfile : HoldsUpTo P s.fs name lifespan i reps)
    (hidle : Idle name lifespan s.t) (hspan : orClockskew context lifespan = lifespan)
    (hfd : rep ∈ s.t.tab.a ∨ s.t.d.fd = none ∨ Loaded P s name lifespan i reps) :
    wp (dflStore clock context rep) (fun r s' => (r = .error .apErrRepeat ↔ rep ∈ s.t.tab.a) ∧
      (r = .ok () → s.t.d.fd ≠ none) ∧
      ∃ i' reps', StoreDone P clock name lifespan rep s i reps r s' i' reps') s := by
  refine wp_seq (rcStore_wp rep s) ?_ fun _ _ h => h.elim
  rintro found s₁ ⟨hfound, hloads, hmem, hd⟩
  have hunchanged := hloads.unchanged hfile hidle hd
  cases found with
  | true =>
    have hin := hfound.mp rfl
    rw [wp, bind_of_error (show (failIf true _ : Rc Unit).run s₁ = (.error _, s₁) from rfl)]
    exact ⟨by simp [hin], by simp, i, reps, hunchanged, by simp, hloads.keepsSynced hd,
      fun h => by rwa [hd]⟩
  | false =>
    have hout : rep ∉ s.t.tab.a := fun h => by simpa using hfound.mpr h
    rw [wp_bind_of_ok (show (failIf false _ : Rc Unit).run s₁ = (.ok (), s₁) from rfl)]
    rcases hfd.resolve_left hout with hnone | hloaded
    · have hwrite : (ioStore rep).run s₁ = (.error .ioUnknown, s₁) := by
        simp [ioStore, ioWrite, hd, hnone]
      rw [wp, bind_of_error hwrite]
      exact ⟨by simp [hout], by simp, i, reps, hunchanged, by simp, hloads.keepsSynced hd,
        fun h => by rwa [hd]⟩
    have hloaded₁ := hloads.loaded hd hloaded
    refine wp_seq (ioWrite_wp hP hloaded₁.behind (record rep)) ?_ ?_
    · rintro - s₂ ⟨hend, hwrote⟩
      have htab : s₂.t.tab = s₁.t.tab := by rw [hwrote.t]
      have hrec₂ : s₂.t.recovering = false := by
        rw [hwrote.t]
        exact hunchanged.idle.recovering
      rw [wp_get_bind]
      refine wp_mono (storeTail_wp hP (hloaded₁.wrote hend hwrote) (by rwa [htab]) hrec₂ hspan) ?_
      rintro r s' ⟨hcode, i', reps', hcalled, hsynced⟩
      refine ⟨by simp [hcode, hout], by simp [hloaded.fd], i', reps', ?_, fun _ => ?_, ?_,
        by simp [hloaded.fd]⟩
      · exact hcalled.stored htab hwrote.ticks hloads
      · exact hcalled.kept rep (by simp)
      intro h
      refine hsynced fun x hx => ?_
      rw [htab, hwrote.ticks]
      exact (hloads.keepsSynced hd h).table x hx
    · rintro e s' ⟨rfl, rfl⟩
      exact ⟨by simp [hout], by simp, i, reps, hunchanged, by simp, hloads.keepsSynced hd,
        fun h => by rwa [hd]⟩

end Calls

end Krb5.Rcache
