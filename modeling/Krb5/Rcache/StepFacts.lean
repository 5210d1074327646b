import Krb5.Rcache.DflFacts

/-!
# What a call leaves

The facts about the functions, put together for a step of a process: which
records the file has afterwards and what the handle knows of them.
-/

namespace Krb5.Rcache

open Lib List

variable {op : Op}

def Machine.proc (m : Machine) (t : Dfl) : Proc := ⟨m.fs, m.ticks, t⟩

/-- A step from a file with the records `reps` to one with `reps'`. -/
structure Progress (P : Octets → Prop) (clock : Clock) (name : Octets) (lifespan : Deltat)
    (m : Machine) (i : Nat)
    (reps : List DonotReplay) (e : Event) (m' : Machine) (i' : Nat)
    (reps' : List DonotReplay) : Prop where
  file : HoldsUpTo P m'.fs name lifespan i' reps'
  kept : ∀ r ∈ reps, r ∈ reps' ∨ ExpiredBy clock lifespan r m'.ticks
  ticks : m.ticks ≤ m'.ticks
  idle : ∀ t', m'.h = some t' → Idle name lifespan t'
  stored : ∀ rep, e.op = .store rep → e.code = .ok () →
    rep ∈ reps' ∨ ExpiredBy clock lifespan rep m'.ticks
  refused : ∀ rep, e.op = .store rep → ∀ t, m.h = some t →
    (e.code = .error .apErrRepeat ↔ rep ∈ t.tab.a)
  opened : ∀ rep, e.op = .store rep → e.code = .ok () → ∀ t, m.h = some t → t.d.fd ≠ none
  inits : ∀ span, e.op = .init span → e.code ≠ .ok ()
  only : ∀ r ∈ reps', (∃ t, m.h = some t ∧ r ∈ t.tab.a) ∨ r ∈ reps ∨ e.op = .store r
  onlyTable : ∀ t', m'.h = some t' → ∀ r ∈ t'.tab.a,
    (∃ t, m.h = some t ∧ r ∈ t.tab.a) ∨ r ∈ reps ∨ e.op = .store r
  synced : (∀ t, m.h = some t → t.d.fd = none ∨ Synced P clock name lifespan i reps (m.proc t)) →
    ∀ t', m'.h = some t' → t'.d.fd = none ∨ Synced P clock name lifespan i' reps' (m'.proc t')

variable {P : Octets → Prop} {clock : Clock} {context : Context} {name : Octets}
  {lifespan : Deltat} {m m' : Machine} {i i' : Nat} {reps reps' : List DonotReplay}
  {code : Except RcCode Unit} {t : Dfl} {s' : Proc} {rep : DonotReplay}

/-- What has to hold before a step: the file is whole, the handle idle, it has
the file's lifespan if it is to expunge, and is at the end of the file if it is
to write. -/
structure Sound (P : Octets → Prop) (context : Context) (name : Octets) (lifespan : Deltat) (m : Machine)
    (i : Nat) (reps : List DonotReplay) (op : Op) : Prop where
  file : HoldsUpTo P m.fs name lifespan i reps
  span : orClockskew context lifespan = lifespan
  idle : ∀ t, m.h = some t → Idle name lifespan t
  expunge : op = .expunge → ∀ t, m.h = some t → orClockskew context t.lifespan = lifespan
  store : ∀ rep, op = .store rep → ∀ t, m.h = some t →
    rep ∈ t.tab.a ∨ t.d.fd = none ∨ Loaded P (m.proc t) name lifespan i reps

theorem Sound.progress_of_unchanged (h : Sound P context name lifespan m i reps op)
    (hfs : m'.fs = m.fs) (hticks : m'.ticks = m.ticks) (hop : ∀ rep, op ≠ .store rep)
    (hinit : ∀ span, op = .init span → code ≠ .ok ())
    (hh : ∀ t', m'.h = some t' → Idle name lifespan t' ∧
      (∀ r ∈ t'.tab.a, ∃ t, m.h = some t ∧ r ∈ t.tab.a) ∧ t'.d.fd = none) :
    Progress P clock name lifespan m i reps ⟨op, code⟩ m' i reps where
  file := by rw [hfs]; exact h.file
  kept r hr := .inl hr
  ticks := Nat.le_of_eq hticks.symm
  idle t' ht' := (hh t' ht').1
  stored rep hrep := absurd hrep (hop rep)
  refused rep hrep := absurd hrep (hop rep)
  opened rep hrep := absurd hrep (hop rep)
  inits := hinit
  only r hr := .inr (.inl hr)
  onlyTable t' ht' r hr := .inl ((hh t' ht').2.1 r hr)
  synced _ t' ht' := .inl (hh t' ht').2.2

theorem Sound.progress_of_closed {err : RcCode}
    (h : Sound P context name lifespan m i reps op) (hh : m.h = none) :
    Progress P clock name lifespan m i reps ⟨op, .error err⟩ m i reps where
  file := h.file
  kept r hr := .inl hr
  ticks := Nat.le_refl _
  idle := h.idle
  stored _ _ hcode := by cases hcode
  refused rep hrep t ht := by simp [hh] at ht
  opened _ _ hcode := by cases hcode
  inits _ _ hcode := by cases hcode
  only r hr := .inr (.inl hr)
  onlyTable t' ht' := by simp [hh] at ht'
  synced hs := hs

theorem Called.progress (h : Called P clock name lifespan [] (m.proc t) reps s' i' reps')
    (hsynced : Synced P clock name lifespan i' reps' s') (ht : m.h = some t)
    (hop : ∀ rep, op ≠ .store rep) (hinit : ∀ span, op ≠ .init span) :
    Progress P clock name lifespan m i reps ⟨op, code⟩ ⟨s'.fs, s'.ticks, some s'.t⟩ i' reps' where
  file := h.file
  kept := h.kept
  ticks := h.ticks
  idle := by
    rintro t' ⟨rfl⟩
    exact h.idle
  stored rep hrep := absurd hrep (hop rep)
  refused rep hrep := absurd hrep (hop rep)
  opened rep hrep := absurd hrep (hop rep)
  inits span hspan := absurd hspan (hinit span)
  only r hr := by
    rcases h.only r hr with hr | hr | hr
    · exact .inl ⟨t, ht, hr⟩
    · exact .inr (.inl hr)
    · exact absurd hr not_mem_nil
  onlyTable := by
    rintro t' ⟨rfl⟩ r hr
    rcases h.onlyTable r hr with hr | hr | hr
    · exact .inl ⟨t, ht, hr⟩
    · exact .inr (.inl hr)
    · exact absurd hr not_mem_nil
  synced := by
    rintro - t' ⟨rfl⟩
    exact .inr hsynced

/-- A store is progress: what it has stored is in the file. -/
theorem StoreDone.progress
    (h : StoreDone P clock name lifespan rep (m.proc t) i reps code s' i' reps') (ht : m.h = some t)
    (hrefused : code = .error .apErrRepeat ↔ rep ∈ t.tab.a)
    (hopened : code = .ok () → t.d.fd ≠ none) :
    Progress P clock name lifespan m i reps ⟨.store rep, code⟩ ⟨s'.fs, s'.ticks, some s'.t⟩
      i' reps' where
  file := h.called.file
  kept := h.called.kept
  ticks := h.called.ticks
  idle := by
    rintro t' ⟨rfl⟩
    exact h.called.idle
  stored := by
    rintro _ ⟨rfl⟩
    exact h.stored
  refused := by
    rintro _ ⟨rfl⟩ t' ht'
    cases ht.symm.trans ht'
    exact hrefused
  opened := by
    rintro _ ⟨rfl⟩ hcode t' ht'
    cases ht.symm.trans ht'
    exact hopened hcode
  inits _ hop := by cases hop
  only r hr := by
    rcases h.called.only r hr with hr | hr | hr
    · exact .inl ⟨t, ht, hr⟩
    · exact .inr (.inl hr)
    · exact .inr (.inr (by rw [mem_singleton.mp hr]))
  onlyTable := by
    rintro t' ⟨rfl⟩ r hr
    rcases h.called.onlyTable r hr with hr | hr | hr
    · exact .inl ⟨t, ht, hr⟩
    · exact .inr (.inl hr)
    · exact .inr (.inr (by rw [mem_singleton.mp hr]))
  synced := by
    rintro hs t' ⟨rfl⟩
    exact (hs t ht).imp h.closed h.synced

theorem Sound.progress_of_call {x : Rc Unit}
    (h : Sound P context name lifespan m i reps op) (hcall : call x m = (code, m'))
    (hx : ∀ t, m.h = some t → wp x (fun r s' => ∃ i' reps', Progress P clock name lifespan m i reps
      ⟨op, r⟩ ⟨s'.fs, s'.ticks, some s'.t⟩ i' reps') (m.proc t)) :
    ∃ i' reps', Progress P clock name lifespan m i reps ⟨op, code⟩ m' i' reps' := by
  cases hh : m.h with
  | none =>
    simp only [call, hh] at hcall
    cases hcall
    exact ⟨i, reps, h.progress_of_closed hh⟩
  | some t =>
    simp only [call, hh] at hcall
    cases hcall
    exact hx t hh

/-- Each call from a sound state. -/
theorem Sound.progress (hP : Tails P) (h : Sound P context name lifespan m i reps op)
    (hexec : exec clock context name op m = (code, m')) :
    ∃ i' reps', Progress P clock name lifespan m i reps ⟨op, code⟩ m' i' reps' := by
  cases op with
  | resolve =>
    cases hexec
    refine ⟨i, reps, h.progress_of_unchanged rfl rfl (by simp) (by simp) ?_⟩
    rintro t' ⟨rfl⟩
    exact ⟨⟨rfl, rfl, by simp [dflResolve]⟩, by simp [dflResolve], rfl⟩
  | close =>
    cases hexec
    exact ⟨i, reps, h.progress_of_unchanged rfl rfl (by simp) (by simp) (by simp)⟩
  | init span =>
    rw [exec] at hexec
    refine h.progress_of_call hexec fun t ht => ?_
    have hidle := h.idle t ht
    have hname : creatName m.fs context.pid t.name = none := by
      simp [hidle.named, creatName, h.file.dir]
    -- the file is in the way, and the handle is left without one
    obtain ⟨s', hrun, hfs, hticks, ht'⟩ := @dflInit_refused context (m.proc t) span hname
    rw [wp, hrun]
    refine ⟨i, reps, h.progress_of_unchanged hfs hticks (by simp) (by simp) ?_⟩
    rintro t'' ⟨rfl⟩
    rw [ht']
    exact ⟨⟨hidle.named, hidle.recovering, by simp⟩, fun r hr => ⟨t, ht, hr⟩, rfl⟩
  | recover =>
    rw [exec] at hexec
    refine h.progress_of_call hexec fun t ht => ?_
    refine wp_mono (dflRecover_wp (s := m.proc t) hP h.file (h.idle t ht).named h.span) ?_
    rintro r s' ⟨-, i', reps', hcalled, hsynced, -⟩
    exact ⟨i', reps', hcalled.progress hsynced ht (by simp) (by simp)⟩
  | store rep =>
    rw [exec] at hexec
    refine h.progress_of_call hexec fun t ht => ?_
    have hidle := h.idle t ht
    refine wp_mono (dflStore_wp (s := m.proc t) hP h.file hidle h.span (h.store rep rfl t ht)) ?_
    rintro r s' ⟨hrefused, hopened, i', reps', hdone⟩
    exact ⟨i', reps', hdone.progress ht hrefused hopened⟩
  | expunge =>
    rw [exec] at hexec
    refine h.progress_of_call hexec fun t ht => ?_
    have hidle := h.idle t ht
    refine wp_mono (dflExpunge_wp (s := m.proc t) hP h.file hidle h.span (h.expunge rfl t ht)) ?_
    rintro r s' ⟨-, i', reps', hcalled, hsynced⟩
    exact ⟨i', reps', hcalled.progress hsynced ht (by simp) (by simp)⟩

theorem Step.handle {e : Event} (h : Step clock context name m e m') (hop : e.op = .store rep)
    (hcode : e.code ≠ .error .undefined) : ∃ t, m.h = some t := by
  cases hh : m.h with
  | some t => exact ⟨t, rfl⟩
  | none =>
    rw [Step, hop, exec] at h
    simp only [call, hh, Prod.mk.injEq] at h
    exact absurd h.1.symm hcode

end Krb5.Rcache
