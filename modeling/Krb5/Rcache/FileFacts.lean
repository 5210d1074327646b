import Krb5.Rcache.Dfl

/-!
# Records in a file

What the functions of `rc_io.c` do on a file that holds the header and whole
records: reads return the parts one after another, `krb5_rc_io_fetch` returns
the record at the offset, and a write at the end appends.
-/

namespace Krb5.Rcache

open Lib List

def Proc.seek (s : Proc) (i off : Nat) : Proc := s.setD { s.t.d with fd := some ⟨i, off⟩ }

section Seek

variable (s : Proc) (i off : Nat)

@[simp] theorem fs_seek : (s.seek i off).fs = s.fs := rfl

@[simp] theorem fd_seek : (s.seek i off).t.d.fd = some ⟨i, off⟩ := rfl

theorem seek_self (h : s.t.d.fd = some ⟨i, off⟩) : s.seek i off = s := by
  obtain ⟨fs, ticks, ⟨_, _, _, _, _, ⟨_, _, _⟩, _⟩⟩ := s
  cases h
  rfl

end Seek

variable {context : Context} {s : Proc} {i : Nat}

section Reads

variable {front bs : Octets} {x : Int32}

theorem ioRead_part (hdata : front ++ bs <+: s.fs.data i) (hne : bs ≠ []) :
    (ioRead bs.length).run (s.seek i front.length) =
      (.ok bs, s.seek i (front ++ bs).length) := by
  obtain ⟨back, hback⟩ := hdata
  simp only [ioRead, fd_seek, fs_seek, ← hback, readAt_append, if_neg hne, length_append]
  rfl

theorem ioReadInt_part (old : Int32) (hdata : front ++ intOctets x <+: s.fs.data i) :
    (ioReadInt old).run (s.seek i front.length) =
      (.ok x, s.seek i (front ++ intOctets x).length) := by
  have hread : (ioRead 4).run (s.seek i front.length) = _ :=
    ioRead_part hdata (by simp [intOctets])
  rw [ioReadInt, bind_of_ok hread, drop_of_length_le (by simp), append_nil, octetsInt_intOctets]
  rfl

theorem ioReadIntOr_part (old : Option Int32) (hdata : front ++ intOctets x <+: s.fs.data i) :
    (ioReadIntOr context old).run (s.seek i front.length) =
      (.ok x, s.seek i (front ++ intOctets x).length) := by
  rw [ioReadIntOr, bind_of_ok run_get]
  exact ioReadInt_part _ hdata

end Reads

/-! ## Records -/

theorem badLength_ofNat {n size : Nat} (hpos : 0 < n) (hlt : n < size) (hmax : size ≤ maxFile) :
    badLength (Int32.ofNat n) (Int32.ofNat size) = false := by
  have hmax : size ≤ 2 ^ 31 - 1 := hmax
  have hn : (Int32.ofNat n).toInt = n := Int32.toInt_ofNat_of_lt (by omega)
  have hsize : (Int32.ofNat size).toInt = size := Int32.toInt_ofNat_of_lt (by omega)
  have hzero : (0 : Int32).toInt = 0 := rfl
  simp only [badLength, Int32.le_iff_toInt_le, Bool.or_eq_false_iff,
    decide_eq_false_iff_not]
  omega

@[simp] theorem length_buffer (text : CString) : text.buffer.length = text.1.length + 1 := by
  simp [CString.buffer]

/-- The record as `krb5_rc_io_fetch` returns it. -/
def DonotReplay.fetched (rep : DonotReplay) : Fetched :=
  ⟨rep.client.buffer, rep.server.buffer, rep.cusec, rep.ctime⟩

variable (rep : DonotReplay)

@[simp] theorem rep_fetched : rep.fetched.rep = some rep := by
  simp [Fetched.rep, DonotReplay.fetched]

theorem length_record : (record rep).length = rep.client.1.length + rep.server.1.length + 18 := by
  simp only [record, length_append, length_intOctets, length_buffer]
  omega

/-- A record is read back and the file stands behind it. -/
theorem ioFetch_record {front : Octets} {rep : DonotReplay}
    (hdata : front ++ record rep <+: s.fs.data i) (hmax : (s.fs.data i).length ≤ maxFile)
    (old : Option Fetched) :
    (ioFetch context old (Int32.ofNat (s.fs.data i).length)).run (s.seek i front.length) =
      (.ok rep.fetched, s.seek i (front ++ record rep).length) := by
  have hsize := hdata.length_le
  rw [length_append, length_record] at hsize
  have hlt : (s.fs.data i).length < 2 ^ 31 := Nat.lt_of_le_of_lt hmax (by decide)
  have hcli := @badLength_ofNat (rep.client.1.length + 1) _ (by omega) (by omega) hmax
  have hsrv := @badLength_ofNat (rep.server.1.length + 1) _ (by omega) (by omega) hmax
  have hclientlen : (Int32.ofNat (rep.client.1.length + 1)).toNatClampNeg =
      rep.client.buffer.length := by
    rw [Int32.toNatClampNeg_ofNat_of_lt (by omega), length_buffer]
  have hserverlen : (Int32.ofNat (rep.server.1.length + 1)).toNatClampNeg =
      rep.server.buffer.length := by
    rw [Int32.toNatClampNeg_ofNat_of_lt (by omega), length_buffer]
  have hne : ∀ text : CString, text.buffer ≠ [] := by simp [CString.buffer]
  -- the six parts of the record, each read from behind the ones before it
  simp only [record, ← append_assoc] at hdata ⊢
  have h5 := (prefix_append _ _).trans hdata
  have h4 := (prefix_append _ _).trans h5
  have h3 := (prefix_append _ _).trans h4
  have h2 := (prefix_append _ _).trans h3
  have h1 := (prefix_append _ _).trans h2
  rw [ioFetch, bind_of_ok (ioReadIntOr_part none h1), hcli, bind_of_ok (a := ()) rfl, hclientlen,
    bind_of_ok (ioRead_part h2 (hne _)), bind_of_ok (ioReadInt_part _ h3), hsrv,
    bind_of_ok (a := ()) rfl, hserverlen, bind_of_ok (ioRead_part h4 (hne _)),
    bind_of_ok (ioReadIntOr_part _ h5), bind_of_ok (ioReadIntOr_part _ hdata)]
  rfl

/-! Where no record is left, what is read as one comes to the end of the file. -/

/-- These octets, at the end of the file, are enough for a record: the two
lengths, the texts, and some of the time. -/
def Fetchable (rest : Octets) : Prop :=
  let clientlen := octetsInt (rest.take 4)
  let serverlen := octetsInt ((rest.drop (4 + clientlen.toNatClampNeg)).take 4)
  0 < clientlen ∧ 0 < serverlen ∧
    4 + clientlen.toNatClampNeg + 4 + serverlen.toNatClampNeg + 4 < rest.length

section Rest

variable {off : Nat} {rest : Octets}

variable (h : (s.fs.data i).drop off = rest) {Q : Except RcCode Int32 → Proc → Prop}
include h

theorem ioRead_rest (num : Nat)
    {Q : Except RcCode Octets → Proc → Prop} (herr : Q (.error .ioEof) (s.seek i off))
    (hok : num ≠ 0 → rest ≠ [] →
      Q (.ok (rest.take num)) (s.seek i (off + (rest.take num).length))) :
    wp (ioRead num) Q (s.seek i off) := by
  simp only [wp, ioRead, fd_seek, fs_seek, readAt, h]
  split
  · exact herr
  · rename_i hne
    rw [take_eq_nil_iff, not_or] at hne
    exact hok hne.1 hne.2

theorem drop_rest (num : Nat) :
    (s.fs.data i).drop (off + (rest.take num).length) = rest.drop num := by
  rw [← drop_drop, h, length_take]
  rcases Nat.le_total num rest.length with hle | hle
  · rw [Nat.min_eq_left hle]
  · rw [Nat.min_eq_right hle, drop_length, drop_of_length_le hle]

section

variable (herr : Q (.error .ioEof) (s.seek i off))
  (hok : ∀ x off', rest ≠ [] → (rest.drop 4 ≠ [] → x = octetsInt (rest.take 4)) →
    (s.fs.data i).drop off' = rest.drop 4 → Q (.ok x) (s.seek i off'))
include herr hok

theorem ioReadInt_rest {old : Int32} : wp (ioReadInt old) Q (s.seek i off) := by
  rw [ioReadInt, wp_bind]
  refine ioRead_rest h 4 herr fun _ hne => ?_
  refine hok _ _ hne (fun hmore => ?_) (drop_rest h 4)
  have hlen : 4 ≤ rest.length := Nat.le_of_lt (by simpa using hmore)
  rw [length_take, Nat.min_eq_left hlen, drop_of_length_le (by simp), append_nil]

theorem ioReadIntOr_rest {old : Option Int32} : wp (ioReadIntOr context old) Q (s.seek i off) := by
  rw [ioReadIntOr, wp_get_bind]
  exact ioReadInt_rest h herr hok

end

/-- With that much of the file left, a record is fetched only if it is enough;
otherwise only the descriptor has moved. -/
theorem ioFetch_rest (old : Option Fetched) (maxlen : Int32) :
    wp (ioFetch context old maxlen)
      (post (fun _ _ => Fetchable rest) fun e s' => e = .ioEof ∧ ∃ off', s' = s.seek i off')
      (s.seek i off) := by
  have hpos : ∀ len : Int32, badLength len maxlen = false → 0 < len := by
    intro len hgood
    simp only [badLength, Bool.or_eq_false_iff, decide_eq_false_iff_not] at hgood
    exact Int32.not_le.mp hgood.1
  -- each part must leave octets for the next
  rw [ioFetch, wp_bind]
  refine ioReadIntOr_rest h ⟨rfl, _, rfl⟩ fun clientlen off₁ _ hclientlen h₁ => ?_
  rw [post_ok, wp_bind, wp_failIf]
  split
  · exact ⟨rfl, _, rfl⟩
  rename_i hcli
  rw [post_ok, wp_bind]
  refine ioRead_rest h₁ _ ⟨rfl, _, rfl⟩ fun _ hmore₁ => ?_
  rw [post_ok, wp_bind]
  refine ioReadInt_rest (drop_rest h₁ _) ⟨rfl, _, rfl⟩ fun serverlen off₂ hmore₂ hserverlen h₂ => ?_
  rw [post_ok, wp_bind, wp_failIf]
  split
  · exact ⟨rfl, _, rfl⟩
  rename_i hsrv
  rw [post_ok, wp_bind]
  refine ioRead_rest h₂ _ ⟨rfl, _, rfl⟩ fun _ hmore₃ => ?_
  rw [post_ok, wp_bind]
  refine ioReadIntOr_rest (drop_rest h₂ _) ⟨rfl, _, rfl⟩ fun cusec off₃ _ _ h₃ => ?_
  rw [post_ok, wp_bind]
  refine ioReadIntOr_rest h₃ ⟨rfl, _, rfl⟩ fun ctime off₄ hmore₄ _ _ => ?_
  obtain rfl := hclientlen hmore₁
  obtain rfl := hserverlen hmore₃
  simp only [drop_drop] at hmore₄
  refine ⟨hpos _ (by simpa using hcli), hpos _ (by simpa using hsrv), ?_⟩
  have := List.drop_eq_nil_iff.not.mp hmore₄
  omega

end Rest

/-! ## Writes -/

/-- The octets that may lie behind the records of a file: they may be written
over, and are not enough for a record. -/
structure Tails (P : Octets → Prop) : Prop where
  nil : P []
  drop : ∀ {tail} n, P tail → P (tail.drop n)
  stops : ∀ {tail}, P tail → ¬Fetchable tail

/-- Nothing lies behind the records. -/
def Whole (tail : Octets) : Prop := tail = []

theorem whole_tails : Tails Whole where
  nil := rfl
  drop n h := by
    rw [Whole] at h ⊢
    rw [h, drop_nil]
  stops h := by
    rw [Whole] at h
    simp [h, Fetchable]

/-- The descriptor is behind that content of a file. -/
structure Behind (P : Octets → Prop) (s : Proc) (i : Nat) (content : Octets) : Prop where
  fd : s.t.d.fd = some ⟨i, content.length⟩
  data : ∃ tail, P tail ∧ s.fs.data i = content ++ tail
  size : (s.fs.data i).length ≤ maxFile

/-- From `s` to `s'` only the file `i` was written, through the handle. -/
structure Wrote (i : Nat) (s s' : Proc) : Prop where
  dir : s'.fs.dir = s.fs.dir
  other : ∀ k, k ≠ i → s'.fs.data k = s.fs.data k
  ticks : s'.ticks = s.ticks
  t : s'.t = { s.t with d := { s.t.d with fd := s'.t.d.fd } }

theorem Wrote.refl (i : Nat) (s : Proc) : Wrote i s s := ⟨rfl, fun _ _ => rfl, rfl, rfl⟩

theorem Wrote.trans {s' s'' : Proc} (h : Wrote i s s') (h' : Wrote i s' s'') :
    Wrote i s s'' where
  dir := h'.dir.trans h.dir
  other k hk := (h'.other k hk).trans (h.other k hk)
  ticks := h'.ticks.trans h.ticks
  t := by
    rw [h'.t, h.t]

section Write

variable {P : Octets → Prop} {content : Octets}

theorem ioWrite_behind (hP : Tails P) (h : Behind P s i content) {bs : Octets}
    (hsize : (content ++ bs).length ≤ maxFile) :
    ∃ s', (ioWrite bs).run s = (.ok (), s') ∧ Behind P s' i (content ++ bs) ∧ Wrote i s s' := by
  obtain ⟨tail, htail, hdata⟩ := h.data
  have hfits := h.size
  rw [length_append] at hsize
  have hlen : content.length + bs.length ≤ maxFile := hsize
  have hrun : (ioWrite bs).run s = (.ok (), { s with fs := s.fs.write i content.length bs }.setD
        { s.t.d with fd := some ⟨i, content.length + bs.length⟩ }) := by
    simp [ioWrite, h.fd, if_pos hlen]
  have hdata' : ({ s with fs := s.fs.write i content.length bs }.setD
      { s.t.d with fd := some ⟨i, content.length + bs.length⟩ }).fs.data i =
      content ++ bs ++ tail.drop bs.length := by
    simp [Proc.setD, Fs.write, hdata, writeAt_append]
  refine ⟨_, hrun, ⟨?_, ⟨_, hP.drop bs.length htail, hdata'⟩, ?_⟩, rfl, ?_, rfl, rfl⟩
  · simp [Proc.setD]
  · rw [hdata'] at *
    rw [hdata] at hfits
    simp only [length_append, length_drop] at hfits ⊢
    omega
  · intro k hk
    simp [Proc.setD, Fs.write, hk]

theorem ioWrite_wp (hP : Tails P) (h : Behind P s i content) (bs : Octets) :
    wp (ioWrite bs) (post (fun _ s' => Behind P s' i (content ++ bs) ∧ Wrote i s s')
      fun e s' => e = .ioSpace ∧ s' = s) s := by
  by_cases hsize : (content ++ bs).length ≤ maxFile
  · obtain ⟨s', hrun, hend, hwrote⟩ := ioWrite_behind hP h hsize
    rw [wp, hrun]
    exact ⟨hend, hwrote⟩
  · rw [length_append] at hsize
    simp [wp, ioWrite, h.fd, hsize]

theorem storeAll_wp (hP : Tails P) (h : Behind P s i content) (reps : List DonotReplay) :
    wp (storeAll reps)
      (post (fun _ s' => Behind P s' i (content ++ reps.flatMap record) ∧ Wrote i s s')
        fun _ s' => Wrote i s s') s := by
  induction reps generalizing s content with
  | nil => simpa [storeAll] using ⟨h, Wrote.refl i s⟩
  | cons rep rest ih =>
    refine wp_seq (ioWrite_wp hP h (record rep)) ?_ ?_
    · rintro - s' ⟨hend, hwrote⟩
      refine wp_mono (ih hend) fun r s'' hr => ?_
      cases r with
      | ok u =>
        rw [flatMap_cons, ← append_assoc]
        exact ⟨hr.1, hwrote.trans hr.2⟩
      | error e => exact hwrote.trans hr
    · rintro e s' ⟨-, rfl⟩
      exact Wrote.refl i s'

end Write

theorem ioSync_of_fd {fd : Fd} (h : s.t.d.fd = some fd) : ioSync.run s = (.ok (), s) := by
  simp [ioSync, h]

def header (lifespan : Deltat) : Octets := rcVno ++ intOctets lifespan

def image (lifespan : Deltat) (reps : List DonotReplay) : Octets :=
  header lifespan ++ reps.flatMap record

/-- From `s` to `s'` a file was created and written, and is the handle's. -/
structure Created (fn : Octets) (s s' : Proc) : Prop where
  dir : ∀ n, s'.fs.dir n = if n = fn then some s.fs.next else s.fs.dir n
  other : ∀ k, k ≠ s.fs.next → s'.fs.data k = s.fs.data k
  ticks : s'.ticks = s.ticks
  t : s'.t = { s.t with
    name := some fn, lifespan := s'.t.lifespan, d := { s.t.d with fd := s'.t.d.fd, fn := some fn } }

theorem Created.wrote {fn : Octets} {s' s'' : Proc} (h : Created fn s s')
    (h' : Wrote s.fs.next s' s'') : Created fn s s'' where
  dir n := by rw [h'.dir, h.dir]
  other k hk := (h'.other k hk).trans (h.other k hk)
  ticks := h'.ticks.trans h.ticks
  t := by
    rw [h'.t, h.t]

/-- A new file holds the header. -/
theorem dflInit_run {lifespan : Deltat} {fn : Octets}
    (hname : creatName s.fs context.pid s.t.name = some fn) :
    ∃ s', (dflInit context lifespan).run s = (.ok (), s') ∧
      Behind Whole s' s.fs.next (header (orClockskew context lifespan)) ∧ Created fn s s' ∧
      s'.t.lifespan = orClockskew context lifespan := by
  have hsmall : ∀ bs : Octets, bs.length ≤ 6 → bs.length ≤ maxFile :=
    fun _ h => h.trans (by decide)
  -- the handle with its lifespan, and then with the empty file
  let s₁ : Proc := { s with t := { s.t with lifespan := orClockskew context lifespan } }
  let s₂ : Proc :=
    { s₁ with
      fs := s.fs.create fn
      t := { s₁.t with name := some fn, d := { s.t.d with fd := some ⟨s.fs.next, 0⟩, fn := some fn } } }
  have hempty : Behind Whole s₂ s.fs.next [] :=
    ⟨rfl, ⟨[], rfl, by simp [s₂, Fs.create]⟩, by simp [s₂, Fs.create]⟩
  have hcreated : Created fn s s₂ := by
    refine ⟨fun n => rfl, ?_, rfl, rfl⟩
    intro k hk
    simp [s₂, Fs.create, hk]
  obtain ⟨s₃, hvno, hend, hwrote⟩ := @ioWrite_behind _ _ _ _ whole_tails hempty rcVno (hsmall _ (by decide))
  obtain ⟨s₄, hspan, hend', hwrote'⟩ := @ioWrite_behind _ _ _ _ whole_tails hend
    (intOctets (orClockskew context lifespan)) (hsmall _ (by simp [rcVno]))
  have hcreat : (ioCreat context.pid).run s₁ = (.ok (), s₃) := by
    rw [ioCreat, bind_of_ok (a := s₁) rfl, show creatName s₁.fs context.pid s₁.t.name = some fn
      from hname]
    rw [bind_of_ok (show (Action.modify _ : Rc Unit).run s₁ = (.ok (), s₂) from rfl)]
    refine onError_of_ok ?_ _
    rw [bind_of_ok hvno]
    exact ioSync_of_fd hend.fd
  refine ⟨s₄, ?_, hend', (hcreated.wrote hwrote).wrote hwrote', ?_⟩
  · rw [dflInit, bind_of_ok (show (Action.modify _ : Rc Unit).run s = (.ok (), s₁) from rfl),
      bind_of_ok hcreat]
    refine withError_of_ok ?_ _
    rw [bind_of_ok hspan]
    exact ioSync_of_fd hend'.fd
  · rw [hwrote'.t, hwrote.t]

end Krb5.Rcache
