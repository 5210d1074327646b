import Krb5.Keytab.Slots

/-!
# Histories of a keytab file

Entries are added and removed, and a write may stop at any place behind the reservation of its
slot. As long as every write succeeds, a scan finds the entries that are there; when one has
stopped at the end of the file, it leaves a length of zero, at which a scan ends and behind which
later writes go (`slotAhead`).
-/

namespace Krb5.Keytab

open Lib Lib.OpenFile List

inductive KtOp
  | added (entry : KeytabEntry)
  | stopped (entry : KeytabEntry)
  | removed (entry : KeytabEntry)

/-- Calls that `allowed` admits for the file they find. The list has the entries for which a write
returned success and that have not been removed since. A delete point is one that
`krb5_ktfileint_internal_read_entry` gives. -/
inductive KtRun (id : KtId) (allowed : Octets → KtOp → Prop) : Octets → List KeytabEntry → Prop
  | empty : KtRun id allowed emptyKeytab []
  | added {data : Octets} {live : List KeytabEntry} (run : KtRun id allowed data live)
      {entry : KeytabEntry} (fits : FitsFormat entry) (hallowed : allowed data (.added entry))
      {fuel pos : Nat} {io : KtIo} {s' : OpenFile}
      (hwrite : (ktfileintWriteEntry id fuel io entry).run ⟨data, pos, none⟩ = (.ok (), s')) :
      KtRun id allowed s'.data (stamped io entry :: live)
  | stopped {data : Octets} {live : List KeytabEntry} (run : KtRun id allowed data live)
      {entry : KeytabEntry} (fits : FitsFormat entry) (hallowed : allowed data (.stopped entry))
      {fuel pos : Nat} {io : KtIo} {e : KtCode} {s' : OpenFile}
      (hwrite : (ktfileintWriteEntry id fuel io entry).run ⟨data, pos, none⟩ = (.error e, s')) :
      KtRun id allowed s'.data live
  | removed {data : Octets} {live : List KeytabEntry} (run : KtRun id allowed data live)
      {entry : KeytabEntry} (hallowed : allowed data (.removed entry)) {dp pos : Nat}
      (hfound : (dp, entry) ∈ scan id data) {s' : OpenFile}
      (hdelete : (ktfileintDeleteEntry id dp).run ⟨data, pos, none⟩ = (.ok (), s')) :
      KtRun id allowed s'.data (live.erase entry)

variable {id : KtId} {allowed : Octets → KtOp → Prop} {data tail : Octets} {live : List KeytabEntry}
  {bs : List (Block id)}

theorem scan_file (bs : List (Block id)) (htail : IsTail id tail) :
    (scan id (file bs tail)).map Prod.snd = entries bs := by
  rw [file, scan_blocks bs htail, map_liveFrom]

/-! ## Slots -/

/-- The lengths of a file are followed: a hole with room for `needed` octets or the end of the
file comes before a length of zero. -/
def slotBeforeMark (id : KtId) (needed : Int32) : Nat → Octets → Bool
  | 0, _ => false
  | fuel + 1, rest =>
    if rest.length < 4 then true
    else
      let size := ofOctets32 id.version (rest.take 4)
      if size = 0 then false
      else if size < 0 ∧ needed ≤ -size then true
      else slotBeforeMark id needed fuel (rest.drop (4 + size.toInt.natAbs))

def slotAhead (id : KtId) (entry : KeytabEntry) (data : Octets) : Bool :=
  slotBeforeMark id (ktfileintSizeEntry entry) data.length (data.drop 2)

theorem slotBeforeMark_step (needed : Int32) (fuel : Nat) (size : Int32) (rest : Octets) :
    slotBeforeMark id needed (fuel + 1) (octets32 id.version size ++ rest) =
      if size = 0 then false
      else if size < 0 ∧ needed ≤ -size then true
      else slotBeforeMark id needed fuel (rest.drop size.toInt.natAbs) := by
  have hlen : ¬(octets32 id.version size ++ rest).length < 4 := by
    rw [length_append, length_octets32]
    omega
  have htake : (octets32 id.version size ++ rest).take 4 = octets32 id.version size :=
    take_left' (length_octets32 _ _)
  rw [slotBeforeMark, if_neg hlen, htake, ofOctets32_octets32]
  dsimp only
  rw [← drop_drop, drop_left' (length_octets32 _ _)]

theorem slotBeforeMark_block (needed : Int32) (fuel : Nat) (b : Block id) (rest : Octets) :
    slotBeforeMark id needed (fuel + 1) (b.octets ++ rest) =
      (b.hasRoom needed || slotBeforeMark id needed fuel rest) := by
  cases b with
  | live entry code slack reads sized =>
    have hnot : ¬(Int32.ofNat (code ++ slack).length < 0 ∧
        needed ≤ -Int32.ofNat (code ++ slack).length) := fun h => Int32.lt_asymm sized.pos h.1
    rw [Block.octets_live, append_assoc, slotBeforeMark_step,
      if_neg (Int32.ne_of_lt sized.pos).symm, if_neg hnot, Int32.toInt_ofNat_of_lt sized.2,
      Int.natAbs_natCast, drop_left]
    rfl
  | hole content sized =>
    rw [Block.octets_hole, append_assoc, slotBeforeMark_step, if_neg (Int32.ne_of_lt sized.neg),
      Int32.neg_neg, sized.toInt_neg, Int.natAbs_neg, Int.natAbs_natCast, drop_left]
    by_cases hroom : needed ≤ .ofNat content.length
    · rw [if_pos ⟨sized.neg, hroom⟩, Block.hasRoom, decide_eq_true hroom, Bool.true_or]
    · rw [if_neg fun h => hroom h.2, Block.hasRoom, decide_eq_false hroom, Bool.false_or]

theorem slotBeforeMark_iff {needed : Int32} {fuel : Nat} (h : bs.length < fuel)
    (htail : IsTail id tail) :
    slotBeforeMark id needed fuel (layout bs ++ tail) ↔ Ahead needed bs tail := by
  induction bs generalizing fuel with
  | nil =>
    obtain ⟨n, rfl⟩ := Nat.exists_eq_add_of_lt h
    obtain rfl | ⟨junk, rfl⟩ := htail
    · exact iff_of_true rfl (.inr rfl)
    rw [layout_nil, nil_append, mark, slotBeforeMark_step]
    refine iff_of_false Bool.false_ne_true ?_
    rintro (⟨b, hb, -⟩ | hnil)
    · cases hb
    · have hlen := congrArg List.length hnil
      exact absurd hlen (by simp)
  | cons b bs ih =>
    obtain ⟨n, rfl⟩ := Nat.exists_eq_add_of_lt h
    rw [layout_cons, append_assoc, slotBeforeMark_block, Bool.or_eq_true,
      ih (by rw [length_cons]; omega), Ahead, Ahead, exists_mem_cons_iff, or_assoc]

theorem slotAhead_iff {entry : KeytabEntry} (htail : IsTail id tail) :
    slotAhead id entry (file bs tail) ↔ Ahead (ktfileintSizeEntry entry) bs tail := by
  have hlen : bs.length < (file bs tail).length := by
    have := length_le_length_layout bs
    rw [file, length_append, length_append, emptyKeytab, length_cons]
    omega
  exact slotBeforeMark_iff hlen htail

/-- Writes succeed where there is a slot in front of a length of zero. -/
def SlotsAhead (id : KtId) (data : Octets) (op : KtOp) : Prop :=
  ∀ entry, op = .added entry → slotAhead id entry data = true

def Successful (_ : Octets) (op : KtOp) : Prop := ∀ entry, op ≠ .stopped entry

/-- Along a run the file stays a sequence of blocks with a tail. -/
theorem KtRun.file (hv : id.version = .v2) (h : KtRun id allowed data live) :
    ∃ (bs : List (Block id)) (tail : Octets), data = Keytab.file bs tail ∧ IsTail id tail ∧
      ((∀ data op, allowed data op → SlotsAhead id data op) → List.Perm (entries bs) live) ∧
      ((∀ data op, allowed data op → Successful data op) → tail = [] ∧
        List.Perm (entries bs) live) := by
  induction h with
  | empty => exact ⟨[], [], rfl, .inl rfl, fun _ => .refl _, fun _ => ⟨rfl, .refl _⟩⟩
  | added _ fits hallowed hwrite ih =>
    obtain ⟨bs, tail, rfl, htail, hslots, hsuccessful⟩ := ih
    obtain ⟨bs', tail', hdata, houtcome⟩ := write_cases hv fits htail hwrite
    refine ⟨bs', tail', hdata, houtcome.isTail, fun hall => ?_, fun hall => ?_⟩
    · have hahead := (slotAhead_iff htail).mp (hall _ _ hallowed _ rfl)
      exact (houtcome.added rfl hahead).trans ((hslots hall).cons _)
    · obtain ⟨rfl, hperm⟩ := hsuccessful hall
      exact ⟨houtcome.full rfl rfl, (houtcome.added rfl (.inr rfl)).trans (hperm.cons _)⟩
  | stopped _ fits hallowed hwrite ih =>
    obtain ⟨bs, tail, rfl, htail, hslots, -⟩ := ih
    obtain ⟨bs', tail', hdata, houtcome⟩ := write_cases hv fits htail hwrite
    exact ⟨bs', tail', hdata, houtcome.isTail, fun hall => houtcome.failed _ rfl ▸ hslots hall,
      fun hall => absurd rfl (hall _ _ hallowed _)⟩
  | removed _ _ hfound hdelete ih =>
    obtain ⟨bs, tail, rfl, htail, hslots, hsuccessful⟩ := ih
    obtain ⟨bs', hdata, herase⟩ := delete_cases htail hfound hdelete
    exact ⟨bs', tail, hdata, htail, fun hall => herase.trans ((hslots hall).erase _),
      fun hall => ⟨(hsuccessful hall).1, herase.trans ((hsuccessful hall).2.erase _)⟩⟩

/-- When every call succeeds, the blocks fill the file, and a scan returns the entries that are
there, as they were written and with the time of the write. -/
theorem scan_of_successful (hv : id.version = .v2) (h : KtRun id Successful data live) :
    ∃ bs : List (Block id), data = emptyKeytab ++ layout bs ∧
      List.Perm ((scan id data).map Prod.snd) live := by
  obtain ⟨bs, tail, rfl, htail, -, hsuccessful⟩ := h.file hv
  obtain ⟨rfl, hperm⟩ := hsuccessful fun _ _ h => h
  rw [scan_file bs htail]
  exact ⟨bs, by rw [file, append_nil], hperm⟩

section Samples

def sampleId : KtId := ⟨.v2, 8, by decide⟩

def hostEntry : KeytabEntry := ⟨⟨[82], [[104]], 1⟩, 0, 3, ⟨1, [1, 2]⟩⟩

def otherEntry : KeytabEntry := ⟨⟨[82], [[105], [106]], 1⟩, 0, 4, ⟨1, [9]⟩⟩

def sampleIo : KtIo := ⟨.ok 77, none⟩

theorem fits_hostEntry : FitsFormat hostEntry :=
  ⟨by decide, by decide, by decide, by decide, by decide, by decide, by decide⟩

theorem fits_otherEntry : FitsFormat otherEntry :=
  ⟨by decide, by decide, by decide, by decide, by decide, by decide, by decide⟩

def writtenBy (io : KtIo) (entry : KeytabEntry) (data : Octets) : OpenFile :=
  ((ktfileintWriteEntry sampleId 20 io entry).run ⟨data, 0, none⟩).2

/-- A file with two entries, of which the first is removed and written again. -/
def hostFile : Octets := (writtenBy sampleIo hostEntry emptyKeytab).data

def bothFile : Octets := (writtenBy sampleIo otherEntry hostFile).data

def holeFile : Octets := ((ktfileintDeleteEntry sampleId 2).run ⟨bothFile, 0, none⟩).2.data

def reusedFile : Octets := (writtenBy sampleIo hostEntry holeFile).data

theorem run_reusedFile : KtRun sampleId Successful reusedFile
    (stamped sampleIo hostEntry ::
      ([stamped sampleIo otherEntry, stamped sampleIo hostEntry].erase (stamped sampleIo hostEntry))) := by
  have hadded (data : Octets) (entry : KeytabEntry) : Successful data (.added entry) := nofun
  have hremoved (data : Octets) (entry : KeytabEntry) : Successful data (.removed entry) := nofun
  have hhost : KtRun sampleId Successful hostFile [stamped sampleIo hostEntry] :=
    KtRun.empty.added fits_hostEntry (hadded _ _) (run_eq_of_fst (by decide +kernel))
  have hboth : KtRun sampleId Successful bothFile [stamped sampleIo otherEntry, stamped sampleIo hostEntry] :=
    hhost.added fits_otherEntry (hadded _ _) (run_eq_of_fst (by decide +kernel))
  have hhole : KtRun sampleId Successful holeFile _ :=
    hboth.removed (hremoved _ (stamped sampleIo hostEntry)) (by decide +kernel)
      (run_eq_of_fst (by decide +kernel))
  exact hhole.added fits_hostEntry (hadded _ _) (run_eq_of_fst (by decide +kernel))

end Samples

theorem scan_of_successful_reused :
    ∃ bs : List (Block sampleId), reusedFile = emptyKeytab ++ layout bs ∧
      List.Perm ((scan sampleId reusedFile).map Prod.snd)
        [stamped sampleIo hostEntry, stamped sampleIo otherEntry] :=
  scan_of_successful rfl run_reusedFile

/-- When every write that succeeds had a slot ahead, a scan finds what has been written, whatever
other writes stopped. And a write to any file that succeeds is found exactly then. -/
theorem added_is_found (hv : id.version = .v2) :
    (∀ data live, KtRun id (SlotsAhead id) data live →
      List.Perm ((scan id data).map Prod.snd) live) ∧
    ∀ data live, KtRun id (fun _ _ => True) data live →
      ∀ entry fuel pos io s', FitsFormat entry →
        (ktfileintWriteEntry id fuel io entry).run ⟨data, pos, none⟩ = (.ok (), s') →
          (List.Perm ((scan id s'.data).map Prod.snd) (stamped io entry :: (scan id data).map Prod.snd) ↔
            slotAhead id entry data = true) := by
  refine ⟨fun data live h => ?_, fun data live h entry fuel pos io s' fits hwrite => ?_⟩
  · obtain ⟨bs, tail, rfl, htail, hslots, -⟩ := h.file hv
    rw [scan_file bs htail]
    exact hslots fun _ _ h => h
  obtain ⟨bs, tail, rfl, htail, -⟩ := h.file hv
  obtain ⟨bs', tail', hdata, houtcome⟩ := write_cases hv fits htail hwrite
  rw [hdata, scan_file bs' houtcome.isTail, scan_file bs htail, slotAhead_iff htail]
  refine ⟨fun hperm => ?_, houtcome.added rfl⟩
  by_contra hnot
  rw [houtcome.hidden hnot] at hperm
  exact Nat.succ_ne_self _ hperm.length_eq.symm

def failingIo : KtIo := ⟨.ok 77, some 0⟩

def markedFile : Octets := (writtenBy failingIo hostEntry emptyKeytab).data

theorem run_markedFile {allowed : Octets → KtOp → Prop} (h : allowed emptyKeytab (.stopped hostEntry)) :
    KtRun sampleId allowed markedFile [] :=
  KtRun.empty.stopped fits_hostEntry h (e := .ioErr) (run_eq_of_fst (by decide +kernel))

/-- A write to an empty keytab is found, one behind a write that stopped is not. -/
theorem added_is_found_marked :
    List.Perm ((scan sampleId (writtenBy sampleIo hostEntry emptyKeytab).data).map Prod.snd)
        (stamped sampleIo hostEntry :: (scan sampleId emptyKeytab).map Prod.snd) ∧
    List.Perm ((scan sampleId markedFile).map Prod.snd) [] ∧
      ¬List.Perm ((scan sampleId (writtenBy sampleIo otherEntry markedFile).data).map Prod.snd)
        (stamped sampleIo otherEntry :: (scan sampleId markedFile).map Prod.snd) := by
  have hfound := added_is_found (rfl : sampleId.version = .v2)
  refine ⟨?_, hfound.1 _ _ (run_markedFile nofun), fun hperm => ?_⟩
  · exact (hfound.2 _ _ .empty hostEntry 20 0 sampleIo _ fits_hostEntry
      (run_eq_of_fst (by decide +kernel))).mpr (by decide +kernel)
  have hahead := (hfound.2 _ _ (run_markedFile trivial) otherEntry 20 0 sampleIo _ fits_otherEntry
    (run_eq_of_fst (by decide +kernel))).mp hperm
  exact absurd hahead (by decide +kernel)

/-- A write that succeeds and is not found, behind one that stopped. -/
theorem added_is_hidden :
    KtRun sampleId (fun _ _ => True) markedFile [] ∧
      ((ktfileintWriteEntry sampleId 20 sampleIo otherEntry).run ⟨markedFile, 0, none⟩).1 = .ok () ∧
      scan sampleId (writtenBy sampleIo otherEntry markedFile).data = [] :=
  ⟨run_markedFile trivial, by decide +kernel, by decide +kernel⟩

end Krb5.Keytab
