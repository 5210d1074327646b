import Krb5.Keytab.Blocks

/-!
# Slots for entries

What `krb5_ktfileint_find_slot` finds in the blocks, what `krb5_ktfileint_write_entry` makes of
it whether it comes to its end or not, and what `krb5_ktfileint_delete_entry` leaves.
-/

namespace Krb5.Keytab

open Lib Lib.OpenFile List Block

variable {id : KtId} {front tail rest : Octets} {needed : Int32} {entry : KeytabEntry}

theorem beyond_putItem (bs : Octets) : Beyond front (putItem bs) fun _ => True :=
  (Beyond.write bs).bind fun _ _ => Beyond.failIf _ _

theorem beyond_putChars (bs : Octets) : Beyond front (putChars bs) fun _ => True :=
  (Beyond.write bs).bind fun _ _ => Beyond.failIf _ _

theorem beyond_zeroTrailing (fuel : Nat) : Beyond front (zeroTrailing id fuel) fun _ => True := by
  induction fuel with
  | zero => exact Beyond.fail _
  | succ fuel ih =>
    refine (Beyond.read _).bind fun got _ => ?_
    split
    · exact Beyond.pure trivial
    · exact (Beyond.write _).bind fun _ _ => ih

theorem beyond_findSlotLoop (fuel : Nat) :
    Beyond front (findSlotLoop id fuel needed) fun slot => front.length ≤ slot.2 := by
  induction fuel with
  | zero => exact Beyond.fail _
  | succ fuel ih =>
    refine Beyond.tell.bind fun commitPoint hcommit => (Beyond.readItem _).bind fun item _ => ?_
    cases item with
    | none => exact (beyond_putItem _).bind fun _ _ => Beyond.pure hcommit
    | some bs =>
      dsimp only
      split
      · exact (Beyond.skip _).bind fun _ _ => ih
      split
      · exact Beyond.pure hcommit
      split
      · exact (Beyond.skip _).bind fun _ _ => ih
      · exact Beyond.tell.bind fun zeroPoint hzero => (beyond_zeroTrailing fuel).bind fun _ _ =>
          (Beyond.seek hzero).bind fun _ _ => ih

theorem beyond_putCounted (bs : Octets) : Beyond front (putCounted id bs) fun _ => True :=
  (beyond_putItem _).bind fun _ _ => beyond_putChars bs

theorem beyond_putType (type : Int32) : Beyond front (putType id type) fun _ => True := by
  rw [putType]
  cases id.version with
  | v1 => exact Beyond.pure trivial
  | v2 => exact beyond_putItem _

theorem beyond_putEntry (entry : KeytabEntry) (now : Timestamp) :
    Beyond front (putEntry id entry now) fun _ => True :=
  (beyond_putItem _).bind fun _ _ => (beyond_putCounted _).bind fun _ _ =>
    (Beyond.forM beyond_putCounted _).bind fun _ _ => (beyond_putType _).bind fun _ _ =>
      (beyond_putItem _).bind fun _ _ => (beyond_putItem _).bind fun _ _ =>
        (beyond_putItem _).bind fun _ _ => (beyond_putItem _).bind fun _ _ => beyond_putChars _

theorem beyond_syncDiskFile : Beyond front syncDiskFile fun _ => True := by
  intro s hdata hpos
  exact Beyond.failIf s.room.isSome KtCode.errno s hdata hpos

theorem beyond_fillSlot (io : KtIo) (entry : KeytabEntry) {slot : Int32 × Nat}
    (h : front.length ≤ slot.2) : Beyond front (fillSlot id io entry slot) fun _ => True := by
  have hroom : Beyond front (setRoom io.stop) fun _ => True :=
    fun s hdata hpos => ⟨hdata, hpos, fun _ _ => trivial⟩
  exact hroom.bind fun _ _ => (beyond_putEntry _ _).bind fun _ _ => beyond_syncDiskFile.bind fun _ _ =>
    (Beyond.seek h).bind fun _ _ => (beyond_putItem _).bind fun _ _ => beyond_syncDiskFile

/-! ## The search -/

def Block.hasRoom (needed : Int32) : Block id → Bool
  | .live _ _ _ _ _ => false
  | .hole content _ => needed ≤ .ofNat content.length

variable {content : Octets}

section Search

variable {room : Option Nat}

theorem run_readItem_int32 (x : Int32) :
    (readItem 4 : KtCall _).run (cut front (octets32 id.version x ++ rest) room) =
      (.ok (some (octets32 id.version x)), cut (front ++ octets32 id.version x) rest room) := by
  have hitem : Reads (readItem (octets32 id.version x).length : KtCall _) (octets32 id.version x)
      (some (octets32 id.version x)) := Reads.readItem _
  rw [length_octets32] at hitem
  exact hitem.run_cut front rest room

theorem findSlotLoop_step {b : Block id} (h : b.hasRoom needed = false) (fuel : Nat) :
    (findSlotLoop id (fuel + 1) needed).run (cut front (b.octets ++ rest) room) =
      (findSlotLoop id fuel needed).run (cut (front ++ b.octets) rest room) := by
  rw [findSlotLoop, bind_of_ok (run_tell _)]
  cases b with
  | live entry code slack reads sized =>
    rw [octets_live, append_assoc, bind_of_ok (run_readItem_int32 _)]
    dsimp only
    rw [ofOctets32_octets32, if_pos sized.pos, sized.toNat, bind_of_ok (run_skip_cut _ _ _ _),
      append_assoc]
  | hole content sized =>
    rw [octets_hole, append_assoc, bind_of_ok (run_readItem_int32 _)]
    dsimp only
    rw [ofOctets32_octets32, if_neg (Int32.lt_asymm sized.neg), Int32.neg_neg,
      if_neg (of_decide_eq_false h), if_pos sized.pos, sized.toNat,
      bind_of_ok (run_skip_cut _ _ _ _), append_assoc]

theorem findSlotLoop_skip {bs : List (Block id)} (h : ∀ b ∈ bs, b.hasRoom needed = false)
    (fuel : Nat) :
    (∃ fuel', (findSlotLoop id fuel needed).run (cut front (layout bs ++ rest) room) =
        (findSlotLoop id (fuel' + 1) needed).run (cut (front ++ layout bs) rest room)) ∨
      ∃ s, (findSlotLoop id fuel needed).run (cut front (layout bs ++ rest) room) = (.error .hangs, s) ∧
        s.data = front ++ (layout bs ++ rest) := by
  induction bs generalizing front fuel with
  | nil =>
    rw [layout_nil, append_nil]
    cases fuel with
    | zero => exact .inr ⟨_, rfl, rfl⟩
    | succ fuel => exact .inl ⟨fuel, rfl⟩
  | cons b bs ih =>
    cases fuel with
    | zero => exact .inr ⟨_, rfl, rfl⟩
    | succ fuel =>
      rw [layout_cons, append_assoc, findSlotLoop_step (h b mem_cons_self),
        ← append_assoc, ← append_assoc]
      exact ih (fun b' hb' => h b' (mem_cons_of_mem b hb')) fuel

theorem findSlotLoop_hole {sized : Sized content}
    (h : (hole content sized : Block id).hasRoom needed) (fuel : Nat) :
    (findSlotLoop id (fuel + 1) needed).run
        (cut front ((hole content sized : Block id).octets ++ rest) room) =
      (.ok (.ofNat content.length, front.length),
        cut (front ++ octets32 id.version (-.ofNat content.length)) (content ++ rest) room) := by
  rw [findSlotLoop, bind_of_ok (run_tell _), octets_hole, append_assoc,
    bind_of_ok (run_readItem_int32 _)]
  dsimp only
  rw [ofOctets32_octets32, if_neg (Int32.lt_asymm sized.neg), Int32.neg_neg,
    if_pos (of_decide_eq_true h)]
  rfl

theorem run_putItem (bs : Octets) :
    (putItem bs).run (cut front rest none) = (.ok (), cut (front ++ bs) (rest.drop bs.length) none) := by
  rw [putItem, bind_of_ok (run_write front rest bs none)]
  show (Action.failIf (bs.length != bs.length) KtCode.ioErr : KtCall Unit).run _ = _
  rw [bne_self_eq_false]
  rfl

theorem findSlotLoop_end (fuel : Nat) :
    (findSlotLoop id (fuel + 1) needed).run (cut front [] none) =
      (.ok (needed, front.length), cut (front ++ mark id) [] none) := by
  rw [findSlotLoop, bind_of_ok (run_tell _), bind_of_ok (run_readItem_end front (by decide) none)]
  rw [bind_of_ok (run_putItem _), drop_nil]
  rfl

theorem findSlotLoop_mark (hneeded : 0 < needed) (fuel : Nat) (junk : Octets) :
    (findSlotLoop id (fuel + 1) needed).run (cut front (mark id ++ junk) room) =
      (zeroTrailing id fuel >>= fun _ => seek (front ++ mark id).length >>= fun _ =>
        findSlotLoop id fuel needed).run (cut (front ++ mark id) junk room) := by
  rw [findSlotLoop, bind_of_ok (run_tell _), mark, bind_of_ok (run_readItem_int32 _)]
  dsimp only
  rw [ofOctets32_octets32, Int32.neg_zero, if_neg (Int32.not_le.mpr hneeded)]
  rfl

end Search

theorem run_syncDiskFile {s : OpenFile} (h : s.room = none) : syncDiskFile.run s = (.ok (), s) := by
  rw [syncDiskFile, run_get_bind, h]
  rfl

variable {io : KtIo} {result : Except KtCode Unit} {s' : OpenFile} {bs : List (Block id)}
  {fuel pos : Nat}

/-- A slot is filled, or a part of the entry is left in it. -/
theorem fillSlot_cases {head : Octets} {size : Int32} (hhead : head.length = 4)
    (h : (fillSlot id io entry (size, front.length)).run (cut (front ++ head) rest none) =
      (result, s')) :
    (∃ e x, result = .error e ∧ s'.data = front ++ (head ++ (x ++ rest.drop x.length)) ∧
        x.length ≤ (entryOctets id entry (stamp io)).length) ∨
      result = .ok () ∧ entry.principal.realm ≠ [] ∧ (∀ c ∈ writtenComponents entry.principal, c ≠ []) ∧
        entry.key.contents ≠ [] ∧
        s'.data = front ++ (octets32 id.version size ++ (entryOctets id entry (stamp io) ++
          rest.drop (entryOctets id entry (stamp io)).length)) := by
  obtain ⟨written, x, room', hput, hx, hroom, hall⟩ :=
    lays_putEntry entry (stamp io) (front ++ head) rest io.stop
  have hset : (setRoom io.stop).run (cut (front ++ head) rest none) =
      (.ok (), cut (front ++ head) rest io.stop) := rfl
  rw [fillSlot, bind_of_ok hset] at h
  cases written with
  | error e =>
    rw [bind_of_error hput] at h
    cases h
    exact .inl ⟨e, x, rfl, by simp, hx⟩
  | ok u =>
    obtain ⟨hrealm, hcomps, hkey⟩ := putEntry_ok hput
    rw [bind_of_ok hput] at h
    cases hroom' : room' with
    | some r =>
      rw [hroom'] at h
      cases h
      exact .inl ⟨_, x, rfl, by simp, hx⟩
    | none =>
      have hstop : io.stop = none := by
        rw [hroom'] at hroom
        exact Option.not_isSome_iff_eq_none.mp (by rw [← hroom]; decide)
      have hxall := hall hstop rfl
      subst hxall hroom'
      rw [bind_of_ok (run_syncDiskFile rfl), append_assoc, append_assoc,
        bind_of_ok (run_seek_cut _ _ _ _), bind_of_ok (run_putItem _), length_octets32,
        ← hhead] at h
      cases h
      exact .inr ⟨rfl, hrealm, hcomps, hkey, by simp⟩

/-! ## The file -/

def file (bs : List (Block id)) (tail : Octets) : Octets := emptyKeytab ++ (layout bs ++ tail)

/-- A slot is found in front of the tail, or there is none. -/
def Ahead (needed : Int32) (bs : List (Block id)) (tail : Octets) : Prop :=
  (∃ b ∈ bs, b.hasRoom needed = true) ∨ tail = []

def stamped (io : KtIo) (entry : KeytabEntry) : KeytabEntry := { entry with timestamp := stamp io }

theorem run_findSlot (fuel pos : Nat) :
    (ktfileintFindSlot id fuel needed).run ⟨emptyKeytab ++ rest, pos, none⟩ =
      (findSlotLoop id fuel needed).run (cut emptyKeytab rest none) := rfl

@[simp] theorem entries_append (bs bs' : List (Block id)) :
    entries (bs ++ bs') = entries bs ++ entries bs' := filterMap_append

@[simp] theorem entries_hole (content : Octets) (sized : Sized content) (bs : List (Block id)) :
    entries (.hole content sized :: bs) = entries bs := rfl

/-- What a write of an entry does to blocks and tail. -/
structure Outcome (needed : Int32) (added : KeytabEntry) (bs : List (Block id)) (tail : Octets)
    (result : Except KtCode Unit) (bs' : List (Block id)) (tail' : Octets) : Prop where
  isTail : IsTail id tail'
  failed : ∀ e, result = .error e → entries bs' = entries bs
  hidden : ¬Ahead needed bs tail → entries bs' = entries bs
  added : result = .ok () → Ahead needed bs tail → List.Perm (entries bs') (added :: entries bs)
  full : result = .ok () → tail = [] → tail' = []

theorem Outcome.same {added : KeytabEntry} (htail : IsTail id tail) (e : KtCode) :
    Outcome needed added bs tail (.error e) bs tail where
  isTail := htail
  failed _ _ := rfl
  hidden _ := rfl
  added h := by cases h
  full h := by cases h

theorem FitsFormat.sized (h : FitsFormat entry) (now : Timestamp) :
    Sized (entryOctets id entry now) := by
  refine ⟨?_, h.length_lt now⟩
  rw [entryOctets, length_append, length_octets16]
  omega

theorem FitsFormat.needed_pos (h : FitsFormat entry) (hv : id.version = .v2) :
    0 < ktfileintSizeEntry entry := by
  rw [sizeEntry_eq hv entry 0]
  exact (h.sized 0).pos

/-- The entry goes into a hole with room for it. -/
theorem write_hole {bs₁ bs₂ : List (Block id)} {sized : Sized content}
    (hv : id.version = .v2) (hfits : FitsFormat entry) (htail : IsTail id tail)
    (hroom : (hole content sized : Block id).hasRoom (ktfileintSizeEntry entry))
    (h : (fillSlot id io entry (.ofNat content.length, (emptyKeytab ++ layout bs₁).length)).run
      (cut (emptyKeytab ++ layout bs₁ ++ octets32 id.version (-.ofNat content.length))
      (content ++ (layout bs₂ ++ tail)) none) = (result, s')) :
    ∃ bs', s'.data = file bs' tail ∧ Outcome (ktfileintSizeEntry entry) (stamped io entry)
      (bs₁ ++ .hole content sized :: bs₂) tail result bs' tail := by
  have hle : (entryOctets id entry (stamp io)).length ≤ content.length := by
    have hcmp := of_decide_eq_true hroom
    rw [sizeEntry_eq hv entry (stamp io), Int32.le_iff_toInt_le,
      Int32.toInt_ofNat_of_lt (hfits.length_lt _), Int32.toInt_ofNat_of_lt sized.2] at hcmp
    exact Int.ofNat_le.mp hcmp
  obtain ⟨e, x, rfl, hdata, hx⟩ | ⟨rfl, hrealm, hcomps, hkey, hdata⟩ :=
    fillSlot_cases (length_octets32 _ _) h
  · -- the hole has another content
    have hlen : (x ++ content.drop x.length).length = content.length := by
      rw [length_append, length_drop]
      omega
    have hsized : Sized (x ++ content.drop x.length) := by rwa [Sized, hlen]
    refine ⟨bs₁ ++ .hole (x ++ content.drop x.length) hsized :: bs₂, ?_, ?_⟩
    · rw [hdata, file, layout_append, layout_cons, octets_hole, hlen,
        drop_append_of_le_length (Nat.le_trans hx hle)]
      simp
    · have hsame : entries (bs₁ ++ hole (x ++ content.drop x.length) hsized :: bs₂) =
          entries (bs₁ ++ hole content sized :: bs₂) := by
        rw [entries_append, entries_append, entries_hole, entries_hole]
      exact ⟨htail, fun _ _ => hsame, fun _ => hsame, fun hok => (by cases hok), fun hok => (by cases hok)⟩
  · rw [hfits.writtenComponents] at hcomps
    have hreads := reads_body hv hfits hrealm hcomps hkey (stamp io)
    have hlen : (entryOctets id entry (stamp io) ++
        content.drop (entryOctets id entry (stamp io)).length).length = content.length := by
      rw [length_append, length_drop]
      omega
    have hsized : Sized (entryOctets id entry (stamp io) ++
        content.drop (entryOctets id entry (stamp io)).length) := by rwa [Sized, hlen]
    refine ⟨bs₁ ++ .live _ _ _ hreads hsized :: bs₂, ?_, ?_⟩
    · rw [hdata, file, layout_append, layout_cons, octets_live, hlen,
        drop_append_of_le_length hle]
      simp
    · have hahead : Ahead (ktfileintSizeEntry entry) (bs₁ ++ .hole content sized :: bs₂) tail :=
        .inl ⟨_, mem_append_right _ mem_cons_self, hroom⟩
      refine ⟨htail, fun _ hok => (by cases hok), fun hnot => absurd hahead hnot, fun _ _ => ?_, fun _ h => h⟩
      rw [entries_append, entries_append]
      exact perm_middle

/-- The entry goes behind the last block. -/
theorem write_end (hv : id.version = .v2) (hfits : FitsFormat entry)
    (h : (fillSlot id io entry (ktfileintSizeEntry entry, (emptyKeytab ++ layout bs).length)).run
      (cut (emptyKeytab ++ layout bs ++ mark id) [] none) = (result, s')) :
    ∃ bs' tail', s'.data = file bs' tail' ∧ Outcome (ktfileintSizeEntry entry) (stamped io entry)
      bs [] result bs' tail' := by
  obtain ⟨e, x, rfl, hdata, -⟩ | ⟨rfl, hrealm, hcomps, hkey, hdata⟩ :=
    fillSlot_cases (length_octets32 _ _) h
  · -- the length is zero still
    refine ⟨bs, mark id ++ x, ?_, ?_⟩
    · rw [hdata, file, drop_nil, append_nil, append_assoc, mark]
    · exact ⟨.inr (prefix_append _ _), fun _ _ => rfl, fun _ => rfl, fun hok => (by cases hok),
        fun hok => (by cases hok)⟩
  rw [hfits.writtenComponents] at hcomps
  have hreads := reads_body hv hfits hrealm hcomps hkey (stamp io)
  have hsized : Sized (entryOctets id entry (stamp io) ++ []) := by
    rw [append_nil]
    exact hfits.sized _
  refine ⟨bs ++ [.live _ _ _ hreads hsized], [], ?_, ?_⟩
  · rw [hdata, file, layout_append, layout_cons, octets_live, sizeEntry_eq hv entry (stamp io)]
    simp
  · refine ⟨.inl rfl, fun _ hok => (by cases hok), fun hnot => absurd (.inr rfl) hnot, fun _ _ => ?_,
      fun _ _ => rfl⟩
    rw [entries_append]
    exact perm_append_singleton _ _

/-- Behind a mark that a failed write has left, what is written is not seen. -/
theorem write_behind (hmark : mark id <+: tail) (hroom : ∀ b ∈ bs, b.hasRoom needed = false)
    (hneeded : 0 < needed) (h : (findSlotLoop id (fuel + 1) needed >>= fillSlot id io entry).run
      (cut (emptyKeytab ++ layout bs) tail none) = (result, s')) :
    ∃ tail', s'.data = file bs tail' ∧ Outcome needed (stamped io entry) bs tail result bs tail' := by
  obtain ⟨junk, rfl⟩ := hmark
  have hhidden : ¬Ahead needed bs (mark id ++ junk) := by
    rintro (⟨b, hb, hb'⟩ | hnil)
    · rw [hroom b hb] at hb'
      cases hb'
    · have := congrArg List.length hnil
      rw [mark] at this
      exact absurd this (by simp)
  have hfind : Beyond (emptyKeytab ++ layout bs ++ mark id)
      (zeroTrailing id fuel >>= fun _ => seek (emptyKeytab ++ layout bs ++ mark id).length >>= fun _ =>
        findSlotLoop id fuel needed) fun slot => (emptyKeytab ++ layout bs ++ mark id).length ≤ slot.2 :=
    (beyond_zeroTrailing fuel).bind fun _ _ => (Beyond.seek (Nat.le_refl _)).bind fun _ _ =>
      beyond_findSlotLoop fuel
  have hfill : Beyond (emptyKeytab ++ layout bs ++ mark id) (_ >>= fillSlot id io entry) fun _ => True :=
    hfind.bind fun slot hslot => beyond_fillSlot io entry hslot
  have hoff := hfill (cut (emptyKeytab ++ layout bs ++ mark id) junk none) (prefix_append _ _)
    (Nat.le_refl _)
  rw [bind_congr_run (findSlotLoop_mark hneeded fuel junk)] at h
  rw [h] at hoff
  obtain ⟨⟨junk', hjunk⟩, -, -⟩ := hoff
  refine ⟨mark id ++ junk', ?_, .inr (prefix_append _ _), fun _ _ => rfl, fun _ => rfl,
    fun _ hahead => absurd hahead hhidden, fun _ hnil => absurd (.inr hnil) hhidden⟩
  rw [file, ← hjunk]
  simp

/-- The three places where an entry can go. -/
theorem write_cases (hv : id.version = .v2) (hfits : FitsFormat entry) (htail : IsTail id tail)
    (h : (ktfileintWriteEntry id fuel io entry).run ⟨file bs tail, pos, none⟩ = (result, s')) :
    ∃ bs' tail', s'.data = file bs' tail' ∧
      Outcome (ktfileintSizeEntry entry) (stamped io entry) bs tail result bs' tail' := by
  rw [ktfileintWriteEntry, file, bind_congr_run (run_findSlot fuel pos)] at h
  cases hfound : bs.find? (hasRoom (ktfileintSizeEntry entry)) with
  | some b =>
    obtain ⟨hb, bs₁, bs₂, rfl, hbs₁⟩ := List.find?_eq_some_iff_append.mp hfound
    have hskip (b) (hmem : b ∈ bs₁) : b.hasRoom (ktfileintSizeEntry entry) = false := by
      simpa using hbs₁ b hmem
    cases b with
    | live => cases hb
    | hole content sized =>
      rw [layout_append, layout_cons, append_assoc, append_assoc] at h
      obtain ⟨fuel', hrun⟩ | ⟨s, hrun, hdata⟩ := findSlotLoop_skip hskip fuel
      · rw [bind_congr_run hrun, bind_of_ok (findSlotLoop_hole hb fuel')] at h
        obtain ⟨bs', hdata, houtcome⟩ := write_hole hv hfits htail hb h
        exact ⟨bs', tail, hdata, houtcome⟩
      · rw [bind_of_error hrun] at h
        cases h
        refine ⟨_, tail, hdata.trans ?_, Outcome.same htail _⟩
        rw [file]
        simp
  | none =>
    have hskip (b) (hmem : b ∈ bs) : b.hasRoom (ktfileintSizeEntry entry) = false := by
      simpa using List.find?_eq_none.mp hfound b hmem
    obtain ⟨fuel', hrun⟩ | ⟨s, hrun, hdata⟩ := findSlotLoop_skip hskip fuel
    · rw [bind_congr_run hrun] at h
      obtain rfl | hmark := htail
      · rw [bind_of_ok (findSlotLoop_end fuel')] at h
        exact write_end hv hfits h
      · obtain ⟨tail', hdata, houtcome⟩ := write_behind hmark hskip (hfits.needed_pos hv) h
        exact ⟨bs, tail', hdata, houtcome⟩
    · rw [bind_of_error hrun] at h
      cases h
      exact ⟨_, tail, hdata, Outcome.same htail _⟩

theorem run_writeZeros {size len : Nat} (hfuel : size ≤ fuel) (hlen : len ≤ size)
    (hpos : 0 < size → 0 < len) : (writeZeros fuel size len).run (cut front rest none) =
      (.ok (), cut (front ++ List.replicate size 0) (rest.drop size) none) := by
  induction fuel generalizing front rest size len with
  | zero =>
    obtain rfl : size = 0 := by omega
    simp [writeZeros]
  | succ fuel ih =>
    rw [writeZeros]
    split
    · rename_i hsize
      subst hsize
      simp
    rw [bind_of_ok (run_write _ _ _ none)]
    dsimp only [out]
    have hrest : List.replicate len 0 ++ List.replicate (size - len) (0 : UInt8) =
        List.replicate size 0 := by
      rw [replicate_append_replicate]
      congr 1
      omega
    rw [show (none : Option Nat).map (· - (List.replicate len (0 : UInt8)).length) = none from rfl,
      ih (by omega) (by omega) (by omega), length_replicate, drop_drop,
      append_assoc]
    congr 3
    omega

/-- A deletion takes one entry out. -/
theorem delete_cases {dp : Nat} (htail : IsTail id tail)
    (hmem : (dp, entry) ∈ scan id (file bs tail))
    (h : (ktfileintDeleteEntry id dp).run ⟨file bs tail, pos, none⟩ = (result, s')) :
    ∃ bs' : List (Block id), s'.data = file bs' tail ∧
      List.Perm (entries bs') ((entries bs).erase entry) := by
  rw [file, scan_blocks bs htail] at hmem
  obtain ⟨bs₁, b, bs₂, rfl, hb, rfl⟩ := mem_liveFrom hmem
  cases b with
  | hole content sized => cases hb
  | live _ code slack reads sized =>
    cases hb
    have hfile : file (bs₁ ++ .live entry code slack reads sized :: bs₂) tail =
        (emptyKeytab ++ layout bs₁) ++ (octets32 id.version (.ofNat (code ++ slack).length) ++
          ((code ++ slack) ++ (layout bs₂ ++ tail))) := by
      rw [file, layout_append, layout_cons, octets_live]
      simp
    have hpoint : 2 + (layout bs₁).length = (emptyKeytab ++ layout bs₁).length := by
      rw [length_append]
      rfl
    have hzeros : Sized (List.replicate (code ++ slack).length (0 : UInt8)) := by
      rwa [Sized, length_replicate]
    rw [ktfileintDeleteEntry, hfile, hpoint, bind_of_ok (run_seek_cut _ _ _ _),
      bind_of_ok (run_readInt32 _), if_pos sized.pos, bind_of_ok (run_seek_back _ _ _ _),
      bind_of_ok (run_putItem _), sized.toNat,
      bind_of_ok (run_writeZeros (Nat.le_refl _) (Nat.min_le_left _ _) fun _ => ?_)] at h
    · cases h
      refine ⟨bs₁ ++ .hole _ hzeros :: bs₂, ?_, ?_⟩
      · rw [file, layout_append, layout_cons, octets_hole]
        simp
      rw [entries_append, entries_append]
      have herase : List.Perm ((entries bs₁ ++ entry :: entries bs₂).erase entry)
          ((entry :: (entries bs₁ ++ entries bs₂)).erase entry) := List.perm_middle.erase entry
      rw [erase_cons_head] at herase
      exact herase.symm
    · exact lt_min sized.1 id.bufsiz_pos

end Krb5.Keytab
