import Krb5.Keytab.Codec

/-!
# The blocks of a keytab file

A file is the version number, blocks that follow each other, and a tail: nothing, or a length of
zero with anything behind it. The blocks come with the entries in them, so that a scan can be
read off (`scan_tiled`).
-/

namespace Krb5.Keytab

open Lib Lib.OpenFile List

variable {code slack : Octets}

def Sized (content : Octets) : Prop := 0 < content.length ∧ content.length < 2 ^ 31

/-- A block: an entry, which is read from the octets `code`, or a hole. -/
inductive Block (id : KtId)
  | live (entry : KeytabEntry) (code slack : Octets) (reads : Reads (readBody id) code entry)
      (sized : Sized (code ++ slack))
  | hole (content : Octets) (sized : Sized content)

variable {id : KtId}

namespace Block

def content : Block id → Octets
  | live _ code slack _ _ => code ++ slack
  | hole content _ => content

def size : Block id → Int32
  | live _ code slack _ _ => .ofNat (code ++ slack).length
  | hole content _ => -.ofNat content.length

def entry : Block id → Option KeytabEntry
  | live entry _ _ _ _ => some entry
  | hole _ _ => none

def octets (b : Block id) : Octets := octets32 id.version b.size ++ b.content

theorem octets_hole (content : Octets) (sized : Sized content) :
    (hole content sized : Block id).octets = octets32 id.version (-.ofNat content.length) ++ content := rfl

variable {entry : KeytabEntry} {fuel : Nat}

theorem octets_live (reads : Reads (readBody id) code entry) (sized : Sized (code ++ slack)) :
    (live entry code slack reads sized).octets =
      octets32 id.version (.ofNat (code ++ slack).length) ++ (code ++ slack) := rfl

theorem length_octets (b : Block id) : b.octets.length = 4 + b.content.length := by
  rw [octets, length_append, length_octets32]

end Block

def layout (blocks : List (Block id)) : Octets := blocks.flatMap Block.octets

@[simp] theorem layout_nil : layout ([] : List (Block id)) = [] := rfl

@[simp] theorem layout_cons (b : Block id) (bs : List (Block id)) :
    layout (b :: bs) = b.octets ++ layout bs := rfl

@[simp] theorem layout_append (bs bs' : List (Block id)) :
    layout (bs ++ bs') = layout bs ++ layout bs' := flatMap_append

theorem length_le_length_layout (bs : List (Block id)) : bs.length ≤ (layout bs).length := by
  refine length_le_length_flatMap (fun b => ?_) bs
  rw [b.length_octets]
  omega

def mark (id : KtId) : Octets := octets32 id.version 0

def IsTail (id : KtId) (tail : Octets) : Prop := tail = [] ∨ mark id <+: tail

section Lengths

variable {content : Octets}

theorem Sized.pos (h : Sized content) : (0 : Int32) < .ofNat content.length := by
  rw [Int32.lt_iff_toInt_lt, Int32.toInt_ofNat_of_lt h.2]
  exact Int.natCast_pos.mpr h.1

theorem Sized.toInt_neg (h : Sized content) : (-Int32.ofNat content.length).toInt = -content.length := by
  rw [Int32.toInt_neg, Int32.toInt_ofNat_of_lt h.2]
  exact Int.bmod_eq_of_le (by have := h.2; omega) (by omega)

theorem Sized.neg (h : Sized content) : -Int32.ofNat content.length < 0 := by
  rw [Int32.lt_iff_toInt_lt, h.toInt_neg]
  have := h.1
  exact Int.neg_neg_of_pos (Int.natCast_pos.mpr this)

theorem Sized.toNat (h : Sized content) : (Int32.ofNat content.length).toNatClampNeg = content.length :=
  Int32.toNatClampNeg_ofNat_of_lt h.2

end Lengths

/-! ## Reading block by block -/

variable {front tail rest : Octets} {room : Option Nat}

theorem run_readInt32 (x : Int32) : (readInt32 id).run (cut front (octets32 id.version x ++ rest) room) =
    (.ok x, cut (front ++ octets32 id.version x) rest room) :=
  (reads_int32 x).run_cut front rest room

theorem run_readInt32_end (front : Octets) :
    (readInt32 id).run (cut front [] room) = (.error .ktEnd, cut front [] room) := by
  rw [readInt32, bind_of_ok (run_readItem_end front (by decide) room)]
  rfl

theorem run_tell (s : OpenFile) : (tell : KtCall Nat).run s = (.ok s.pos, s) := rfl

theorem skipHoles_hole (fuel : Nat) (content : Octets) (sized : Sized content) :
    (skipHoles id (fuel + 1)).run (cut front ((Block.hole content sized : Block id).octets ++ rest) room) =
      (skipHoles id fuel).run (cut (front ++ (Block.hole content sized : Block id).octets) rest room) := by
  rw [skipHoles, bind_of_ok (run_tell _), Block.octets_hole, append_assoc,
    bind_of_ok (run_readInt32 _), if_pos sized.neg, Int32.neg_neg,
      if_neg (Int32.lt_asymm sized.pos), sized.toNat,
    bind_of_ok (run_skip_cut _ _ _ _), append_assoc]

variable {bs : List (Block id)} {reads : Reads (readBody id) code entry}
  {sized : Sized (code ++ slack)}

theorem skipHoles_live (fuel : Nat) :
    (skipHoles id (fuel + 1)).run (cut front ((Block.live entry code slack reads sized).octets ++ rest) room) =
      (.ok (front.length, .ofNat (code ++ slack).length),
        cut (front ++ octets32 id.version (.ofNat (code ++ slack).length)) (code ++ slack ++ rest) room) := by
  rw [skipHoles, bind_of_ok (run_tell _), Block.octets_live, append_assoc,
    bind_of_ok (run_readInt32 _), if_neg (Int32.lt_asymm sized.pos)]
  rfl

/-- Holes are skipped with any fuel that is enough. -/
theorem skipHoles_fuel {fuel' : Nat} (h : bs.length < fuel) (h' : bs.length < fuel')
    (htail : IsTail id tail) : (skipHoles id fuel).run (cut front (layout bs ++ tail) room) =
      (skipHoles id fuel').run (cut front (layout bs ++ tail) room) := by
  induction bs generalizing front fuel fuel' with
  | nil =>
    obtain ⟨n, rfl⟩ := Nat.exists_eq_add_of_lt h
    obtain ⟨n', rfl⟩ := Nat.exists_eq_add_of_lt h'
    rw [layout_nil, nil_append]
    obtain rfl | ⟨junk, rfl⟩ := htail
    · rw [skipHoles, skipHoles, bind_of_ok (run_tell _), bind_of_ok (run_tell _),
        bind_of_error (run_readInt32_end _), bind_of_error (run_readInt32_end _)]
    · rw [skipHoles, skipHoles, bind_of_ok (run_tell _), bind_of_ok (run_tell _), mark,
        bind_of_ok (run_readInt32 _), bind_of_ok (run_readInt32 _)]
      rfl
  | cons b bs ih =>
    obtain ⟨n, rfl⟩ := Nat.exists_eq_add_of_lt h
    obtain ⟨n', rfl⟩ := Nat.exists_eq_add_of_lt h'
    rw [layout_cons, append_assoc]
    cases b with
    | live entry code slack reads sized => rw [skipHoles_live, skipHoles_live]
    | hole content sized =>
      rw [skipHoles_hole, skipHoles_hole]
      exact ih (by rw [length_cons]; omega) (by rw [length_cons]; omega)

/-- The entries of blocks with their delete points, from the block at `pos` on. -/
def liveFrom (pos : Nat) : List (Block id) → List (Nat × KeytabEntry)
  | [] => []
  | b :: bs => (b.entry.toList.map fun entry => (pos, entry)) ++ liveFrom (pos + b.octets.length) bs

theorem internalRead_live (fuel : Nat) :
    (ktfileintInternalReadEntry id (fuel + 1)).run
        (cut front ((Block.live entry code slack reads sized).octets ++ rest) room) =
      (.ok (front.length, entry),
        cut (front ++ (Block.live entry code slack reads sized).octets) rest room) := by
  have hsize := beq_false_of_ne (Int32.ne_of_lt sized.pos).symm
  have hbody := reads.run_cut (front ++ octets32 id.version (.ofNat (code ++ slack).length))
    (slack ++ rest) room
  rw [← append_assoc] at hbody
  rw [ktfileintInternalReadEntry, bind_of_ok (skipHoles_live fuel)]
  dsimp only
  rw [hsize]
  refine (bind_of_ok hbody).trans ?_
  rw [sized.toNat, ← length_append, Block.octets_live]
  simp only [cut, ← append_assoc]
  rfl

theorem internalRead_hole (fuel : Nat) (content : Octets) (sized : Sized content) :
    (ktfileintInternalReadEntry id (fuel + 1)).run
        (cut front ((Block.hole content sized : Block id).octets ++ rest) room) =
      (ktfileintInternalReadEntry id fuel).run
        (cut (front ++ (Block.hole content sized : Block id).octets) rest room) := by
  simp [ktfileintInternalReadEntry, bind, Action.bind, skipHoles_hole]

theorem internalRead_fuel {fuel' : Nat} (h : bs.length < fuel) (h' : bs.length < fuel')
    (htail : IsTail id tail) :
    (ktfileintInternalReadEntry id fuel).run (cut front (layout bs ++ tail) room) =
      (ktfileintInternalReadEntry id fuel').run (cut front (layout bs ++ tail) room) := by
  simp [ktfileintInternalReadEntry, bind, Action.bind, skipHoles_fuel h h' htail]

theorem internalRead_tail (fuel : Nat) (htail : IsTail id tail) :
    ((ktfileintInternalReadEntry id (fuel + 1)).run (cut front tail room)).1 = .error .ktEnd := by
  obtain rfl | ⟨junk, rfl⟩ := htail
  · have hskip : (skipHoles id (fuel + 1)).run (cut front [] room) =
        (.error .ktEnd, cut front [] room) := by
      rw [skipHoles, bind_of_ok (run_tell _), bind_of_error (run_readInt32_end _)]
    rw [ktfileintInternalReadEntry, bind_of_error hskip]
  · have hskip : (skipHoles id (fuel + 1)).run (cut front (mark id ++ junk) room) =
        (.ok (front.length, 0), cut (front ++ mark id) junk room) := by
      rw [skipHoles, bind_of_ok (run_tell _), mark, bind_of_ok (run_readInt32 _)]
      rfl
    rw [ktfileintInternalReadEntry, bind_of_ok hskip]
    rfl

section Loop

variable {s s' : OpenFile}

theorem scanLoop_of_ok {found : Nat × KeytabEntry}
    (h : (ktfileintInternalReadEntry id (s.data.length + 1)).run s = (.ok found, s')) :
    scanLoop id (fuel + 1) s = found :: scanLoop id fuel s' := by
  rw [scanLoop, h]

theorem scanLoop_of_error {e : KtCode}
    (h : ((ktfileintInternalReadEntry id (s.data.length + 1)).run s).1 = .error e) :
    scanLoop id fuel s = [] := by
  cases fuel with
  | zero => rfl
  | succ fuel =>
    rw [scanLoop]
    rcases hrun : (ktfileintInternalReadEntry id (s.data.length + 1)).run s with ⟨e' | found, s'⟩
    · rfl
    · rw [hrun] at h
      cases h

theorem scanLoop_congr (h : (ktfileintInternalReadEntry id (s.data.length + 1)).run s =
      (ktfileintInternalReadEntry id (s'.data.length + 1)).run s') :
    scanLoop id fuel s = scanLoop id fuel s' := by
  cases fuel with
  | zero => rfl
  | succ fuel => rw [scanLoop, scanLoop, h]

end Loop

/-- A scan gives the live blocks with their places. -/
theorem scanLoop_blocks (h : bs.length < fuel) (htail : IsTail id tail) :
    scanLoop id fuel (cut front (layout bs ++ tail) room) = liveFrom front.length bs := by
  induction bs generalizing front fuel with
  | nil => exact scanLoop_of_error (internalRead_tail _ htail)
  | cons b bs ih =>
    rw [layout_cons, append_assoc, liveFrom, ← length_append]
    rw [length_cons] at h
    cases b with
    | live entry code slack reads sized =>
      obtain ⟨n, rfl⟩ := Nat.exists_eq_add_of_lt (Nat.lt_of_succ_lt h)
      rw [scanLoop_of_ok (internalRead_live _), ih (by omega)]
      rfl
    | hole content sized =>
      have hbs := length_le_length_layout bs
      have hhole := (Block.hole content sized : Block id).length_octets
      refine (scanLoop_congr ?_).trans (ih (by omega))
      rw [internalRead_hole]
      -- the fuel is the length of the file in both cases
      refine internalRead_fuel ?_ ?_ htail
      · simp only [length_append]
        omega
      · simp only [length_append]
        omega

theorem scan_blocks (bs : List (Block id)) (htail : IsTail id tail) :
    scan id (emptyKeytab ++ (layout bs ++ tail)) = liveFrom 2 bs := by
  have hlen : bs.length < (emptyKeytab ++ (layout bs ++ tail)).length + 1 := by
    have := length_le_length_layout bs
    simp only [length_append]
    omega
  exact scanLoop_blocks hlen htail

def entries (bs : List (Block id)) : List KeytabEntry := bs.filterMap Block.entry

theorem map_liveFrom (pos : Nat) (bs : List (Block id)) : (liveFrom pos bs).map Prod.snd = entries bs := by
  induction bs generalizing pos with
  | nil => rfl
  | cons b bs ih =>
    rw [liveFrom, map_append, ih, entries, entries, filterMap_cons]
    cases b.entry <;> rfl

theorem mem_liveFrom {pos dp : Nat} (h : (dp, entry) ∈ liveFrom pos bs) :
    ∃ bs₁ b bs₂, bs = bs₁ ++ b :: bs₂ ∧ b.entry = some entry ∧ dp = pos + (layout bs₁).length := by
  induction bs generalizing pos with
  | nil => exact nomatch h
  | cons b bs ih =>
    rw [liveFrom, mem_append] at h
    obtain h | h := h
    · obtain ⟨e, he, heq⟩ := mem_map.mp h
      cases heq
      exact ⟨[], b, bs, rfl, Option.mem_toList.mp he, rfl⟩
    · obtain ⟨bs₁, b', bs₂, rfl, hb', rfl⟩ := ih h
      refine ⟨b :: bs₁, b', bs₂, rfl, hb', ?_⟩
      rw [layout_cons, length_append, Nat.add_assoc]

end Krb5.Keytab
