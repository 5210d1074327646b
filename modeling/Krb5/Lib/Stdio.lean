import Krb5.Lib.Action
import Krb5.Lib.Image
import Krb5.Lib.Serial

/-!
# Open files

A file that is read and written at a position, as with `fread`, `fwrite` and `fseek`. After
`room` more octets have been written the device fails; without it, it does not.

`Reads` says what is read from octets that are there, `Lays` what a sequence of writes leaves
behind the position, whether it comes to its end or not, and `Beyond` that what is in front of
some place is not touched.
-/

namespace Krb5.Lib

open List

structure OpenFile where
  data : List UInt8
  pos : Nat
  room : Option Nat
deriving DecidableEq, Repr

namespace OpenFile

variable {ε α β : Type}

/-- `fread`: the octets, which are fewer at the end of the file. -/
def read (n : Nat) : Action OpenFile ε (List UInt8) where
  run s := (.ok (readAt s.data s.pos n), { s with pos := s.pos + (readAt s.data s.pos n).length })

/-- `fread` of one item. What is there of it is passed over. -/
def readItem (n : Nat) : Action OpenFile ε (Option (List UInt8)) := do
  let got ← read n
  return if got.length = n then some got else none

/-- What comes onto the device. -/
def out (room : Option Nat) (bs : List UInt8) : List UInt8 :=
  match room with
  | none => bs
  | some r => bs.take r

/-- `fwrite`: the number of octets that are written. -/
def write (bs : List UInt8) : Action OpenFile ε Nat where
  run s :=
    (.ok (out s.room bs).length,
      { data := if out s.room bs = [] then s.data else writeAt s.data (out s.room bs) s.pos 0
        pos := s.pos + (out s.room bs).length
        room := s.room.map (· - (out s.room bs).length) })

def tell : Action OpenFile ε Nat where
  run s := (.ok s.pos, s)

def seek (pos : Nat) : Action OpenFile ε Unit := .modify fun s => { s with pos := pos }

def skip (n : Nat) : Action OpenFile ε Unit := .modify fun s => { s with pos := s.pos + n }

/-- The position is between `front` and `rest`. -/
abbrev cut (front rest : List UInt8) (room : Option Nat) : OpenFile := ⟨front ++ rest, front.length, room⟩

theorem cut_append (front bs rest : List UInt8) (room : Option Nat) :
    (⟨front ++ (bs ++ rest), front.length + bs.length, room⟩ : OpenFile) = cut (front ++ bs) rest room := by
  rw [cut, append_assoc, length_append]

theorem run_skip_cut (front bs rest : List UInt8) (room : Option Nat) :
    (skip bs.length : Action OpenFile ε Unit).run (cut front (bs ++ rest) room) =
      (.ok (), cut (front ++ bs) rest room) :=
  congrArg _ (cut_append front bs rest room)

theorem run_seek_cut (front rest : List UInt8) (pos : Nat) (room : Option Nat) :
    (seek front.length : Action OpenFile ε Unit).run ⟨front ++ rest, pos, room⟩ =
      (.ok (), cut front rest room) := rfl

theorem run_seek_back (front bs rest : List UInt8) (room : Option Nat) :
    (seek front.length : Action OpenFile ε Unit).run (cut (front ++ bs) rest room) =
      (.ok (), cut front (bs ++ rest) room) := by
  rw [cut, append_assoc, run_seek_cut]

theorem run_readItem_end (front : List UInt8) {n : Nat} (hn : 0 < n) (room : Option Nat) :
    (readItem n : Action OpenFile ε _).run (cut front [] room) = (.ok none, cut front [] room) := by
  have hread : (read n : Action OpenFile ε _).run (cut front [] room) =
      (.ok [], cut front [] room) := by
    simp [read, readAt]
  rw [readItem, bind_of_ok hread, length_nil, if_neg (Nat.ne_of_lt hn)]
  rfl

/-- `r` reads the octets `bs` and makes `a` of them, wherever they are. -/
def Reads (r : Action OpenFile ε α) (bs : List UInt8) (a : α) : Prop :=
  ∀ front back room, r.run ⟨front ++ bs ++ back, front.length, room⟩ =
    (.ok a, ⟨front ++ bs ++ back, (front ++ bs).length, room⟩)

namespace Reads

variable {f : α → Action OpenFile ε β}

variable {r : Action OpenFile ε α} {bs bs' : List UInt8} {a : α} {b : β}

theorem run_cut (h : Reads r bs a) (front rest : List UInt8) (room : Option Nat) :
    r.run (cut front (bs ++ rest) room) = (.ok a, cut (front ++ bs) rest room) := by
  have hrun := h front rest room
  rw [append_assoc] at hrun
  rw [hrun, cut, append_assoc]

theorem pure (a : α) : Reads (pure a : Action OpenFile ε α) [] a := by
  intro front back room
  rw [run_pure, append_nil]

theorem read (bs : List UInt8) : Reads (read bs.length : Action OpenFile ε (List UInt8)) bs bs := by
  intro front back room
  simp only [OpenFile.read, readAt_append, length_append]

theorem readItem (bs : List UInt8) : Reads (readItem bs.length : Action OpenFile ε _) bs (some bs) := by
  intro front back room
  rw [OpenFile.readItem, bind_of_ok (Reads.read bs front back room), if_pos rfl]
  rfl

theorem bind (h : Reads r bs a) (h' : Reads (f a) bs' b) : Reads (r >>= f) (bs ++ bs') b := by
  intro front back room
  have hr := h front (bs' ++ back) room
  have hf := h' (front ++ bs) back room
  simp only [append_assoc] at hr hf ⊢
  rw [bind_of_ok hr]
  exact hf

theorem bind_nil (h : Reads r bs a) (h' : Reads (f a) [] b) : Reads (r >>= f) bs b :=
  append_nil bs ▸ h.bind h'

theorem failIf {g : Unit → Action OpenFile ε β} {refuses : Bool} {e : ε} (h : refuses = false)
    (h' : Reads (g ()) bs b) : Reads (.failIf refuses e >>= g) bs b := by
  intro front back room
  exact run_failIf_bind_eq_ok.mpr ⟨h, h' front back room⟩

theorem times {enc : α → List UInt8} {l : List α} (h : ∀ c ∈ l, Reads r (enc c) c) :
    Reads (times r l.length) (l.flatMap enc) ⟨l, rfl⟩ := by
  induction l with
  | nil => exact Reads.pure _
  | cons c l ih =>
    have hl := ih fun c' hc' => h c' (mem_cons_of_mem c hc')
    exact (h c mem_cons_self).bind (hl.bind_nil (Reads.pure _))

end Reads

/-! ## Writing -/

/-- `w` writes at most as many octets as `bs` has, one behind the other; and if it succeeds on a
device that does not fail, it has written `bs`. -/
def Lays (w : Action OpenFile ε α) (bs : List UInt8) : Prop :=
  ∀ front rest room, ∃ result x room', w.run ⟨front ++ rest, front.length, room⟩ =
      (result, ⟨front ++ x ++ rest.drop x.length, (front ++ x).length, room'⟩) ∧
    x.length ≤ bs.length ∧ room'.isSome = room.isSome ∧ (room = none → result.isOk = true → x = bs)

theorem out_length_le (room : Option Nat) (bs : List UInt8) : (out room bs).length ≤ bs.length := by
  cases room with
  | none => exact Nat.le_refl _
  | some r =>
    rw [out, length_take]
    exact Nat.min_le_right _ _

theorem run_write (front rest bs : List UInt8) (room : Option Nat) :
    (write bs : Action OpenFile ε Nat).run ⟨front ++ rest, front.length, room⟩ =
      (.ok (out room bs).length, ⟨front ++ out room bs ++ rest.drop (out room bs).length,
        (front ++ out room bs).length, room.map (· - (out room bs).length)⟩) := by
  have hdata : (if out room bs = [] then front ++ rest
      else writeAt (front ++ rest) (out room bs) front.length 0) =
        front ++ out room bs ++ rest.drop (out room bs).length := by
    split
    · rename_i hnil
      rw [hnil, append_nil, length_nil, drop_zero]
    · exact writeAt_append _ _ _ _
  simp [write, hdata]

namespace Lays

variable {w : Action OpenFile ε α} {bs bs' : List UInt8}

theorem write (bs : List UInt8) : Lays (write bs : Action OpenFile ε Nat) bs := by
  intro front rest room
  refine ⟨_, _, _, run_write front rest bs room, out_length_le room bs, ?_, ?_⟩
  · cases room <;> rfl
  · rintro rfl -
    rfl

theorem pure (a : α) : Lays (pure a : Action OpenFile ε α) [] := by
  intro front rest room
  exact ⟨.ok a, [], room, by simp, Nat.le_refl _, rfl, fun _ _ => rfl⟩

theorem fail (e : ε) : Lays (.fail e : Action OpenFile ε α) bs := by
  intro front rest room
  refine ⟨.error e, [], room, ?_, Nat.zero_le _, rfl, fun _ h => nomatch h⟩
  simp [Action.fail]

theorem bind (h : Lays w bs) (h' : ∀ a, Lays (f a) bs') : Lays (w >>= f) (bs ++ bs') := by
  intro front rest room
  obtain ⟨result, x, room', hw, hx, hroom, hbs⟩ := h front rest room
  cases result with
  | error e =>
    refine ⟨.error e, x, room', bind_of_error hw, ?_, hroom, fun _ hok => nomatch hok⟩
    rw [length_append]
    omega
  | ok a =>
    obtain ⟨result', y, room'', hf, hy, hroom', hbs'⟩ := h' a (front ++ x) (rest.drop x.length) room'
    refine ⟨result', x ++ y, room'', ?_, ?_, hroom'.trans hroom, fun hnone hok => ?_⟩
    · rw [bind_of_ok hw, hf]
      simp
    · rw [length_append, length_append]
      omega
    · have hnone' : room' = none := by
        rw [hnone] at hroom
        exact Option.not_isSome_iff_eq_none.mp (by rw [hroom]; decide)
      rw [hbs hnone rfl, hbs' hnone' hok]

theorem bind_nil (h : Lays w bs) (h' : ∀ a, Lays (f a) []) : Lays (w >>= f) bs :=
  append_nil bs ▸ h.bind h'

theorem forM {γ : Type} {g : γ → Action OpenFile ε Unit} {enc : γ → List UInt8}
    (h : ∀ c, Lays (g c) (enc c)) (l : List γ) : Lays (l.forM g) (l.flatMap enc) := by
  induction l with
  | nil => exact Lays.pure ()
  | cons c l ih => exact (h c).bind fun _ => ih

end Lays

/-! ## Behind some place -/

/-- The octets `front` stay at the beginning of the file, and the position behind them. -/
def Beyond (front : List UInt8) (x : Action OpenFile ε α) (Q : α → Prop) : Prop :=
  ∀ s, front <+: s.data → front.length ≤ s.pos →
    front <+: (x.run s).2.data ∧ front.length ≤ (x.run s).2.pos ∧ ∀ a, (x.run s).1 = .ok a → Q a

namespace Beyond

variable {front : List UInt8} {x : Action OpenFile ε α} {Q : α → Prop} {R : β → Prop}

theorem pure {a : α} (ha : Q a) : Beyond front (pure a : Action OpenFile ε α) Q :=
  fun _ hdata hpos => ⟨hdata, hpos, fun _ hok => Except.ok.inj hok ▸ ha⟩

theorem fail (e : ε) : Beyond front (.fail e : Action OpenFile ε α) Q :=
  fun _ hdata hpos => ⟨hdata, hpos, fun _ hok => nomatch hok⟩

theorem failIf (refuses : Bool) (e : ε) :
    Beyond front (.failIf refuses e : Action OpenFile ε Unit) fun _ => True := by
  cases refuses with
  | true => exact Beyond.fail e
  | false => exact Beyond.pure trivial

theorem bind (hx : Beyond front x Q) (hf : ∀ a, Q a → Beyond front (f a) R) :
    Beyond front (x >>= f) R := by
  intro s hdata hpos
  obtain ⟨hdata', hpos', hok⟩ := hx s hdata hpos
  rcases hrun : x.run s with ⟨e | a, s'⟩
  · rw [hrun] at hdata' hpos'
    rw [bind_of_error hrun]
    exact ⟨hdata', hpos', fun _ h => nomatch h⟩
  · rw [hrun] at hdata' hpos' hok
    rw [bind_of_ok hrun]
    exact hf a (hok a rfl) s' hdata' hpos'

theorem read (n : Nat) : Beyond front (read n : Action OpenFile ε (List UInt8)) fun _ => True :=
  fun _ hdata hpos => ⟨hdata, Nat.le_trans hpos (Nat.le_add_right _ _), fun _ _ => trivial⟩

theorem readItem (n : Nat) : Beyond front (readItem n : Action OpenFile ε _) fun _ => True :=
  (Beyond.read n).bind fun _ _ => Beyond.pure trivial

theorem tell : Beyond front (tell : Action OpenFile ε Nat) fun pos => front.length ≤ pos :=
  fun _ hdata hpos => ⟨hdata, hpos, fun _ hok => Except.ok.inj hok ▸ hpos⟩

theorem seek {pos : Nat} (h : front.length ≤ pos) :
    Beyond front (seek pos : Action OpenFile ε Unit) fun _ => True :=
  fun _ hdata _ => ⟨hdata, h, fun _ _ => trivial⟩

theorem skip (n : Nat) : Beyond front (skip n : Action OpenFile ε Unit) fun _ => True :=
  fun _ hdata hpos => ⟨hdata, Nat.le_trans hpos (Nat.le_add_right _ _), fun _ _ => trivial⟩

theorem write (bs : List UInt8) : Beyond front (write bs : Action OpenFile ε Nat) fun _ => True := by
  intro s hdata hpos
  refine ⟨?_, Nat.le_trans hpos (Nat.le_add_right _ _), fun _ _ => trivial⟩
  show front <+: if out s.room bs = [] then s.data else writeAt s.data (out s.room bs) s.pos 0
  split
  · exact hdata
  obtain ⟨rest, hrest⟩ := hdata
  rw [writeAt, append_assoc, append_assoc, ← hrest, take_append,
    take_of_length_le hpos, append_assoc]
  exact prefix_append _ _

theorem forM {γ : Type} {g : γ → Action OpenFile ε Unit} (h : ∀ c, Beyond front (g c) fun _ => True)
    (l : List γ) : Beyond front (l.forM g) fun _ => True := by
  induction l with
  | nil => exact Beyond.pure trivial
  | cons c l ih => exact (h c).bind fun _ _ => ih

end Beyond

end OpenFile

end Krb5.Lib
