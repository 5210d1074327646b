import Mathlib.Data.List.Chain
import Krb5.Transited.RealmTree

/-!
# The hierarchical path

Two realms have the ancestors in common from the longest label suffix on. The path goes up
one line of ancestors and down the other, and changes over at the first common ancestor or,
if there is none, between the two top labels.
-/

namespace Krb5.Transited

open List

variable {b : UInt8} {name u v x y w r client server : Octets}

/-- A label is not empty and has no separator in it. -/
def IsLabel (b : UInt8) (label : Octets) : Prop := label ≠ [] ∧ b ∉ label
deriving Decidable

/-- Labels joined by the separator. -/
inductive IsRealm (b : UInt8) : Octets → Prop
  | top {label : Octets} (h : IsLabel b label) : IsRealm b label
  | child {label parent : Octets} (h : IsLabel b label) (hparent : IsRealm b parent) :
      IsRealm b (label ++ b :: parent)

def Below (b : UInt8) (child parent : Octets) : Prop :=
  ∃ label, IsLabel b label ∧ child = label ++ b :: parent

def Adjacent (b : UInt8) (x y : Octets) : Prop := Below b x y ∨ Below b y x

def lastLabel (b : UInt8) (name : Octets) : Octets := (name.reverse.takeWhile (· ≠ b)).reverse

/-- Consecutive realms are parent and child, but for one step between the top labels when
these differ. -/
def Steps (b : UInt8) (client server : Octets) (path : List Octets) : Prop :=
  if lastLabel b client = lastLabel b server then path.IsChain (Adjacent b)
  else ∃ up down, path = up ++ down ∧ up.IsChain (Adjacent b) ∧ down.IsChain (Adjacent b) ∧
    up.getLast? = some (lastLabel b client) ∧ down.head? = some (lastLabel b server)

/-- The tree leads from the client's realm to the server's. -/
def IsPath (b : UInt8) (client server : Octets) (tree : List Principal) : Prop :=
  ∃ realms, tree = tgtname client client :: chainNodes client realms ∧
    realms.getLast? = some server ∧ (client :: realms).Nodup ∧
    Steps b client server (client :: realms)

def suffix (client server : Octets) (b : UInt8) : CommonSuffix :=
  commonSuffix client server b client.length server.length ((client.length : Int) - 1)
    ((server.length : Int) - 1) true

def compared (client server : Octets) (b : UInt8) : CommonSuffix :=
  adjustSubdomain client server b (suffix client server b)

/-- What is allocated: `links` of `krb5_walk_realm_tree`, and two. -/
def slots (client server : Octets) (b : UInt8) : Nat :=
  let c := compared client server b
  (if c.nocommon then 1 else 2) + (client.take c.comCdot.toNat).count b +
    (server.take c.comSdot.toNat).count b + 2

/-- The server's name, of more than one label, ends the client's inside a label. -/
def Hidden (b : UInt8) (client server : Octets) : Prop :=
  b ∈ server ∧ ∃ x, x.getLast? ≠ some b ∧ client = x ++ server

/-! ## Lines of ancestors -/

def ancestors (b : UInt8) : Octets → List Octets
  | [] => []
  | c :: s => if c = b then s :: ancestors b s else ancestors b s

abbrev line (b : UInt8) (name : Octets) : List Octets := name :: ancestors b name

theorem ancestors_append (u z : Octets) :
    ancestors b (u ++ z) = (ancestors b u).map (· ++ z) ++ ancestors b z := by
  induction u with
  | nil => rfl
  | cons c u ih =>
    rw [cons_append, ancestors, ancestors, ih]
    split <;> rfl

theorem ancestors_free (h : b ∉ name) : ancestors b name = [] := by
  induction name with
  | nil => rfl
  | cons c s ih =>
    rw [mem_cons, not_or] at h
    rw [ancestors, if_neg (Ne.symm h.1), ih h.2]

theorem ancestors_sep (s : Octets) : ancestors b (b :: s) = line b s := by
  rw [ancestors, if_pos rfl]

theorem length_ancestors (name : Octets) : (ancestors b name).length = name.count b := by
  induction name with
  | nil => rfl
  | cons c s ih =>
    rw [ancestors]
    split
    · simp_all
    · simp_all

theorem mem_ancestors (h : u ∈ ancestors b name) : ∃ v, name = v ++ b :: u := by
  induction name with
  | nil => cases h
  | cons c s ih =>
    rw [ancestors] at h
    split at h
    · rename_i hc
      rcases mem_cons.mp h with rfl | h
      · exact ⟨[], by rw [hc]; rfl⟩
      · obtain ⟨v, rfl⟩ := ih h
        exact ⟨c :: v, rfl⟩
    · obtain ⟨v, rfl⟩ := ih h
      exact ⟨c :: v, rfl⟩

theorem mem_line (h : u ∈ line b name) : ∃ v, name = v ++ u ∧ (v = [] ∨ v.getLast? = some b) := by
  rcases mem_cons.mp h with rfl | h
  · exact ⟨[], rfl, .inl rfl⟩
  · obtain ⟨v, rfl⟩ := mem_ancestors h
    exact ⟨v ++ [b], by simp, .inr (by simp)⟩

theorem pairwise_line (name : Octets) : (line b name).Pairwise fun u v => v.length < u.length := by
  induction name with
  | nil => simp [ancestors]
  | cons c s ih =>
    obtain ⟨hs, hrest⟩ := pairwise_cons.mp ih
    rw [line, ancestors, pairwise_cons]
    split
    · refine ⟨fun u hu => ?_, ih⟩
      rcases mem_cons.mp hu with rfl | hu
      · simp
      · exact Nat.lt_succ_of_lt (hs u hu)
    · exact ⟨fun u hu => Nat.lt_succ_of_lt (hs u hu), hrest⟩

theorem ancestors_child (h : b ∉ u) (parent : Octets) :
    ancestors b (u ++ b :: parent) = line b parent := by
  rw [ancestors_append, ancestors_free h, ancestors_sep]
  rfl

theorem IsRealm.isChain (h : IsRealm b name) : (line b name).IsChain (Below b) := by
  induction h with
  | top h =>
    rw [line, ancestors_free h.2]
    exact .singleton _
  | @child label parent h hparent ih =>
    rw [line, ancestors_child h.2]
    exact .cons_cons ⟨label, h, rfl⟩ ih

theorem IsRealm.getLast? (h : IsRealm b name) :
    (line b name).getLast? = some (lastLabel b name) := by
  induction h with
  | @top label h =>
    have hall : ∀ c ∈ label.reverse, decide (c ≠ b) := fun c hc =>
      decide_eq_true fun hcb => h.2 (hcb ▸ mem_reverse.mp hc)
    rw [line, ancestors_free h.2, lastLabel, takeWhile_eq_self_iff.mpr hall]
    simp
  | @child label parent h hparent ih =>
    have hlast : lastLabel b (label ++ b :: parent) = lastLabel b parent := by
      simp only [lastLabel, reverse_append, reverse_cons, append_assoc,
        takeWhile_append]
      split
      · rename_i hall
        rw [(List.takeWhile_prefix _).eq_of_length hall]
        simp
      · rfl
    rw [line, ancestors_child h.2, getLast?_cons_cons, ih, hlast]

/-! ## The comparison -/

/-- Two names have no last octet in common. -/
def Apart (x y : Octets) : Prop := x = [] ∨ y = [] ∨ x.getLast? ≠ y.getLast?

theorem exists_apart (client server : Octets) :
    ∃ x y w, client = x ++ w ∧ server = y ++ w ∧ Apart x y := by
  induction client using List.reverseRecOn generalizing server with
  | nil => exact ⟨[], server, [], rfl, (append_nil _).symm, .inl rfl⟩
  | append_singleton client c ih =>
    rcases eq_nil_or_concat server with rfl | ⟨server, d, rfl⟩
    · exact ⟨client ++ [c], [], [], (append_nil _).symm, rfl, .inr (.inl rfl)⟩
    by_cases hcd : c = d
    · obtain ⟨x, y, w, rfl, rfl, h⟩ := ih server
      exact ⟨x, y, w ++ [c], by simp, by simp [hcd], h⟩
    · exact ⟨client ++ [c], server ++ [d], [], by simp, by simp, .inr (.inr (by simpa using hcd))⟩

theorem getD_middle (x : Octets) (c : UInt8) (z : Octets) : (x ++ c :: z).getD x.length 0 = c := by
  simp [List.getD]

theorem commonSuffix_pass (x y w z : Octets) (comC comS : Int) (no : Bool) : ∃ comC' comS' no',
    commonSuffix (x ++ (w ++ z)) (y ++ (w ++ z)) b (x.length + w.length) (y.length + w.length)
        comC comS no =
      commonSuffix (x ++ (w ++ z)) (y ++ (w ++ z)) b x.length y.length comC' comS' no' ∧
    (b ∉ w → comC' = comC ∧ comS' = comS ∧ no' = no) := by
  induction w using List.reverseRecOn generalizing z comC comS no with
  | nil => exact ⟨comC, comS, no, rfl, fun _ => ⟨rfl, rfl, rfl⟩⟩
  | append_singleton w c ih =>
    have hc : ∀ x : Octets, (x ++ (w ++ c :: z)).getD (x.length + w.length) 0 = c := fun x => by
      rw [← append_assoc, ← length_append, getD_middle]
    simp only [length_append, length_singleton, ← Nat.add_assoc, append_assoc, singleton_append]
    rw [commonSuffix, hc, hc, if_pos rfl]
    split
    · rename_i hcb
      obtain ⟨comC', comS', no', hrun, -⟩ := ih (c :: z) _ _ false
      exact ⟨comC', comS', no', hrun, fun h => absurd (by simp [hcb]) h⟩
    · obtain ⟨comC', comS', no', hrun, hfree⟩ := ih (c :: z) comC comS no
      exact ⟨comC', comS', no', hrun, fun h => hfree fun hw => h (by simp [hw])⟩

theorem commonSuffix_apart (h : Apart x y) (comC comS : Int) (no : Bool) :
    commonSuffix (x ++ w) (y ++ w) b x.length y.length comC comS no =
      ⟨x.length, y.length, comC, comS, no⟩ := by
  rcases eq_nil_or_concat x with rfl | ⟨x, c, rfl⟩
  · rw [commonSuffix]
    simp
  rcases eq_nil_or_concat y with rfl | ⟨y, d, rfl⟩
  · rw [commonSuffix]
    simp
  have hne : ¬c = d := by simpa [Apart] using h
  simp only [concat_eq_append, length_append, length_singleton, append_assoc, singleton_append]
  rw [commonSuffix, getD_middle, getD_middle, if_neg hne]

/-- The common suffix and the separators in front of it. -/
theorem suffix_eq (h : Apart x y) :
    (b ∉ w → suffix (x ++ w) (y ++ w) b = ⟨x.length, y.length, ((x ++ w).length : Int) - 1,
      ((y ++ w).length : Int) - 1, true⟩) ∧
    ∀ l r, b ∉ l → w = l ++ b :: r → suffix (x ++ w) (y ++ w) b =
      ⟨x.length, y.length, (x ++ l).length, (y ++ l).length, false⟩ := by
  constructor
  · intro hfree
    obtain ⟨comC', comS', no', hrun, hsame⟩ := commonSuffix_pass x y w [] ((x ++ w).length - 1)
      ((y ++ w).length - 1) true
    obtain ⟨rfl, rfl, rfl⟩ := hsame hfree
    simp only [append_nil, ← length_append] at hrun
    rw [suffix, hrun, commonSuffix_apart h]
  rintro l r hl rfl
  rw [suffix]
  generalize ((x ++ (l ++ b :: r)).length : Int) - 1 = comC
  generalize ((y ++ (l ++ b :: r)).length : Int) - 1 = comS
  obtain ⟨comC', comS', no', hrun, -⟩ :=
    commonSuffix_pass (x ++ (l ++ [b])) (y ++ (l ++ [b])) r [] comC comS true
  obtain ⟨comC₁, comS₁, no₁, hrun₁, hsame⟩ := commonSuffix_pass x y l (b :: r)
    (x ++ l).length (y ++ l).length false
  obtain ⟨rfl, rfl, rfl⟩ := hsame hl
  have hlen : ∀ x : Octets, (x ++ (l ++ b :: r)).length = x.length + l.length + 1 + r.length :=
    fun x => by simp; omega
  simp only [append_assoc, singleton_append, append_nil, length_append,
    length_singleton, ← Nat.add_assoc] at hrun hrun₁
  rw [hlen, hlen, hrun, commonSuffix, hrun₁, commonSuffix_apart h]
  simp

theorem sep_of_mem_lines (h : Apart x y) (hx : x = [] → y ≠ [] ∧ y.getLast? ≠ some b)
    (hy : y = [] → x.getLast? ≠ some b) (hu : u ∈ line b (x ++ w)) (hv : u ∈ line b (y ++ w)) :
    ∃ l, w = l ++ b :: u := by
  obtain ⟨p, hp, hpend⟩ := mem_line hu
  obtain ⟨q, hq, hqend⟩ := mem_line hv
  have hno (z : Octets) (hxz : x = p ++ z) (hyz : y = q ++ z) : False := by
    rcases eq_nil_or_concat z with rfl | ⟨z, c, rfl⟩
    · rw [append_nil] at hxz hyz
      subst hxz hyz
      rcases hpend with rfl | hpend
      · exact hqend.elim (hx rfl).1 (hx rfl).2
      · rcases hqend with rfl | hqend
        · exact hy rfl hpend
        · simp_all [Apart]
    · simp_all [Apart]
  rcases suffix_or_suffix_of_suffix (suffix_append x w) ⟨p, hp.symm⟩ with
    ⟨z, rfl⟩ | ⟨z, rfl⟩
  · rw [← append_assoc] at hp hq
    exact (hno z (append_cancel_right hp) (append_cancel_right hq)).elim
  rw [← append_assoc] at hp hq
  have hp := append_cancel_right hp
  rcases eq_nil_or_concat z with rfl | ⟨l, c, rfl⟩
  · exact (hno [] (by simpa using hp) (by simpa using hq)).elim
  obtain rfl : c = b := by
    rcases hpend with rfl | hpend
    · simp at hp
    · simpa [← hp] using hpend
  exact ⟨l, by simp⟩

/-! ## The two walks -/

theorem IsRealm.of_sep {p : Octets} (h : IsRealm b (p ++ b :: u)) : IsRealm b u := by
  have hmem : ∀ {name : Octets}, IsRealm b name → ∀ u ∈ ancestors b name, IsRealm b u := by
    intro name h
    induction h with
    | top h => simp [ancestors_free h.2]
    | child h hparent ih =>
      rw [ancestors_child h.2, forall_mem_cons]
      exact ⟨hparent, ih⟩
  refine hmem h u ?_
  rw [ancestors_append, ancestors_sep]
  simp

theorem IsRealm.exists_cons (h : IsRealm b name) : ∃ c s, name = c :: s ∧ c ≠ b := by
  have hlabel : ∀ {label : Octets}, IsLabel b label → ∃ c s, label = c :: s ∧ c ≠ b := by
    rintro label ⟨hne, hfree⟩
    obtain ⟨c, s, rfl⟩ := exists_cons_of_ne_nil hne
    exact ⟨c, s, rfl, fun h => hfree (by simp [h])⟩
  cases h with
  | top h => exact hlabel h
  | child h hparent =>
    obtain ⟨c, s, rfl, hc⟩ := hlabel h
    exact ⟨c, _, rfl, hc⟩

theorem chainNodes_append (c : Octets) (l l' : List Octets) :
    chainNodes c (l ++ l') = chainNodes c l ++ chainNodes (l.getLast?.getD c) l' := by
  induction l generalizing c with
  | nil => rfl
  | cons a l ih =>
    rw [cons_append, chainNodes, ih, getLast?_cons]
    rfl

/-- The way up from the client. -/
theorem walkUp_eq (h : IsRealm b client) {front t : Octets} {com : Int}
    (hcli : client = front ++ (t ++ r)) (hcom : (front.length + t.length : Int) = com + 1)
    (fuel prev : Nat) (hfuel : t.length ≤ fuel) :
    walkUp client b com fuel front.length prev =
      chainNodes (client.drop prev) ((ancestors b t).map (· ++ r)) := by
  induction fuel generalizing front t prev with
  | zero =>
    obtain rfl : t = [] := length_eq_zero_iff.mp (by omega)
    rfl
  | succ fuel ih =>
    rw [walkUp]
    cases t with
    | nil =>
      rw [length_nil] at hcom
      rw [if_neg (by omega)]
      rfl
    | cons c t =>
      rw [length_cons] at hcom hfuel
      have hc : client.getD front.length 0 = c := by
        rw [hcli]
        exact getD_middle front c _
      have hnext : client = (front ++ [c]) ++ (t ++ r) := by simp [hcli]
      rw [if_pos (by omega), hc, ancestors]
      split
      · rename_i hcb
        subst hcb
        have hdrop : client.drop (front.length + 1) = t ++ r := by rw [hnext]; simp
        rw [map_cons, chainNodes, hdrop]
        cases t with
        | nil =>
          rw [length_nil] at hcom
          cases fuel with
          | zero => rfl
          | succ fuel =>
            rw [walkUp, if_neg (by omega)]
            rfl
        | cons d t =>
          -- The octet behind a separator is not looked at, and is none.
          obtain ⟨d', s, hd, hne⟩ := (hcli ▸ h : IsRealm c _).of_sep.exists_cons
          obtain ⟨rfl, -⟩ := cons.inj hd
          have hrest := @ih (front ++ [c, d]) t (by simp [hcli]) (by simp at hcom ⊢; omega)
            (front.length + 1) (by simp at hfuel; omega)
          rw [hdrop] at hrest
          rw [ancestors, if_neg hne]
          simpa using hrest
      · have hrest := ih hnext (by simp; omega) prev (by omega)
        simpa using hrest

/-- The way down to the server. -/
theorem walkDown_eq {s : Octets} (n prev : Nat) (hsrv : server = v ++ s) (hv : v.length = n + 1)
    (hhead : v.head? ≠ some b) :
    (walkDown server b n prev).1 =
      chainNodes (server.drop prev) ((ancestors b v).map (· ++ s)).reverse ∧
    ((ancestors b v).map (· ++ s)).reverse.getLast?.getD (server.drop prev) =
      server.drop (walkDown server b n prev).2 := by
  induction n generalizing v s prev with
  | zero =>
    obtain ⟨c, rfl⟩ := length_eq_one_iff.mp hv
    rw [ancestors_free (by simpa using Ne.symm (by simpa using hhead))]
    exact ⟨rfl, rfl⟩
  | succ n ih =>
    rcases eq_nil_or_concat v with rfl | ⟨v, c, rfl⟩
    · cases hv
    have hv : v.length = n + 1 := by simpa using hv
    have hsrv : server = v ++ c :: s := by simp [hsrv]
    have hhead : v.head? ≠ some b := by
      cases v with
      | nil => cases hv
      | cons d v => exact hhead
    have hc : server.getD (n + 1) 0 = c := by rw [hsrv, ← hv, getD_middle]
    rw [walkDown, hc, concat_eq_append, ancestors_append]
    have hmap : ((ancestors b v).map (· ++ [c])).map (· ++ s) = (ancestors b v).map (· ++ c :: s) := by
      simp
    split
    · rename_i hcb
      subst hcb
      have hdrop : server.drop (n + 2) = s := by rw [hsrv, show n + 2 = v.length + 1 by omega]; simp
      obtain ⟨hnodes, hlast⟩ := ih (n + 2) hsrv hv hhead
      rw [hdrop] at hnodes hlast ⊢
      rw [ancestors_sep, map_append, hmap]
      simp only [ancestors, map_cons, map_nil, nil_append, reverse_append,
        reverse_singleton, singleton_append, chainNodes, hnodes, getLast?_cons]
      exact ⟨trivial, hlast⟩
    · rename_i hcb
      have hnone : ancestors b [c] = [] := ancestors_free (by simpa using Ne.symm hcb)
      rw [hnone, append_nil, hmap]
      exact ih prev hsrv hv hhead

theorem lastBranch_eq {bound : Int} (front s : Octets) (hname : name = front ++ s)
    (hbound : bound ≤ name.length) (fuel : Nat) (seen : Option Nat)
    (hfuel : bound ≤ front.length + fuel) :
    (b ∉ s → lastBranch name b bound fuel front.length seen = seen) ∧
    ∀ l l', s = l ++ b :: l' → b ∉ l' → (front.length + l.length : Int) < bound →
      lastBranch name b bound fuel front.length seen = some (front.length + l.length) := by
  induction fuel generalizing front s seen with
  | zero =>
    refine ⟨fun _ => rfl, fun l l' _ _ hlt => ?_⟩
    omega
  | succ fuel ih =>
    rw [lastBranch]
    cases s with
    | nil =>
      simp only [append_nil] at hname
      subst hname
      rw [if_neg (by omega)]
      simp
    | cons c s =>
      have hc : name.getD front.length 0 = c := by rw [hname, getD_middle]
      obtain ⟨hfree, hsep⟩ := ih (front ++ [c]) s (by simp [hname])
        (if c = b then some front.length else seen) (by simp; omega)
      simp only [length_append, length_singleton] at hfree hsep
      rw [hc]
      constructor
      · intro hs
        simp only [mem_cons, not_or] at hs
        rw [hfree hs.2, if_neg (Ne.symm hs.1), ite_self]
      rintro l l' hl hl' hlt
      rw [if_pos (by omega)]
      cases l with
      | nil =>
        cases hl
        rw [hfree hl', if_pos rfl]
        rfl
      | cons d l =>
        cases hl
        rw [hsep l l' rfl hl' (by simp at hlt; omega)]
        simp; omega

theorem artificialRoot_eq (h : IsRealm b name) :
    (b ∉ name ∧ artificialRoot name b ((name.length : Int) - 1) = -1) ∨
    ∃ u l, name = u ++ b :: l ∧ b ∉ l ∧
      artificialRoot name b ((name.length : Int) - 1) = u.length := by
  have hall := @lastBranch_eq b name ((name.length : Int) - 1) [] name rfl (by omega) name.length none
    (by simp)
  rw [length_nil] at hall
  by_cases hb : b ∈ name
  · obtain ⟨l, u, hname, hl⟩ := eq_append_cons_of_mem (mem_reverse.mpr hb)
    obtain rfl : name = u.reverse ++ b :: l.reverse := by
      rw [← reverse_reverse name, hname]
      simp
    rw [mem_reverse.symm] at hl
    obtain ⟨c, s, hs, -⟩ := h.of_sep.exists_cons
    have hlen : 0 < l.reverse.length := by simp [hs]
    refine .inr ⟨_, _, rfl, hl, ?_⟩
    rw [artificialRoot, hall.2 _ _ rfl hl (by simp at hlen ⊢; omega)]
    simp at hlen ⊢
    omega
  · refine .inl ⟨hb, ?_⟩
    rw [artificialRoot, hall.1 hb]
    simp

/-- The line of a realm, up to the ancestor behind a separator. -/
abbrev below (b : UInt8) (u r : Octets) : List Octets :=
  (u ++ b :: r) :: (ancestors b u).map (· ++ b :: r)

theorem line_sep (u r : Octets) : line b (u ++ b :: r) = below b u r ++ line b r := by
  rw [line, ancestors_append, ancestors_sep]
  rfl

theorem walkUp_sep (h : IsRealm b (u ++ b :: r)) :
    walkUp (u ++ b :: r) b u.length (u ++ b :: r).length 0 0 =
      chainNodes (u ++ b :: r) ((below b u r).tail ++ [r]) := by
  have hup := @walkUp_eq b r _ h [] (u ++ [b]) u.length (by simp) (by simp) (u ++ b :: r).length 0
    (by simp)
  simpa [ancestors_append, ancestors, Function.comp_def] using hup

theorem walkDown_sep (h : IsRealm b (v ++ b :: r)) :
    let down := walkDown (v ++ b :: r) b ((v.length : Int) - 1).toNat ((v.length : Int) + 1).toNat
    down.1 = chainNodes r (below b v r).tail.reverse ∧
    down.1 ++ [tgtname (v ++ b :: r) ((v ++ b :: r).drop down.2)] =
      chainNodes r (below b v r).reverse := by
  obtain ⟨c, s, hc, hne⟩ := h.exists_cons
  cases v with
  | nil => exact absurd (cons.inj hc).1.symm hne
  | cons d v =>
    obtain ⟨rfl, -⟩ := cons.inj hc
    have hn : (((d :: v).length : Int) - 1).toNat = v.length := by simp
    have hp : (((d :: v).length : Int) + 1).toNat = v.length + 2 := by simp; omega
    obtain ⟨hnodes, hlast⟩ := walkDown_eq v.length (v.length + 2) (rfl : _ = d :: v ++ b :: r)
      (by simp) (by simpa using hne)
    have hdrop : (d :: v ++ b :: r).drop (v.length + 2) = r := by simp
    rw [hdrop] at hnodes hlast
    simp only [hn, hp]
    refine ⟨hnodes, ?_⟩
    rw [reverse_cons, chainNodes_append, hlast, hnodes]
    rfl

/-! ## The path -/

theorem length_chainNodes (c : Octets) (l : List Octets) : (chainNodes c l).length = l.length := by
  induction l generalizing c with
  | nil => rfl
  | cons a l ih => rw [chainNodes, length_cons, length_cons, ih]

section Path

variable {up down realms : List Octets}

theorem nodup_line (name : Octets) : (line b name).Nodup :=
  (pairwise_line name).imp fun hlt => fun heq => Nat.ne_of_gt hlt (congrArg _ heq)

/-- Up to a common ancestor and down from it is a path of the tree. -/
theorem isPath_common (hcli : IsRealm b client) (hsrv : IsRealm b server)
    (hup : line b client = up ++ line b r) (hdown : line b server = down ++ line b r)
    (hdisj : ∀ u ∈ up, u ∉ down) (hrealms : client :: realms = up ++ r :: down.reverse)
    (hne : client ≠ server) :
    IsPath b client server (tgtname client client :: chainNodes client realms) := by
  have hchain : ∀ {name : Octets} {l : List Octets}, IsRealm b name → line b name = l ++ line b r →
      (l ++ [r]).IsChain (Below b) := by
    intro name l h hl
    have hsplit : l ++ line b r = (l ++ [r]) ++ ancestors b r := by simp
    exact (hsplit ▸ hl ▸ h.isChain).left_of_append
  have htop : lastLabel b client = lastLabel b server := by
    have h₁ := hcli.getLast?
    have h₂ := hsrv.getLast?
    rw [hup, getLast?_append_of_ne_nil _ (cons_ne_nil _ _)] at h₁
    rw [hdown, getLast?_append_of_ne_nil _ (cons_ne_nil _ _), h₁] at h₂
    exact Option.some.inj h₂
  refine ⟨realms, rfl, ?_, ?_, ?_⟩
  · have hlast : (client :: realms).getLast? = some server := by
      rw [hrealms, getLast?_append_of_ne_nil _ (cons_ne_nil _ _)]
      cases down with
      | nil => rw [(cons.inj hdown).1]; rfl
      | cons d down =>
        rw [(cons.inj hdown).1, reverse_cons, ← cons_append]
        exact getLast?_concat
    cases realms with
    | nil => exact absurd (Option.some.inj hlast) hne
    | cons a realms => rwa [getLast?_cons_cons] at hlast
  · obtain ⟨hu, -, hru⟩ := nodup_append.mp (hup ▸ nodup_line client)
    obtain ⟨hd, -, hrd⟩ := nodup_append.mp (hdown ▸ nodup_line server)
    rw [hrealms, nodup_append, nodup_cons, List.Nodup, pairwise_reverse]
    refine ⟨hu, ⟨fun hr => ?_, hd.imp Ne.symm⟩, ?_⟩
    · exact hrd r (mem_reverse.mp hr) r mem_cons_self rfl
    rintro a ha c hc rfl
    rcases mem_cons.mp hc with rfl | hc
    · exact hru a ha a mem_cons_self rfl
    · exact hdisj a ha (mem_reverse.mp hc)
  · have hrev : (r :: down.reverse).IsChain fun x y => Below b y x := by
      have := isChain_reverse.mpr (hchain hsrv hdown)
      rwa [reverse_append] at this
    rw [Steps, if_pos htop, hrealms, isChain_split]
    exact ⟨(hchain hcli hup).imp fun _ _ => .inl, hrev.imp fun _ _ => .inr⟩

theorem isPath_top (hcli : IsRealm b client) (hsrv : IsRealm b server)
    (hdisj : ∀ u ∈ line b client, u ∉ line b server) :
    IsPath b client server (tgtname client client ::
      chainNodes client (ancestors b client ++ (line b server).reverse)) := by
  have htop : lastLabel b client ≠ lastLabel b server := fun h =>
    hdisj _ (mem_of_getLast? hcli.getLast?) (h ▸ mem_of_getLast? hsrv.getLast?)
  refine ⟨_, rfl, by simp, ?_, ?_⟩
  · rw [← cons_append, nodup_append, List.Nodup, pairwise_reverse]
    refine ⟨nodup_line client, (nodup_line server).imp Ne.symm, ?_⟩
    rintro a ha c hc rfl
    exact hdisj a ha (mem_reverse.mp hc)
  · rw [Steps, if_neg htop]
    refine ⟨_, _, rfl, hcli.isChain.imp fun _ _ => .inl, ?_, hcli.getLast?, ?_⟩
    · exact isChain_reverse.mpr (hsrv.isChain.imp fun _ _ => .inr)
    · rw [head?_reverse]
      exact hsrv.getLast?

end Path

/-! ## The tree -/

section Tree

variable (h : Apart x y) (hne : x ++ w ≠ y ++ w)

include h

theorem suffix_stops : ∃ comC comS no,
    suffix (x ++ w) (y ++ w) b = ⟨x.length, y.length, comC, comS, no⟩ := by
  by_cases hb : b ∈ w
  · obtain ⟨l, r, hw, hl⟩ := eq_append_cons_of_mem hb
    exact ⟨_, _, _, (suffix_eq h).2 l r hl hw⟩
  · exact ⟨_, _, _, (suffix_eq h).1 hb⟩

include hne

theorem hierarchicalTree_eq : hierarchicalTree (x ++ w) (y ++ w) b =
    .ok (tgtname (x ++ w) (x ++ w) ::
      hierarchicalNodes (x ++ w) (y ++ w) b (compared (x ++ w) (y ++ w) b)) := by
  obtain ⟨comC, comS, no, hstops⟩ := @suffix_stops b x y w h
  refine if_neg (show ¬((suffix _ _ _).clen = 0 ∧ (suffix _ _ _).slen = 0) from ?_)
  rw [hstops]
  rintro ⟨hx, hy⟩
  exact hne (by rw [length_eq_zero_iff.mp hx, length_eq_zero_iff.mp hy])

/-- The two cases in which one name is the end of the other come first. -/
theorem compared_eq : compared (x ++ w) (y ++ w) b =
    if x = [] ∧ y.getLast? = some b then ⟨0, y.length, 0, (y.length : Int) - 1, false⟩
    else if y = [] ∧ x.getLast? = some b then ⟨x.length, 0, (x.length : Int) - 1, 0, false⟩
    else suffix (x ++ w) (y ++ w) b := by
  have hends : ∀ z : Octets, z ≠ [] → ((z ++ w).getD (z.length - 1) 0 = b ↔ z.getLast? = some b) := by
    intro z hz
    obtain ⟨z, c, rfl⟩ := (eq_nil_or_concat z).resolve_left hz
    simp
  obtain ⟨comC, comS, no, hstops⟩ := @suffix_stops b x y w h
  rw [compared, hstops, adjustSubdomain]
  by_cases hx : x = []
  · have hy : y ≠ [] := fun hy => hne (by rw [hx, hy])
    have hlen : y.length ≠ 0 := fun hlen => hy (length_eq_zero_iff.mp hlen)
    simp only [hx, length_nil, hends y hy]
    split <;> simp [hlen]
  · simp only [hx, hends x hx, false_and, if_false, length_eq_zero_iff]
    split
    · rename_i hy
      simp [hy.1]
    · rfl

omit h hne

theorem walkUp_root (hname : IsRealm b name) :
    let com := artificialRoot name b ((name.length : Int) - 1)
    walkUp name b com name.length 0 0 = chainNodes name (ancestors b name) ∧
      name.drop (com + 1).toNat = (ancestors b name).getLast?.getD name := by
  rcases artificialRoot_eq hname with ⟨hfree, hcom⟩ | ⟨u, l, rfl, hl, hcom⟩
  · have hup := @walkUp_eq b name name hname [] [] (-1) rfl rfl name.length 0 (Nat.zero_le _)
    simp only [hcom, ancestors_free hfree]
    exact ⟨hup, rfl⟩
  · have hline : ancestors b (u ++ b :: l) = (below b u l).tail ++ [l] := by
      rw [ancestors_append, ancestors_sep, line, ancestors_free hl]
      rfl
    simp only [hcom, hline, walkUp_sep hname]
    simp

theorem walkDown_root (hsrv : IsRealm b server) (c : Octets) {slen : Nat}
    (hslen : b ∈ server → slen ≠ 0) :
    let com := artificialRoot server b ((server.length : Int) - 1)
    let down := walkDown server b (com - 1).toNat (com + 1).toNat
    [tgtname (server.drop (com + 1).toNat) c] ++ down.1 ++
      (if slen ≠ 0 ∧ 0 ≤ com then [tgtname server (server.drop down.2)] else []) =
        chainNodes c (line b server).reverse := by
  rcases artificialRoot_eq hsrv with ⟨hfree, hcom⟩ | ⟨v, l, rfl, hl, hcom⟩
  · simp only [hcom, line, ancestors_free hfree]
    rw [if_neg (by omega)]
    rfl
  · have hdrop : (v ++ b :: l).drop ((v.length : Int) + 1).toNat = l := by simp
    have hline : line b l = [l] := by rw [line, ancestors_free hl]
    simp only [hcom, line_sep, hline, hdrop]
    rw [if_pos ⟨hslen (by simp), by omega⟩, append_assoc, (walkDown_sep hsrv).2, reverse_append]
    rfl

end Tree

/-- The tree is the path, in an array that has room for it. -/
def Reached (capaths : Capaths) (client server : Octets) (b : UInt8) : Prop :=
  ∃ tree, walkRealmTree capaths client server b = .ok tree ∧ IsPath b client server tree ∧
    tree.length ≤ slots client server b

theorem hidden_iff (h : Apart x y) :
    Hidden b (x ++ w) (y ++ w) ↔ y = [] ∧ b ∈ w ∧ x.getLast? ≠ some b := by
  constructor
  · rintro ⟨hb, z, hz, hcli⟩
    rw [← append_assoc] at hcli
    obtain rfl := append_cancel_right hcli
    obtain rfl : y = [] := by
      rcases eq_nil_or_concat y with rfl | ⟨y, c, rfl⟩
      · rfl
      · simp [Apart] at h
    rw [append_nil]
    exact ⟨rfl, hb, hz⟩
  · rintro ⟨rfl, hb, hx⟩
    exact ⟨hb, x, hx, rfl⟩

theorem reached_of_nodes {capaths : Capaths} {realms : List Octets} {nodes : List Principal}
    (hcap : capaths (cstring client) (cstring server) = none)
    (htree : hierarchicalTree client server b = .ok (tgtname client client :: nodes))
    (hnodes : nodes = chainNodes client realms)
    (hpath : IsPath b client server (tgtname client client :: chainNodes client realms))
    (hlen : realms.length + 1 ≤ slots client server b) : Reached capaths client server b := by
  refine ⟨_, ?_, hpath, by rwa [length_cons, length_chainNodes]⟩
  rw [walkRealmTree, hcap, ← hnodes]
  exact htree

theorem chainNodes_inj {c : Octets} {l l' : List Octets} (h : chainNodes c l = chainNodes c l') :
    l = l' := by
  induction l generalizing c l' with
  | nil => cases l' <;> simp_all [chainNodes]
  | cons a l ih =>
    cases l' with
    | nil => cases h
    | cons a' l' =>
      obtain ⟨hhead, htail⟩ := cons.inj h
      obtain rfl : a = a' := by
        simp only [tgtname] at hhead
        split at hhead <;> split at hhead <;> simp_all
      rw [ih htail]

theorem below_disjoint {l : Octets} (h : Apart x y) (hx : x = [] → y ≠ [] ∧ y.getLast? ≠ some b)
    (hy : y = [] → x.getLast? ≠ some b) (hl : b ∉ l) (r : Octets) :
    ∀ u ∈ below b (x ++ l) r, u ∉ below b (y ++ l) r := by
  have hmem : ∀ {z u : Octets}, u ∈ below b (z ++ l) r → u ∈ line b (z ++ (l ++ b :: r)) := by
    intro z u hu
    rw [← append_assoc, line_sep]
    exact mem_append_left _ hu
  intro u hu hv
  obtain ⟨l', hw⟩ := sep_of_mem_lines h hx hy (hmem hu) (hmem hv)
  obtain ⟨z, rfl⟩ : ∃ z, u = z ++ b :: r := by
    rcases mem_cons.mp hu with rfl | hu
    · exact ⟨_, rfl⟩
    · obtain ⟨z, -, rfl⟩ := mem_map.mp hu
      exact ⟨z, rfl⟩
  -- `l` would have a separator.
  obtain rfl : l = l' ++ b :: z := append_cancel_right (by simpa using hw)
  exact hl (by simp)

theorem count_take (h : IsRealm b name) :
    (name.take ((name.length : Int) - 1).toNat).count b = name.count b := by
  rcases eq_nil_or_concat name with rfl | ⟨u, c, rfl⟩
  · rfl
  rw [concat_eq_append] at h ⊢
  have hc : c ≠ b := by
    rintro rfl
    obtain ⟨_, _, hnil, -⟩ := h.of_sep.exists_cons
    cases hnil
  simp [hc]

theorem nodes_common (clen slen : Nat) (comC comS : Int) :
    hierarchicalNodes client server b ⟨clen, slen, comC, comS, false⟩ =
      walkUp client b comC client.length 0 0 ++
        ((walkDown server b (comS - 1).toNat (comS + 1).toNat).1 ++
          if slen ≠ 0 ∧ 0 ≤ comS then
            [tgtname server (server.drop (walkDown server b (comS - 1).toNat (comS + 1).toNat).2)]
          else []) := by
  simp [hierarchicalNodes]

/-- Without a configured path, the tree is the path between the two realms if and only if
the server's name, unless it has only one label, does not end the client's name inside a
label: there the last entry is left out. -/
theorem walkRealmTree_path {capaths : Capaths} (hclient : IsRealm b client)
    (hserver : IsRealm b server) (hne : client ≠ server)
    (hcap : capaths (cstring client) (cstring server) = none) :
    Reached capaths client server b ↔ ¬Hidden b client server := by
  obtain ⟨x, y, w, rfl, rfl, h⟩ := exists_apart client server
  have htree := @hierarchicalTree_eq b x y w h hne
  have hcompared := @compared_eq b x y w h hne
  rw [hidden_iff h]
  by_cases hx : x = [] ∧ y.getLast? = some b
  · -- The server is below the client.
    rw [if_pos hx] at hcompared
    obtain ⟨rfl, hyl⟩ := hx
    obtain ⟨v, rfl⟩ := List.getLast?_eq_some_iff.mp hyl
    refine iff_of_true ?_ (by simp)
    have hsv : (v ++ [b]) ++ w = v ++ b :: w := by simp
    have hv : ((v ++ [b]).length : Int) - 1 = v.length := by simp
    rw [hsv] at hserver hne hcap htree hcompared ⊢
    rw [nil_append] at hclient hne hcap htree hcompared ⊢
    obtain ⟨c, s, hw, hcb⟩ := hclient.exists_cons
    have hup := @walkUp_eq b s w hclient [] [c] 0 hw rfl w.length 0 (by rw [hw]; simp)
    rw [ancestors_free (by simpa using Ne.symm hcb)] at hup
    refine reached_of_nodes hcap htree ?_ (isPath_common hclient hserver
      (nil_append _).symm (line_sep v w) (by simp) rfl hne) ?_
    · rw [hcompared, nodes_common, hv, if_pos ⟨by simp, by omega⟩]
      exact (congrArg (· ++ _) hup).trans (walkDown_sep hserver).2
    · simp [slots, hcompared, length_ancestors]
  rw [if_neg hx] at hcompared
  by_cases hy : y = [] ∧ x.getLast? = some b
  · -- The client is below the server.
    rw [if_pos hy] at hcompared
    obtain ⟨rfl, hxl⟩ := hy
    obtain ⟨u, rfl⟩ := List.getLast?_eq_some_iff.mp hxl
    refine iff_of_true ?_ (by simp)
    have hcu : (u ++ [b]) ++ w = u ++ b :: w := by simp
    have hu : ((u ++ [b]).length : Int) - 1 = u.length := by simp
    rw [hcu] at hclient hne hcap htree hcompared ⊢
    rw [nil_append] at hserver hne hcap htree hcompared ⊢
    refine reached_of_nodes hcap htree ?_ (isPath_common hclient hserver (line_sep u w)
      (nil_append _).symm (by simp) rfl hne) ?_
    · rw [hcompared, nodes_common, hu, walkUp_sep hclient]
      simp [walkDown]
    · simp [slots, hcompared, length_ancestors]
  rw [if_neg hy] at hcompared
  by_cases hb : b ∈ w
  · -- They meet behind the first common separator.
    obtain ⟨l, r, rfl, hl⟩ := eq_append_cons_of_mem hb
    have hdisj := below_disjoint h (fun hxe => ⟨fun hye => hne (by rw [hxe, hye]),
      fun hyl => hx ⟨hxe, hyl⟩⟩) (fun hye hxl => hy ⟨hye, hxl⟩) hl r
    rw [(suffix_eq h).2 l r hl rfl] at hcompared
    simp only [← append_assoc] at hclient hserver hne hcap htree hcompared ⊢
    by_cases hye : y = []
    · refine iff_of_false ?_ (fun hno => hno ⟨hye, hb, fun hxl => hy ⟨hye, hxl⟩⟩)
      rintro ⟨tree, hrun, ⟨realms, rfl, hlast, -⟩, -⟩
      subst hye
      rw [walkRealmTree, hcap] at hrun
      have hnodes := (cons.inj (Except.ok.inj (htree.symm.trans hrun))).2
      have hnone : (below b l r).tail = [] := by simp [ancestors_free hl]
      rw [hcompared, nodes_common, walkUp_sep hclient, (walkDown_sep hserver).1, nil_append, hnone] at hnodes
      obtain rfl := chainNodes_inj ((append_nil _).symm.trans hnodes)
      rw [getLast?_concat] at hlast
      have hlen := congrArg List.length (Option.some.inj hlast)
      simp at hlen
      omega
    · refine iff_of_true (reached_of_nodes hcap htree ?_ (isPath_common hclient hserver
        (line_sep _ r) (line_sep _ r) hdisj rfl hne) ?_) (fun hno => hye hno.1)
      · rw [hcompared, nodes_common, walkUp_sep hclient, if_pos ⟨by simpa using hye, by omega⟩,
          (walkDown_sep hserver).2]
        have hjoin := chainNodes_append (x ++ l ++ b :: r) ((below b (x ++ l) r).tail ++ [r])
          (below b (y ++ l) r).reverse
        rw [getLast?_concat] at hjoin
        exact hjoin.symm.trans (by simp)
      · rw [slots, hcompared, Int.toNat_natCast, Int.toNat_natCast, take_left, take_left]
        simp [length_ancestors]
        omega
  · -- They do not meet.
    rw [(suffix_eq h).1 hb] at hcompared
    obtain ⟨hup, hover⟩ := walkUp_root hclient
    have hslen : b ∈ y ++ w → y.length ≠ 0 := fun hmem hy => hb (by simp_all)
    have hdown := walkDown_root hserver ((ancestors b (x ++ w)).getLast?.getD (x ++ w)) hslen
    refine iff_of_true (reached_of_nodes hcap htree ?_ (isPath_top hclient hserver ?_) ?_) (by simp [hb])
    · simp only [hcompared, hierarchicalNodes, if_true, hup, hover]
      rw [append_assoc, append_assoc, ← append_assoc [_], hdown, chainNodes_append]
    · intro u hu hv
      obtain ⟨l, rfl⟩ := sep_of_mem_lines h (fun hxe => ⟨fun hye => hne (by rw [hxe, hye]),
        fun hyl => hx ⟨hxe, hyl⟩⟩) (fun hye hxl => hy ⟨hye, hxl⟩) hu hv
      exact hb (by simp)
    · rw [slots, hcompared]
      simp only [count_take hclient, count_take hserver]
      rw [length_append, length_reverse, length_cons, length_ancestors, length_ancestors]
      omega

/-- From `A.X` to `B.X`. -/
theorem walkRealmTree_path_siblings : Reached (fun _ _ => none) [65, 46, 88] [66, 46, 88] 46 := by
  have hlabel (c : UInt8) (hc : IsLabel 46 [c]) : IsRealm 46 ([c] ++ 46 :: [88]) :=
    .child hc (.top (by decide))
  refine (walkRealmTree_path (hlabel 65 (by decide)) (hlabel 66 (by decide)) (by decide) rfl).mpr ?_
  rw [hidden_iff (.inr (.inr (by decide)))]
  decide

/-- From `AB.X` to `B.X` the tree ends in `X`. -/
theorem walkRealmTree_hidden :
    let client : Octets := [65, 66, 46, 88]
    let server : Octets := [66, 46, 88]
    IsRealm 46 client ∧ IsRealm 46 server ∧ client ≠ server ∧
    walkRealmTree (fun _ _ => none) client server 46 =
      .ok [tgtname client client, tgtname [88] client] ∧
    ¬Reached (fun _ _ => none) client server 46 := by
  have hrun : walkRealmTree (fun _ _ => none) [65, 66, 46, 88] [66, 46, 88] 46 =
      .ok [tgtname [65, 66, 46, 88] [65, 66, 46, 88], tgtname [88] [65, 66, 46, 88]] := by
    decide +kernel
  have hlabel (u : Octets) (hu : IsLabel 46 u) : IsRealm 46 (u ++ 46 :: [88]) :=
    .child hu (.top (by decide))
  refine ⟨hlabel [65, 66] (by decide), hlabel [66] (by decide), by decide, hrun, ?_⟩
  rintro ⟨tree, htree, ⟨realms, rfl, hlast, -⟩, -⟩
  have hnodes := (cons.inj (Except.ok.inj (hrun.symm.trans htree))).2
  obtain rfl : [[88]] = realms := chainNodes_inj hnodes
  revert hlast
  decide

end Krb5.Transited
