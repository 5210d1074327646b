import Krb5.Kadm5.PrincipalFacts
import Mathlib.Data.List.Lex
import Mathlib.Data.List.Sort

/-!
# The dictionary (`server_dict.c`)

The words of the file are counted by its newlines, and then found one behind the other by the
zeros that have replaced these.
-/

namespace Krb5.Kadm5

open List

section Search

variable {α β : Type} [LinearOrder β] (f : α → β) (key : α) (l : List α)

/-- `bsearch`, with the order of `f`. -/
def bsearch : Nat → Nat → Nat → Bool
  | 0, _, _ => false
  | fuel + 1, lo, hi =>
    if lo < hi then
      match l[(lo + hi) / 2]? with
      | none => false
      | some a =>
        if f key < f a then bsearch fuel lo ((lo + hi) / 2)
        else if f a < f key then bsearch fuel ((lo + hi) / 2 + 1) hi
        else true
    else false

variable {f key l}

/-- In a sorted list a key that is there is found. -/
theorem bsearch_complete (hsorted : l.Pairwise fun a b => f a ≤ f b) {i fuel lo hi : Nat}
    {hi' : i < l.length} (heq : f l[i] = f key) (hlo : lo ≤ i) (hhi : i < hi)
    (hlen : hi ≤ l.length) (hfuel : hi ≤ lo + fuel) : bsearch f key l fuel lo hi := by
  induction fuel generalizing lo hi with
  | zero => omega
  | succ fuel ih =>
    have hmid : (lo + hi) / 2 < l.length := by omega
    have hmono := pairwise_iff_getElem.mp hsorted
    rw [bsearch, if_pos (by omega), getElem?_eq_getElem hmid]
    dsimp only
    split_ifs with hless hmore
    · refine ih hlo (by_contra fun hge => ?_) (by omega) (by omega)
      obtain hlt | rfl := lt_or_eq_of_le (not_lt.mp hge)
      · exact (hless.trans_le (hmono _ _ hmid hi' hlt)).ne heq.symm
      · exact hless.ne heq.symm
    · refine ih (by_contra fun hge => ?_) hhi hlen (by omega)
      obtain hlt | rfl := lt_or_eq_of_le (Nat.lt_succ_iff.mp (not_le.mp hge))
      · exact ((hmono _ _ hi' hmid hlt).trans_lt hmore).ne heq
      · exact hmore.ne heq
    · rfl

/-- A key that is found is there, sorted or not. -/
theorem bsearch_sound {fuel lo hi : Nat} (h : bsearch f key l fuel lo hi) :
    ∃ a ∈ l, f a = f key := by
  induction fuel generalizing lo hi with
  | zero => cases h
  | succ fuel ih =>
    rw [bsearch] at h
    split_ifs at h with hrange
    cases hmid : l[(lo + hi) / 2]? with
    | none => simp [hmid] at h
    | some a =>
      simp only [hmid] at h
      split_ifs at h with hless hmore
      · exact ih h
      · exact ih h
      · exact ⟨a, mem_of_getElem? hmid, le_antisymm (not_lt.mp hless) (not_lt.mp hmore)⟩

end Search

/-- The words that the second loop of `init_dict` finds. -/
def wordList : Nat → Octets → List Octets
  | 0, _ => []
  | count + 1, block => cstring block :: wordList count (block.drop ((cstring block).length + 1))

/-- What `strcasecmp` compares. -/
def fold (word : Octets) : List Nat := (word.map tolower).map UInt8.toNat

/-- The words of the file: a newline ends a word, and there are as many words as newlines. -/
def fileWords (file : Octets) : List Octets :=
  wordList (file.count 0x0a) ((file.map fun c => if c = 0x0a then 0 else c) ++ [0])

/-- `init_dict`, on the contents of the file. -/
def initDict (file : Octets) : List Octets :=
  (fileWords file).insertionSort fun s1 s2 => fold s1 ≤ fold s2

def findWord (words : List Octets) (word : Octets) : Bool :=
  bsearch fold word words words.length 0 words.length

/-- A newline or a zero. -/
def isBreak (c : UInt8) : Bool := c = 0x0a || c = 0

/-- The lines of a file. What is behind the last newline is one if there is anything. -/
def fileLines (file : Octets) : List Octets :=
  let lines := file.splitOnP (· = 0x0a)
  if lines.getLast? = some [] then lines.dropLast else lines

/-- The second loop finds what is between newlines and zeros, as often as it is told to. -/
theorem wordList_eq_take {count : Nat} {file : Octets} (h : count ≤ file.countP isBreak) :
    wordList count ((file.map fun c => if c = 0x0a then 0 else c) ++ [0]) =
      (file.splitOnP isBreak).take count := by
  induction count generalizing file with
  | zero => rfl
  | succ count ih =>
    -- the file up to the first break, and what is behind it
    obtain ⟨c, hmem, hc⟩ := countP_pos_iff.mp (Nat.lt_of_lt_of_le (Nat.succ_pos count) h)
    obtain ⟨front, c, rest, hfront, hc, rfl⟩ : ∃ front c rest, (∀ x ∈ front, isBreak x = false) ∧
        isBreak c ∧ file = front ++ c :: rest := by
      have hdrop : file.dropWhile (fun x => !isBreak x) ≠ [] := by
        intro hnil
        have hall := dropWhile_eq_nil_iff.mp hnil c hmem
        simp [hc] at hall
      refine ⟨file.takeWhile fun x => !isBreak x, _, _, fun x hx => by simpa using mem_takeWhile_imp hx,
        ?_, (takeWhile_append_dropWhile).symm.trans (congrArg _ (cons_head_tail hdrop).symm)⟩
      simpa using head_dropWhile_not _ hdrop
    have hsame : (front.map fun c => if c = 0x0a then 0 else c) = front := by
      refine (map_congr_left fun x hx => if_neg ?_).trans (map_id front)
      rintro rfl
      exact absurd (hfront _ hx) (by decide)
    have hnul : (0 : UInt8) ∉ front := fun hx => absurd (hfront _ hx) (by decide)
    have hzero : (if c = 0x0a then 0 else c) = 0 := by
      simp only [isBreak, Bool.or_eq_true, decide_eq_true_eq] at hc
      grind
    have hcstring (tail : Octets) : cstring (front ++ 0 :: tail) = front := by
      rw [cstring, takeWhile_append_of_pos]
      · simp
      · intro x hx
        simpa using fun h : x = 0 => hnul (h ▸ hx)
    have hcount : front.countP isBreak = 0 := countP_eq_zero.mpr fun x hx => by simp [hfront x hx]
    have hrest := @ih rest (by
      rw [countP_append, hcount, countP_cons, if_pos hc] at h
      omega)
    rw [splitOnP_append_cons_of_forall_mem hfront c hc, take_succ_cons, ← hrest]
    simp [wordList, hsame, hzero, hcstring]

/-- There are no more newlines than breaks. -/
theorem fileWords_eq (file : Octets) :
    fileWords file = (file.splitOnP isBreak).take (file.count 0x0a) := by
  refine wordList_eq_take (countP_mono_left fun c _ hc => ?_)
  simp only [beq_iff_eq] at hc
  simp [isBreak, hc]

/-- What is looked for is found exactly if it is a word, ignoring case. -/
theorem findWord_initDict_iff {file word : Octets} :
    findWord (initDict file) word ↔
      ∃ w ∈ (file.splitOnP isBreak).take (file.count 0x0a), strcasecmpEq w word := by
  have hfold : ∀ w, fold w = fold word ↔ strcasecmpEq w word := by
    intro w
    rw [fold, fold, strcasecmpEq, beq_iff_eq]
    exact (map_injective_iff.mpr fun a b => UInt8.toNat_inj.mp).eq_iff
  have hmem : ∀ w, w ∈ initDict file ↔ w ∈ (file.splitOnP isBreak).take (file.count 0x0a) := by
    intro w
    rw [initDict, mem_insertionSort, fileWords_eq]
  constructor
  · intro h
    obtain ⟨w, hw, heq⟩ := bsearch_sound h
    exact ⟨w, (hmem w).mp hw, (hfold w).mp heq⟩
  · rintro ⟨w, hw, heq⟩
    obtain ⟨i, hi, rfl⟩ := getElem_of_mem ((hmem w).mpr hw)
    exact bsearch_complete (pairwise_insertionSort _ _) ((hfold _).mpr heq) (Nat.zero_le i) hi
      le_rfl (by omega)

variable {handle : Handle} {password : CString} {pol : PolicyEnt} {principal : Principal}

theorem nul_notMem_of_fold {word : Octets}
    (h : word.map tolower = password.text.map tolower) : (0 : UInt8) ∉ word := by
  have hzero : ∀ c, tolower c = 0 → c = 0 := by
    intro c
    rw [tolower]
    grind
  intro hmem
  have hmap := mem_map_of_mem (f := tolower) hmem
  rw [h] at hmap
  obtain ⟨c, hc, hc0⟩ := mem_map.mp hmap
  exact password.nul_notMem (hzero c hc0 ▸ hc)

/-- What a password that is accepted under a policy should be: no line of the file and no part of
the name, ignoring case, and as long and as varied as the policy asks. -/
structure Complete (file : Octets) (password : CString) (pol : PolicyEnt) (principal : Principal) :
    Prop where
  lines : ∀ line ∈ fileLines file, strcasecmpEq line password.text = false
  parts : ∀ part ∈ principal.realm :: principal.data, strcasecmpEq part password.text = false
  length : pol.pwMinLength.toInt ≤ password.text.length
  classes : pol.pwMinClasses.toInt ≤ classCount password.text

/-- Of the four only the lines depend on the dictionary. -/
theorem passwdCheck_ok (h : passwdCheck handle password (some pol) principal = .ok ()) :
    handle.findWord password.text = false ∧
    (∀ part ∈ principal.realm :: principal.data, strcasecmpEq part password.text = false) ∧
    pol.pwMinLength.toInt ≤ password.text.length ∧
    pol.pwMinClasses.toInt ≤ classCount password.text := by
  rw [passwdCheck] at h
  split_ifs at h with hshort hclass hword hname
  refine ⟨Bool.eq_false_iff.mpr hword, fun part hpart => Bool.eq_false_iff.mpr fun hsame => ?_, ?_,
    Int.not_lt.mp hclass⟩
  · have hfold : part.map tolower = password.text.map tolower := by simpa [strcasecmpEq] using hsame
    refine hname (any_eq_true.mpr ⟨part, hpart, ?_⟩)
    rwa [cstring_eq_self (nul_notMem_of_fold hfold)]
  · have hnat : pol.pwMinLength.toUInt32.toNat = pol.pwMinLength.toBitVec.toNat := rfl
    rw [Int32.toInt, BitVec.toInt_eq_toNat_cond]
    split <;> omega

/-- The check is complete exactly if every line of the file that can be a password is among the
first texts between newlines and zeros, as many as there are newlines. -/
theorem passwdCheck_complete {file : Octets} (hdict : handle.findWord = findWord (initDict file)) :
    (∀ password pol principal, passwdCheck handle password (some pol) principal = .ok () →
      Complete file password pol principal) ↔
    ∀ line ∈ fileLines file, (0 : UInt8) ∉ line →
      ∃ word ∈ (file.splitOnP isBreak).take (file.count 0x0a), strcasecmpEq word line := by
  constructor
  · -- a line that is not found is a password, for a name that has nothing in common with it
    intro hcomplete line hline hnul
    rw [← findWord_initDict_iff, ← hdict]
    by_contra hlost
    have hok : passwdCheck handle ⟨line, hnul⟩ (some ⟨none, 0, 0, 0, 0, 0, 0⟩)
        ⟨if line = [] then [0x41] else [], [], 0⟩ = .ok () := by
      have hname : strcasecmpEq (cstring (if line = [] then [0x41] else [])) line = false := by
        cases line <;> simp [strcasecmpEq, cstring]
      have hlong : ¬line.length < (0 : Int32).toUInt32.toNat := Nat.not_lt_zero _
      have hvaried : ¬(classCount line : Int) < 0 := Int.not_lt.mpr (Int.natCast_nonneg _)
      simp [passwdCheck, hlong, hvaried, hlost, hname]
    have hself := (hcomplete _ _ _ hok).lines line hline
    simp [strcasecmpEq] at hself
  · intro hlines password pol principal hok
    obtain ⟨hword, hparts, hlength, hclasses⟩ := passwdCheck_ok hok
    refine ⟨fun line hline => Bool.eq_false_iff.mpr fun hsame => ?_, hparts, hlength, hclasses⟩
    have hfold : line.map tolower = password.text.map tolower := by simpa [strcasecmpEq] using hsame
    obtain ⟨word, hmem, hsame'⟩ := hlines line hline (nul_notMem_of_fold hfold)
    have hfound : findWord (initDict file) password.text := by
      refine findWord_initDict_iff.mpr ⟨word, hmem, ?_⟩
      rw [strcasecmpEq, ← hfold]
      exact hsame'
    rw [hdict, hfound] at hword
    cases hword

def dictHandle (file : Octets) : Handle := { sampleHandle with findWord := findWord (initDict file) }

/-- A file whose last line has no newline, and is also the first. -/
theorem passwdCheck_complete_private :
    strcasecmpEq (ascii "Secret") (ascii "private") = false := by
  have hcomplete := (@passwdCheck_complete (dictHandle (ascii "Secret\npublic\nsecret"))
    (ascii "Secret\npublic\nsecret") rfl).mpr (by decide +kernel) (.ofAscii "private")
    ⟨none, 0, 0, 0, 0, 0, 0⟩ principalA (by decide +kernel)
  exact hcomplete.lines _ (by decide +kernel)

/-- The last line has no newline, or a zero stands in front of it. -/
theorem passwdCheck_incomplete :
    let check file := passwdCheck (dictHandle file) secret (some ⟨none, 0, 0, 0, 0, 0, 0⟩) principalA
    check (ascii "public\nsecret") = .ok () ∧
    check (ascii "public\n" ++ [0] ++ ascii "secret\n") = .ok () := by
  decide +kernel

end Krb5.Kadm5
