import Krb5.Basic
import Mathlib.Data.List.DropRight

/-!
# Lines of a profile (`prof_parse.c`)

A pointer into a line is the memory from there to the end of the line, whose last octet is the
terminating NUL. A function that reads where that is empty has left the line and has no result.
A character that is cut off with a NUL has been read.
-/

namespace Krb5.Profile

open List

/-- The characters in front of the one where a loop ends, and the memory from that one on. -/
def scan (p : UInt8 → Bool) : Octets → Option (Octets × Octets)
  | [] => none
  | c :: mem =>
    if p c then (scan p mem).map fun (front, rest) => (c :: front, rest) else some ([], c :: mem)

def isspace (c : UInt8) : Bool := c = 0x20 || 9 ≤ c && c ≤ 13

def skipOverBlanks (mem : Octets) : Option Octets :=
  (scan (fun c => c ≠ 0 && isspace c) mem).map (·.2)

/-- What `strlen` reads. -/
def string (mem : Octets) : Option Octets := (scan (· != 0) mem).map (·.1)

/-- `strchr`, which ends at the NUL if there is no such character. -/
def strchr (ch : UInt8) : Octets → Option (Octets × Octets) := scan fun c => c ≠ 0 && c ≠ ch

def isEnd (c : UInt8) : Bool := c = 10 || c = 13

def stripLine (mem : Octets) : Option Octets := do
  let line ← string mem
  let kept := line.rdropWhile isEnd
  return kept ++ replicate (line.length - kept.length) 0 ++ mem.drop line.length

def unescape (c : UInt8) : UInt8 :=
  if c = 0x6e then 10 else if c = 0x74 then 9 else if c = 0x62 then 8 else c

/-- The characters that the loop of `parse_quoted_string` writes. -/
def unquote : Octets → Option Octets
  | [] => none
  | [c] => if c = 0 ∨ c = 0x22 then some [] else none
  | c :: e :: mem =>
    if c = 0 ∨ c = 0x22 then some []
    else if c = 0x5c then (unquote mem).map (unescape e :: ·)
    else (unquote (e :: mem)).map (c :: ·)

/-- They are written from the start on, with a NUL behind them. -/
def parseQuotedString (mem : Octets) : Option Octets := do
  let written ← unquote mem
  if written.length < mem.length then return cstring written else none

inductive ErrCode
  | sectionNotop | sectionSyntax | relationSyntax | extraCbrace
  | tree (code : Int32)
  deriving DecidableEq

/-- What a line asks of the tree of nodes. -/
inductive Call
  | section (name : Octets)
  | subsection (tag : Octets)
  | relation (tag value : Octets)
  | final
  | parent
  deriving DecidableEq

/-- The calls on the tree, and the code that is returned. -/
abbrev Answer := List Call × Option ErrCode

def marks (final : Bool) : List Call := if final then [.final] else []

/-- A tag has been read and ends in a NUL: its name, and whether the node is marked as final. -/
def nodeName (tag : Octets) : Octets × Bool := (tag.takeWhile (· ≠ 0x2a), 0x2a ∈ tag)

def relation (tag value : Octets) : Answer :=
  (.relation (nodeName tag).1 value :: marks (nodeName tag).2, none)

section Parse

variable (tree : Call → Option ErrCode)

def subsection (tag : Octets) : Answer :=
  let code := tree (.subsection (nodeName tag).1)
  (.subsection (nodeName tag).1 :: marks ((nodeName tag).2 && code.isNone), code)

def sectionLine (mem : Octets) : Option Answer := do
  let (name, p) ← strchr 0x5d mem
  if (← p.head?) = 0 then return ([], some .sectionSyntax)
  if let some code := tree (.section name) then return ([.section name], some code)
  let final := (← p.tail.head?) = 0x2a
  let cp ← skipOverBlanks (if final then p.tail.tail else p.tail)
  let c ← cp.head?
  return (.section name :: marks final, if c = 0 then none else some .sectionSyntax)

def valueLine (tag mem : Octets) : Option Answer := do
  let value ← skipOverBlanks mem
  let c ← value.head?
  if c = 0x22 then
    return relation tag (← parseQuotedString value.tail)
  if c = 0 then return subsection tree tag
  -- read for every other `c`: `strlen` goes as far
  let rest ← skipOverBlanks value.tail
  if c = 0x7b ∧ rest.head? = some 0 then return subsection tree tag
  return relation tag ((← string value).rdropWhile isspace)

def relationLine (mem : Octets) : Option Answer := do
  let (tag, cp) ← strchr 0x3d mem
  if (← cp.head?) = 0 then return ([], some .relationSyntax)
  if (tag.dropWhile (· ≠ 0x20)).all isspace then
    valueLine tree (tag.takeWhile (· ≠ 0x20)) cp.tail
  else return ([], some .relationSyntax)

/-- `parse_std_line`, with the answers of the tree and the depth of the current section. -/
def parseStdLine (level : Nat) (mem : Octets) : Option Answer := do
  if (← mem.head?) ∈ [0, 0x3b, 0x23] then return ([], none)
  let cp ← skipOverBlanks (← stripLine mem)
  let ch ← cp.head?
  if ch = 0 then return ([], none)
  if ch = 0x5b then
    if level > 0 then return ([], some .sectionNotop)
    sectionLine tree cp.tail
  else if ch = 0x7d then
    if level = 0 then return ([], some .extraCbrace)
    return (marks ((← cp.tail.head?) = 0x2a) ++ [.parent], tree .parent)
  else relationLine tree cp

end Parse

/-! ## Where a line is left -/

/-- What stands behind the quote with which the value of a relation begins: the name of the tag,
blanks behind it, `=`, blanks and the quote. -/
def quotedPart (line : Octets) : Option Octets :=
  let text := line.dropWhile isspace
  let tag := text.takeWhile (· ≠ 0x3d)
  let value := (text.dropWhile (· ≠ 0x3d)).tail.dropWhile isspace
  if line.head? ≠ some 0x3b ∧ line.head? ≠ some 0x23 ∧
      text.head? ≠ some 0x5b ∧ text.head? ≠ some 0x7d ∧
      (tag.dropWhile (· ≠ 0x20)).all isspace ∧ value.head? = some 0x22 then
    some value.tail
  else none

/-- A text in which no quote ends the string, and whose last character is a backslash that asks for
another one. -/
inductive Unclosed : Octets → Prop
  | last : Unclosed [0x5c]
  | escaped (e : UInt8) {s : Octets} : Unclosed s → Unclosed (0x5c :: e :: s)
  | plain {c : UInt8} {s : Octets} : c ≠ 0x22 → c ≠ 0x5c → Unclosed s → Unclosed (c :: s)

section Inside

variable {d : Nat} {s : Octets}

theorem scan_append {p : UInt8 → Bool} (hp : p 0 = false) (s more : Octets) :
    scan p (s ++ 0 :: more) = some (s.takeWhile p, s.dropWhile p ++ 0 :: more) := by
  induction s with
  | nil => simp [scan, hp]
  | cons c s ih =>
    rw [cons_append, scan, ih, takeWhile_cons, dropWhile_cons]
    split <;> rfl

theorem skipOverBlanks_append (s more : Octets) :
    skipOverBlanks (s ++ 0 :: more) = some (s.dropWhile isspace ++ 0 :: more) := by
  have hblank : (fun c : UInt8 => c ≠ 0 && isspace c) = isspace := by
    funext c
    by_cases h : c = 0 <;> simp [h, isspace]
  rw [skipOverBlanks, scan_append rfl, hblank]
  rfl

theorem string_append (s more : Octets) : string (s ++ 0 :: more) = some (cstring s) := by
  rw [string, scan_append rfl]; rfl

/-- In a string without NUL, `strchr` looks for the character alone. -/
theorem strchr_append (ch : UInt8) (more : Octets) (h : 0 ∉ s) :
    strchr ch (s ++ 0 :: more) =
      some (s.takeWhile (· ≠ ch), s.dropWhile (· ≠ ch) ++ 0 :: more) := by
  induction s with
  | nil => simp [strchr, scan]
  | cons c s ih =>
    obtain ⟨hc, hs⟩ := not_or.mp (mt mem_cons.mpr h)
    have ih := ih hs
    rw [strchr] at ih
    rw [cons_append, strchr, scan, ih, takeWhile_cons, dropWhile_cons]
    have hc : c ≠ 0 := Ne.symm hc
    by_cases hch : c = ch <;> simp [hc, hch]

/-- A quoted string is left exactly if it is unclosed and no second NUL stands behind it. -/
theorem isSome_unquote_iff (h : 0 ∉ s) :
    (unquote (s ++ 0 :: replicate d 0)).isSome ↔ ¬(d = 0 ∧ Unclosed s) := by
  induction s using List.twoStepInduction with
  | nil =>
    have hnot : ¬Unclosed [] := nofun
    cases d <;> simp [unquote, replicate_succ, hnot]
  | singleton c =>
    have hc : c ≠ 0 := by simpa [eq_comm] using h
    have hnot : ¬Unclosed [] := nofun
    have hiff : Unclosed [c] ↔ c = 0x5c := by
      refine ⟨?_, fun hc => hc ▸ .last⟩
      rintro (_ | _ | ⟨-, -, hnil⟩)
      · rfl
      · exact absurd hnil hnot
    rw [singleton_append, unquote, hiff]
    rcases d with _ | _ | d <;> simp [unquote, replicate_succ, hc] <;> grind
  | cons_cons c e l ih ih' =>
    simp only [mem_cons, not_or] at h
    obtain ⟨hc, he, hl⟩ := h
    rw [cons_append, cons_append, unquote]
    by_cases hquote : c = 0x22
    · subst hquote
      have hnot : ¬Unclosed (0x22 :: e :: l) := by
        rintro (_ | _ | ⟨hne, -, -⟩)
        exact hne rfl
      simp [hnot]
    rw [if_neg (by simp [Ne.symm hc, hquote])]
    by_cases hback : c = 0x5c
    · subst hback
      have hiff : Unclosed (0x5c :: e :: l) ↔ Unclosed l := by
        refine ⟨fun hopen => ?_, .escaped e⟩
        cases hopen with
        | escaped _ hrest => exact hrest
        | plain _ hne _ => exact absurd rfl hne
      rw [if_pos rfl, Option.isSome_map, ih hl, hiff]
    · have hiff : Unclosed (c :: e :: l) ↔ Unclosed (e :: l) := by
        refine ⟨fun hopen => ?_, .plain hquote hback⟩
        cases hopen with
        | escaped => exact absurd rfl hback
        | plain _ _ hrest => exact hrest
      rw [if_neg hback, Option.isSome_map, ← cons_append, ih' e (by simp [he, hl]), hiff]

theorem length_of_unquote {mem v : Octets} (h : unquote mem = some v) : v.length < mem.length := by
  fun_induction unquote mem generalizing v <;> grind [Option.map_eq_some_iff]

/-- What is written is shorter than what is read, so `parse_quoted_string` stays in the line where
its reading does. -/
theorem isSome_parseQuotedString (mem : Octets) :
    (parseQuotedString mem).isSome = (unquote mem).isSome := by
  cases h : unquote mem with
  | none => simp [parseQuotedString, h]
  | some v => simp [parseQuotedString, h, length_of_unquote h]

variable (tree : Call → Option ErrCode)

theorem isSome_sectionLine (more : Octets) (h : 0 ∉ s) :
    (sectionLine tree (s ++ 0 :: more)).isSome := by
  have hp := strchr_append 0x5d more h
  generalize s.dropWhile (· ≠ 0x5d) = p at hp
  rcases p with _ | ⟨c, _ | ⟨e, p⟩⟩
  · simp [sectionLine, hp]
  · simp [sectionLine, hp]
    grind [skipOverBlanks, scan, isspace]
  · have hcp := skipOverBlanks_append (if e = 0x2a then p else e :: p) more
    simp [sectionLine, hp]
    grind

/-- Of a value only a quoted one can be left. -/
theorem isSome_valueLine_iff (h : 0 ∉ s) (tag : Octets) :
    (valueLine tree tag (s ++ 0 :: replicate d 0)).isSome ↔
      ¬(d = 0 ∧ (s.dropWhile isspace).head? = some 0x22 ∧ Unclosed (s.dropWhile isspace).tail) := by
  have hskip := skipOverBlanks_append s (replicate d 0)
  have hvalue : 0 ∉ s.dropWhile isspace := fun hmem => h ((dropWhile_suffix _).mem hmem)
  generalize s.dropWhile isspace = value at hskip hvalue
  cases value with
  | nil => simp [valueLine, hskip]
  | cons c value =>
    have hquoted := @isSome_unquote_iff d value fun hmem => hvalue (mem_cons_of_mem c hmem)
    have hrest := skipOverBlanks_append value (replicate d 0)
    have htext := string_append (c :: value) (replicate d 0)
    by_cases hc : c = 0x22
    · simp [valueLine, hskip, hc, ← hquoted, ← isSome_parseQuotedString]
      cases parseQuotedString (value ++ 0 :: replicate d 0) <;> rfl
    · simp [valueLine, hskip, hc]
      grind

theorem stripLine_append {line : Octets} (hline : 0 ∉ line) :
    stripLine (line ++ [0]) = some (line.rdropWhile isEnd ++
      0 :: replicate (line.length - (line.rdropWhile isEnd).length) 0) := by
  rw [stripLine, string_append, cstring_eq_self hline]
  simp [← replicate_succ', replicate_succ]

theorem getLast?_of_unclosed (h : Unclosed s) : s.getLast? = some 0x5c := by
  induction h with
  | last => rfl
  | escaped e _ ih => rw [getLast?_cons_cons, getLast?_cons, ih]; rfl
  | plain _ _ _ ih => rw [getLast?_cons, ih]; rfl

/-- A relation is left if its value is, and nothing but blanks is between its tag and `=`. -/
theorem isSome_relationLine_iff (h : 0 ∉ s) :
    (relationLine tree (s ++ 0 :: replicate d 0)).isSome ↔
      ¬(d = 0 ∧ ((s.takeWhile (· ≠ 0x3d)).dropWhile (· ≠ 0x20)).all isspace ∧
        ((s.dropWhile (· ≠ 0x3d)).tail.dropWhile isspace).head? = some 0x22 ∧
        Unclosed ((s.dropWhile (· ≠ 0x3d)).tail.dropWhile isspace).tail) := by
  have hmem := strchr_append 0x3d (replicate d 0) h
  have hcp : 0 ∉ s.dropWhile (· ≠ 0x3d) := fun hmem => h ((dropWhile_suffix _).mem hmem)
  generalize s.dropWhile (· ≠ 0x3d) = cp at hmem hcp
  generalize s.takeWhile (· ≠ 0x3d) = tag at hmem
  cases cp with
  | nil => simp [relationLine, hmem]
  | cons c cp =>
    obtain ⟨hc, hcp⟩ := not_or.mp (mt mem_cons.mpr hcp)
    have hvalue := @isSome_valueLine_iff d cp tree hcp
    simp [relationLine, hmem, Ne.symm hc]
    split <;> grind

theorem suffix_of_quotedPart {line q : Octets} (h : quotedPart line = some q) : q <:+ line := by
  simp only [quotedPart] at h
  split at h
  · cases h
    refine (tail_suffix _).trans ((dropWhile_suffix _).trans ?_)
    exact (tail_suffix _).trans ((dropWhile_suffix _).trans (dropWhile_suffix _))
  · cases h

/-- What is left of a line behind the stripping, which leaves as many NULs behind it as it has
taken characters off. -/
theorem isSome_parseStdLine_iff (level : Nat) {mem : Octets} {c : UInt8}
    (hhead : mem.head? = some c) (hc : c ∉ [0, 0x3b, 0x23])
    (hstrip : stripLine mem = some (s ++ 0 :: replicate d 0)) (h : 0 ∉ s)
    (hfirst : s.head? = some c ∨ d ≠ 0) :
    (parseStdLine tree level mem).isSome ↔
      (d = 0 → ∀ q, quotedPart s = some q → ¬Unclosed q) := by
  have hskip := skipOverBlanks_append s (replicate d 0)
  have htext : 0 ∉ s.dropWhile isspace := fun hmem => h ((dropWhile_suffix _).mem hmem)
  have hrelation := @isSome_relationLine_iff d _ tree htext
  simp only [quotedPart]
  generalize s.dropWhile isspace = text at *
  cases text with
  | nil => simp [parseStdLine, hhead, hstrip, hskip]
  | cons ch rest =>
    have hsection := isSome_sectionLine tree (replicate d 0) fun hmem => htext (mem_cons_of_mem ch hmem)
    by_cases hopen : ch = 0x5b
    · simp [parseStdLine, hhead, hstrip, hskip, hopen]
      grind
    by_cases hclose : ch = 0x7d
    · simp [parseStdLine, hhead, hstrip, hskip, hclose]
      grind
    have hch : ch ≠ 0 := fun hzero => htext (hzero ▸ mem_cons_self)
    have hparse : parseStdLine tree level mem =
        relationLine tree (ch :: rest ++ 0 :: replicate d 0) := by
      simp [parseStdLine, hhead, hstrip, hskip, hopen, hclose, hch]
      exact fun hcomment => absurd (by simpa using hcomment) hc
    rw [hparse, hrelation, not_and]
    refine imp_congr_right fun hzero => ?_
    have hfirst := hfirst.resolve_right (not_not_intro hzero)
    simp only [mem_cons, not_mem_nil, or_false, not_or] at hc
    simp [hfirst, hc, hopen, hclose]

/-- A line stays inside exactly if it is no relation with an unclosed value. -/
theorem parseStdLine_inside (level : Nat) {line : Octets} (hline : 0 ∉ line) :
    (parseStdLine tree level (line ++ [0])).isSome ↔
      ∀ q, quotedPart line = some q → ¬Unclosed q := by
  cases line with
  | nil => simp [parseStdLine, quotedPart]
  | cons c rest =>
    by_cases hcomment : c = 0x3b ∨ c = 0x23
    · rcases hcomment with rfl | rfl <;> simp [parseStdLine, quotedPart]
    have hc : c ∉ [0, 0x3b, 0x23] := by
      simp only [mem_cons, not_or] at hline
      simp [not_or.mp hcomment, Ne.symm hline.1]
    have hfront := rdropWhile_prefix isEnd (c :: rest)
    have hstrip := stripLine_append hline
    have hs : 0 ∉ (c :: rest).rdropWhile isEnd := fun hmem => hline (hfront.subset hmem)
    by_cases hzero : (c :: rest).length - ((c :: rest).rdropWhile isEnd).length = 0
    · have hsame := hfront.eq_of_length_le (Nat.sub_eq_zero_iff_le.mp hzero)
      rw [isSome_parseStdLine_iff tree level rfl hc hstrip hs (.inl (by rw [hsame]; rfl)), hsame]
      simp
    · -- an end of line was stripped, so the last character is no backslash
      rw [isSome_parseStdLine_iff tree level rfl hc hstrip hs (.inr hzero)]
      refine iff_of_true (fun h => absurd h hzero) fun q hq hopen => hzero ?_
      obtain ⟨front, hline⟩ := suffix_of_quotedPart hq
      have hlast : (c :: rest).getLast? = some 0x5c := by
        rw [← hline, getLast?_append, getLast?_of_unclosed hopen]
        rfl
      have hsame : (c :: rest).rdropWhile isEnd = c :: rest := by
        refine rdropWhile_eq_self_iff.mpr fun hne => ?_
        rw [getLast_of_getLast?_eq_some hlast]
        decide
      rw [hsame, Nat.sub_self]

end Inside

/-- An escape and a value that is quoted up to the end, and a backslash that is not quoted. -/
theorem parseStdLine_inside_quoted :
    (parseStdLine (fun _ => none) 0 (ascii "a = \"\\n" ++ [0])).isSome ∧
      (parseStdLine (fun _ => none) 0 (ascii "a=b\\" ++ [0])).isSome := by
  refine ⟨(parseStdLine_inside _ 0 (by decide +kernel)).mpr fun q hq hopen => ?_,
    (parseStdLine_inside _ 0 (by decide +kernel)).mpr fun q hq => ?_⟩
  · have hq' : quotedPart (ascii "a = \"\\n") = some (ascii "\\n") := by decide +kernel
    cases hq'.symm.trans hq
    exact absurd (getLast?_of_unclosed hopen) (by decide +kernel)
  · have hnone : quotedPart (ascii "a=b\\") = none := by decide +kernel
    cases hnone.symm.trans hq

/-- The last backslash hides the NUL. -/
theorem parseStdLine_outside :
    parseStdLine (fun _ => none) 0 (ascii "a=\"\\" ++ [0]) = none := by
  decide +kernel

end Krb5.Profile
