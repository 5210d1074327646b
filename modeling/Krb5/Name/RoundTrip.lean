import Krb5.Name.Text

/-!
# A name read back

The three passes of `krb5_parse_name` agree on what `krb5_unparse_name` has written,
whatever the octets of the components and of the realm are and however many components
there are.
-/

namespace Krb5.Name

open Lib List Pass1

variable {p : Principal} {key s : Octets}

/-! ## Quoted characters -/

/-- A character is written behind a quote, and counted twice, or stands for itself and is
not one that has a meaning. -/
theorem quote_cases (c : UInt8) :
    (countedTwice c ∧ ∃ k, quote c = [quotechar, k] ∧ k ≠ 0 ∧ unquote k = c) ∨
    (countedTwice c = false ∧ quote c = [c] ∧ c ≠ quotechar ∧ c ≠ componentSep ∧ c ≠ realmSep ∧
      c ≠ 0) := by
  by_cases hself : c = componentSep ∨ c = realmSep ∨ c = quotechar
  · left
    have hquote : quote c = [quotechar, c] := if_pos hself
    refine ⟨?_, c, hquote, ?_⟩
    · rcases hself with rfl | rfl | rfl <;> rfl
    · rcases hself with rfl | rfl | rfl <;> decide
  · by_cases hcode : c = 9 ∨ c = 10 ∨ c = 8 ∨ c = 0
    · left
      rcases hcode with rfl | rfl | rfl | rfl
      · exact ⟨rfl, 0x74, rfl, by decide⟩
      · exact ⟨rfl, 0x6e, rfl, by decide⟩
      · exact ⟨rfl, 0x62, rfl, by decide⟩
      · exact ⟨rfl, 0x30, rfl, by decide⟩
    · simp only [not_or] at hself hcode
      simp [countedTwice, quote, *]

theorem length_quote (c : UInt8) :
    (quote c).length = 1 + if countedTwice c = true then 1 else 0 := by
  rcases quote_cases c with ⟨htwice, k, hquote, -⟩ | ⟨honce, hquote, -⟩
  · rw [hquote, htwice]
    rfl
  · rw [hquote, honce]
    rfl

theorem length_quoted (s : Octets) :
    (s.flatMap quote).length = s.length + s.countP countedTwice := by
  induction s with
  | nil => rfl
  | cons c s ih =>
    rw [flatMap_cons, length_append, length_quote, length_cons, countP_cons]
    omega

theorem quoted_ne_zero : ∀ c ∈ s.flatMap quote, c ≠ 0 := by
  intro c hc
  obtain ⟨d, -, hd⟩ := mem_flatMap.mp hc
  rcases quote_cases d with ⟨-, k, hquote, hk, -⟩ | ⟨-, hquote, -, -, -, hzero⟩
  · rw [hquote] at hd
    rcases mem_cons.mp hd with rfl | hd
    · decide
    · rw [mem_singleton.mp hd]
      exact hk
  · rw [hquote] at hd
    rw [mem_singleton.mp hd]
    exact hzero

theorem quoted_ne_nil (h : s ≠ []) : s.flatMap quote ≠ [] := by
  intro hnil
  have hlen := length_quoted s
  rw [hnil] at hlen
  exact h (eq_nil_of_length_eq_zero (by simp at hlen; omega))

/-- A pass that treats what is quoted, and what has no meaning, as a character. -/
structure Scans {σ : Type} (pass : Octets → σ → Except Code σ) (put : σ → UInt8 → σ) : Prop where
  quoted : ∀ k rest st, pass (quotechar :: k :: rest) st = pass rest (put st (unquote k))
  plain : ∀ {c} rest st, c ≠ quotechar → c ≠ componentSep → c ≠ realmSep →
    pass (c :: rest) st = pass rest (put st c)

theorem Scans.string {σ : Type} {pass : Octets → σ → Except Code σ} {put : σ → UInt8 → σ}
    (h : Scans pass put) (s rest : Octets) (st : σ) :
    pass (s.flatMap quote ++ rest) st = pass rest (s.foldl put st) := by
  induction s generalizing st with
  | nil => rfl
  | cons c s ih =>
    rw [flatMap_cons, foldl_cons, ← ih]
    rcases quote_cases c with ⟨-, k, hquote, -, hcode⟩ | ⟨-, hquote, hq, hcomp, hrealm, -⟩
    · rw [hquote]
      show pass (quotechar :: k :: (s.flatMap quote ++ rest)) st = _
      rw [h.quoted, hcode]
    · rw [hquote]
      exact h.plain _ st hq hcomp hrealm

/-! ## The passes over a written name -/

def tailText (ds : List Octets) : Octets := ds.flatMap fun d => componentSep :: d.flatMap quote

theorem tailText_cons (d : Octets) (ds : List Octets) (rest : Octets) :
    tailText (d :: ds) ++ rest = componentSep :: (d.flatMap quote ++ (tailText ds ++ rest)) := by
  simp [tailText]

theorem scans_pass1 : Scans pass1 fun st _ => { st with size := st.size + 1 } where
  quoted k rest st := by rw [pass1, if_pos rfl]
  plain rest st hq hcomp hrealm := by
    rw [pass1.eq_def]
    dsimp only
    rw [if_neg hq, if_neg hcomp, if_neg hrealm]

theorem pass1_string (s rest : Octets) (st : Pass1) :
    pass1 (s.flatMap quote ++ rest) st = pass1 rest { st with size := st.size + s.length } := by
  rw [scans_pass1.string]
  congr 1
  induction s generalizing st with
  | nil => rfl
  | cons c s ih =>
    rw [foldl_cons, ih, length_cons]
    simp only [mk.injEq, true_and, and_true]
    omega

/-- On its way through a component `d`, behind those of `before`. -/
def Pass1.within (before : List Octets) (d : Octets) : Pass1 :=
  ⟨before.length, d.length, (before.map List.length).take fcompnum, false⟩

theorem Pass1.record_within (before : List Octets) (d : Octets) :
    (Pass1.within before d).record = ((before ++ [d]).map List.length).take fcompnum := by
  rw [record, Pass1.within]
  simp only [map_append, map_cons, map_nil, take_append, length_map]
  split
  · have hroom : 0 < fcompnum - before.length := by omega
    rw [take_of_length_le (l := [d.length]) hroom]
  · have hfull : fcompnum - before.length = 0 := by omega
    rw [hfull, take_zero, append_nil]

/-- The variables of the first pass with the components of `before` behind it and `q` read of the
next string, which may be the realm. -/
def Pass1.reached (before : List Octets) (q : Octets) (realm : Bool) : Pass1 :=
  { Pass1.within before q with i := before.length - realm.toNat, parsedRealm := realm }

/-- Those of the second one. -/
def Pass2.reached (before : List Octets) (q : Octets) (realm : Bool) : Pass2 :=
  ⟨before.length - realm.toNat, q.length, before.map List.length, realm⟩

/-- What the first pass accepts, the second counts in the same way and the third copies. -/
theorem passes_agree {name : Octets} {l : List Octets} {q : Octets} {r : Bool} {st : Pass1}
    (h : pass1 name (.reached l q r) = .ok st) (hne : r = true → l ≠ []) :
    ∃ l' q' r', (r' = true → l' ≠ []) ∧ st = .reached l' q' r' ∧
      pass2 name (.reached l q r) = .ok (.reached l' q' r') ∧
      pass3 name (l.map (· ++ [0]), q) = .ok (l'.map (· ++ [0]), q') := by
  generalize hst : Pass1.reached l q r = st₀ at h
  fun_induction pass1 name st₀ generalizing l q r with
  | case1 =>
    cases h
    exact ⟨l, q, r, hne, hst.symm, rfl, rfl⟩
  | case2 | case4 | case6 => cases h
  | case3 st k rest ih =>
    subst hst
    have hnext := ih (q := q ++ [unquote k]) hne (by simp [Pass1.reached, Pass1.within]) h
    rw [pass2, pass3, if_pos rfl, if_pos rfl]
    simp only [Pass2.reached, length_append] at hnext
    exact hnext
  | case5 rest st hown hq ih =>
    subst hst
    obtain rfl : r = false := Bool.eq_false_iff.mpr hown
    have hnext := ih (l := l ++ [q]) (q := []) (r := false) nofun
      (by rw [Pass1.reached, Pass1.within, ← record_within]; simp [Pass1.reached, Pass1.within]) h
    rw [pass2.eq_def, pass3.eq_def]
    dsimp only
    rw [if_neg hq, if_pos rfl, if_neg hq, if_pos (.inl rfl)]
    simp only [Pass2.reached, length_append, map_append] at hnext
    exact hnext
  | case7 rest st hown hq hc ih =>
    subst hst
    obtain rfl : r = false := Bool.eq_false_iff.mpr (not_or.mp hown).1
    have hnext := ih (l := l ++ [q]) (q := []) (r := true) (fun _ => by simp)
      (by rw [Pass1.reached, Pass1.within, ← record_within]; simp [Pass1.reached, Pass1.within]) h
    rw [pass2.eq_def, pass3.eq_def]
    dsimp only
    rw [if_neg hq, if_neg hc, if_pos rfl, if_neg hq, if_pos (.inr rfl)]
    simp only [Pass2.reached, length_append, map_append] at hnext
    exact hnext
  | case8 c rest st hq hc hr ih =>
    subst hst
    have hnext := ih (q := q ++ [c]) hne (by simp [Pass1.reached, Pass1.within]) h
    rw [pass2.eq_def, pass3.eq_def]
    dsimp only
    rw [if_neg hq, if_neg hc, if_neg hr, if_neg hq, if_neg (not_or.mpr ⟨hc, hr⟩)]
    simp only [Pass2.reached, length_append] at hnext
    exact hnext

theorem pass1_components (ds : List Octets) (rest : Octets) {t : Pass1}
    (ht : t.parsedRealm = false) :
    ∃ t', t'.parsedRealm = false ∧ pass1 (tailText ds ++ rest) t = pass1 rest t' := by
  induction ds generalizing t with
  | nil => exact ⟨t, ht, rfl⟩
  | cons d ds ih =>
    have hsep : componentSep ≠ quotechar := by decide
    rw [tailText_cons, pass1.eq_def]
    dsimp only
    rw [if_neg hsep, if_pos rfl, if_neg (by simp [ht]), pass1_string]
    exact ih ht

theorem scans_pass3 : Scans pass3 fun st c => (st.1, st.2 ++ [c]) where
  quoted k rest st := by rw [pass3, if_pos rfl]
  plain rest st hq hcomp hrealm := by
    rw [pass3.eq_def]
    dsimp only
    rw [if_neg hq, if_neg (not_or.mpr ⟨hcomp, hrealm⟩)]

theorem pass3_string (s rest : Octets) (filled : List Octets) (q : Octets) :
    pass3 (s.flatMap quote ++ rest) (filled, q) = pass3 rest (filled, q ++ s) := by
  rw [scans_pass3.string]
  induction s generalizing q with
  | nil => rw [append_nil]; rfl
  | cons c s ih =>
    rw [foldl_cons, ih, append_assoc]
    rfl

theorem pass3_tail (realm : Octets) (ds before : List Octets) (d : Octets) :
    pass3 (tailText ds ++ realmSep :: realm.flatMap quote) (before.map (· ++ [0]), d) =
      .ok ((before ++ d :: ds).map (· ++ [0]), realm) := by
  induction ds generalizing before d with
  | nil =>
    have hsep : realmSep ≠ quotechar := by decide
    show pass3 (realmSep :: realm.flatMap quote) _ = _
    rw [pass3.eq_def]
    dsimp only
    rw [if_neg hsep, if_pos (.inr rfl)]
    have hstr := pass3_string realm [] (before.map (· ++ [0]) ++ [d ++ [0]]) []
    rw [append_nil, pass3, nil_append] at hstr
    rw [hstr, map_append, map_cons, map_nil]
  | cons d' ds ih =>
    rw [tailText_cons, pass3.eq_def]
    dsimp only
    rw [pass3_string]
    have hnext := ih (before ++ [d]) d'
    rw [map_append, append_assoc] at hnext
    exact hnext

/-! ## The whole text -/

variable (defaultRealm : Except Code Octets) (d : Octets) (ds : List Octets) (realm : Octets)

def nameText : Octets :=
  d.flatMap quote ++ (tailText ds ++ realmSep :: realm.flatMap quote)

theorem components_dropLast :
    ((d :: ds).flatMap fun d => d.flatMap quote ++ [componentSep]).dropLast =
      d.flatMap quote ++ tailText ds := by
  induction ds generalizing d with
  | nil => simp [tailText]
  | cons d' ds ih =>
    have hne : ((d' :: ds).flatMap fun d => d.flatMap quote ++ [componentSep]) ≠ [] := by simp
    rw [flatMap_cons, dropLast_append_of_ne_nil hne, ih d']
    simp [tailText]

theorem length_nameText (type : Int32) :
    (nameText d ds realm ++ [0]).length = totalsize ⟨realm, d :: ds, type⟩ := by
  have htail : (tailText ds).length = (ds.map roomFor).sum := by
    induction ds with
    | nil => rfl
    | cons d' ds ih =>
      have hcons := congrArg List.length (tailText_cons d' ds [])
      rw [append_nil, append_nil] at hcons
      rw [hcons, length_cons, length_append, length_quoted, map_cons, sum_cons, roomFor]
      omega
  simp only [nameText, totalsize, length_append, length_cons, length_nil, length_quoted, map_cons,
    sum_cons, roomFor]
  omega

theorem unparseName_eq (type : Int32) :
    unparseName ⟨realm, d :: ds, type⟩ = .ok (nameText d ds realm ++ [0]) := by
  have hne : ((d :: ds).flatMap fun d => d.flatMap quote ++ [componentSep]) ≠ [] := by simp
  have hname : ((d :: ds).flatMap fun d => d.flatMap quote ++ [componentSep]).dropLast ++
      realmSep :: realm.flatMap quote ++ [0] = nameText d ds realm ++ [0] := by
    rw [components_dropLast]
    simp [nameText]
  rw [unparseName, unparseNameExt]
  simp only [if_neg hne, hname]
  rw [if_pos (Nat.le_of_eq (length_nameText d ds realm type))]

theorem nul_notMem_nameText : (0 : UInt8) ∉ nameText d ds realm := by
  intro hc
  rcases mem_append.mp hc with hc | hc
  · exact quoted_ne_zero 0 hc rfl
  rcases mem_append.mp hc with hc | hc
  · obtain ⟨d', -, hc⟩ := mem_flatMap.mp hc
    exact quoted_ne_zero 0 ((mem_cons.mp hc).resolve_left (by decide)) rfl
  · exact quoted_ne_zero 0 ((mem_cons.mp hc).resolve_left (by decide)) rfl

theorem cstring_nameText : cstring (nameText d ds realm ++ [0]) = nameText d ds realm :=
  cstring_snoc_nul (nul_notMem_nameText d ds realm)

theorem contentsOf_filled (s : Octets) : contentsOf s.length (s ++ [0]) = .ok s := by
  rw [contentsOf, if_pos (by simp), take_left]

theorem contentsOfAll_filled :
    contentsOfAll (ds.map List.length) (ds.map (· ++ [0])) = .ok ds := by
  induction ds with
  | nil => rfl
  | cons d ds ih =>
    rw [map_cons, map_cons, contentsOfAll, contentsOf_filled, ih]
    rfl

/-- The lengths of the second pass are those of the components. -/
theorem componentLengths_reached {name q : Octets} {before : List Octets} {realm : Bool}
    (hpass2 : pass2 name ⟨0, 0, [], false⟩ = .ok (.reached before q realm))
    (hne : realm = true → before ≠ []) :
    componentLengths name (.reached before q realm) =
      .ok ((if realm then before else before ++ [q]).map List.length) := by
  rw [componentLengths]
  split
  · rw [hpass2, ok_bind, if_neg (· rfl)]
    cases realm with
    | false => simp [Pass2.reached, pure, Except.pure]
    | true => rfl
  · rename_i hfew
    cases realm with
    | false =>
      show Except.ok (Pass1.within before q).record = _
      rw [record_within, take_of_length_le]
      · rfl
      · simp [Pass1.reached] at hfew
        simp
        omega
    | true =>
      have hpos := length_pos_of_ne_nil (hne rfl)
      show Except.ok ((before.map List.length).take fcompnum) = _
      rw [take_of_length_le]
      · rfl
      · simp [Pass1.reached] at hfew
        rw [length_map]
        omega

/-- A name is read back from its quoted text. -/
theorem parseName_nameText {realm : Octets} (hrealm : realm ≠ []) :
    parseName defaultRealm (nameText d ds realm ++ [0]) = .ok ⟨realm, d :: ds, ntPrincipal⟩ := by
  obtain ⟨st, hst, htail⟩ := pass1_components ds (realmSep :: realm.flatMap quote)
    (t := ⟨0, 0 + d.length, [], false⟩) rfl
  have hpass1 : pass1 (nameText d ds realm) ⟨0, 0, [], false⟩ =
      .ok ⟨st.i, 0 + realm.length, st.record, true⟩ := by
    have hsep : realmSep ≠ quotechar ∧ realmSep ≠ componentSep := by decide
    have hstr := pass1_string realm [] ⟨st.i, 0, st.record, true⟩
    rw [append_nil] at hstr
    rw [nameText, pass1_string, htail, pass1.eq_def]
    dsimp only
    rw [if_neg hsep.1, if_neg hsep.2, if_pos rfl, if_neg (by simp [hst, quoted_ne_nil hrealm]), hstr]
    rfl
  have hpass3 : pass3 (nameText d ds realm) ([], []) = .ok ((d :: ds).map (· ++ [0]), realm) := by
    rw [nameText, pass3_string]
    exact pass3_tail realm ds [] d
  obtain ⟨before, q, own, hne, hst', hpass2, hcopy⟩ :=
    passes_agree (l := []) (q := []) (r := false) hpass1 nofun
  obtain rfl : true = own := congrArg parsedRealm hst'
  have hsame := hpass3.symm.trans hcopy
  rw [Except.ok.injEq, Prod.mk.injEq] at hsame
  obtain ⟨hbefore, rfl⟩ := hsame
  obtain rfl := map_injective_iff.mpr (append_left_injective [0]) hbefore
  rw [parseName]
  simp only [cstring_nameText, hpass1, hst', ok_bind, componentLengths_reached hpass2 hne, hpass3]
  show (contentsOf realm.length (realm ++ [0]) >>= fun r =>
    contentsOfAll ((d :: ds).map List.length) ((d :: ds).map (· ++ [0])) >>= fun data =>
      Except.ok (Principal.mk r data ntPrincipal)) = _
  rw [contentsOf_filled, contentsOfAll_filled]
  rfl

theorem parseName_no_realm :
    parseName defaultRealm (nameText d ds [] ++ [0]) = .error .parseMalformed := by
  obtain ⟨st, hst, htail⟩ := pass1_components ds [realmSep] (t := ⟨0, 0 + d.length, [], false⟩) rfl
  have hpass1 : pass1 (nameText d ds []) ⟨0, 0, [], false⟩ = .error .parseMalformed := by
    rw [nameText, pass1_string]
    exact htail.trans (by simp [pass1, realmSep, quotechar, componentSep])
  rw [parseName, cstring_nameText, hpass1]
  rfl

theorem encodePrincDbkey_eq (type : Int32) :
    encodePrincDbkey ⟨realm, d :: ds, type⟩ = .ok (nameText d ds realm ++ [0]) := by
  rw [encodePrincDbkey, unparseName_eq, Except.map, cstring_nameText, take_of_length_le]
  rw [length_append]
  rfl

theorem encodePrincDbkey_ok (h : encodePrincDbkey p = .ok key) :
    ∃ d ds, p.data = d :: ds ∧ key = nameText d ds p.realm ++ [0] := by
  obtain ⟨realm, data, type⟩ := p
  cases data with
  | nil => cases h
  | cons d ds =>
    rw [encodePrincDbkey_eq, Except.ok.injEq] at h
    exact ⟨d, ds, rfl, h.symm⟩

theorem unparseName_of_dbkey (h : encodePrincDbkey p = .ok key) :
    unparseName p = .ok key := by
  obtain ⟨realm, data, type⟩ := p
  obtain ⟨d, ds, hdata, rfl⟩ := encodePrincDbkey_ok h
  cases hdata
  exact unparseName_eq d ds realm type

theorem parseName_dbkey {defaultRealm : Except Code Octets} {p' : Principal}
    (hkey : encodePrincDbkey p = .ok key) (hparse : parseName defaultRealm key = .ok p') :
    p.realm ≠ [] ∧ p' = { p with type := ntPrincipal } ∧ encodePrincDbkey p' = .ok key := by
  obtain ⟨realm, data, type⟩ := p
  obtain ⟨d, ds, hdata, rfl⟩ := encodePrincDbkey_ok hkey
  cases hdata
  by_cases hrealm : realm = []
  · subst hrealm
    rw [parseName_no_realm] at hparse
    cases hparse
  · rw [parseName_nameText defaultRealm d ds hrealm, Except.ok.injEq] at hparse
    subst hparse
    exact ⟨hrealm, rfl, encodePrincDbkey_eq d ds realm _⟩

theorem parseName_of_dbkey (hkey : encodePrincDbkey p = .ok key) (hrealm : p.realm ≠ []) :
    parseName defaultRealm key = .ok { p with type := ntPrincipal } := by
  obtain ⟨realm, data, type⟩ := p
  obtain ⟨d, ds, hdata, rfl⟩ := encodePrincDbkey_ok hkey
  cases hdata
  exact parseName_nameText defaultRealm d ds hrealm

/-- A name that is written is read back, with components and realm of any octets; so two
names have the same text, or the same key in the database, only if they are the same. -/
theorem parse_unparse :
    (∀ (defaultRealm : Except Code Octets) (p : Principal), p.data ≠ [] → p.realm ≠ [] →
      ∃ name, unparseName p = .ok name ∧
        parseName defaultRealm name = .ok { p with type := ntPrincipal }) ∧
    (∀ p p' : Principal, p.data ≠ [] → p.realm ≠ [] → p'.data ≠ [] → p'.realm ≠ [] →
      unparseName p = unparseName p' ∨ encodePrincDbkey p = encodePrincDbkey p' →
      p.data = p'.data ∧ p.realm = p'.realm) := by
  have hback : ∀ (defaultRealm : Except Code Octets) (p : Principal), p.data ≠ [] →
      p.realm ≠ [] → ∃ name, unparseName p = .ok name ∧ encodePrincDbkey p = .ok name ∧
        parseName defaultRealm name = .ok { p with type := ntPrincipal } := by
    rintro defaultRealm ⟨realm, data, type⟩ hdata hrealm
    obtain ⟨d, ds, rfl⟩ := exists_cons_of_ne_nil hdata
    exact ⟨_, unparseName_eq d ds realm type, encodePrincDbkey_eq d ds realm type,
      parseName_nameText defaultRealm d ds hrealm⟩
  refine ⟨fun defaultRealm p hdata hrealm => ?_, fun p p' hdata hrealm hdata' hrealm' hsame => ?_⟩
  · obtain ⟨name, hunparse, -, hparse⟩ := hback defaultRealm p hdata hrealm
    exact ⟨name, hunparse, hparse⟩
  obtain ⟨name, hunparse, hkey, hparse⟩ := hback (.ok []) p hdata hrealm
  obtain ⟨name', hunparse', hkey', hparse'⟩ := hback (.ok []) p' hdata' hrealm'
  have hname : name = name' := by
    rcases hsame with hsame | hsame
    · rw [hunparse, hunparse', Except.ok.injEq] at hsame
      exact hsame
    · rw [hkey, hkey', Except.ok.injEq] at hsame
      exact hsame
  rw [hname, hparse', Except.ok.injEq, Principal.mk.injEq] at hparse
  exact ⟨hparse.2.1.symm, hparse.1.symm⟩

/-- An empty component, and one of a slash, a zero and a backslash. -/
theorem parse_unparse_odd : ∃ name,
    unparseName ⟨[82], [[], [47, 0, 92]], 0⟩ = .ok name ∧
      parseName (.error .configNodefrealm) name = .ok ⟨[82], [[], [47, 0, 92]], 1⟩ :=
  parse_unparse.1 _ ⟨[82], [[], [47, 0, 92]], 0⟩ (by decide) (by decide)

/-- The passes agree on every string, so that each component and the realm is put into a buffer of
its size; and a name that has a component is written in just the room that was counted for it. -/
theorem names_sized (mem : Octets) (p : Principal) :
    (∀ st, pass1 (cstring mem) ⟨0, 0, [], false⟩ = .ok st →
      ∃ lengths filled q, componentLengths (cstring mem) st = .ok lengths ∧
        pass3 (cstring mem) ([], []) = .ok (filled, q) ∧
        (if st.parsedRealm then filled else filled ++ [q ++ [0]]).map List.length =
          lengths.map (· + 1) ∧
        lengths.length = st.i + 1 ∧ (st.parsedRealm → q.length = st.size)) ∧
    ((∃ name, unparseNameExt p = .ok name ∧ name.length = totalsize p) ↔ p.data ≠ []) := by
  obtain ⟨realm, data, type⟩ := p
  refine ⟨fun st hpass1 => ?_, ?_⟩
  · obtain ⟨before, q, realm, hne, rfl, hpass2, hpass3⟩ :=
      passes_agree (l := []) (q := []) (r := false) hpass1 nofun
    refine ⟨_, _, q, componentLengths_reached hpass2 hne, hpass3, ?_⟩
    cases realm with
    | false => simp [Pass1.reached, Pass1.within]
    | true =>
      have hpos := length_pos_of_ne_nil (hne rfl)
      simp [Pass1.reached, Pass1.within]
      omega
  · cases data with
    | nil => simp [unparseNameExt]
    | cons d ds => simpa using ⟨_, unparseName_eq d ds realm type, length_nameText d ds realm type⟩

/-- With no component the separator that is taken back lies in front of the buffer. -/
theorem unparse_no_components : unparseNameExt ⟨[82], [], 1⟩ = .error .fault := rfl

end Krb5.Name
