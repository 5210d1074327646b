import Krb5.Lib.Checked
import Krb5.Lib.Runs
import Krb5.Transited.Add

/-!
# Which realms a transited field keeps

`addToTransited` works on text; `insertFields` is the same walk on the list of subfields
(`addLoop_join`). A realm is lost when a name is cut inside one of its components: `COM` in front
of `FOOCOM` leaves `COM,FOO`, and `FOO` is not read as `FOOCOM`. `fits` says that the walk makes no
such cut.
-/

namespace Krb5.Transited

open Lib List

/-- A realm name that no separator, quote or terminator breaks. -/
structure Plain (name : Octets) : Prop where
  comma : comma ∉ name
  backslash : backslash ∉ name
  nul : (0 : UInt8) ∉ name

theorem Plain.of_subset {a b : Octets} (h : Plain b) (hsub : a ⊆ b) : Plain a :=
  ⟨fun hc => h.comma (hsub hc), fun hc => h.backslash (hsub hc), fun hc => h.nul (hsub hc)⟩

theorem Plain.append {a b : Octets} (ha : Plain a) (hb : Plain b) : Plain (a ++ b) := by
  constructor <;> simp [ha.comma, hb.comma, ha.backslash, hb.backslash, ha.nul, hb.nul]

theorem plain_nil : Plain [] := by
  constructor <;> simp

theorem plain_blank : Plain [blank] := by
  constructor <;> decide

/-- A subfield as the walk reads it. -/
def IsField (field : Octets) : Prop := field ≠ [] ∧ Plain field

theorem within_eq_ok {length : Nat} {u : Unit} : within length = .ok u ↔ length < maxRealmLn := by
  unfold within
  split <;> simp <;> omega

variable {text new out realm prev current trans sup sub exp atEnd : Octets} {fields done rest : List Octets}
  {below : UInt8} {added : Bool}

/-- What is cut at the commas are fields. -/
theorem readFields_isField {field : Octets} (htext : (0 : UInt8) ∉ text) (hfield : Plain field)
    (h : readFields text field = .ok fields) : ∀ f ∈ fields, IsField f := by
  induction text generalizing field fields with
  | nil =>
    simp only [readFields, Except.ok.injEq] at h
    subst h
    by_cases hne : field = []
    · simp [hne]
    · simp [IsField, hfield]
  | cons c rest ih =>
    have hrest : (0 : UInt8) ∉ rest := fun h0 => htext (mem_cons_of_mem _ h0)
    have hc0 : c ≠ 0 := fun h0 => htext (h0 ▸ mem_cons_self)
    simp only [readFields] at h
    split at h
    · exact ih hrest hfield h
    split at h
    · split at h
      · cases h
        simp
      · rename_i hne
        obtain ⟨fs, hfs, rfl⟩ := map_eq_ok.mp h
        exact forall_mem_cons.mpr ⟨⟨hne, hfield⟩, ih hrest plain_nil hfs⟩
    · split at h
      · cases h
      rename_i hbs hcomma _
      have hc : Plain [c] := by
        constructor <;> simp [Ne.symm hbs, Ne.symm hcomma, Ne.symm hc0]
      exact ih hrest (hfield.append hc) h

theorem readFields_append {piece rest field : Octets} (hplain : Plain piece)
    (hlen : field.length + piece.length < maxRealmLn) :
    readFields (piece ++ rest) field = readFields rest (field ++ piece) := by
  induction piece generalizing field with
  | nil => simp
  | cons c cs ih =>
    have hc := hplain.comma
    have hb := hplain.backslash
    simp only [mem_cons, not_or] at hc hb
    simp only [length_cons] at hlen
    have hcs : Plain cs := hplain.of_subset (subset_cons_self c cs)
    rw [cons_append, readFields, if_neg (Ne.symm hb.1), if_neg (Ne.symm hc.1),
      if_neg (by omega), ih hcs (by simp; omega)]
    simp

theorem readFields_intercalate (hfields : ∀ f ∈ fields, IsField f)
    (hlen : ([comma].intercalate fields).length < maxRealmLn) :
    readFields ([comma].intercalate fields) [] = .ok fields := by
  induction fields with
  | nil => rfl
  | cons f rest ih =>
    obtain ⟨⟨hne, hplain⟩, hrest⟩ := forall_mem_cons.mp hfields
    cases rest with
    | nil =>
      have h := @readFields_append f [] [] hplain (by simpa using hlen)
      simpa [readFields, hne] using h
    | cons g fs =>
      rw [intercalate_cons_cons] at hlen ⊢
      simp only [length_append, length_cons] at hlen
      rw [append_assoc, readFields_append hplain (by omega),
        singleton_append, readFields, if_neg (by decide), if_pos rfl,
        if_neg (by simpa using hne), ih hrest (by omega)]
      rfl

/-! ## The walk on subfields -/

def fieldBehind (prev realm : Octets) : Octets :=
  if subrealm prev realm ≠ 0 then piece (subrealm prev realm) realm
  else if realm.head? = some slash ∧ prev ≠ [] then blank :: realm else realm

/-- The loop on subfields: the list with `realm` in it, or nothing when the
walk finds no place for it. -/
def insertFields (below : UInt8) (realm : Octets) : Octets → List Octets → Option (List Octets)
  | _, [] => none
  | prev, current :: rest =>
    let exp := expansion prev current
    if exp = realm then some (current :: rest)
    else if nextUncompressed below rest ∧ subrealm exp realm ≠ 0 then
      some (current :: piece (subrealm exp realm) realm :: rest)
    else if subrealm realm exp ≠ 0 then
      some (fieldBehind prev realm :: piece (subrealm realm exp) exp :: rest)
    else (insertFields below realm exp rest).map (current :: ·)

def fieldAtEnd (realm : Octets) (fields : List Octets) : Octets :=
  if realm.head? = some slash ∧ fields ≠ [] then blank :: realm else realm

/-- The subfields of the new field; `known` is the initial value of `added`. -/
def newFields (below : UInt8) (realm : Octets) (known : Bool) (fields : List Octets) :
    List Octets :=
  if known then fields
  else (insertFields below realm [] fields).getD (fields ++ [fieldAtEnd realm fields])

theorem intercalate_snoc (sep : Octets) (hne : fields ≠ []) (f : Octets) :
    sep.intercalate (fields ++ [f]) = sep.intercalate fields ++ sep ++ f := by
  induction fields with
  | nil => exact absurd rfl hne
  | cons g rest ih =>
    cases rest with
    | nil => simp
    | cons k fs =>
      simp only [cons_append] at ih ⊢
      simp [ih (by simp)]

theorem intercalate_eq_nil_iff {sep : Octets} (hfields : ∀ f ∈ fields, f ≠ []) :
    sep.intercalate fields = [] ↔ fields = [] := by
  cases fields with
  | nil => simp
  | cons f rest =>
    have hf : f ≠ [] := hfields f mem_cons_self
    cases rest <;> simp [hf]

theorem addComma_eq_ok (h : addComma new = .ok out) :
    out = if new = [] then [] else new ++ [comma] := by
  unfold addComma at h
  split at h
  · rename_i hnew
    cases h
    rw [if_pos hnew, hnew]
  · rename_i hnew
    obtain ⟨_, _, h⟩ := bind_eq_ok.mp h
    cases h
    rw [if_neg hnew]

theorem addBlank_eq_ok (h : addBlank realm new = .ok out) :
    out = if realm.head? = some slash ∧ new ≠ [] then new ++ [blank] else new := by
  unfold addBlank at h
  split at h
  · rename_i hnew
    obtain ⟨_, _, h⟩ := bind_eq_ok.mp h
    cases h
    rw [if_pos hnew]
  · rename_i hnew
    cases h
    rw [if_neg hnew]

theorem addComma_join (hdone : ∀ f ∈ done, f ≠ [])
    (h : addComma ([comma].intercalate done) = .ok new) (text : Octets) :
    new ++ text = [comma].intercalate (done ++ [text]) := by
  rw [addComma_eq_ok h]
  by_cases hd : done = []
  · simp [hd]
  · rw [if_neg (by simpa [intercalate_eq_nil_iff hdone] using hd), intercalate_snoc _ hd]

theorem emit_join (hdone : ∀ f ∈ done, f ≠ [])
    (h : emit ([comma].intercalate done) text = .ok out) :
    out = [comma].intercalate (done ++ [text]) ∧ out.length < maxRealmLn := by
  obtain ⟨new, hnew, h⟩ := bind_eq_ok.mp h
  obtain ⟨_, hlen, h⟩ := bind_eq_ok.mp h
  cases h
  have hlen := within_eq_ok.mp hlen
  exact ⟨addComma_join hdone hnew text, by rw [length_append]; omega⟩

theorem intercalate_pair (done : List Octets) (a b : Octets) :
    [comma].intercalate (done ++ [a ++ comma :: b]) = [comma].intercalate (done ++ [a, b]) := by
  rcases eq_or_ne done [] with rfl | hd
  · simp [intercalate_cons_cons]
  · rw [show done ++ [a, b] = (done ++ [a]) ++ [b] by simp, intercalate_snoc _ hd,
      intercalate_snoc _ (by simp), intercalate_snoc _ hd]
    simp

/-! ## The text is the joined list -/

theorem expandCurrent_eq_ok (h : expandCurrent prev current = .ok exp) :
    exp = expansion prev current := by
  unfold expandCurrent at h
  split at h
  · obtain ⟨_, _, h⟩ := bind_eq_ok.mp h
    cases h
    rfl
  · cases h
    rfl

theorem writeBehind_eq_ok (h : writeBehind prev realm = .ok text) :
    text = fieldBehind prev realm := by
  unfold fieldBehind
  by_cases hpl : subrealm prev realm ≠ 0
  · simp only [writeBehind, if_pos hpl] at h ⊢
    obtain ⟨_, _, h⟩ := bind_eq_ok.mp h
    cases h
    rfl
  · simp only [writeBehind, if_neg hpl] at h ⊢
    obtain ⟨_, _, h⟩ := bind_eq_ok.mp h
    cases h
    split <;> rfl

theorem addLoop_added (hdone : ∀ f ∈ done, f ≠ []) (hfields : ∀ f ∈ fields, f ≠ [])
    (hlen : ([comma].intercalate done).length < maxRealmLn)
    (h : addLoop below realm prev true ([comma].intercalate done) fields = .ok (out, added)) :
    out = [comma].intercalate (done ++ fields) ∧ added ∧ out.length < maxRealmLn := by
  induction fields generalizing prev done with
  | nil =>
    obtain ⟨rfl, rfl⟩ := h
    exact ⟨by simp, rfl, hlen⟩
  | cons current rest ih =>
    obtain ⟨hcur, hrest⟩ := forall_mem_cons.mp hfields
    obtain ⟨exp, -, h⟩ := bind_eq_ok.mp h
    obtain ⟨_, hcopy, h⟩ := bind_eq_ok.mp h
    cases hcopy
    obtain ⟨new, hemit, h⟩ := bind_eq_ok.mp h
    obtain ⟨rfl, hnew⟩ := emit_join hdone hemit
    have hdone' : ∀ f ∈ done ++ [current], f ≠ [] := by
      simpa [or_imp, forall_and] using ⟨hdone, hcur⟩
    simpa using ih hdone' hrest hnew h

/-- The realm goes behind the current one, in front of it, or not here. -/
theorem insertRealm_eq_ok (h : insertRealm below realm prev current exp rest = .ok (text, added)) :
    (nextUncompressed below rest ∧ subrealm exp realm ≠ 0) ∧
        text = current ++ comma :: piece (subrealm exp realm) realm ∧ added ∨
      ¬(nextUncompressed below rest ∧ subrealm exp realm ≠ 0) ∧ subrealm realm exp ≠ 0 ∧
        text = fieldBehind prev realm ++ comma :: piece (subrealm realm exp) exp ∧
          added ∨
      ¬(nextUncompressed below rest ∧ subrealm exp realm ≠ 0) ∧ subrealm realm exp = 0 ∧
        text = current ∧ added = false := by
  unfold insertRealm at h
  split at h
  · rename_i hsub
    obtain ⟨_, _, h⟩ := bind_eq_ok.mp h
    cases h
    exact .inl ⟨hsub, rfl, rfl⟩
  rename_i hsub
  split at h
  · rename_i hsup
    obtain ⟨t, ht, h⟩ := bind_eq_ok.mp h
    obtain ⟨_, _, h⟩ := bind_eq_ok.mp h
    cases h
    exact .inr (.inl ⟨hsub, hsup, by rw [writeBehind_eq_ok ht], rfl⟩)
  · rename_i hsup
    cases h
    exact .inr (.inr ⟨hsub, not_not.mp hsup, rfl, rfl⟩)

/-- The loop writes the joined result of `insertFields`, or copies when there
is no place for the realm. -/
theorem addLoop_join (hdone : ∀ f ∈ done, f ≠ []) (hfields : ∀ f ∈ fields, f ≠ [])
    (hlen : ([comma].intercalate done).length < maxRealmLn)
    (h : addLoop below realm prev false ([comma].intercalate done) fields = .ok (out, added))
    (hins : ∀ ins, insertFields below realm prev fields = some ins → ∀ f ∈ ins, f ≠ []) :
    out = [comma].intercalate (done ++ (insertFields below realm prev fields).getD fields) ∧
      added = (insertFields below realm prev fields).isSome ∧ out.length < maxRealmLn := by
  induction fields generalizing prev done with
  | nil =>
    obtain ⟨rfl, rfl⟩ := h
    exact ⟨by simp [insertFields], rfl, hlen⟩
  | cons current rest ih =>
    obtain ⟨hcur, hrest⟩ := forall_mem_cons.mp hfields
    simp only [addLoop, Bool.false_or, beq_iff_eq] at h
    obtain ⟨exp, hexp, h⟩ := bind_eq_ok.mp h
    obtain rfl := expandCurrent_eq_ok hexp
    have hdone' : ∀ f ∈ done ++ [current], f ≠ [] := by
      simpa [or_imp, forall_and] using ⟨hdone, hcur⟩
    by_cases hrealm : expansion prev current = realm
    · rw [if_pos hrealm] at h
      obtain ⟨_, hcopy, h⟩ := bind_eq_ok.mp h
      cases hcopy
      obtain ⟨new, hemit, h⟩ := bind_eq_ok.mp h
      obtain ⟨rfl, hnew⟩ := emit_join hdone hemit
      simpa [insertFields, hrealm] using addLoop_added hdone' hrest hnew h
    rw [if_neg hrealm] at h
    obtain ⟨⟨text, placed⟩, htext, h⟩ := bind_eq_ok.mp h
    obtain ⟨new, hemit, h⟩ := bind_eq_ok.mp h
    obtain ⟨rfl, hnew⟩ := emit_join hdone hemit
    rcases insertRealm_eq_ok htext with ⟨hsub, rfl, rfl⟩ | ⟨hsub, hsup, rfl, rfl⟩ |
        ⟨hsub, hsup, rfl, rfl⟩
    · -- behind the current realm
      simp only [insertFields, if_neg hrealm, if_pos hsub] at hins ⊢
      rw [intercalate_pair] at h hnew
      simpa using addLoop_added (by grind) hrest hnew h
    · -- in front of the current realm
      simp only [insertFields, if_neg hrealm, if_neg hsub, if_pos hsup] at hins ⊢
      rw [intercalate_pair] at h hnew
      simpa using addLoop_added (by grind) hrest hnew h
    · -- further on
      simp only [insertFields, if_neg hrealm, if_neg hsub, if_neg (not_not.mpr hsup)] at hins ⊢
      have hlater := ih hdone' hrest hnew h fun ins h => by
        have := hins _ (Option.map_eq_some_iff.mpr ⟨ins, h, rfl⟩)
        exact (forall_mem_cons.mp this).2
      simpa [Option.getD_map (text :: ·)] using hlater

theorem appendRealm_join (hfields : ∀ f ∈ fields, f ≠ [])
    (h : appendRealm realm ([comma].intercalate fields) = .ok out) :
    out = [comma].intercalate (fields ++ [fieldAtEnd realm fields]) ∧
      out.length < maxRealmLn := by
  obtain ⟨new, hnew, h⟩ := bind_eq_ok.mp h
  obtain ⟨new', hblank, h⟩ := bind_eq_ok.mp h
  obtain ⟨_, hlen, h⟩ := bind_eq_ok.mp h
  cases h
  have hlen := within_eq_ok.mp hlen
  refine ⟨?_, by rw [length_append]; omega⟩
  -- the blank stands exactly where something was written before
  have hempty : new ≠ [] ↔ fields ≠ [] := by
    rw [addComma_eq_ok hnew]
    by_cases hd : fields = [] <;> simp [intercalate_eq_nil_iff hfields]
  rw [← addComma_join hfields hnew, addBlank_eq_ok hblank, fieldAtEnd]
  simp only [hempty]
  split <;> simp

theorem nul_notMem_intercalate (h : ∀ f ∈ fields, (0 : UInt8) ∉ f) :
    (0 : UInt8) ∉ [comma].intercalate fields := by
  induction fields with
  | nil => simp
  | cons f rest ih =>
    obtain ⟨hf, hrest⟩ := forall_mem_cons.mp h
    cases rest with
    | nil => simpa using hf
    | cons g fs =>
      rw [intercalate_cons_cons]
      simp only [mem_append, not_or]
      exact ⟨⟨hf, by decide⟩, ih hrest⟩

theorem expandTransited_intercalate (hfields : ∀ f ∈ fields, IsField f)
    (hlen : ([comma].intercalate fields).length < maxRealmLn) :
    expandTransited ([comma].intercalate fields ++ [0]) = expandFields [] fields := by
  have hnul := nul_notMem_intercalate fun f hf => (hfields f hf).2.nul
  rw [expandTransited, cstring_snoc_nul hnul, readFields_intercalate hfields hlen]

theorem expandTransited_terminated (out : Octets) :
    expandTransited (if out = [] then [] else out ++ [0]) = expandTransited (out ++ [0]) := by
  by_cases hout : out = []
  · subst hout
    rfl
  · rw [if_neg hout]

theorem insertFields_ne_nil {ins : List Octets} (h : insertFields below realm [] fields = some ins)
    (hnew : ∀ f ∈ newFields below realm false fields, IsField f) : ∀ f ∈ ins, f ≠ [] := by
  intro f hf
  exact (hnew f (by simpa [newFields, h] using hf)).1

/-- The text that is written expands as its fields do. -/
theorem expandTransited_addToTransited {tgs client server : Octets}
    (hread : readFields (cstring trans) [] = .ok fields) (hnew : ∀ f ∈ newFields below (cstring tgs)
      (client == cstring tgs || server == cstring tgs) fields, IsField f)
    (h : addToTransited below trans tgs client server = .ok new) :
    expandTransited new = expandFields []
      (newFields below (cstring tgs) (client == cstring tgs || server == cstring tgs) fields) := by
  have hfields : ∀ f ∈ fields, f ≠ [] := fun f hf =>
    (readFields_isField (nul_notMem_cstring trans) plain_nil hread f hf).1
  unfold addToTransited at h
  simp only [hread] at h
  obtain ⟨_, hok, h⟩ := bind_eq_ok.mp h
  cases hok
  obtain ⟨⟨out, added⟩, hloop, h⟩ := bind_eq_ok.mp h
  cases hknown : (client == cstring tgs || server == cstring tgs) with
  | true =>
    rw [hknown] at hloop hnew
    obtain ⟨rfl, rfl, hlen⟩ :=
      @addLoop_added _ _ _ _ [] _ _ (by simp) hfields (by decide) hloop
    cases h
    rw [expandTransited_terminated]
    exact expandTransited_intercalate hnew hlen
  | false =>
    rw [hknown] at hloop hnew
    obtain ⟨rfl, rfl, hlen⟩ :=
      @addLoop_join _ _ _ _ [] _ _ (by simp) hfields (by decide) hloop
        fun ins hins => insertFields_ne_nil hins hnew
    cases hins : insertFields below (cstring tgs) [] fields with
    | some ins =>
      simp only [newFields, hins] at h hlen hnew ⊢
      cases h
      rw [expandTransited_terminated]
      exact expandTransited_intercalate hnew hlen
    | none =>
      simp only [newFields, hins] at h hnew ⊢
      obtain ⟨out, happend, h⟩ := bind_eq_ok.mp h
      cases h
      obtain ⟨rfl, hlen⟩ := appendRealm_join hfields happend
      exact expandTransited_intercalate hnew hlen

/-! ## Cuts at component boundaries -/

/-- `realm` can stand in full behind `prev`: it is not empty and no octet of it
is read as a mark of compression. -/
def standsAlone (prev realm : Octets) : Bool :=
  realm.head? == some slash ||
    realm != [] && realm.head? != some blank && (prev == [] || realm.getLast? != some dot)

/-- Taking the realm `sup` off its subrealm `sub` cuts between two components:
what is left starts with a slash, or ends in a dot and does not start with a
blank. Taking off the empty realm cuts nothing. -/
def cutsCleanly (sup sub : Octets) : Bool :=
  if sub.head? = some slash then (sub.drop sup.length).head? == some slash
  else sub.head? != some blank &&
    (sup == [] || (sub.take (sub.length - sup.length)).getLast? == some dot)

/-- The walk puts `realm` in, or finds it, without cutting a name inside a
component. The branches are those of the loop. -/
def fits (below : UInt8) (realm : Octets) : Octets → List Octets → Bool
  | prev, [] => standsAlone prev realm
  | prev, current :: rest =>
    let exp := expansion prev current
    if exp = realm then true
    else if nextUncompressed below rest ∧ subrealm exp realm ≠ 0 then cutsCleanly exp realm
    else if subrealm realm exp ≠ 0 then
      (if subrealm prev realm ≠ 0 then cutsCleanly prev realm else standsAlone prev realm) &&
        cutsCleanly realm exp
    else fits below realm exp rest

/-- In both styles a subrealm is its superior with more of a name. -/
theorem subrealm_cases (h : subrealm sup sub ≠ 0) :
    (sub.head? = some slash ∧ sup.head? = some slash ∧
        ∃ left, left ≠ [] ∧ sub = sup ++ left ∧ piece (subrealm sup sub) sub = left) ∨
      (sub.head? ≠ some slash ∧
        ∃ left, left ≠ [] ∧ sub = left ++ sup ∧ piece (subrealm sup sub) sub = left) := by
  unfold subrealm at h ⊢
  by_cases hlen : sub.length ≤ sup.length
  · exact absurd (if_pos hlen) h
  rw [if_neg hlen] at h ⊢
  split at h
  · rename_i hx
    obtain ⟨hsup, hsub, htake⟩ := hx
    refine .inl ⟨hsub, hsup, sub.drop sup.length, ?_, ?_, ?_⟩
    · simpa using hlen
    · exact (htake ▸ take_append_drop sup.length sub).symm
    · rw [if_pos ⟨hsup, hsub, htake⟩, piece, if_neg (by omega)]
      congr 1
      omega
  · rename_i hx
    rw [if_neg hx]
    split at h
    · rename_i hd
      obtain ⟨hsup, hsub, hdrop⟩ := hd
      refine .inr ⟨hsub, sub.take (sub.length - sup.length), ?_, ?_, ?_⟩
      · intro hnil
        have := congrArg List.length hnil
        simp only [length_take, length_nil] at this
        omega
      · exact (hdrop ▸ take_append_drop (sub.length - sup.length) sub).symm
      · rw [if_pos ⟨hsup, hsub, hdrop⟩, piece, if_pos (by omega)]
        congr 1
        omega
    · exact absurd rfl h

theorem piece_isField (h : subrealm sup sub ≠ 0) (hsub : Plain sub) :
    IsField (piece (subrealm sup sub) sub) := by
  rcases subrealm_cases h with ⟨_, _, left, hne, hcut, hpiece⟩ | ⟨_, left, hne, hcut, hpiece⟩
  · exact hpiece ▸ ⟨hne, hsub.of_subset (by simp [hcut])⟩
  · exact hpiece ▸ ⟨hne, hsub.of_subset (by simp [hcut])⟩

/-- A clean cut is undone by the expansion. -/
theorem expansion_piece (h : subrealm sup sub ≠ 0) (hclean : cutsCleanly sup sub) :
    expansion sup (piece (subrealm sup sub) sub) = sub := by
  rcases subrealm_cases h with ⟨hsl, hsup, left, hne, hcut, hpiece⟩ | ⟨hsl, left, hne, hcut, hpiece⟩
  · rw [hpiece]
    have hleft : left.head? = some slash := by
      rw [cutsCleanly, if_pos hsl, hcut, drop_left] at hclean
      exact beq_iff_eq.mp hclean
    rw [expansion, if_neg (by rw [hleft]; decide), if_pos ⟨hleft, hsup⟩, hcut]
  rw [hpiece]
  have hhead : left.head? = sub.head? := by
    cases left with
    | nil => exact absurd rfl hne
    | cons c cs => simp [hcut]
  simp only [cutsCleanly, if_neg hsl, Bool.and_eq_true, bne_iff_ne, Bool.or_eq_true,
    beq_iff_eq] at hclean
  obtain ⟨hblank, hdot⟩ := hclean
  rw [expansion, if_neg (by rwa [hhead]), if_neg (by rw [hhead]; exact fun hx => hsl hx.1)]
  rcases hdot with rfl | hdot
  · simp [hcut]
  · have hlast : left.getLast? = some dot := by simpa [hcut] using hdot
    rw [if_pos hlast, hcut]

theorem expansion_blank (prev realm : Octets) : expansion prev (blank :: realm) = realm := by
  simp [expansion]

theorem expansion_of_standsAlone (h : standsAlone prev realm)
    (hprev : realm.head? = some slash → prev = []) : expansion prev realm = realm := by
  simp only [standsAlone, Bool.or_eq_true, Bool.and_eq_true, beq_iff_eq, bne_iff_ne] at h
  unfold expansion
  rcases h with hsl | ⟨⟨_, hblank⟩, hdot⟩
  · have hb : realm.head? ≠ some blank := by rw [hsl]; decide
    simp [hb, hprev hsl]
  by_cases hsl : realm.head? = some slash
  · simp [hblank, hprev hsl]
  · rcases hdot with rfl | hdot
    · simp [hblank]
    · simp [hblank, hsl, hdot]

theorem fieldBehind_isField (hne : realm ≠ []) (hrealm : Plain realm) :
    IsField (fieldBehind prev realm) := by
  unfold fieldBehind
  split
  · rename_i hsub
    exact piece_isField hsub hrealm
  · split
    · exact ⟨by simp, plain_blank.append hrealm⟩
    · exact ⟨hne, hrealm⟩

theorem expansion_fieldBehind
    (h : if subrealm prev realm ≠ 0 then cutsCleanly prev realm else standsAlone prev realm) :
    expansion prev (fieldBehind prev realm) = realm := by
  unfold fieldBehind
  by_cases hsub : subrealm prev realm ≠ 0
  · rw [if_pos hsub] at h ⊢
    exact expansion_piece hsub h
  rw [if_neg hsub] at h ⊢
  split
  · exact expansion_blank prev realm
  · rename_i hsl
    exact expansion_of_standsAlone h fun hx => by simpa [hx] using hsl

theorem expansion_uncompressed {next : Octets} (h : nextUncompressed below (next :: rest))
    (prev prev' : Octets) : expansion prev next = expansion prev' next := by
  simp only [nextUncompressed, Bool.and_eq_true, bne_iff_ne] at h
  simp [expansion, h.1, h.2]

theorem expandFields_uncompressed (h : nextUncompressed below rest) (prev prev' : Octets) :
    expandFields prev rest = expandFields prev' rest := by
  cases rest with
  | nil => rfl
  | cons next rest => rw [expandFields, expandFields, expansion_uncompressed h prev prev']

/-- A realm put in by a fitting walk is added to the realms of the list, and
nothing else changes; `atEnd` is the subfield it gets when it goes to the end. -/
theorem mem_expandFields_insert (hfits : fits below realm prev fields)
    (hend : atEnd = blank :: realm ∨
      atEnd = realm ∧ (realm.head? = some slash → fields = [] ∧ prev = [])) (x : Octets) :
    x ∈ expandFields prev
        ((insertFields below realm prev fields).getD (fields ++ [atEnd])) ↔
      x ∈ expandFields prev fields ∨ x = realm := by
  induction fields generalizing prev with
  | nil =>
    have hexp : expansion prev atEnd = realm := by
      rcases hend with rfl | ⟨rfl, hsl⟩
      · exact expansion_blank prev realm
      · exact expansion_of_standsAlone hfits fun hx => (hsl hx).2
    simp [insertFields, expandFields, hexp]
  | cons current rest ih =>
    simp only [fits, insertFields] at hfits ⊢
    split at hfits
    · -- the realm is there already
      rename_i hrealm
      simp only [hrealm, if_true, Option.getD_some, expandFields, mem_cons]
      tauto
    rename_i hrealm
    split at hfits
    · -- behind the current one, whose follower does not depend on it
      rename_i hsub
      simp only [if_neg hrealm, if_pos hsub, Option.getD_some, expandFields, mem_cons,
        expansion_piece hsub.2 hfits,
        expandFields_uncompressed hsub.1 realm (expansion prev current)]
      tauto
    rename_i hsub
    split at hfits
    · -- in front of the current one, which is cut down
      rename_i hsup
      obtain ⟨hbehind, hcut⟩ := Bool.and_eq_true_iff.mp hfits
      have hbehind : expansion prev (fieldBehind prev realm) = realm :=
        expansion_fieldBehind (by split at hbehind <;> simp_all)
      simp only [if_neg hrealm, if_neg hsub, if_pos hsup, Option.getD_some, expandFields,
        mem_cons, hbehind, expansion_piece hsup hcut]
      tauto
    -- further on
    rename_i hsup
    have hend' : atEnd = blank :: realm ∨ atEnd = realm ∧
        (realm.head? = some slash → rest = [] ∧ expansion prev current = []) :=
      hend.imp_right fun h => ⟨h.1, fun hx => absurd (h.2 hx).1 (by simp)⟩
    simp only [if_neg hrealm, if_neg hsub, if_neg hsup, cons_append, Option.getD_map (current :: ·),
      expandFields, mem_cons, ih hfits hend']
    exact or_assoc.symm

theorem expansion_plain (hprev : Plain prev) (hcur : Plain current) :
    Plain (expansion prev current) := by
  unfold expansion
  split
  · exact hcur.of_subset (tail_subset current)
  split
  · exact hprev.append hcur
  · split
    · exact hcur.append hprev
    · exact hcur

theorem ne_nil_of_standsAlone (h : standsAlone prev realm) : realm ≠ [] := by
  rintro rfl
  simp [standsAlone] at h

theorem ne_nil_of_subrealm (h : subrealm sup sub ≠ 0) : sub ≠ [] := by
  rintro rfl
  simp [subrealm] at h

theorem insertFields_isField (hprev : Plain prev) (hfields : ∀ f ∈ fields, IsField f)
    (hrealm : Plain realm) (hend : realm ≠ [] → IsField atEnd)
    (hfits : fits below realm prev fields) :
    ∀ f ∈ (insertFields below realm prev fields).getD (fields ++ [atEnd]), IsField f := by
  induction fields generalizing prev with
  | nil => simpa [insertFields] using hend (ne_nil_of_standsAlone hfits)
  | cons current rest ih =>
    obtain ⟨hcur, hrest⟩ := forall_mem_cons.mp hfields
    have hexp : Plain (expansion prev current) := expansion_plain hprev hcur.2
    simp only [fits, insertFields] at hfits ⊢
    split at hfits
    · rename_i heq
      simpa [heq] using hfields
    rename_i heq
    split at hfits
    · rename_i hsub
      simp only [if_neg heq, if_pos hsub, Option.getD_some, forall_mem_cons]
      exact ⟨hcur, piece_isField hsub.2 hrealm, hrest⟩
    rename_i hsub
    split at hfits
    · rename_i hsup
      have hne : realm ≠ [] := by
        have hbehind := (Bool.and_eq_true_iff.mp hfits).1
        split at hbehind
        · rename_i h
          exact ne_nil_of_subrealm h
        · exact ne_nil_of_standsAlone hbehind
      simp only [if_neg heq, if_neg hsub, if_pos hsup, Option.getD_some, forall_mem_cons]
      exact ⟨fieldBehind_isField hne hrealm, piece_isField hsup hexp, hrest⟩
    · rename_i hsup
      simp only [if_neg heq, if_neg hsub, if_neg hsup, cons_append, Option.getD_map (current :: ·),
        forall_mem_cons]
      exact ⟨hcur, ih hexp hrest hfits⟩

theorem fieldAtEnd_isField (hne : realm ≠ []) (hrealm : Plain realm) (fields : List Octets) :
    IsField (fieldAtEnd realm fields) := by
  unfold fieldAtEnd
  split
  · exact ⟨by simp, plain_blank.append hrealm⟩
  · exact ⟨hne, hrealm⟩

theorem fieldAtEnd_cases (realm : Octets) (fields : List Octets) :
    fieldAtEnd realm fields = blank :: realm ∨
      fieldAtEnd realm fields = realm ∧ (realm.head? = some slash → fields = []) := by
  unfold fieldAtEnd
  split
  · exact .inl rfl
  · rename_i h
    exact .inr ⟨rfl, fun hx => by simpa [hx] using h⟩

/-! ## Runs -/

/-- One call of `add_to_transited`: the realm to add, the realms of the client
and of the requested server, and the octet below the array `next`. -/
structure AddCall where
  below : UInt8
  realm : Octets
  client : Octets
  server : Octets

def AddCall.IsTransit (c : AddCall) : Prop := c.realm ≠ c.client ∧ c.realm ≠ c.server

def AddStep (trans : Octets) (c : AddCall) (new : Octets) : Prop :=
  addToTransited c.below trans c.realm c.client c.server = .ok new

/-- The call adds a plain name and cuts names only between components. -/
def AddCall.CutsCleanly (trans : Octets) (c : AddCall) : Prop :=
  Plain c.realm ∧ (c.IsTransit → ∀ fields, readFields (cstring trans) [] = .ok fields →
    fits c.below c.realm [] fields)

/-- One call adds its realm to the list if that is in transit, and loses none. -/
theorem mem_expandTransited_step {c : AddCall} (hclean : c.CutsCleanly trans)
    (h : AddStep trans c new) (x : Octets) :
    x ∈ expandTransited new ↔ x ∈ expandTransited trans ∨ x = c.realm ∧ c.IsTransit := by
  obtain ⟨hplain, hfits⟩ := hclean
  have hself : cstring c.realm = c.realm := cstring_eq_self hplain.nul
  cases hread : readFields (cstring trans) [] with
  | error e => simp [AddStep, addToTransited, hread, bind, Except.bind] at h
  | ok fields =>
    have hfields := readFields_isField (nul_notMem_cstring trans) plain_nil hread
    have hold : expandTransited trans = expandFields [] fields := by
      rw [expandTransited, hread]
    by_cases htransit : c.IsTransit
    · have hknown : (c.client == c.realm || c.server == c.realm) = false := by
        simpa using ⟨Ne.symm htransit.1, Ne.symm htransit.2⟩
      have hnew := insertFields_isField plain_nil hfields hplain
          (fun hne => fieldAtEnd_isField hne hplain fields) (hfits htransit fields hread)
      rw [expandTransited_addToTransited hread (by rwa [hself, hknown]) h, hold, hself, hknown]
      simpa [newFields, htransit] using mem_expandFields_insert (hfits htransit fields hread)
        ((fieldAtEnd_cases c.realm fields).imp_right
          (And.imp_right fun hsl hx => ⟨hsl hx, rfl⟩)) x
    · have hknown : (c.client == c.realm || c.server == c.realm) = true := by
        have : c.client = c.realm ∨ c.server = c.realm := by
          by_contra hc
          exact htransit ⟨fun he => hc (.inl he.symm), fun he => hc (.inr he.symm)⟩
        simpa using this
      rw [expandTransited_addToTransited hread (by rw [hself, hknown]; exact hfields) h, hold,
        hself, hknown]
      simp [newFields, htransit]

/-- The steps of the runs below: calls that succeed and cut cleanly. -/
def CleanAddStep (trans : Octets) (c : AddCall) (new : Octets) : Prop :=
  AddStep trans c new ∧ c.CutsCleanly trans

/-- After any run of clean calls from the empty field, the field stands for
exactly the transit realms of the calls, and the next clean call adds its realm
and changes nothing else. -/
theorem addToTransited_run {calls : List AddCall} {trans : Octets}
    (hrun : Run CleanAddStep [] calls trans) :
    (∀ x, x ∈ expandTransited trans ↔ ∃ c ∈ calls, x = c.realm ∧ c.IsTransit) ∧
      ∀ c new, CleanAddStep trans c new → c.IsTransit →
        ∀ x, x ∈ expandTransited new ↔ x ∈ expandTransited trans ∨ x = c.realm := by
  refine ⟨?_, fun c new hstep htransit x => ?_⟩
  · refine hrun.history
      (fun calls trans => ∀ x, x ∈ expandTransited trans ↔ ∃ c ∈ calls, x = c.realm ∧ c.IsTransit)
      ?_ ?_
    · simp [expandTransited, cstring, readFields, expandFields]
    · intro es t c u ih hstep x
      rw [mem_expandTransited_step hstep.2 hstep.1, ih]
      simp
  · rw [mem_expandTransited_step hstep.2 hstep.1]
    simp [htransit]

theorem cleanAddStep_intro {c : AddCall} (hread : readFields (cstring trans) [] = .ok fields)
    (hplain : Plain c.realm) (hfits : fits c.below c.realm [] fields) (h : AddStep trans c new) :
    CleanAddStep trans c new := by
  refine ⟨h, hplain, fun _ fields' hread' => ?_⟩
  rw [hread] at hread'
  cases hread'
  exact hfits

/-- `EDU` and then `MIT.EDU`, between the realms `A` and `B`. -/
theorem addToTransited_run_edu :
    Run CleanAddStep [] [⟨0, ascii "EDU", ascii "A", ascii "B"⟩,
        ⟨0, ascii "MIT.EDU", ascii "A", ascii "B"⟩] (ascii "EDU,MIT." ++ [0]) ∧
      ∀ x, x ∈ expandTransited (ascii "EDU,MIT." ++ [0]) ↔
        ∃ c ∈ [AddCall.mk 0 (ascii "EDU") (ascii "A") (ascii "B"),
          AddCall.mk 0 (ascii "MIT.EDU") (ascii "A") (ascii "B")],
          x = c.realm ∧ c.IsTransit := by
  have hedu : CleanAddStep [] ⟨0, ascii "EDU", ascii "A", ascii "B"⟩ (ascii "EDU" ++ [0]) :=
    cleanAddStep_intro rfl (by constructor <;> decide) (by decide) rfl
  have hmit : CleanAddStep (ascii "EDU" ++ [0]) ⟨0, ascii "MIT.EDU", ascii "A", ascii "B"⟩
      (ascii "EDU,MIT." ++ [0]) :=
    cleanAddStep_intro rfl (by constructor <;> decide) (by decide) rfl
  have hrun := Run.snoc (Run.snoc Run.nil hedu) hmit
  exact ⟨hrun, (addToTransited_run hrun).1⟩

/-- `COM` added to a field that holds `FOOCOM`: the walk takes the one for a
superrealm of the other, and the field no longer stands for `FOOCOM`. -/
theorem addToTransited_loses_realm :
    AddStep [] ⟨0, ascii "FOOCOM", ascii "A", ascii "B"⟩ (ascii "FOOCOM" ++ [0]) ∧
    AddStep (ascii "FOOCOM" ++ [0]) ⟨0, ascii "COM", ascii "A", ascii "B"⟩
      (ascii "COM,FOO" ++ [0]) ∧
    ascii "FOOCOM" ∈ expandTransited (ascii "FOOCOM" ++ [0]) ∧
    ascii "FOOCOM" ∉ expandTransited (ascii "COM,FOO" ++ [0]) :=
  ⟨rfl, rfl, by decide, by decide⟩

end Krb5.Transited
