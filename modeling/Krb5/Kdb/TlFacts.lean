import Krb5.Kdb.RoundTrip

/-!
# Updates of the typed data

After an update a lookup of the type finds the new element, and lookups of other types find what
they found before. The count beside the list stays in step as long as it does not run over.
-/

namespace Krb5.Kdb

open Lib List

section Contents

variable {contents c : Octets}

theorem tlContents_of_lt (h : contents.length < 2 ^ 15) : tlContents contents = .ok contents := by
  obtain ⟨hneg, hlen⟩ := not_neg_of_counted (Int16.toInt_ofNat_of_lt h)
  simp [tlContents, of_decide_eq_false hneg, hlen]

theorem tlContents_ok (h : tlContents contents = .ok c) (hlen : contents.length < 2 ^ 16) :
    contents.length < 2 ^ 15 ∧ c = contents := by
  by_cases hshort : contents.length < 2 ^ 15
  · rw [tlContents_of_lt hshort] at h
    cases h
    exact ⟨hshort, rfl⟩
  have hneg : Int16.ofNat contents.length < 0 := by
    have hsize : Int16.size = 2 ^ 16 := rfl
    rw [Int16.lt_iff_toInt_lt, Int16.toInt_ofNat', Int16.toInt_zero, Int.bmod_def, hsize]
    omega
  simp only [tlContents, if_pos hneg] at h
  cases h

theorem tlContents_take (h : tlContents contents = .ok c) :
    ∃ k, k < 2 ^ 15 ∧ c = contents.take k := by
  simp only [tlContents] at h
  split at h
  · cases h
  cases h
  refine ⟨_, ?_, rfl⟩
  have := Int16.toInt_lt (Int16.ofNat contents.length)
  rw [Int16.toNatClampNeg]
  omega

end Contents

/-! ## The list -/

def withTl (entry : DbEntry) (new : TlData) : DbEntry :=
  if entry.tlData.any (·.type = new.type) then
    { entry with tlData := replaceTlData new entry.tlData }
  else { entry with tlData := new :: entry.tlData, nTlData := entry.nTlData + 1 }

variable {entry entry' : DbEntry} {type : Int16} {contents : Octets} {new : TlData}
  {p : TlData → Bool}

theorem dbeUpdateTlData_ok : dbeUpdateTlData entry type contents = .ok entry' ↔
    ∃ c, tlContents contents = .ok c ∧ entry' = withTl entry ⟨type, c⟩ := by
  rw [dbeUpdateTlData, bind_eq_ok]
  refine exists_congr fun c => and_congr_right fun _ => ?_
  rw [withTl]
  split <;> exact ⟨fun h => (Except.ok.inj h).symm, fun h => congrArg Except.ok h.symm⟩

theorem length_replaceTlData (l : List TlData) : (replaceTlData new l).length = l.length := by
  induction l with
  | nil => rfl
  | cons tl l ih =>
    rw [replaceTlData]
    split
    · rfl
    · rw [length_cons, ih, length_cons]

theorem find?_replaceTlData (type : Int16) (l : List TlData) :
    (replaceTlData new l).find? (·.type = type) =
      if type = new.type ∧ l.any (·.type = new.type) = true then some new
      else l.find? (·.type = type) := by
  induction l with
  | nil => simp [replaceTlData]
  | cons tl l ih =>
    by_cases htl : tl.type = new.type
    · by_cases htype : type = new.type
      · simp [replaceTlData, htl, htype]
      · have hne : new.type ≠ type := Ne.symm htype
        simp [replaceTlData, htl, htype, hne]
    · by_cases htype : type = new.type
      · subst htype
        rw [replaceTlData, if_neg htl, find?_cons_of_neg (by simpa using htl), ih]
        simp [htl]
      · simp only [htype, false_and, if_false] at ih ⊢
        rw [replaceTlData, if_neg htl, find?_cons, find?_cons, ih]

theorem find?_withTl (type : Int16) : (withTl entry new).tlData.find? (·.type = type) =
    if type = new.type then some new else entry.tlData.find? (·.type = type) := by
  rw [withTl]
  split
  · rename_i hany
    simp [find?_replaceTlData, hany]
  · by_cases htype : type = new.type
    · simp [htype]
    · rw [if_neg htype, find?_cons_of_neg (by simpa using Ne.symm htype)]

theorem dbeLookupTlData_withTl_self (new : TlData) :
    dbeLookupTlData (withTl entry new) new.type = new.contents := by
  rw [dbeLookupTlData, find?_withTl, if_pos rfl]
  rfl

theorem dbeLookupTlData_withTl_of_ne (h : type ≠ new.type) :
    dbeLookupTlData (withTl entry new) type = dbeLookupTlData entry type := by
  rw [dbeLookupTlData, find?_withTl, if_neg h, dbeLookupTlData]

theorem any_withTl (type : Int16) : (withTl entry new).tlData.any (·.type = type) =
    (decide (type = new.type) || entry.tlData.any (·.type = type)) := by
  have hfind (l : List TlData) : l.any (·.type = type) = (l.find? (·.type = type)).isSome := by
    rw [Bool.eq_iff_iff, any_eq_true, find?_isSome]
  rw [hfind, find?_withTl, hfind]
  by_cases htype : type = new.type <;> simp [htype]

theorem filter_replaceTlData (hp : ∀ tl, tl.type = new.type → p tl = false) (l : List TlData) :
    (replaceTlData new l).filter p = l.filter p := by
  induction l with
  | nil => rfl
  | cons tl l ih =>
    rw [replaceTlData]
    split
    · rename_i htl
      rw [filter_cons_of_neg (by simp [hp new rfl]), filter_cons_of_neg (by simp [hp tl htl])]
    · rw [filter_cons, filter_cons, ih]

theorem filter_withTl (hp : ∀ tl, tl.type = new.type → p tl = false) :
    (withTl entry new).tlData.filter p = entry.tlData.filter p := by
  rw [withTl]
  split
  · exact filter_replaceTlData hp _
  · exact filter_cons_of_neg (by simp [hp new rfl])

theorem withTl_eq : withTl entry new = { entry with
    tlData := (withTl entry new).tlData, nTlData := (withTl entry new).nTlData } := by
  rw [withTl]
  split <;> rfl

/-! ## The count -/

/-- `n_tl_data` is the length of the list. -/
def Counted (entry : DbEntry) : Prop := (entry.tlData.length : Int) = entry.nTlData.toInt

instance (entry : DbEntry) : Decidable (Counted entry) := inferInstanceAs (Decidable (_ = _))

theorem Counted.withTl_of_any (h : Counted entry) (hany : entry.tlData.any (·.type = new.type)) :
    Counted (withTl entry new) := by
  rw [withTl, if_pos hany, Counted]
  rw [length_replaceTlData]
  exact h

theorem Counted.withTl (h : Counted entry) (new : TlData) (hroom : entry.tlData.length + 1 < 2 ^ 15) :
    Counted (withTl entry new) ∧ (Kdb.withTl entry new).tlData.length ≤ entry.tlData.length + 1 := by
  by_cases hany : entry.tlData.any (·.type = new.type)
  · refine ⟨h.withTl_of_any hany, ?_⟩
    rw [Kdb.withTl, if_pos hany]
    rw [length_replaceTlData]
    exact Nat.le_succ _
  · rw [Kdb.withTl, if_neg hany]
    rw [Counted] at h ⊢
    rw [Int16.toInt_add, Int.bmod_eq_of_le] <;> simp <;> omega

theorem Counted.of_withTl (h : Counted (Kdb.withTl entry new)) (hroom : entry.nTlData.toInt + 1 < 2 ^ 15) :
    Counted entry := by
  rw [Kdb.withTl] at h
  split at h
  · have hlen : ((replaceTlData new entry.tlData).length : Int) = entry.nTlData.toInt := h
    rwa [length_replaceTlData] at hlen
  have hlen : ((new :: entry.tlData).length : Int) = (entry.nTlData + 1).toInt := h
  have hone : (1 : Int16).toInt = 1 := rfl
  have hle := Int16.le_toInt entry.nTlData
  rw [Int16.toInt_add, length_cons, Int.bmod_eq_of_le
    (by omega) (by omega)] at hlen
  rw [Counted]
  omega

theorem Counted.of_withTl_withTl {new' : TlData} (h : Counted (Kdb.withTl (Kdb.withTl entry new) new'))
    (hroom : entry.nTlData.toInt + 2 < 2 ^ 15) : Counted entry := by
  have hone : (1 : Int16).toInt = 1 := rfl
  have hle := Int16.le_toInt entry.nTlData
  have hmiddle : (Kdb.withTl entry new).nTlData.toInt + 1 < 2 ^ 15 := by
    rw [Kdb.withTl]
    split
    · show entry.nTlData.toInt + 1 < 2 ^ 15
      omega
    · rw [Int16.toInt_add, Int.bmod_eq_of_le (by omega) (by omega)]
      omega
  exact (h.of_withTl hmiddle).of_withTl (by omega)

theorem encodePrincContents_isOk (hcnt : Counted entry) (hlen : entry.len = v1BaseLength)
    {name : Octets} (hname : Name.unparseName entry.princ = .ok name) :
    ∃ content, encodePrincContents entry = .ok content := by
  rw [Counted] at hcnt
  refine ⟨⟨contentLength entry (cstring name), contentsOctets entry (cstring name)⟩, ?_⟩
  rw [encodePrincContents, hname]
  show (if _ then _ else _) = _
  rw [if_neg (not_not.mpr hcnt), if_neg (not_not.mpr hlen)]
  rfl

theorem encodePrincContents_ok {content : Content} (h : encodePrincContents entry = .ok content) :
    Counted entry ∧ entry.len = v1BaseLength := by
  obtain ⟨name, -, h⟩ := bind_eq_ok.mp h
  split at h
  · cases h
  split at h
  · cases h
  · rename_i hcnt hlen
    exact ⟨not_not.mp hcnt, not_not.mp hlen⟩

end Krb5.Kdb
