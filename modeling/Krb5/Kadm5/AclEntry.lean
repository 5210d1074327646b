import Krb5.Kadm5.Acl

/-!
# Entries by themselves

`Rule.appliesTo` says what an entry means by itself: what its asterisks stand for is found in the
caller's name, and `*1` to `*9` in its target refer to that. An attempt at an entry that is not
disabled does what `Rule.attempt` finds from the texts, and a disabled entry is for nobody.
-/

namespace Krb5.Kadm5

open Lib Name

/-! ## Entries by themselves -/

def bindings : List Octets → List Octets → Option (List Octets)
  | [], [] => some []
  | p :: ps, c :: cs =>
    if p = star then (bindings ps cs).map (c :: ·)
    else if p = c then bindings ps cs
    else none
  | _, _ => none

def targetAgrees (bound : List Octets) : List Octets → List Octets → Bool
  | [], [] => true
  | p :: ps, d :: ds =>
    (p == star ||
      match backrefIndex p with
      | some n => bound[n]? == some d
      | none => p == d) && targetAgrees bound ps ds
  | _, _ => false

def realmAgrees (pattern realm : Octets) : Bool := pattern == star || pattern == realm

namespace Rule

variable (env : Env)

/-- The pattern for the caller; a lone asterisk is not one. -/
def namePattern (rule : Rule) : Option Principal := (parseName env.defaultRealm rule.name).toOption

/-- What the asterisks in the name stand for, if it matches the caller. A lone asterisk matches
every caller. -/
def nameBindings (rule : Rule) (caller : Principal) : Option (List Octets) :=
  if rule.name = star then some []
  else do
    let pattern ← rule.namePattern env
    if realmAgrees pattern.realm caller.realm then bindings pattern.data caller.data else none

def targetPattern (rule : Rule) : Option Principal :=
  rule.target.bind fun target => (parseName env.defaultRealm target).toOption

/-- Whether the target matches. An entry without a target, or with a lone asterisk, is for
every target. -/
def targetMatches (rule : Rule) (bound : List Octets) (dest : Option Principal) : Bool :=
  match rule.target with
  | none => true
  | some target =>
    if target = star then true
    else
      match rule.targetPattern env, dest with
      | some pattern, some dest =>
        realmAgrees pattern.realm dest.realm && targetAgrees bound pattern.data dest.data
      | _, _ => false

def restrictionsValid (rule : Rule) : Bool :=
  rule.target == some star || rule.restrictionString.all fun string =>
    (aclParseRestrictions env string).isSome

/-- The entry, considered on its own, is for this caller and target. -/
def appliesTo (rule : Rule) (caller : Principal) (dest : Option Principal) : Bool :=
  ((rule.nameBindings env caller).any fun bound => rule.targetMatches env bound dest) &&
    rule.restrictionsValid env

end Rule

/-- The first entry that matches on its own allows the operation. -/
def allows (env : Env) (rules : List Rule) (caller : Principal) (opmask : Mask)
    (dest : Option Principal) : Bool :=
  (rules.find? fun rule => rule.appliesTo env caller dest).any fun rule =>
    rule.opAllowed &&& opmask = opmask

/-! ## What is kept in an entry -/

namespace Rule

variable (env : Env) (principal : Principal) (dest : Option Principal)

def tryName (rule : Rule) (ws : Wildstate) : Bool × Wildstate :=
  if rule.name = star then (true, ws)
  else
    match rule.namePattern env with
    | some pattern => matchPrincipal false pattern principal ws
    | none => (false, ws)

def tryTarget (rule : Rule) (ws : Wildstate) : Bool × Wildstate :=
  if rule.target = none ∨ rule.target = some star then (true, ws)
  else
    match rule.targetPattern env, dest with
    | some pattern, some dest => matchPrincipal true pattern dest ws
    | _, _ => (false, ws)

def tryRest (rule : Rule) (ws : Wildstate) : Bool × Wildstate :=
  ((rule.tryTarget env dest ws).1 && rule.restrictionsValid env, (rule.tryTarget env dest ws).2)

def attempt (rule : Rule) (ws : Wildstate) : Bool × Wildstate :=
  match rule.tryName env principal ws with
  | (false, ws) => (false, ws)
  | (true, ws) => rule.tryRest env dest ws

variable {env principal dest} in

theorem restrictionsValid_of_attempt {rule : Rule} {ws : Wildstate}
    (h : (rule.attempt env principal dest ws).1) : rule.restrictionsValid env := by
  unfold attempt at h
  split at h
  · cases h
  · exact (Bool.and_eq_true_iff.mp h).2

def restrictions (rule : Rule) : Option Restriction :=
  if rule.target = some star then none
  else rule.restrictionString.bind (aclParseRestrictions env)

end Rule

namespace Entry

/-- What is kept is what the text parses to, and a disabled entry is for nobody. -/
structure Consistent (env : Env) (entry : Entry) : Prop where
  principal : ∀ p ∈ entry.principal, entry.namePattern env = some p
  targetPrinc : ∀ p ∈ entry.targetPrinc, entry.targetPattern env = some p
  restrictions : ∀ r ∈ entry.restrictions, entry.toRule.restrictions env = some r
  targetBad : entry.targetBad = true → entry.nameBad = true
  restrictionBad : entry.restrictionBad = true → entry.nameBad = true
  nameBad : entry.nameBad = true → ∀ caller dest, entry.appliesTo env caller dest = false

theorem consistent_entry (env : Env) (rule : Rule) : rule.entry.Consistent env where
  principal _ h := nomatch h
  targetPrinc _ h := nomatch h
  restrictions _ h := nomatch h
  targetBad h := nomatch h
  restrictionBad h := nomatch h
  nameBad h := nomatch h

structure Attempted (env : Env) (entry : Entry) (found : Bool) (entry' : Entry) : Prop where
  toRule : entry'.toRule = entry.toRule
  consistent : entry'.Consistent env
  good : found = true → entry'.nameBad = false

def RestAs (env : Env) (dest : Option Principal) (entry : Entry) (ws : Wildstate) : Prop :=
  ∃ entry', entry.tryRest env dest ws = (entry', entry.toRule.tryRest env dest ws) ∧
    Attempted env entry (entry.toRule.tryRest env dest ws).1 entry' ∧
    ((entry.toRule.tryRest env dest ws).1 = true →
      entry'.restrictions = entry.toRule.restrictions env)

def AttemptAs (env : Env) (principal : Principal) (dest : Option Principal) (entry : Entry)
    (ws : Wildstate) : Prop :=
  ∃ entry', entry.attempt env principal dest ws =
      (entry', entry.toRule.attempt env principal dest ws) ∧
    Attempted env entry (entry.toRule.attempt env principal dest ws).1 entry' ∧
    ((entry.toRule.attempt env principal dest ws).1 = true →
      entry'.restrictions = entry.toRule.restrictions env)

variable {env : Env} {entry : Entry} {principal : Principal} {dest : Option Principal}

section

variable (hc : entry.Consistent env) (hgood : entry.nameBad = false)
include hc hgood

theorem loadPrincipal_eq :
    entry.loadPrincipal env = match entry.namePattern env with
      | some p => { entry with principal := some p }
      | none => { entry with nameBad := true } := by
  cases hcached : entry.principal with
  | none =>
    simp only [loadPrincipal, hcached, hgood, Rule.namePattern]
    cases parseName env.defaultRealm entry.name <;> rfl
  | some p =>
    have hself : entry = { entry with principal := some p } := by rw [← hcached]
    rw [hc.principal p hcached, loadPrincipal, hcached]
    exact hself

theorem Consistent.targetBad_eq_false :
    entry.targetBad = false :=
  Bool.eq_false_iff.mpr fun h => Bool.false_ne_true (hgood.symm.trans (hc.targetBad h))

theorem Consistent.restrictionBad_eq_false : entry.restrictionBad = false :=
  Bool.eq_false_iff.mpr fun h => Bool.false_ne_true (hgood.symm.trans (hc.restrictionBad h))

theorem loadTarget_eq
    {target : Octets} (htgt : entry.target = some target) :
    entry.loadTarget env = match entry.targetPattern env with
      | some p => { entry with targetPrinc := some p }
      | none => { entry with targetBad := true } := by
  cases hcached : entry.targetPrinc with
  | none =>
    simp only [loadTarget, hcached, hc.targetBad_eq_false hgood, htgt, Rule.targetPattern,
      Option.bind_some]
    cases parseName env.defaultRealm target <;> rfl
  | some p =>
    have hself : entry = { entry with targetPrinc := some p } := by rw [← hcached]
    rw [hc.targetPrinc p hcached, loadTarget, htgt, hcached]
    exact hself

/-- Restrictions that cannot be parsed make the entry a bad one. -/
theorem loadRestrictions_eq
    (htgt : entry.target ≠ some star) :
    entry.loadRestrictions env = if entry.restrictionsValid env then
        { entry with restrictions := entry.toRule.restrictions env }
      else { entry with restrictionBad := true } := by
  have hstar : (entry.target == some star) = false := beq_eq_false_iff_ne.mpr htgt
  cases hstr : entry.restrictionString with
  | none =>
    have hnone : entry.restrictions = none := by
      cases hcached : entry.restrictions with
      | none => rfl
      | some r =>
        have := hc.restrictions r hcached
        simp [Rule.restrictions, hstr] at this
    have hself : entry = { entry with restrictions := none } := by rw [← hnone]
    simp only [loadRestrictions, Rule.restrictionsValid, Rule.restrictions, if_neg htgt, hstr,
      Option.all_none, Bool.or_true]
    exact hself
  | some string =>
    cases hcached : entry.restrictions with
    | none =>
      simp only [loadRestrictions, hstr, hc.restrictionBad_eq_false hgood, hcached,
        Rule.restrictionsValid, Rule.restrictions, hstar, if_neg htgt, Option.bind_some,
        Option.all_some]
      cases aclParseRestrictions env string <;> rfl
    | some r =>
      have hparsed := hc.restrictions r hcached
      have hvalid : (aclParseRestrictions env string).isSome := by
        rw [Rule.restrictions, if_neg htgt, hstr] at hparsed
        exact Option.isSome_iff_exists.mpr ⟨r, hparsed⟩
      have hself : entry = { entry with restrictions := some r } := by rw [← hcached]
      simp only [loadRestrictions, hstr, hcached, Rule.restrictionsValid, hparsed, hvalid,
        Option.all_some, Bool.or_true, Option.isNone_some, Bool.and_false]
      exact hself

/-- An entry answers as its line does. -/
theorem tryName_eq (ws : Wildstate) :
    ∃ entry', entry.tryName env principal ws =
        (entry', entry.toRule.tryName env principal ws) ∧
      Attempted env entry (entry.toRule.tryName env principal ws).1 entry' := by
  unfold tryName Rule.tryName
  by_cases hstar : entry.name = star
  · rw [if_pos hstar, if_pos hstar]
    exact ⟨entry, rfl, rfl, hc, fun _ => hgood⟩
  rw [if_neg hstar, if_neg hstar, loadPrincipal_eq hc hgood]
  cases hpat : entry.namePattern env with
  | none =>
    refine ⟨{ entry with nameBad := true }, rfl, rfl, ?_, fun h => nomatch h⟩
    refine { hc with targetBad := fun _ => rfl, restrictionBad := fun _ => rfl, nameBad := ?_ }
    intro _ caller dest
    simp [Rule.appliesTo, Rule.nameBindings, hstar, hpat]
  | some p =>
    refine ⟨{ entry with principal := some p }, ?_, rfl, ?_, fun _ => hgood⟩
    · simp [hgood]
    refine { hc with principal := ?_ }
    intro q hq
    cases hq
    exact hpat

theorem restrictions_eq (htgt : entry.target ≠ some star) (ws : Wildstate) :
    ∃ entry', (if (entry.loadRestrictions env).restrictionBad then
          ({ entry.loadRestrictions env with nameBad := true }, false, ws)
        else (entry.loadRestrictions env, true, ws)) =
        (entry', entry.restrictionsValid env, ws) ∧
      Attempted env entry (entry.restrictionsValid env) entry' ∧
      (entry.restrictionsValid env → entry'.restrictions = entry.toRule.restrictions env) := by
  rw [loadRestrictions_eq hc hgood htgt]
  cases hvalid : entry.restrictionsValid env with
  | true =>
    refine ⟨{ entry with restrictions := entry.toRule.restrictions env }, ?_,
      ⟨rfl, ?_, fun _ => hgood⟩, fun _ => rfl⟩
    · simp [hc.restrictionBad_eq_false hgood]
    · exact { hc with restrictions := fun r hr => hr }
  | false =>
    refine ⟨{ entry with restrictionBad := true, nameBad := true }, rfl,
      ⟨rfl, ?_, fun h => nomatch h⟩, fun h => nomatch h⟩
    refine { hc with targetBad := fun _ => rfl, restrictionBad := fun _ => rfl, nameBad := ?_ }
    intro _ caller dest
    rw [Rule.appliesTo, hvalid, Bool.and_false]

omit hc hgood in
theorem restAs_of_load {entry₁ : Entry} {ws : Wildstate} (hstar : entry.target ≠ some star)
    (hload : entry.loadTarget env = entry₁) (hrule : entry₁.toRule = entry.toRule)
    (hc₁ : entry₁.Consistent env) (hgood₁ : entry₁.nameBad = false)
    (htry : entry₁.tryTarget dest ws = entry.toRule.tryTarget env dest ws) :
    RestAs env dest entry ws := by
  unfold RestAs
  rw [tryRest, if_neg hstar, hload]
  simp only [hc₁.targetBad_eq_false hgood₁, htry, Rule.tryRest]
  rcases entry.toRule.tryTarget env dest ws with ⟨_ | _, ws'⟩
  · exact ⟨entry₁, rfl, ⟨hrule, hc₁, fun _ => hgood₁⟩, fun h => nomatch h⟩
  rw [← hrule] at hstar ⊢
  obtain ⟨entry', heq, ⟨hrule', hc', hgood'⟩, hrestr⟩ :=
    restrictions_eq hc₁ hgood₁ hstar ws'
  exact ⟨entry', heq, ⟨hrule'.trans hrule, hc', hgood'⟩, hrestr⟩

theorem tryRest_eq (ws : Wildstate) : RestAs env dest entry ws := by
  by_cases hstar : entry.target = some star
  · -- the restrictions are not looked at
    have hrest : entry.toRule.tryRest env dest ws = (true, ws) := by
      simp [Rule.tryRest, Rule.tryTarget, Rule.restrictionsValid, hstar]
    have hnone : entry.restrictions = entry.toRule.restrictions env := by
      have hown : entry.toRule.restrictions env = none := if_pos hstar
      cases hcached : entry.restrictions with
      | none => exact hown.symm
      | some r => exact (hc.restrictions r hcached).symm
    rw [RestAs, hrest, tryRest, if_pos hstar]
    exact ⟨entry, rfl, ⟨rfl, hc, fun _ => hgood⟩, fun _ => hnone⟩
  cases htgt : entry.target with
  | none =>
    have hload : entry.loadTarget env = entry := by
      simp [loadTarget, htgt]
    have htry : entry.tryTarget dest ws = entry.toRule.tryTarget env dest ws := by
      simp [tryTarget, Rule.tryTarget, htgt]
    exact restAs_of_load hstar hload rfl hc hgood htry
  | some target =>
    have hload := loadTarget_eq hc hgood htgt
    have hsome : ¬(entry.target = none ∨ entry.target = some star) := by
      rintro (h | h)
      · exact nomatch htgt.symm.trans h
      · exact hstar h
    cases hpat : entry.targetPattern env with
    | none =>
      have hrest : entry.toRule.tryRest env dest ws = (false, ws) := by
        simp [Rule.tryRest, Rule.tryTarget, hsome, hpat]
      rw [hpat] at hload
      rw [RestAs, hrest, tryRest, if_neg hstar, hload]
      refine ⟨{ entry with targetBad := true, nameBad := true }, rfl,
        ⟨rfl, ?_, fun h => nomatch h⟩, fun h => nomatch h⟩
      refine { hc with targetBad := fun _ => rfl, restrictionBad := fun _ => rfl, nameBad := ?_ }
      intro _ caller dest
      have hstar' : target ≠ star := fun h => hstar (h ▸ htgt)
      simp [Rule.appliesTo, Rule.targetMatches, htgt, hstar', hpat]
    | some pattern =>
      rw [hpat] at hload
      refine restAs_of_load hstar hload rfl ?_ hgood ?_
      · refine { hc with targetPrinc := ?_ }
        intro p hp
        cases hp
        exact hpat
      · unfold Rule.tryTarget tryTarget
        rw [if_neg hsome, hpat]
        simp only [htgt]
        cases dest <;> rfl

theorem attempt_eq (ws : Wildstate) : AttemptAs env principal dest entry ws := by
  obtain ⟨e₁, hname, hrule, hc₁, hgood₁⟩ :
      ∃ e₁, entry.tryName env principal ws = (e₁, entry.toRule.tryName env principal ws) ∧
        Attempted env entry (entry.toRule.tryName env principal ws).1 e₁ := tryName_eq hc hgood ws
  simp only [AttemptAs, attempt, hgood, hname, Rule.attempt]
  generalize entry.toRule.tryName env principal ws = named at hgood₁ ⊢
  rcases named with ⟨_ | _, ws₁⟩
  · exact ⟨e₁, rfl, ⟨hrule, hc₁, hgood₁⟩, fun h => nomatch h⟩
  rw [← hrule]
  obtain ⟨e₂, hrest, ⟨hrule₂, hc₂, hgood₂⟩, hrestr⟩ : RestAs env dest e₁ ws₁ :=
    tryRest_eq hc₁ (hgood₁ rfl) ws₁
  exact ⟨e₂, hrest, ⟨hrule₂.trans hrule, hc₂, hgood₂⟩, hrestr⟩

end

/-- Using an entry does not change which line it stands for. -/
theorem attempt_keeps {entry' : Entry} {found : Bool} {ws ws' : Wildstate}
    (hc : entry.Consistent env) (h : entry.attempt env principal dest ws = (entry', found, ws')) :
    entry'.toRule = entry.toRule ∧ entry'.Consistent env ∧
      (found → entry'.restrictions = entry.toRule.restrictions env ∧
        entry.toRule.restrictionsValid env) := by
  cases hbad : entry.nameBad with
  | true =>
    rw [attempt, hbad] at h
    cases h
    exact ⟨rfl, hc, fun h => nomatch h⟩
  | false =>
    obtain ⟨entry₁, heq, ⟨hrule, hc₁, -⟩, hrestr⟩ : AttemptAs env principal dest entry ws :=
      attempt_eq hc hbad ws
    obtain ⟨rfl, hres⟩ := Prod.mk.inj (h.symm.trans heq)
    rw [← hres] at hrestr
    refine ⟨hrule, hc₁, fun hfound => ⟨hrestr hfound, ?_⟩⟩
    have hattempt : (entry.toRule.attempt env principal dest ws).1 := by
      rw [← hres]
      exact hfound
    exact Rule.restrictionsValid_of_attempt hattempt

end Entry

end Krb5.Kadm5
