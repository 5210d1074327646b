import Krb5.Kadm5.AclEntry

/-!
# Which entry decides

`acl_find_entry` compares C strings, takes an empty component for an asterisk and uses one
`wildstate_t` for all entries.
-/

namespace Krb5.Kadm5

open Lib List Rule Name

theorem cstring_length_le (s : Octets) : (cstring s).length ≤ s.length :=
  (List.takeWhile_prefix _).length_le

/-- `strncmp` finds two strings of one length equal only if they are. -/
def NulClear (a b : Octets) : Prop := a.length = b.length → cstring a = cstring b → a = b

instance (a b : Octets) : Decidable (NulClear a b) := inferInstanceAs (Decidable (_ → _ → _))

theorem strncmpEq_eq {a b : Octets} {n : Nat} (hnul : NulClear a b)
    (hn : a.length = b.length → n = a.length) :
    (a.length == b.length && strncmpEq a b n) = (a == b) := by
  by_cases hlen : a.length = b.length
  · have htake : ∀ s : Octets, s.length = a.length → (cstring s).take n = cstring s := by
      intro s hs
      refine take_of_length_le ?_
      rw [hn hlen, ← hs]
      exact cstring_length_le s
    rw [strncmpEq, htake a rfl, htake b hlen.symm, hlen, beq_self_eq_true, Bool.true_and,
      Bool.eq_iff_iff, beq_iff_eq, beq_iff_eq]
    exact ⟨hnul hlen, congrArg cstring⟩
  · rw [beq_eq_false_iff_ne.mpr hlen]
    exact (beq_eq_false_iff_ne.mpr fun h => hlen (congrArg List.length h)).symm

/-- A component of an entry is compared as intended: it is not empty and does not begin with an
asterisk and a zero, which are taken for an asterisk, and no zero hides a difference. -/
def Clear (p c : Octets) : Prop := p ≠ [] ∧ ¬[0x2a, 0] <+: p ∧ NulClear p c

instance (p c : Octets) : Decidable (Clear p c) := inferInstanceAs (Decidable (_ ∧ _ ∧ _))

/-- A component is compared with `*` up to its own length. -/
theorem strncmpEq_star {s : Octets} (hne : s ≠ []) (hnul : ¬[0x2a, 0] <+: s) :
    strncmpEq s star s.length = (s == star) := by
  have hstar : (cstring star).take s.length = star := by
    refine take_of_length_le ?_
    exact Nat.succ_le_of_lt (length_pos_iff.mpr hne)
  rw [strncmpEq, hstar, take_of_length_le (cstring_length_le s), Bool.eq_iff_iff, beq_iff_eq,
    beq_iff_eq]
  refine ⟨fun h => ?_, fun h => by rw [h]; rfl⟩
  obtain ⟨rest, hrest⟩ : ∃ rest, s.dropWhile (· != 0) = rest := ⟨_, rfl⟩
  have hsplit : star ++ rest = s := by
    rw [← h, ← hrest]
    exact takeWhile_append_dropWhile
  cases rest with
  | nil => exact hsplit.symm
  | cons c rest =>
    -- behind the asterisk the string ends, though the component does not
    have hzero := head?_dropWhile_not (fun c : UInt8 => c != 0) s
    rw [hrest, head?_cons] at hzero
    obtain rfl : c = 0 := by simpa using hzero
    exact absurd ⟨rest, hsplit⟩ hnul

/-! ## Components -/

variable {ws : Wildstate} {bound : List Octets}

section Components

variable {e1 e2 : Octets}

theorem aclMatchData_realm (h : Clear e1 e2) (targetflag : Bool) :
    (aclMatchData e1 e2 targetflag none).1 = realmAgrees e1 e2 := by
  unfold aclMatchData realmAgrees
  rw [strncmpEq_star h.1 h.2.1]
  by_cases hstar : e1 = star
  · simp [hstar]
  · simp only [beq_eq_false_iff_ne.mpr hstar, Bool.false_or]
    exact strncmpEq_eq h.2.2 fun _ => rfl

theorem aclMatchData_caller (h : Clear e1 e2) :
    aclMatchData e1 e2 false (some ws) =
      if e1 = star then (true, some (ws.bind e2)) else (e1 == e2, some ws) := by
  unfold aclMatchData
  rw [strncmpEq_star h.1 h.2.1]
  by_cases hstar : e1 = star
  · simp [hstar]
  · simp only [beq_eq_false_iff_ne.mpr hstar, if_neg hstar]
    exact congrArg (·, some ws) (strncmpEq_eq h.2.2 fun _ => rfl)

/-- One component of a target. -/
def componentAgrees (bound : List Octets) (p d : Octets) : Bool :=
  p == star ||
    match backrefIndex p with
    | some n => bound[n]? == some d
    | none => p == d

theorem aclMatchData_target (h : Clear e1 e2)
    (href : ∀ n ∈ backrefIndex e1, ∀ c ∈ ws.backref[n]?, NulClear c e2) :
    aclMatchData e1 e2 true (some ws) = (componentAgrees ws.backref e1 e2, some ws) := by
  unfold aclMatchData componentAgrees
  rw [strncmpEq_star h.1 h.2.1]
  by_cases hstar : e1 = star
  · simp [hstar]
  simp only [beq_eq_false_iff_ne.mpr hstar, Bool.false_or]
  cases hidx : backrefIndex e1 with
  | none => exact congrArg (·, some ws) (strncmpEq_eq h.2.2 fun _ => rfl)
  | some n =>
    cases hbound : ws.backref[n]? with
    | none => simp [hbound]
    | some bound =>
      simp only [hbound]
      exact congrArg (·, some ws) (strncmpEq_eq (href n hidx bound hbound) Eq.symm)

theorem take_take_append (n : Nat) (l m : List Octets) : (l.take n ++ m).take n = (l ++ m).take n := by
  rcases Nat.le_total l.length n with h | h
  · rw [take_of_length_le h]
  · rw [take_append_of_le_length (by rw [length_take, Nat.min_eq_left h]),
      take_append_of_le_length h, take_take, Nat.min_self]

theorem Wildstate.backref_bind (ws : Wildstate) (e : Octets) :
    (ws.bind e).backref = (ws.backref ++ [e]).take 9 := by
  unfold Wildstate.bind
  split
  · exact (take_of_length_le (by rwa [length_append])).symm
  · rename_i h
    have hfull : ws.backref.length = 9 := Nat.le_antisymm ws.nwild_le (Nat.not_lt.mp h)
    rw [← hfull, take_left]

variable {ps cs ds : List Octets}

/-- The components of a name that are compared, which are those up to the first that differ. -/
def ClearUpTo : List Octets → List Octets → Prop
  | p :: ps, c :: cs => Clear p c ∧ (realmAgrees p c = true → ClearUpTo ps cs)
  | _, _ => True

/-- For the caller asterisks bind what they match, nine at most. -/
theorem matchComponents_caller (hclear : ClearUpTo ps cs) (hlen : ps.length = cs.length)
    (ws : Wildstate) : (matchComponents false ps cs ws).1 = (bindings ps cs).isSome ∧
      ∀ bound, bindings ps cs = some bound →
        (matchComponents false ps cs ws).2.backref = (ws.backref ++ bound).take 9 := by
  induction ps generalizing cs ws with
  | nil =>
    cases cs with
    | cons => cases hlen
    | nil =>
      refine ⟨rfl, fun bound h => ?_⟩
      cases h
      rw [append_nil, take_of_length_le ws.nwild_le]
      rfl
  | cons p ps ih =>
    cases cs with
    | nil => cases hlen
    | cons c cs =>
      unfold matchComponents bindings
      rw [aclMatchData_caller hclear.1]
      by_cases hstar : p = star
      · obtain ⟨hmatch, hbound⟩ := ih (hclear.2 (by simp [realmAgrees, hstar])) (Nat.succ.inj hlen)
          (ws.bind c)
        simp only [hstar, if_true, Option.getD_some, Option.isSome_map, Option.map_eq_some_iff]
        refine ⟨hmatch, ?_⟩
        rintro _ ⟨bound, hb, rfl⟩
        rw [hbound bound hb, Wildstate.backref_bind]
        rw [take_take_append, append_assoc]
        rfl
      · simp only [if_neg hstar, Option.getD_some]
        by_cases heq : p = c
        · simp only [heq, beq_self_eq_true, if_true]
          exact ih (hclear.2 (by simp [realmAgrees, heq])) (Nat.succ.inj hlen) ws
        · simp [heq]

def leads : List Octets → List Octets → Bool
  | p :: ps, c :: cs => p == star || (p == c && leads ps cs)
  | _, _ => false

theorem matchComponents_quiet (hclear : ClearUpTo ps cs) (hquiet : leads ps cs = false)
    (ws : Wildstate) : (matchComponents false ps cs ws).2 = ws := by
  induction ps generalizing cs with
  | nil => rfl
  | cons p ps ih =>
    cases cs with
    | nil => rfl
    | cons c cs =>
      simp only [leads, Bool.or_eq_false_iff, beq_eq_false_iff_ne, Bool.and_eq_false_iff] at hquiet
      unfold matchComponents
      rw [aclMatchData_caller hclear.1, if_neg hquiet.1]
      by_cases heq : p = c
      · simp only [heq, beq_self_eq_true, if_true, Option.getD_some]
        refine ih (hclear.2 (by simp [realmAgrees, heq])) ?_
        exact hquiet.2.resolve_left fun h => h heq
      · simp [heq]

theorem length_of_bindings (h : bindings ps cs = some bound) : ps.length = cs.length := by
  induction ps generalizing cs bound with
  | nil =>
    cases cs with
    | nil => rfl
    | cons => cases h
  | cons p ps ih =>
    cases cs with
    | nil => cases h
    | cons c cs =>
      unfold bindings at h
      split at h
      · obtain ⟨rest, hrest, -⟩ := Option.map_eq_some_iff.mp h
        exact congrArg Nat.succ (ih hrest)
      · split at h
        · exact congrArg Nat.succ (ih h)
        · cases h

theorem backrefIndex_lt {e : Octets} {n : Nat} (h : backrefIndex e = some n) : n < 9 := by
  unfold backrefIndex at h
  split at h
  · rename_i c d
    split at h
    · rename_i hd
      cases h
      have : d.toNat ≤ 0x39 := UInt8.le_iff_toNat_le.mp hd.2.2
      omega
    · cases h
  · cases h

/-- The components of a target that are compared. A reference is to the asterisks of the entry only
while no entry before has bound anything. -/
def FairTarget (fresh : Bool) (bound : List Octets) : List Octets → List Octets → Prop
  | p :: ps, d :: ds => Clear p d ∧
      (∀ n ∈ backrefIndex p, fresh = true ∧ ∀ c ∈ bound[n]?, NulClear c d) ∧
      (componentAgrees bound p d = true → FairTarget fresh bound ps ds)
  | _, _ => True

/-- For the target references are to what the caller has bound. -/
theorem matchComponents_target {fresh : Bool} (hfair : FairTarget fresh bound ps ds)
    (hlen : ps.length = ds.length) (hbound : fresh = true → ws.backref = bound.take 9) :
    matchComponents true ps ds ws = (targetAgrees bound ps ds, ws) := by
  induction ps generalizing ds with
  | nil =>
    cases ds with
    | cons => cases hlen
    | nil => rfl
  | cons p ps ih =>
    cases ds with
    | nil => cases hlen
    | cons d ds =>
      obtain ⟨hclear, href, hrest⟩ := hfair
      have hown : ∀ n ∈ backrefIndex p, ws.backref[n]? = bound[n]? := by
        intro n hn
        rw [hbound (href n hn).1, getElem?_take_of_lt (backrefIndex_lt hn)]
      have hagrees : componentAgrees ws.backref p d = componentAgrees bound p d := by
        unfold componentAgrees
        cases hidx : backrefIndex p with
        | none => rfl
        | some n => simp only [hown n hidx]
      have htarget : targetAgrees bound (p :: ps) (d :: ds) =
          (componentAgrees bound p d && targetAgrees bound ps ds) := rfl
      unfold matchComponents
      rw [htarget, aclMatchData_target hclear fun n hn c hc => (href n hn).2 c (hown n hn ▸ hc),
        hagrees]
      cases hgood : componentAgrees bound p d with
      | false => rfl
      | true => exact ih (hrest hgood) (Nat.succ.inj hlen)

theorem length_of_targetAgrees (h : targetAgrees bound ps ds) : ps.length = ds.length := by
  induction ps generalizing ds with
  | nil =>
    cases ds with
    | nil => rfl
    | cons => cases h
  | cons p ps ih =>
    cases ds with
    | nil => cases h
    | cons d ds =>
      exact congrArg Nat.succ (ih (Bool.and_eq_true_iff.mp h).2)

end Components

/-! ## Entries -/

namespace Rule

variable (env : Env)

/-- Everything that is compared at the entry, by itself, is compared as intended. -/
structure Fair (fresh : Bool) (caller : Principal) (dest : Option Principal) (rule : Rule) :
    Prop where
  name : rule.name ≠ star → ∀ p ∈ rule.namePattern env, Clear p.realm caller.realm ∧
    (realmAgrees p.realm caller.realm = true → p.data.length = caller.data.length →
      ClearUpTo p.data caller.data)
  target : ∀ bound ∈ rule.nameBindings env caller, rule.target ≠ some star →
    ∀ p ∈ rule.targetPattern env, ∀ d ∈ dest, Clear p.realm d.realm ∧
      (realmAgrees p.realm d.realm = true → p.data.length = d.data.length →
        FairTarget fresh bound p.data d.data)

/-- The entry binds something while it is tried for the caller. -/
def binds (rule : Rule) (caller : Principal) : Bool :=
  rule.name != star && (rule.namePattern env).any fun p =>
    realmAgrees p.realm caller.realm && p.data.length == caller.data.length &&
      leads p.data caller.data

variable {env} {rule : Rule} {caller : Principal} {dest : Option Principal} {fresh : Bool}

theorem tryName_eq (hfair : rule.Fair env fresh caller dest) :
    (rule.tryName env caller ws).1 = (rule.nameBindings env caller).isSome ∧
      (∀ bound, rule.nameBindings env caller = some bound →
        (rule.tryName env caller ws).2.backref = (ws.backref ++ bound).take 9) ∧
      (rule.binds env caller = false → (rule.tryName env caller ws).2 = ws) := by
  unfold tryName nameBindings binds
  by_cases hstar : rule.name = star
  · refine ⟨by simp [hstar], ?_, by simp [hstar]⟩
    intro bound hbound
    rw [if_pos hstar] at hbound ⊢
    cases hbound
    rw [append_nil, take_of_length_le ws.nwild_le]
  rw [if_neg hstar, if_neg hstar]
  cases hpat : rule.namePattern env with
  | none =>
    refine ⟨rfl, ?_, fun _ => rfl⟩
    intro bound h
    cases h
  | some pattern =>
    obtain ⟨hrealm, hdata⟩ := hfair.name hstar pattern hpat
    simp only [matchPrincipal, aclMatchData_realm hrealm, Option.bind_eq_bind, Option.bind_some,
      Option.any_some, bne_iff_ne.mpr hstar, Bool.true_and]
    by_cases hagrees : realmAgrees pattern.realm caller.realm
    · by_cases hlen : pattern.data.length = caller.data.length
      · obtain ⟨hmatch, hbound⟩ := matchComponents_caller (hdata hagrees hlen) hlen ws
        simp only [hagrees, hlen, beq_self_eq_true, Bool.and_true, if_true, Bool.true_and]
        exact ⟨hmatch, hbound, fun h => matchComponents_quiet (hdata hagrees hlen) h ws⟩
      · have hnone : bindings pattern.data caller.data = none := by
          by_contra h
          obtain ⟨bound, hbound⟩ := Option.ne_none_iff_exists'.mp h
          exact hlen (length_of_bindings hbound)
        simp [hagrees, hlen, hnone]
    · simp [hagrees]

theorem tryTarget_eq (hfair : rule.Fair env fresh caller dest)
    (hname : rule.nameBindings env caller = some bound)
    (hbound : fresh = true → ws.backref = bound.take 9) :
    rule.tryTarget env dest ws = (rule.targetMatches env bound dest, ws) := by
  unfold tryTarget targetMatches
  cases htgt : rule.target with
  | none => simp
  | some target =>
    by_cases hstar : target = star
    · simp [hstar]
    have hstar' : rule.target ≠ some star := by
      rw [htgt]
      exact fun h => hstar (Option.some.inj h)
    simp only [Option.some.injEq, hstar, reduceCtorEq, or_self, if_false]
    cases hpat : rule.targetPattern env with
    | none => rfl
    | some pattern =>
      cases dest with
      | none => rfl
      | some dest =>
        obtain ⟨hrealm, hdata⟩ := hfair.target bound hname hstar' pattern hpat dest rfl
        simp only [matchPrincipal, aclMatchData_realm hrealm]
        cases hagrees : realmAgrees pattern.realm dest.realm with
        | false => simp
        | true =>
          by_cases hlen : pattern.data.length = dest.data.length
          · rw [matchComponents_target (hdata hagrees hlen) hlen hbound]
            simp [hlen]
          · have hfalse : targetAgrees bound pattern.data dest.data = false :=
              Bool.eq_false_iff.mpr fun h => hlen (length_of_targetAgrees h)
            simp [hlen, hfalse]

/-- On a fair line the code decides as the line says. -/
theorem attempt_eq (hfair : rule.Fair env fresh caller dest) (hfresh : fresh = true → ws = .zero) :
    (rule.attempt env caller dest ws).1 = rule.appliesTo env caller dest ∧
      (rule.binds env caller = false → (rule.attempt env caller dest ws).2 = ws) := by
  have hname : (rule.tryName env caller ws).1 = (rule.nameBindings env caller).isSome ∧
      (∀ bound, rule.nameBindings env caller = some bound →
        (rule.tryName env caller ws).2.backref = (ws.backref ++ bound).take 9) ∧
      (rule.binds env caller = false → (rule.tryName env caller ws).2 = ws) := tryName_eq hfair
  unfold attempt appliesTo
  rcases htry : rule.tryName env caller ws with ⟨good, ws₁⟩
  rw [htry] at hname
  obtain ⟨hmatch, hbound, hquiet⟩ := hname
  cases hbindings : rule.nameBindings env caller with
  | none =>
    rw [hbindings] at hmatch
    cases hmatch
    exact ⟨rfl, hquiet⟩
  | some bound =>
    rw [hbindings] at hmatch
    cases hmatch
    have hown : fresh = true → ws₁.backref = bound.take 9 := by
      intro h
      rw [hbound bound hbindings, hfresh h]
      rfl
    simp only [tryRest, tryTarget_eq hfair hbindings hown, Option.any_some]
    exact ⟨trivial, hquiet⟩

end Rule

/-! ## The list -/

section List

variable {env : Env} {caller : Principal} {dest : Option Principal}

variable {entries : List Entry}

/-- A search leaves the lines as they are, and what it finds is one of them. -/
theorem aclFindEntry_keeps (hc : ∀ e ∈ entries, e.Consistent env) (ws : Wildstate) :
    (aclFindEntry env caller dest entries ws).1.map Entry.toRule = entries.map Entry.toRule ∧
      (∀ e ∈ (aclFindEntry env caller dest entries ws).1, e.Consistent env) ∧
      ∀ e ∈ (aclFindEntry env caller dest entries ws).2,
        e.toRule ∈ entries.map Entry.toRule ∧ e.restrictions = e.toRule.restrictions env ∧
          e.toRule.restrictionsValid env := by
  induction entries generalizing ws with
  | nil => exact ⟨rfl, hc, fun e he => nomatch he⟩
  | cons entry entries ih =>
    obtain ⟨⟨entry', found, ws'⟩, hattempt⟩ : ∃ r, entry.attempt env caller dest ws = r := ⟨_, rfl⟩
    obtain ⟨hrule, hc', hrestr⟩ := Entry.attempt_keeps (hc entry mem_cons_self) hattempt
    have ih := ih (fun e he => hc e (mem_cons_of_mem _ he)) ws'
    unfold aclFindEntry
    rw [hattempt]
    cases found with
    | true =>
      refine ⟨by simp [hrule], ?_, ?_⟩
      · intro e he
        rcases mem_cons.mp he with rfl | he
        · exact hc'
        · exact hc e (mem_cons_of_mem _ he)
      · intro e he
        cases he
        rw [hrule]
        exact ⟨mem_map_of_mem mem_cons_self, hrestr rfl⟩
    | false =>
      obtain ⟨hrules, hconsistent, hfound⟩ := ih
      refine ⟨by simp [hrule, hrules], ?_, ?_⟩
      · intro e he
        rcases mem_cons.mp he with rfl | he
        · exact hc'
        · exact hconsistent e he
      · intro e he
        obtain ⟨hmem, h⟩ := hfound e he
        exact ⟨mem_cons_of_mem _ hmem, h⟩

/-- Everything that is compared until the first entry that is for the caller and the target is
compared as intended. Disabled entries are passed over. -/
def FairUpTo (env : Env) (caller : Principal) (dest : Option Principal) : Bool → List Entry → Prop
  | _, [] => True
  | fresh, entry :: entries =>
    if entry.nameBad then FairUpTo env caller dest fresh entries
    else
      entry.toRule.Fair env fresh caller dest ∧
        (entry.toRule.appliesTo env caller dest = false →
          FairUpTo env caller dest (fresh && !entry.toRule.binds env caller) entries)

/-- The first entry that is for the caller and the target by itself is found. -/
theorem aclFindEntry_first {fresh : Bool} (hc : ∀ e ∈ entries, e.Consistent env)
    (hfair : FairUpTo env caller dest fresh entries) (hfresh : fresh = true → ws = .zero) :
    (aclFindEntry env caller dest entries ws).2.map Entry.toRule =
      (entries.map Entry.toRule).find? fun rule => rule.appliesTo env caller dest := by
  induction entries generalizing ws fresh with
  | nil => rfl
  | cons entry entries ih =>
    have hc₀ := hc entry mem_cons_self
    have ih := fun {ws'} {fresh'} => @ih ws' fresh' fun e he => hc e (mem_cons_of_mem _ he)
    unfold FairUpTo at hfair
    unfold aclFindEntry
    rw [map_cons, find?_cons]
    cases hbad : entry.nameBad with
    | true =>
      have hskip : entry.attempt env caller dest ws = (entry, false, ws) := by
        rw [Entry.attempt, hbad]
        rfl
      rw [hbad] at hfair
      rw [hskip, hc₀.nameBad hbad]
      exact ih hfair hfresh
    | false =>
      rw [hbad] at hfair
      obtain ⟨hentry, hrest⟩ := hfair
      obtain ⟨entry', hattempt, ⟨hrule, -, -⟩, -⟩ : Entry.AttemptAs env caller dest entry ws :=
        Entry.attempt_eq hc₀ hbad ws
      obtain ⟨happlies, hquiet⟩ := attempt_eq hentry hfresh
      rw [hattempt, ← happlies]
      rw [← happlies] at hrest
      rcases hres : entry.toRule.attempt env caller dest ws with ⟨found, ws'⟩
      rw [hres] at hquiet hrest
      cases found with
      | true => exact congrArg some hrule
      | false =>
        -- what was bound is still nothing, unless this entry has bound something
        refine ih (hrest rfl) fun h => ?_
        obtain ⟨hold, hnot⟩ := Bool.and_eq_true_iff.mp h
        exact (hquiet (by simpa using hnot)).trans (hfresh hold)

/-! ## Calls -/

structure Call where
  caller : Option Octets
  opmask : Mask
  principal : Option Principal

def afterCalls (env : Env) (entries : List Entry) (calls : List Call) : List Entry :=
  calls.foldl (fun entries call =>
    (aclCheck env entries call.caller call.opmask call.principal).1) entries

theorem aclCheck_keeps (hc : ∀ e ∈ entries, e.Consistent env) (call : Call) :
    (aclCheck env entries call.caller call.opmask call.principal).1.map Entry.toRule =
        entries.map Entry.toRule ∧
      ∀ e ∈ (aclCheck env entries call.caller call.opmask call.principal).1, e.Consistent env := by
  cases hcaller : call.caller with
  | none => exact ⟨rfl, hc⟩
  | some name =>
    cases hparse : parseName env.defaultRealm name with
    | error _ =>
      rw [aclCheck_of_error _ _ _ hparse]
      exact ⟨rfl, hc⟩
    | ok princ =>
      obtain ⟨hrules, hconsistent, -⟩ :=
        @aclFindEntry_keeps env princ call.principal entries hc .zero
      rw [aclCheck_of_ok _ _ _ hparse]
      exact ⟨hrules, hconsistent⟩

theorem afterCalls_keeps (hc : ∀ e ∈ entries, e.Consistent env) (calls : List Call) :
    (afterCalls env entries calls).map Entry.toRule = entries.map Entry.toRule ∧
      ∀ e ∈ afterCalls env entries calls, e.Consistent env := by
  induction calls generalizing entries with
  | nil => exact ⟨rfl, hc⟩
  | cons call calls ih =>
    obtain ⟨hrules, hc'⟩ := aclCheck_keeps hc call
    obtain ⟨hrules', hc''⟩ := ih hc'
    exact ⟨hrules'.trans hrules, hc''⟩

theorem afterCalls_entries (env : Env) (rules : List Rule) (calls : List Call) :
    (afterCalls env (rules.map entry) calls).map Entry.toRule = rules ∧
      ∀ e ∈ afterCalls env (rules.map entry) calls, e.Consistent env := by
  have hc : ∀ e ∈ rules.map entry, e.Consistent env := by
    intro e he
    obtain ⟨rule, -, rfl⟩ := mem_map.mp he
    exact Entry.consistent_entry env rule
  obtain ⟨hrules, hconsistent⟩ := afterCalls_keeps hc calls
  refine ⟨hrules.trans ?_, hconsistent⟩
  rw [map_map]
  exact map_id rules

/-- The decision for a caller whose name can be displayed and parsed; there is none for
others. -/
def decision (env : Env) (rules : List Rule) (caller : Option Octets) (opmask : Mask)
    (dest : Option Principal) : Bool :=
  (caller.bind fun name => (parseName env.defaultRealm name).toOption).any fun princ =>
    allows env rules princ opmask dest

/-- After any calls, if every comparison up to the first entry that is for the caller and the target
by itself is one that the code makes as intended, the caller is granted what that entry allows exactly
if the displayed name of the caller can be parsed. -/
theorem acl_first_match (env : Env) (rules : List Rule) (calls : List Call) (caller : Option Octets)
    (opmask : Mask) (dest : Option Principal)
    (hfair : ∀ name ∈ caller, ∀ princ, parseName env.defaultRealm name = .ok princ →
      FairUpTo env princ dest true (afterCalls env (rules.map entry) calls)) :
    (aclCheck env (afterCalls env (rules.map entry) calls) caller opmask dest).2.granted =
        decision env rules caller opmask dest ↔
      ∀ name ∈ caller, ∃ princ, parseName env.defaultRealm name = .ok princ := by
  obtain ⟨hrules, hc⟩ := afterCalls_entries env rules calls
  generalize afterCalls env (rules.map entry) calls = entries at hrules hc hfair
  cases caller with
  | none => exact ⟨fun _ _ h => (nomatch h), fun _ => rfl⟩
  | some name =>
    cases hparse : parseName env.defaultRealm name with
    | error e =>
      constructor
      · intro h
        rw [aclCheck_of_error _ _ _ hparse] at h
        simp [decision, hparse, Except.toOption] at h
      · intro h
        obtain ⟨princ, hprinc⟩ := h name rfl
        exact nomatch hparse.symm.trans hprinc
    | ok princ =>
      have hfirst := aclFindEntry_first hc (hfair name rfl princ hparse) fun _ => rfl
      rw [hrules] at hfirst
      refine iff_of_true ?_ fun name' h => ?_
      · rw [aclCheck_of_ok _ _ _ hparse]
        simp only [decision, hparse, allows, Option.bind_some, Except.toOption, Option.any_some,
          ← hfirst]
        cases (aclFindEntry env princ dest entries .zero).2 with
        | none => rfl
        | some entry =>
          by_cases hop : entry.opAllowed &&& opmask = opmask <;> simp [Answer.of, hop]
      · cases h
        exact ⟨princ, hparse⟩

end List

def bareEnv : Env := ⟨.error .configNodefrealm, fun _ => none⟩

/-- All operations for the administrators named in the first component of the target. -/
def ownRule : Rule := ⟨ascii "*/admin@R", 0x1af, some (ascii "*1@R"), none⟩

/-- An entry with an empty component. -/
def emptyRule : Rule := ⟨ascii "joe/@R", 0x1af, none, none⟩

/-- The administrator `joe/admin` is granted what is asked for `joe`, before the empty component is
looked at. -/
theorem acl_first_match_own :
    (aclCheck bareEnv (afterCalls bareEnv ([ownRule, emptyRule].map entry) [])
        (some (ascii "joe/admin@R")) 1 (some ⟨ascii "R", [ascii "joe"], 1⟩)).2.granted =
      decision bareEnv [ownRule, emptyRule] (some (ascii "joe/admin@R")) 1
        (some ⟨ascii "R", [ascii "joe"], 1⟩) := by
  have hparse : parseName bareEnv.defaultRealm (ascii "joe/admin@R") =
      .ok ⟨ascii "R", [ascii "joe", ascii "admin"], 1⟩ := by decide +kernel
  have hname : ownRule.namePattern bareEnv = some ⟨ascii "R", [star, ascii "admin"], 1⟩ := by
    decide +kernel
  have htgt : ownRule.targetPattern bareEnv = some ⟨ascii "R", [ascii "*1"], 1⟩ := by
    decide +kernel
  have hbound : ownRule.nameBindings bareEnv ⟨ascii "R", [ascii "joe", ascii "admin"], 1⟩ =
      some [ascii "joe"] := by decide +kernel
  refine (acl_first_match bareEnv [ownRule, emptyRule] [] (some (ascii "joe/admin@R")) 1
    (some ⟨ascii "R", [ascii "joe"], 1⟩) ?_).mpr ?_
  · rintro name ⟨⟩ princ hprinc
    cases hparse.symm.trans hprinc
    refine ⟨⟨?_, ?_⟩, fun h => absurd h (by decide +kernel)⟩
    · intro _ p hp
      cases hname.symm.trans hp
      refine ⟨by decide, fun _ _ => ⟨by decide, fun _ => ⟨by decide, fun _ => trivial⟩⟩⟩
    · intro bound hb _ p hp d hd
      cases hbound.symm.trans hb
      cases htgt.symm.trans hp
      cases hd
      refine ⟨by decide, fun _ _ => ⟨by decide, fun n hn => ⟨rfl, ?_⟩, fun _ => trivial⟩⟩
      cases hn
      decide
  · rintro name ⟨⟩
    exact ⟨_, hparse⟩

/-- A caller whose name cannot be parsed is granted everything. What the asterisk of an entry
before stood for is taken for `*1`. An empty component matches any other. -/
theorem acl_not_local :
    ((aclCheck bareEnv [] (some (ascii "joe@")) 0x1af none).2.granted = true ∧
      decision bareEnv [] (some (ascii "joe@")) 0x1af none = false) ∧
    ((aclCheck bareEnv ([⟨ascii "*/admin@R", 1, some (ascii "z@R"), none⟩,
          ⟨ascii "joe/*@R", 1, some (ascii "*1@R"), none⟩].map entry)
        (some (ascii "joe/admin@R")) 1 (some ⟨ascii "R", [ascii "joe"], 1⟩)).2.granted = true ∧
      decision bareEnv [⟨ascii "*/admin@R", 1, some (ascii "z@R"), none⟩,
          ⟨ascii "joe/*@R", 1, some (ascii "*1@R"), none⟩]
        (some (ascii "joe/admin@R")) 1 (some ⟨ascii "R", [ascii "joe"], 1⟩) = false) ∧
    ((aclCheck bareEnv ([⟨ascii "joe/@R", 1, none, none⟩].map entry)
        (some (ascii "joe/guest@R")) 1 none).2.granted = true ∧
      decision bareEnv [⟨ascii "joe/@R", 1, none, none⟩] (some (ascii "joe/guest@R")) 1 none =
        false) := by
  decide +kernel

end Krb5.Kadm5
