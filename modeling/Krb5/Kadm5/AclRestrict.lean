import Krb5.Kadm5.AclLocal

/-!
# Restrictions of an entry

What `acl_impose_restrictions` makes of a request that was granted through an entry with
restrictions, and when that is what the restrictions ask for.
-/

namespace Krb5.Kadm5

open Lib List

/-! ## What the steps do -/

section Steps

def imposedAttributes (rp : Restriction) (attributes : Flags) : Flags :=
  if isSet rp.mask maskAttributes then clear (raise attributes rp.requireAttrs) rp.forbidAttrs
  else attributes

def imposedPolicy (rp : Restriction) (policy : Option Octets) : Option Octets :=
  if !isSet rp.mask maskPolicyClr && isSet rp.mask maskPolicy then rp.policy else policy

def imposedLimit (rp : Restriction) (bit : Mask) (limit : Int32) (mask : Mask) (value : Int32) :
    Int32 :=
  if isSet rp.mask bit then limited (isSet mask bit) value limit else value

variable (rp : Restriction) (request : Request)

theorem imposeAttributes_fst : (imposeAttributes rp request).1 =
    { request.1 with attributes := imposedAttributes rp request.1.attributes } := by
  unfold imposeAttributes imposedAttributes
  cases isSet rp.mask maskAttributes <;> rfl

theorem imposeAttributes_snd : (imposeAttributes rp request).2 =
    raiseIf (isSet rp.mask maskAttributes) request.2 maskAttributes := by
  unfold imposeAttributes
  cases isSet rp.mask maskAttributes <;> rfl

theorem imposePolicy_fst : (imposePolicy rp request).1 =
    { request.1 with policy := imposedPolicy rp request.1.policy } := by
  unfold imposePolicy imposedPolicy
  cases isSet rp.mask maskPolicyClr <;> cases isSet rp.mask maskPolicy <;> rfl

theorem imposePolicy_snd : (imposePolicy rp request).2 =
    if isSet rp.mask maskPolicyClr then raise (clear request.2 maskPolicy) maskPolicyClr
    else raiseIf (isSet rp.mask maskPolicy) request.2 maskPolicy := by
  unfold imposePolicy
  cases isSet rp.mask maskPolicyClr <;> cases isSet rp.mask maskPolicy <;> rfl

variable (bit : Mask) (limit : Int32) (get : PrincipalEnt → Int32)
  (put : PrincipalEnt → Int32 → PrincipalEnt)

theorem imposeLimit_fst (hput : ∀ ent, put ent (get ent) = ent) :
    (imposeLimit rp bit limit get put request).1 =
      put request.1 (imposedLimit rp bit limit request.2 (get request.1)) := by
  unfold imposeLimit imposedLimit
  cases isSet rp.mask bit with
  | false => exact (hput _).symm
  | true => rfl

theorem imposeLimit_snd : (imposeLimit rp bit limit get put request).2 =
    raiseIf (isSet rp.mask bit) request.2 bit := by
  unfold imposeLimit
  cases isSet rp.mask bit <;> rfl

end Steps

def ExpiresBy (value now : Timestamp) (lifetime : Deltat) : Prop :=
  value ≠ 0 ∧ value.toInt ≤ now.toInt + lifetime.toInt

/-- The limit does not wrap below zero and is not zero itself, and what is asked for is not
zero where the limit is no time before that. -/
structure Bounded (now : Timestamp) (lifetime : Deltat) (requested : Bool) (value : Timestamp) :
    Prop where
  no_underflow : -2 ^ 31 ≤ now.toInt + lifetime.toInt
  not_never : requested = true → value = 0 →
    now.toInt + lifetime.toInt < 0 ∨ 2 ^ 31 ≤ now.toInt + lifetime.toInt
  limit_ne : now.toInt + lifetime.toInt = 0 → requested = true ∧ value.toInt < 0

theorem toInt_limit (now : Timestamp) (lifetime : Deltat) {sum : Int}
    (hsum : now.toInt + lifetime.toInt = sum) :
    (now + lifetime).toInt = sum ∧ -2 ^ 31 ≤ sum ∧ sum < 2 ^ 31 ∨
      (now + lifetime).toInt = sum - 2 ^ 32 ∧ 2 ^ 31 ≤ sum ∧ sum < 2 ^ 32 ∨
      (now + lifetime).toInt = sum + 2 ^ 32 ∧ sum < -2 ^ 31 := by
  have hnow := now.toInt_lt
  have hnow' := now.le_toInt
  have hlife := lifetime.toInt_lt
  have hlife' := lifetime.le_toInt
  rw [Int32.toInt_add, Int.bmod_def]
  split <;> omega

/-- The limit is met unless a sum runs over or a time means never. -/
theorem expiresBy_limited_iff (now : Timestamp) (lifetime : Deltat) (requested : Bool)
    (value : Timestamp) :
    ExpiresBy (limited requested value (now + lifetime)) now lifetime ↔
      Bounded now lifetime requested value := by
  have hzero : ∀ t : Int32, t = 0 ↔ t.toInt = 0 := fun t => Int32.toInt_inj.symm
  have hlt : value > now + lifetime ↔ (now + lifetime).toInt < value.toInt := Int32.lt_iff_toInt_lt
  have hval' := value.le_toInt
  obtain ⟨sum, hsum⟩ : ∃ sum, now.toInt + lifetime.toInt = sum := ⟨_, rfl⟩
  have hlim := toInt_limit now lifetime hsum
  have hbounded : Bounded now lifetime requested value ↔ -2 ^ 31 ≤ sum ∧
      (requested → value = 0 → sum < 0 ∨ 2 ^ 31 ≤ sum) ∧
      (sum = 0 → requested ∧ value.toInt < 0) := by
    rw [← hsum]
    exact ⟨fun ⟨h, h', h''⟩ => ⟨h, h', h''⟩, fun ⟨h, h', h''⟩ => ⟨h, h', h''⟩⟩
  rw [hbounded, ExpiresBy, limited]
  generalize now + lifetime = limit at *
  cases requested with
  | false =>
    simp only [Bool.not_false, Bool.true_or, if_true, ne_eq, hzero, Bool.false_eq_true,
      false_imp_iff, true_and, false_and, imp_false]
    omega
  | true =>
    by_cases hlater : value > limit
    · have := hlt.mp hlater
      simp only [Bool.not_true, Bool.false_or, decide_eq_true hlater, if_true, ne_eq, hzero]
      omega
    · have := mt hlt.mpr hlater
      simp only [Bool.not_true, Bool.false_or, decide_eq_false hlater, Bool.false_eq_true,
        if_false, ne_eq, hzero, true_and, imp_iff_not_or, not_true_eq_false,
        false_or]
      omega

/-! ## What the restrictions ask for -/

/-- The record and its mask are as the restrictions ask for. Where a policy is named and the
policy is to be cleared, it is cleared. -/
structure Satisfies (rp : Restriction) (now : Timestamp) (request : Request) : Prop where
  attributes : isSet rp.mask maskAttributes = true → isSet request.2 maskAttributes = true ∧
    request.1.attributes &&& rp.requireAttrs = rp.requireAttrs ∧
    request.1.attributes &&& rp.forbidAttrs = 0
  policyClr : isSet rp.mask maskPolicyClr = true →
    isSet request.2 maskPolicyClr = true ∧ isSet request.2 maskPolicy = false
  policy : isSet rp.mask maskPolicyClr = false → isSet rp.mask maskPolicy = true →
    isSet request.2 maskPolicy = true ∧ request.1.policy = rp.policy
  princExpireTime : isSet rp.mask maskPrincExpireTime = true →
    isSet request.2 maskPrincExpireTime = true ∧
    ExpiresBy request.1.princExpireTime now rp.princLifetime
  pwExpiration : isSet rp.mask maskPwExpiration = true →
    isSet request.2 maskPwExpiration = true ∧ ExpiresBy request.1.pwExpiration now rp.pwLifetime
  maxLife : isSet rp.mask maskMaxLife = true →
    isSet request.2 maskMaxLife = true ∧ request.1.maxLife ≤ rp.maxLife
  maxRenewableLife : isSet rp.mask maskMaxRlife = true →
    isSet request.2 maskMaxRlife = true ∧ request.1.maxRenewableLife ≤ rp.maxRenewableLife

/-- No attribute is required and forbidden at once, and the times are such that the lesser of
what is asked for and the limit is what it should be. -/
structure Enforceable (rp : Restriction) (now : Timestamp) (request : Request) : Prop where
  attributes : isSet rp.mask maskAttributes = true → rp.requireAttrs &&& rp.forbidAttrs = 0
  princExpireTime : isSet rp.mask maskPrincExpireTime = true → Bounded now rp.princLifetime
    (isSet request.2 maskPrincExpireTime) request.1.princExpireTime
  pwExpiration : isSet rp.mask maskPwExpiration = true → Bounded now rp.pwLifetime
    (isSet request.2 maskPwExpiration) request.1.pwExpiration

def imposed (rp : Restriction) (now : Timestamp) (request : Request) : Request :=
  imposeMaxRlife rp (imposeMaxLife rp (imposePwExpiration now rp (imposePrincExpireTime now rp
    (imposePolicy rp (imposeAttributes rp request)))))

theorem limited_le (requested : Bool) (value limit : Int32) :
    limited requested value limit ≤ limit := by
  unfold limited
  split
  · exact Int32.le_refl limit
  rename_i h
  have hle : ¬value > limit := by
    intro hgt
    simp [hgt] at h
  exact Int32.not_lt.mp hle

theorem attributes_imposed (attributes require forbid : Flags) :
    clear (raise attributes require) forbid &&& require = require ∧
        clear (raise attributes require) forbid &&& forbid = 0 ↔ require &&& forbid = 0 := by
  have hbits : ∀ x y : Flags, x = y ↔ ∀ i (h : i < 32), x[i] = y[i] :=
    fun x y => ⟨fun h i _ => h ▸ rfl, BitVec.eq_of_getElem_eq⟩
  unfold clear raise
  simp only [hbits]
  constructor
  · grind
  · intro h
    refine ⟨fun i hi => ?_, fun i hi => ?_⟩ <;> have := h i hi <;> grind

section Imposed

variable (rp : Restriction) (now : Timestamp) (request : Request) {bit : Mask}

theorem isSet_imposePolicy (hpol : bit &&& ~~~maskPolicy = bit)
    (hraise : isSet maskPolicy bit = false) (hclr : isSet maskPolicyClr bit = false) :
    isSet (imposePolicy rp request).2 bit = isSet request.2 bit := by
  rw [imposePolicy_snd]
  split
  · rw [isSet_raise, isSet_clear_of_disjoint _ _ _ hpol, hclr, Bool.or_false]
  · rw [isSet_raiseIf, hraise, Bool.and_false, Bool.or_false]

theorem imposed_fst : (imposed rp now request).1 =
    { princExpireTime := imposedLimit rp maskPrincExpireTime (now + rp.princLifetime) request.2
        request.1.princExpireTime
      pwExpiration := imposedLimit rp maskPwExpiration (now + rp.pwLifetime) request.2
        request.1.pwExpiration
      maxLife := imposedLimit rp maskMaxLife rp.maxLife request.2 request.1.maxLife
      maxRenewableLife := imposedLimit rp maskMaxRlife rp.maxRenewableLife request.2
        request.1.maxRenewableLife
      attributes := imposedAttributes rp request.1.attributes
      policy := imposedPolicy rp request.1.policy } := by
  simp +decide only [imposed, imposeMaxRlife, imposeMaxLife, imposePwExpiration,
    imposePrincExpireTime, imposeLimit_fst, imposePolicy_fst, imposeAttributes_fst, imposedLimit,
    imposeLimit_snd, imposeAttributes_snd, isSet_imposePolicy, isSet_raiseIf_of_disjoint,
    implies_true]

theorem isSet_imposed_snd (hbit : bit ∈ [maskAttributes, maskPrincExpireTime,
      maskPwExpiration, maskMaxLife, maskMaxRlife]) (h : isSet rp.mask bit) :
    isSet (imposed rp now request).2 bit := by
  simp only [mem_cons, not_mem_nil, or_false] at hbit
  rcases hbit with rfl | rfl | rfl | rfl | rfl <;>
    simp +decide only [imposed, imposeMaxRlife, imposeMaxLife, imposePwExpiration,
      imposePrincExpireTime, imposeLimit_snd, imposeAttributes_snd, isSet_imposePolicy,
      isSet_raiseIf_of_disjoint, isSet_raiseIf, h, Bool.or_eq_true, or_true]

theorem isSet_imposed_policy (hbit : bit ∈ [maskPolicy, maskPolicyClr]) :
    isSet (imposed rp now request).2 bit =
      isSet (imposePolicy rp (imposeAttributes rp request)).2 bit := by
  simp only [mem_cons, not_mem_nil, or_false] at hbit
  rcases hbit with rfl | rfl <;>
    simp +decide only [imposed, imposeMaxRlife, imposeMaxLife, imposePwExpiration,
      imposePrincExpireTime, imposeLimit_snd, isSet_raiseIf_of_disjoint]

/-- Field by field, what is imposed holds exactly if it can be enforced. -/
theorem satisfies_imposed_iff :
    Satisfies rp now (imposed rp now request) ↔ Enforceable rp now request := by
  have hfields := imposed_fst rp now request
  have hset {bit : Mask} := @isSet_imposed_snd rp now request bit
  constructor
  · intro h
    refine ⟨fun hbit => ?_, fun hbit => ?_, fun hbit => ?_⟩
    · have hattrs := (h.attributes hbit).2
      rw [hfields] at hattrs
      simp only [imposedAttributes, hbit] at hattrs
      exact (attributes_imposed _ _ _).mp hattrs
    · have hexpires := (h.princExpireTime hbit).2
      rw [hfields] at hexpires
      simp only [imposedLimit, hbit] at hexpires
      exact (expiresBy_limited_iff ..).mp hexpires
    · have hexpires := (h.pwExpiration hbit).2
      rw [hfields] at hexpires
      simp only [imposedLimit, hbit] at hexpires
      exact (expiresBy_limited_iff ..).mp hexpires
  intro h
  refine ⟨fun hbit => ⟨hset (by simp) hbit, ?_⟩, fun hclr => ?_, fun hclr hbit => ?_,
    fun hbit => ⟨hset (by simp) hbit, ?_⟩, fun hbit => ⟨hset (by simp) hbit, ?_⟩,
    fun hbit => ⟨hset (by simp) hbit, ?_⟩, fun hbit => ⟨hset (by simp) hbit, ?_⟩⟩
  · rw [hfields]
    simp only [imposedAttributes, hbit]
    exact (attributes_imposed _ _ _).mpr (h.attributes hbit)
  · rw [isSet_imposed_policy rp now request (by simp),
      isSet_imposed_policy rp now request (by simp), imposePolicy_snd, if_pos hclr, isSet_raise,
      isSet_raise, isSet_clear_self]
    exact ⟨Bool.or_eq_true_iff.mpr (.inr rfl), rfl⟩
  · have hforced : imposedPolicy rp request.1.policy = rp.policy := by
      simp [imposedPolicy, hclr, hbit]
    rw [isSet_imposed_policy rp now request (by simp), imposePolicy_snd, hclr, hfields, hforced,
      if_neg Bool.false_ne_true, isSet_raiseIf, hbit]
    exact ⟨Bool.or_eq_true_iff.mpr (.inr rfl), rfl⟩
  all_goals
    rw [hfields]
    simp only [imposedLimit, hbit]
  · exact (expiresBy_limited_iff ..).mpr (h.princExpireTime hbit)
  · exact (expiresBy_limited_iff ..).mpr (h.pwExpiration hbit)
  · exact limited_le ..
  · exact limited_le ..

theorem satisfies_zero {rp : Restriction} (hmask : rp.mask = 0) (now : Timestamp)
    (request : Request) : Satisfies rp now request ∧ Enforceable rp now request := by
  have hbit : ∀ {p : Prop} (bit : Mask), isSet rp.mask bit → p := by
    intro p bit h
    rw [hmask] at h
    exact absurd (h.symm.trans (isSet_zero bit)) Bool.noConfusion
  refine ⟨⟨hbit _, hbit _, fun _ => hbit _, hbit _, hbit _, hbit _, hbit _⟩, ⟨hbit _, hbit _, hbit _⟩⟩

theorem aclImposeRestrictions_eq :
    aclImposeRestrictions (some now) request (some rp) = some (imposed rp now request) := by
  cases htime : isSet rp.mask (maskPrincExpireTime ||| maskPwExpiration) with
  | true => simp [aclImposeRestrictions, htime, imposed]
  | false =>
    obtain ⟨hprinc, hpw⟩ : isSet rp.mask maskPrincExpireTime = false ∧
        isSet rp.mask maskPwExpiration = false := by
      rwa [isSet_or, Bool.or_eq_false_iff] at htime
    have hskip : ∀ (t : Timestamp) (r : Request),
        imposePwExpiration t rp (imposePrincExpireTime t rp r) = r := by
      simp [imposePwExpiration, imposePrincExpireTime, imposeLimit, hprinc, hpw]
    simp [aclImposeRestrictions, imposed, hskip]

end Imposed

/-- After `acl_check` has granted an operation through an entry with restrictions, at any time
and for any request, `acl_impose_restrictions` makes of the request what the restrictions ask
for, exactly if they can be enforced; for an entry with a lone asterisk as its target, exactly
if the request is that already. -/
theorem acl_restrictions_imposed (env : Env) (rules : List Rule) (calls : List Call)
    (name : Octets) (princ : Principal) (hparse : Name.parseName env.defaultRealm name = .ok princ)
    (opmask : Mask) (dest : Option Principal) (entry : Entry)
    (hfound : (aclFindEntry env princ dest (afterCalls env (rules.map Rule.entry) calls)
      .zero).2 = some entry)
    (string : Octets) (hstring : entry.restrictionString = some string)
    (restrictions : Option Restriction)
    (hgranted : (aclCheck env (afterCalls env (rules.map Rule.entry) calls) (some name) opmask
      dest).2 = ⟨true, some restrictions⟩)
    (now : Timestamp) (request request' : Request)
    (himposed : aclImposeRestrictions (some now) request restrictions = some request') :
    (∃ rp, aclParseRestrictions env string = some rp ∧ Satisfies rp now request') ↔
      ∃ rp, aclParseRestrictions env string = some rp ∧
        if entry.target = some star then Satisfies rp now request
        else Enforceable rp now request := by
  obtain ⟨-, hc⟩ := afterCalls_entries env rules calls
  obtain ⟨-, -, hkept⟩ := @aclFindEntry_keeps env princ dest _ hc .zero
  obtain ⟨-, hown, hvalid⟩ := hkept entry hfound
  rw [aclCheck_of_ok _ _ _ hparse, hfound] at hgranted
  have hrestrictions : restrictions = entry.restrictions.filter fun r => r.mask ≠ 0 := by
    simp only [Answer.of] at hgranted
    split at hgranted
    · exact (Option.some.inj (congrArg Answer.restrictions hgranted)).symm
    · cases hgranted
  rw [hrestrictions, hown] at himposed
  by_cases hstar : entry.target = some star
  · rw [Rule.restrictions, if_pos hstar] at himposed
    cases himposed
    simp [if_pos hstar]
  rw [Rule.restrictions, if_neg hstar, hstring, Option.bind_some] at himposed
  have hparsed : (aclParseRestrictions env string).isSome = true := by
    simpa [Rule.restrictionsValid, hstar, hstring] using hvalid
  obtain ⟨rp, hrp⟩ := Option.isSome_iff_exists.mp hparsed
  rw [hrp] at himposed ⊢
  simp only [if_neg hstar, Option.some.injEq, exists_eq_left']
  by_cases hmask : rp.mask = 0
  · exact iff_of_true (satisfies_zero hmask now request').1 (satisfies_zero hmask now request).2
  · rw [Option.filter_some, if_pos (decide_eq_true hmask), aclImposeRestrictions_eq] at himposed
    cases himposed
    exact satisfies_imposed_iff rp now request

def hoursEnv : Env :=
  ⟨.error .configNodefrealm, fun s => if s = ascii "3h" then some 10800 else none⟩

def joeRule (target restrictions : String) : Rule :=
  ⟨ascii "joe@R", 1, some (ascii target), some (ascii restrictions)⟩

def someone : Option Principal := some ⟨ascii "R", [ascii "someone"], 1⟩

def maxLifeRestriction : Restriction :=
  { Restriction.zero with mask := maskMaxLife, maxLife := 10800 }

def expireRestriction : Restriction :=
  { Restriction.zero with mask := maskPrincExpireTime, princLifetime := 10800 }

def joeTried : Entry where
  toRule := joeRule "*@R" "-maxlife 3h"
  nameBad := false
  principal := some ⟨ascii "R", [ascii "joe"], 1⟩
  targetBad := false
  targetPrinc := some ⟨ascii "R", [star], 1⟩
  restrictionBad := false
  restrictions := some maxLifeRestriction

/-- A ticket life of a week is cut down to three hours. -/
theorem acl_restrictions_imposed_max_life :
    ∃ rp, aclParseRestrictions hoursEnv (ascii "-maxlife 3h") = some rp ∧
      Satisfies rp 1000000000 (⟨0, 0, 10800, 0, 0, none⟩, maskMaxLife) := by
  have hrp : aclParseRestrictions hoursEnv (ascii "-maxlife 3h") = some maxLifeRestriction := by
    decide +kernel
  refine (acl_restrictions_imposed hoursEnv [joeRule "*@R" "-maxlife 3h"] [] (ascii "joe@R")
    ⟨ascii "R", [ascii "joe"], 1⟩ (by decide +kernel) 1 someone joeTried (by decide +kernel)
    (ascii "-maxlife 3h") rfl (some maxLifeRestriction) (by decide +kernel) 1000000000
    (⟨0, 0, 604800, 0, 0, none⟩, maskMaxLife) (⟨0, 0, 10800, 0, 0, none⟩, maskMaxLife)
    (by decide +kernel)).mpr ⟨maxLifeRestriction, hrp, ?_⟩
  have hattributes : isSet maxLifeRestriction.mask maskAttributes ≠ true := by decide
  have hprinc : isSet maxLifeRestriction.mask maskPrincExpireTime ≠ true := by decide
  have hpw : isSet maxLifeRestriction.mask maskPwExpiration ≠ true := by decide
  exact ⟨fun h => absurd h hattributes, fun h => absurd h hprinc, fun h => absurd h hpw⟩

/-- The same restriction for every target is not imposed, and a principal that never expires
is not restricted by a time of expiration. -/
theorem acl_restrictions_bypassed :
    ((aclCheck hoursEnv [(joeRule "*" "-maxlife 3h").entry] (some (ascii "joe@R")) 1 someone).2 =
        ⟨true, some none⟩ ∧
      aclParseRestrictions hoursEnv (ascii "-maxlife 3h") = some maxLifeRestriction ∧
      aclImposeRestrictions (some 1000000000) (⟨0, 0, 604800, 0, 0, none⟩, maskMaxLife) none =
        some (⟨0, 0, 604800, 0, 0, none⟩, maskMaxLife)) ∧
    (aclCheck hoursEnv [(joeRule "*@R" "-expire 3h").entry] (some (ascii "joe@R")) 1 someone).2 =
        ⟨true, some (some expireRestriction)⟩ ∧
      aclImposeRestrictions (some 1000000000) (⟨0, 0, 0, 0, 0, none⟩, maskPrincExpireTime)
        (some expireRestriction) = some (⟨0, 0, 0, 0, 0, none⟩, maskPrincExpireTime) := by
  decide +kernel

end Krb5.Kadm5
