import Krb5.Name.Text

/-!
# Access control lists (`server_acl.c`)

The names and the restrictions of an entry are texts that are parsed when the entry is first tried;
what came of it is kept in the entry, and one that cannot be parsed disables the entry. An asterisk
stands for one component, and `*1` to `*9` in a target for what the asterisks in the caller's name
stood for.
-/

namespace Krb5.Kadm5

open Lib Name

def strncmpEq (s1 s2 : Octets) (n : Nat) : Bool := (cstring s1).take n == (cstring s2).take n

def tolower (c : UInt8) : UInt8 := if 0x41 ≤ c ∧ c ≤ 0x5a then c + 0x20 else c

def strcasecmpEq (s1 s2 : Octets) : Bool := s1.map tolower == s2.map tolower

/-- What `strtok` returns, call by call. -/
def strtok (delims s : Octets) : List Octets :=
  (s.splitOnP fun c => delims.contains c).filter fun token => !token.isEmpty

abbrev Mask := BitVec 32

def maskPrincExpireTime : Mask := 0x000002
def maskPwExpiration : Mask := 0x000004
def maskAttributes : Mask := 0x000010
def maskMaxLife : Mask := 0x000020
def maskPolicy : Mask := 0x000800
def maskPolicyClr : Mask := 0x001000
def maskMaxRlife : Mask := 0x002000

/-! ## Restrictions -/

structure FlagsLookupEntry where
  flags : Flags
  sense : Bool
  specifier : Octets

def flagsTable : List FlagsLookupEntry := [
  ⟨0x0001, false, ascii "postdateable"⟩,
  ⟨0x0002, false, ascii "forwardable"⟩,
  ⟨0x0004, false, ascii "tgt-based"⟩,
  ⟨0x0008, false, ascii "renewable"⟩,
  ⟨0x0010, false, ascii "proxiable"⟩,
  ⟨0x0020, false, ascii "dup-skey"⟩,
  ⟨0x0040, false, ascii "allow-tickets"⟩,
  ⟨0x0080, true, ascii "preauth"⟩,
  ⟨0x0100, true, ascii "hwauth"⟩,
  ⟨0x0200, true, ascii "pwchange"⟩,
  ⟨0x1000, false, ascii "service"⟩,
  ⟨0x2000, true, ascii "pwservice"⟩,
  ⟨0x4000, true, ascii "md5"⟩]

/-- The sign in front of a specifier and what is behind it, for the signs `+` and `-`. -/
def signed (string : Octets) : Bool × Octets :=
  if string.head? = some 0x2d then (false, string.tail)
  else if string.head? = some 0x2b then (true, string.tail)
  else (true, string)

/-- `krb5_string_to_flags` with the signs `+` and `-`: the new flags, or `EINVAL`. -/
def stringToFlags (string : Octets) (flags : Flags) : Option Flags :=
  (flagsTable.find? fun entry => strcasecmpEq (signed string).2 entry.specifier).map fun entry =>
    if (signed string).1 = entry.sense then raise flags entry.flags else clear flags entry.flags

structure Restriction where
  mask : Mask
  requireAttrs : Flags
  forbidAttrs : Flags
  princLifetime : Deltat
  pwLifetime : Deltat
  maxLife : Deltat
  maxRenewableLife : Deltat
  policy : Option Octets
deriving DecidableEq, Repr

def Restriction.zero : Restriction := ⟨0, 0, 0, 0, 0, 0, 0, none⟩

/-- What `krb5_parse_name` and `krb5_string_to_deltat` depend on. -/
structure Env where
  defaultRealm : Except Name.Code Octets
  stringToDeltat : Octets → Option Deltat

/-- A flag name with its sign: whether it requires an attribute or forbids one is found by
what it does to a word without and to a word with all of them. -/
def Restriction.addFlag (r : Restriction) (token : Octets) (flag : Flags) : Restriction :=
  let r := if flag ≠ 0 then { r with requireAttrs := r.requireAttrs ||| flag }
    else
      let flag := (stringToFlags token (~~~0)).getD (~~~0)
      { r with forbidAttrs := r.forbidAttrs ||| ~~~flag }
  { r with mask := raise r.mask maskAttributes }

def Restriction.addLimit (r : Restriction) (token : Octets) (dt : Deltat) : Option Restriction :=
  if token = ascii "-expire" then
    some { r with princLifetime := dt, mask := raise r.mask maskPrincExpireTime }
  else if token = ascii "-pwexpire" then
    some { r with pwLifetime := dt, mask := raise r.mask maskPwExpiration }
  else if token = ascii "-maxlife" then
    some { r with maxLife := dt, mask := raise r.mask maskMaxLife }
  else if token = ascii "-maxrenewlife" then
    some { r with maxRenewableLife := dt, mask := raise r.mask maskMaxRlife }
  else none

/-- The loop of `acl_parse_restrictions`. -/
def parseTokens (env : Env) : List Octets → Restriction → Option Restriction
  | [], r => some r
  | token :: rest, r =>
    match stringToFlags token 0 with
    | some flag => parseTokens env rest (r.addFlag token flag)
    | none =>
      if token = ascii "-clearpolicy" then
        parseTokens env rest { r with mask := raise r.mask maskPolicyClr }
      else
        match rest with
        | [] => none
        | arg :: rest =>
          if token = ascii "-policy" then
            parseTokens env rest
              { r with policy := some arg, mask := raise r.mask maskPolicy }
          else do
            let dt ← env.stringToDeltat arg
            parseTokens env rest (← r.addLimit token dt)

/-- `acl_parse_restrictions` of a string: what it allocates, or an error. -/
def aclParseRestrictions (env : Env) (s : Octets) : Option Restriction :=
  parseTokens env (strtok [0x09, 0x0a, 0x0c, 0x0b, 0x0d, 0x20, 0x2c] s) .zero

/-- The fields of `kadm5_principal_ent_rec` that can be restricted. -/
structure PrincipalEnt where
  princExpireTime : Timestamp
  pwExpiration : Timestamp
  maxLife : Deltat
  maxRenewableLife : Deltat
  attributes : Flags
  policy : Option Octets
deriving DecidableEq, Repr

/-- The lesser of the two values, or the limit where the mask names no value. -/
def limited (requested : Bool) (value limit : Int32) : Int32 :=
  if !requested || value > limit then limit else value

abbrev Request := PrincipalEnt × Mask

def imposeAttributes (rp : Restriction) : Request → Request
  | (ent, mask) =>
    if isSet rp.mask maskAttributes then
      ({ ent with attributes := clear (raise ent.attributes rp.requireAttrs) rp.forbidAttrs },
        raise mask maskAttributes)
    else (ent, mask)

def imposePolicy (rp : Restriction) : Request → Request
  | (ent, mask) =>
    if isSet rp.mask maskPolicyClr then (ent, raise (clear mask maskPolicy) maskPolicyClr)
    else if isSet rp.mask maskPolicy then
      ({ ent with policy := rp.policy }, raise mask maskPolicy)
    else (ent, mask)

def imposeLimit (rp : Restriction) (bit : Mask) (limit : Int32) (get : PrincipalEnt → Int32)
    (put : PrincipalEnt → Int32 → PrincipalEnt) : Request → Request
  | (ent, mask) =>
    if isSet rp.mask bit then
      (put ent (limited (isSet mask bit) (get ent) limit), raise mask bit)
    else (ent, mask)

def imposePrincExpireTime (now : Timestamp) (rp : Restriction) : Request → Request :=
  imposeLimit rp maskPrincExpireTime (now + rp.princLifetime) PrincipalEnt.princExpireTime
    fun ent t => { ent with princExpireTime := t }

def imposePwExpiration (now : Timestamp) (rp : Restriction) : Request → Request :=
  imposeLimit rp maskPwExpiration (now + rp.pwLifetime) PrincipalEnt.pwExpiration
    fun ent t => { ent with pwExpiration := t }

def imposeMaxLife (rp : Restriction) : Request → Request :=
  imposeLimit rp maskMaxLife rp.maxLife PrincipalEnt.maxLife
    fun ent t => { ent with maxLife := t }

def imposeMaxRlife (rp : Restriction) : Request → Request :=
  imposeLimit rp maskMaxRlife rp.maxRenewableLife PrincipalEnt.maxRenewableLife
    fun ent t => { ent with maxRenewableLife := t }

/-- `acl_impose_restrictions`: the record and its mask, or the error of `krb5_timeofday`. -/
def aclImposeRestrictions (timeofday : Option Timestamp) (request : Request)
    (rp : Option Restriction) : Option Request :=
  match rp with
  | none => some request
  | some rp => do
      let now ←
        if isSet rp.mask (maskPrincExpireTime ||| maskPwExpiration) then timeofday else some 0
      let request := imposePolicy rp (imposeAttributes rp request)
      let request := imposePwExpiration now rp (imposePrincExpireTime now rp request)
      some (imposeMaxRlife rp (imposeMaxLife rp request))

def star : Octets := [0x2a]

/-- `wildstate_t`: what the wildcards have stood for, as far as there is room. -/
structure Wildstate where
  backref : List Octets
  nwild_le : backref.length ≤ 9

def Wildstate.zero : Wildstate := ⟨[], Nat.zero_le 9⟩

/-- `if (ws->nwild < 9) ws->backref[ws->nwild++] = e2;`. -/
def Wildstate.bind (ws : Wildstate) (e2 : Octets) : Wildstate :=
  if h : ws.backref.length < 9 then ⟨ws.backref ++ [e2], by rwa [List.length_append]⟩ else ws

def backrefIndex : Octets → Option Nat
  | [c, d] => if c = 0x2a ∧ 0x31 ≤ d ∧ d ≤ 0x39 then some (d.toNat - 0x31) else none
  | _ => none

def aclMatchData (e1 e2 : Octets) (targetflag : Bool) (ws : Option Wildstate) :
    Bool × Option Wildstate :=
  if strncmpEq e1 star e1.length then
    (true, if targetflag then ws else ws.map fun ws => ws.bind e2)
  else
    match ws, targetflag, backrefIndex e1 with
    | some ws, true, some n =>
      match ws.backref[n]? with
      | some bound => (bound.length == e2.length && strncmpEq bound e2 e2.length, some ws)
      | none => (false, some ws)
    | _, _, _ => (e1.length == e2.length && strncmpEq e1 e2 e1.length, ws)

/-- The loop over the components, which are as many on both sides. -/
def matchComponents (targetflag : Bool) : List Octets → List Octets → Wildstate → Bool × Wildstate
  | e1 :: es1, e2 :: es2, ws =>
    let (good, ws') := aclMatchData e1 e2 targetflag (some ws)
    if good then matchComponents targetflag es1 es2 (ws'.getD ws) else (false, ws'.getD ws)
  | _, _, ws => (true, ws)

/-- The comparison of a name with a pattern in `acl_find_entry`. -/
def matchPrincipal (targetflag : Bool) (pattern principal : Principal) (ws : Wildstate) :
    Bool × Wildstate :=
  if (aclMatchData pattern.realm principal.realm targetflag none).1 &&
      pattern.data.length == principal.data.length then
    matchComponents targetflag pattern.data principal.data ws
  else (false, ws)

/-! ## Entries -/

structure Rule where
  name : Octets
  opAllowed : Mask
  target : Option Octets
  restrictionString : Option Octets
deriving DecidableEq, Repr

/-- `aent_t`: the line and what is kept of parsing it. -/
structure Entry extends Rule where
  nameBad : Bool
  principal : Option Principal
  targetBad : Bool
  targetPrinc : Option Principal
  restrictionBad : Bool
  restrictions : Option Restriction
deriving DecidableEq, Repr

/-- The entry that `acl_parse_line` makes. -/
def Rule.entry (rule : Rule) : Entry := ⟨rule, false, none, false, none, false, none⟩

namespace Entry

variable (env : Env)

def loadPrincipal (entry : Entry) : Entry :=
  if entry.principal.isNone && !entry.nameBad then
    match parseName env.defaultRealm entry.name with
    | .ok principal => { entry with principal := some principal }
    | .error _ => { entry with nameBad := true }
  else entry

def loadTarget (entry : Entry) : Entry :=
  match entry.target with
  | some target =>
    if entry.targetPrinc.isNone && !entry.targetBad then
      match parseName env.defaultRealm target with
      | .ok principal => { entry with targetPrinc := some principal }
      | .error _ => { entry with targetBad := true }
    else entry
  | none => entry

def loadRestrictions (entry : Entry) : Entry :=
  match entry.restrictionString with
  | some string =>
    if !entry.restrictionBad && entry.restrictions.isNone then
      match aclParseRestrictions env string with
      | some restrictions => { entry with restrictions := some restrictions }
      | none => { entry with restrictionBad := true }
    else entry
  | none => entry

def tryName (principal : Principal) (entry : Entry) (ws : Wildstate) : Entry × Bool × Wildstate :=
  if entry.name = star then (entry, true, ws)
  else
    let entry := entry.loadPrincipal env
    match entry.nameBad, entry.principal with
    | false, some pattern => (entry, matchPrincipal false pattern principal ws)
    | _, _ => (entry, false, ws)

/-- Whether the target does, for an entry whose target is not bad. -/
def tryTarget (dest : Option Principal) (entry : Entry) (ws : Wildstate) : Bool × Wildstate :=
  match entry.target, dest, entry.targetPrinc with
  | some _, none, _ => (false, ws)
  | some _, some dest, some pattern => matchPrincipal true pattern dest ws
  | _, _, _ => (true, ws)

/-- The rest of a turn of the loop in `acl_find_entry`, once the principal is matched. -/
def tryRest (dest : Option Principal) (entry : Entry) (ws : Wildstate) : Entry × Bool × Wildstate :=
  if entry.target = some star then (entry, true, ws)
  else
    let entry := entry.loadTarget env
    if entry.targetBad then ({ entry with nameBad := true }, false, ws)
    else
      let (good, ws) := entry.tryTarget dest ws
      if !good then (entry, false, ws)
      else
        let entry := entry.loadRestrictions env
        if entry.restrictionBad then ({ entry with nameBad := true }, false, ws)
        else (entry, true, ws)

/-- One turn of the loop, and whether it is left with this entry. -/
def attempt (principal : Principal) (dest : Option Principal) (entry : Entry) (ws : Wildstate) :
    Entry × Bool × Wildstate :=
  if entry.nameBad then (entry, false, ws)
  else
    let (entry, good, ws) := entry.tryName env principal ws
    if !good then (entry, false, ws) else entry.tryRest env dest ws

end Entry

/-- `acl_find_entry`: the list as it is left and the entry that is found. One `wildstate_t` is
used for all entries. -/
def aclFindEntry (env : Env) (principal : Principal) (dest : Option Principal) :
    List Entry → Wildstate → List Entry × Option Entry
  | [], _ => ([], none)
  | entry :: entries, ws =>
    let (entry, found, ws) := entry.attempt env principal dest ws
    if found then (entry :: entries, some entry)
    else
      let (entries, result) := aclFindEntry env principal dest entries ws
      (entry :: entries, result)

/-- What `acl_check` returns, as a condition, and what it stores in `*restrictions`. -/
structure Answer where
  granted : Bool
  restrictions : Option (Option Restriction)
deriving DecidableEq, Repr

def Answer.of (opmask : Mask) : Option Entry → Answer
  | none => ⟨false, none⟩
  | some entry =>
    if entry.opAllowed &&& opmask = opmask then
      ⟨true, some (entry.restrictions.filter fun r => r.mask ≠ 0)⟩
    else ⟨false, none⟩

/-- `acl_check`; `caller` is what `gss_display_name` gives. -/
def aclCheck (env : Env) (entries : List Entry) (caller : Option Octets) (opmask : Mask)
    (principal : Option Principal) : List Entry × Answer :=
  match caller with
  | none => (entries, ⟨false, none⟩)
  | some name =>
    match parseName env.defaultRealm name with
    -- the code is returned, and it is not zero
    | .error _ => (entries, ⟨true, none⟩)
    | .ok callerPrinc =>
      let (entries, found) := aclFindEntry env callerPrinc principal entries .zero
      (entries, .of opmask found)

section

variable {env : Env} {name : Octets} (entries : List Entry) (opmask : Mask)
  (principal : Option Principal)

theorem aclCheck_of_error {e : Name.Code} (h : parseName env.defaultRealm name = .error e) :
    aclCheck env entries (some name) opmask principal = (entries, ⟨true, none⟩) := by
  simp [aclCheck, h]

theorem aclCheck_of_ok {princ : Principal} (h : parseName env.defaultRealm name = .ok princ) :
    aclCheck env entries (some name) opmask principal =
      ((aclFindEntry env princ principal entries .zero).1,
        .of opmask (aclFindEntry env princ principal entries .zero).2) := by
  simp [aclCheck, h]

end

end Krb5.Kadm5
