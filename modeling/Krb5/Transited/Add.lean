import Krb5.Transited.RealmTree

/-!
# Adding a realm to a transited field (`add_to_transited`)

The field is a string of subfields separated by commas, each compressed against the realm the
subfield before it stands for: a leading blank marks a literal name, a leading slash after an X.500
name is appended to it, a trailing dot is completed by it. The arrays of the source are octet lists
here, with the length tests in front of every copy.
-/

namespace Krb5.Transited

def maxRealmLn : Nat := 500

def comma : UInt8 := 44
def backslash : UInt8 := 92
def slash : UInt8 := 47
def dot : UInt8 := 46
def blank : UInt8 := 32

def within (length : Nat) : Except ErrorCode Unit :=
  if length ≥ maxRealmLn then .error .apErrIllCrTkt else .ok ()

/-- `subrealm`: the length of what is left of `r2` when the realm `r1` that
contains it is taken off, negative for X.500 names and zero when `r2` is not a
subrealm of `r1`. -/
def subrealm (r1 r2 : Octets) : Int :=
  if r2.length ≤ r1.length then 0
  else if r1.head? = some slash ∧ r2.head? = some slash ∧ r2.take r1.length = r1 then
    (r1.length : Int) - r2.length
  else if r1.head? ≠ some slash ∧ r2.head? ≠ some slash ∧
      r2.drop (r2.length - r1.length) = r1 then
    (r2.length : Int) - r1.length
  else 0

/-- The piece of `realm` that a call of `subrealm` leaves: its first `pl`
octets, or its last `-pl` when `pl` is negative. -/
def piece (pl : Int) (realm : Octets) : Octets :=
  if 0 < pl then realm.take pl.toNat else realm.drop (realm.length - (-pl).toNat)

/-- The two field-reading loops, run on to the end: the subfields before the
first empty one, which ends the walk. A backslash is dropped and the octet
behind it read like any other. All failures of the function carry the same
code, so reading ahead changes nothing. -/
def readFields : Octets → Octets → Except ErrorCode (List Octets)
  | [], field => .ok (if field = [] then [] else [field])
  | c :: rest, field =>
    if c = backslash then readFields rest field
    else if c = comma then
      if field = [] then .ok [] else (readFields rest []).map (field :: ·)
    else if field.length + 1 ≥ maxRealmLn then .error .apErrIllCrTkt
    else readFields rest (field ++ [c])

/-- What a subfield stands for behind the realm `prev`. -/
def expansion (prev current : Octets) : Octets :=
  if current.head? = some blank then current.tail
  else if current.head? = some slash ∧ prev.head? = some slash then prev ++ current
  else if current.getLast? = some dot then current ++ prev
  else current

/-- `exp`, with the length test of the branches that join two names. -/
def expandCurrent (prev current : Octets) : Except ErrorCode Octets := do
  if current.head? ≠ some blank ∧
      (current.head? = some slash ∧ prev.head? = some slash ∨
        current.getLast? = some dot) then
    within (prev.length + current.length + 1)
  return expansion prev current

/-- The subfield behind the current one is not compressed:
`next[nlst] != '.' && next[0] != '/'`. At the end of the field `nlst` is `-1`
and the test reads the octet `below` the array. -/
def nextUncompressed (below : UInt8) (rest : List Octets) : Bool :=
  match rest with
  | [] => below != dot
  | next :: _ => next.getLast? != some dot && next.head? != some slash

/-- The new realm as written behind `prev` when the current realm is to follow
it: cut down if `prev` contains it, else in full. -/
def writeBehind (prev realm : Octets) : Except ErrorCode Octets :=
  let pl1 := subrealm prev realm
  if pl1 ≠ 0 then do
    within (pl1.natAbs + 1)
    return piece pl1 realm
  else do
    let text := if realm.head? = some slash ∧ prev ≠ [] then [blank] else []
    within (text.length + realm.length + 1)
    return text ++ realm

/-- The `if (!added)` block of the loop: the text that takes the place of
`current`, and whether it holds the new realm. -/
def insertRealm (below : UInt8) (realm prev current exp : Octets) (rest : List Octets) :
    Except ErrorCode (Octets × Bool) :=
  if nextUncompressed below rest ∧ subrealm exp realm ≠ 0 then do
    let pl := subrealm exp realm
    within (current.length + pl.natAbs + 2)
    return (current ++ comma :: piece pl realm, true)
  else if subrealm realm exp ≠ 0 then do
    let pl := subrealm realm exp
    let text ← writeBehind prev realm
    within (text.length + pl.natAbs + 2)
    return (text ++ comma :: piece pl exp, true)
  else return (current, false)

def addComma (trans : Octets) : Except ErrorCode Octets :=
  if trans = [] then .ok trans
  else do
    within (trans.length + 2)
    return trans ++ [comma]

def addBlank (realm trans : Octets) : Except ErrorCode Octets :=
  if realm.head? = some slash ∧ trans ≠ [] then do
    within (trans.length + 2)
    return trans ++ [blank]
  else .ok trans

def emit (trans text : Octets) : Except ErrorCode Octets := do
  let trans ← addComma trans
  within (trans.length + text.length + 1)
  return trans ++ text

/-- The `while (current[0])` loop. -/
def addLoop (below : UInt8) (realm : Octets) :
    Octets → Bool → Octets → List Octets → Except ErrorCode (Octets × Bool)
  | _, added, new, [] => .ok (new, added)
  | prev, added, new, current :: rest => do
      let exp ← expandCurrent prev current
      let (text, added) ←
        if added || exp == realm then .ok (current, true)
        else insertRealm below realm prev current exp rest
      let new ← emit new text
      addLoop below realm exp added new rest

/-- The block behind the loop: a realm not added so far goes to the end. -/
def appendRealm (realm trans : Octets) : Except ErrorCode Octets := do
  let trans ← addComma trans
  let trans ← addBlank realm trans
  within (trans.length + realm.length + 1)
  return trans ++ realm

/-- `add_to_transited`: the new field for the realm `tgs`, with the realms of
the client and of the requested server. The result counts its terminating NUL;
a field to which nothing was ever written has length zero. -/
def addToTransited (below : UInt8) (tgtTrans tgs client server : Octets) :
    Except ErrorCode Octets := do
  let realm := cstring tgs
  let fields ← readFields (cstring tgtTrans) []
  let added := client == realm || server == realm
  let (new, added) ← addLoop below realm [] added [] fields
  if added then return (if new = [] then [] else new ++ [0])
  else
    let new ← appendRealm realm new
    return new ++ [0]

/-- The realms a list of subfields stands for, the first behind `prev`. -/
def expandFields : Octets → List Octets → List Octets
  | _, [] => []
  | prev, current :: rest => expansion prev current :: expandFields (expansion prev current) rest

/-- The realms a transited field stands for, by the rules of the walk above. -/
def expandTransited (trans : Octets) : List Octets :=
  match readFields (cstring trans) [] with
  | .ok fields => expandFields [] fields
  | .error _ => []

end Krb5.Transited
