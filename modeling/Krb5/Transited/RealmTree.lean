import Krb5.Basic

/-!
# The realm tree (`walk_rtree.c`)

`walkRealmTree` returns the configured path when the profile has one (`capathTree`), else the path
over the longest common suffix of the two names (`hierarchicalTree`). A pointer into a name is an
`Int` offset from its first octet, so that `com_cdot = client->data - 1` is `-1`.
-/

namespace Krb5.Transited

def realmBranchChar : UInt8 := 46

/-- `[capaths]` lookup by client and server realm: the first value and the
others, or nothing when `profile_get_values` fails (it never succeeds with an
empty list). -/
abbrev Capaths := Octets → Octets → Option (Octets × List Octets)

/-- `krb5_tgtname`: `krbtgt/server@client`. `krb5_build_principal_ext` ends the
component list at the first zero length, so an empty server name adds none. -/
def tgtname (server client : Octets) : Principal where
  realm := client
  data := tgsName :: if server = [] then [] else [server]
  type := 0

def chainNodes : Octets → List Octets → List Principal
  | _, [] => []
  | crealm, node :: nodes => tgtname node crealm :: chainNodes node nodes

/-- The part of a profile value before the first tab or blank. -/
def capathNode (value : Octets) : Octets := value.takeWhile fun c => c != 9 && c != 32

/-- The `cap_code == 0` branch. A first value that starts with a dot means
that the realms are directly connected. -/
def capathTree (client server : Octets) (values : Octets × List Octets) : List Principal :=
  let nodes := if values.1.head? = some realmBranchChar then [] else values.1 :: values.2
  tgtname client client ::
    chainNodes client ((nodes ++ [cstring server]).map capathNode)

/-! ## The hierarchical path -/

/-- Where the comparison of the two names from their ends stopped. -/
structure CommonSuffix where
  clen : Nat
  slen : Nat
  comCdot : Int
  comSdot : Int
  nocommon : Bool
deriving DecidableEq, Repr

/-- The first loop of the hierarchical method: `ccp` and `scp` stand at
`clen - 1` and `slen - 1` throughout. -/
def commonSuffix (client server : Octets) (branch : UInt8) :
    Nat → Nat → Int → Int → Bool → CommonSuffix
  | clen + 1, slen + 1, comCdot, comSdot, nocommon =>
    if client.getD clen 0 = server.getD slen 0 then
      if client.getD clen 0 = branch then
        commonSuffix client server branch clen slen clen slen false
      else
        commonSuffix client server branch clen slen comCdot comSdot nocommon
    else ⟨clen + 1, slen + 1, comCdot, comSdot, nocommon⟩
  | clen, slen, comCdot, comSdot, nocommon => ⟨clen, slen, comCdot, comSdot, nocommon⟩

/-- The last branch character strictly before `bound`, scanning upwards from
`pos` (`prevccp` and `prevscp` of the link-counting loops). -/
def lastBranch (name : Octets) (branch : UInt8) (bound : Int) :
    Nat → Nat → Option Nat → Option Nat
  | 0, _, seen => seen
  | fuel + 1, pos, seen =>
    if (pos : Int) < bound then
      lastBranch name branch bound fuel (pos + 1)
        (if name.getD pos 0 = branch then some pos else seen)
    else seen

/-- One realm below the other, or neither: the adjustment made when one name
ran out in the comparison. -/
def adjustSubdomain (client server : Octets) (branch : UInt8) (c : CommonSuffix) :
    CommonSuffix :=
  let c :=
    if c.clen = 0 ∧ server.getD (c.slen - 1) 0 = branch then
      { c with comCdot := 0, comSdot := (c.slen : Int) - 1, nocommon := false }
    else c
  if c.slen = 0 ∧ client.getD (c.clen - 1) 0 = branch then
    { c with comSdot := 0, comCdot := (c.clen : Int) - 1, nocommon := false }
  else c

/-- With no common ancestor the root is set up at the last component of each
name, or before its first octet when it has only one. -/
def artificialRoot (name : Octets) (branch : UInt8) (comDot : Int) : Int :=
  let comDot :=
    match lastBranch name branch comDot name.length 0 none with
    | some prev => (prev : Int)
    | none => comDot
  if comDot = (name.length : Int) - 1 then -1 else comDot

/-- Up the tree from the client's realm. A branch character advances the cursor
twice, once past the dot and once by the loop itself. -/
def walkUp (client : Octets) (branch : UInt8) (comCdot : Int) :
    Nat → Nat → Nat → List Principal
  | 0, _, _ => []
  | fuel + 1, ccp, prevccp =>
    if (ccp : Int) ≤ comCdot then
      if client.getD ccp 0 = branch then
        tgtname (client.drop (ccp + 1)) (client.drop prevccp) ::
          walkUp client branch comCdot fuel (ccp + 2) (ccp + 1)
      else walkUp client branch comCdot fuel (ccp + 1) prevccp
    else []

/-- Down the tree towards the server's realm: the entries and the last
`prevscp`. The cursor never looks at the first octet. -/
def walkDown (server : Octets) (branch : UInt8) : Nat → Nat → List Principal × Nat
  | 0, prevscp => ([], prevscp)
  | scp + 1, prevscp =>
    if server.getD (scp + 1) 0 = branch then
      let (rest, last) := walkDown server branch scp (scp + 2)
      (tgtname (server.drop (scp + 2)) (server.drop prevscp) :: rest, last)
    else walkDown server branch scp prevscp

/-- The entries behind the first one: up, over and down. -/
def hierarchicalNodes (client server : Octets) (branch : UInt8) (c : CommonSuffix) :
    List Principal :=
  let comCdot := if c.nocommon then artificialRoot client branch c.comCdot else c.comCdot
  let comSdot := if c.nocommon then artificialRoot server branch c.comSdot else c.comSdot
  let up := walkUp client branch comCdot client.length 0 0
  let join :=
    if c.nocommon then
      [tgtname (server.drop (comSdot + 1).toNat) (client.drop (comCdot + 1).toNat)]
    else []
  let down := walkDown server branch (comSdot - 1).toNat (comSdot + 1).toNat
  let final :=
    if c.slen ≠ 0 ∧ 0 ≤ comSdot then [tgtname server (server.drop down.2)] else []
  up ++ join ++ down.1 ++ final

def hierarchicalTree (client server : Octets) (branch : UInt8) :
    Except ErrorCode (List Principal) :=
  let c := commonSuffix client server branch client.length server.length
    ((client.length : Int) - 1) ((server.length : Int) - 1) true
  if c.clen = 0 ∧ c.slen = 0 then .error .noTktInRlm
  else
    .ok (tgtname client client ::
      hierarchicalNodes client server branch (adjustSubdomain client server branch c))

def walkRealmTree (capaths : Capaths) (client server : Octets) (branch : UInt8) :
    Except ErrorCode (List Principal) :=
  match capaths (cstring client) (cstring server) with
  | some values => .ok (capathTree client server values)
  | none => hierarchicalTree client server branch

end Krb5.Transited
