import Krb5.Basic
import Krb5.Lib.Checked

/-!
# Names as text (`parse.c`, `unparse.c`, `kdb_xdr.c`)

`krb5_parse_name` goes over a text for the sizes of its components, once more if there are many, and
then to fill buffers of those sizes.

A text in memory is the octets up to the first that is zero. Sizes are counted without a limit, and
memory is always found. What is written outside of a buffer, or taken from one before it was
written, is the error `fault`.
-/

namespace Krb5.Name

open Lib

inductive Code
  | parseMalformed
  | configNodefrealm
  | programmingError
  | fault
deriving DecidableEq, Repr

def componentSep : UInt8 := 0x2f
def realmSep : UInt8 := 0x40
def quotechar : UInt8 := 0x5c

def fcompnum : Nat := 10

def ntPrincipal : Int32 := 1

/-- The characters that `krb5_unparse_name_ext` counts twice. -/
def countedTwice (c : UInt8) : Bool :=
  c = realmSep || c = componentSep || c = 0 || c = quotechar || c = 9 || c = 10 || c = 8

/-- The `switch` over a character. -/
def quote (c : UInt8) : Octets :=
  if c = componentSep ∨ c = realmSep ∨ c = quotechar then [quotechar, c]
  else if c = 9 then [quotechar, 0x74]
  else if c = 10 then [quotechar, 0x6e]
  else if c = 8 then [quotechar, 0x62]
  else if c = 0 then [quotechar, 0x30]
  else [c]

/-- The room a string takes, with a separator. -/
def roomFor (s : Octets) : Nat := s.length + s.countP countedTwice + 1

def totalsize (principal : Principal) : Nat :=
  roomFor principal.realm + (principal.data.map roomFor).sum

/-- `krb5_unparse_name_ext`, for no buffer of the caller's: the memory that is filled. The
separator behind the last component is written and then taken back; where there is no
component, what is taken back is in front of the buffer. -/
def unparseNameExt (principal : Principal) : Except Code Octets :=
  let components := principal.data.flatMap fun d => d.flatMap quote ++ [componentSep]
  if components = [] then .error .fault
  else
    let name := components.dropLast ++ realmSep :: principal.realm.flatMap quote ++ [0]
    if name.length ≤ totalsize principal then .ok name else .error .fault

def unparseName (principal : Principal) : Except Code Octets := unparseNameExt principal

/-- `krb5_encode_princ_dbkey`: the string with the zero behind it. -/
def encodePrincDbkey (principal : Principal) : Except Code Octets :=
  (unparseName principal).map fun name => name.take ((cstring name).length + 1)

/-! ## Reading a name -/

/-- The variables of the first pass; `fcompsize` as far as it is set. -/
structure Pass1 where
  i : Nat
  size : Nat
  fcompsize : List Nat
  parsedRealm : Bool
deriving DecidableEq, Repr

/-- `if (i < FCOMPNUM) fcompsize[i] = size;`. -/
def Pass1.record (st : Pass1) : List Nat :=
  if st.i < fcompnum then st.fcompsize ++ [st.size] else st.fcompsize

def pass1 : Octets → Pass1 → Except Code Pass1
  | [], st => .ok st
  | c :: rest, st =>
    if c = quotechar then
      match rest with
      | [] => .error .parseMalformed
      | _ :: rest => pass1 rest { st with size := st.size + 1 }
    else if c = componentSep then
      if st.parsedRealm then .error .parseMalformed
      else pass1 rest { st with i := st.i + 1, size := 0, fcompsize := st.record }
    else if c = realmSep then
      if st.parsedRealm ∨ rest = [] then .error .parseMalformed
      else pass1 rest { st with size := 0, fcompsize := st.record, parsedRealm := true }
    else pass1 rest { st with size := st.size + 1 }

/-- The variables of the second pass, and the lengths of the components that are set. -/
structure Pass2 where
  i : Nat
  size : Nat
  lengths : List Nat
  parsedRealm : Bool
deriving DecidableEq, Repr

/-- Pass 2. A quote at the end of the string would take it past that end. -/
def pass2 : Octets → Pass2 → Except Code Pass2
  | [], st => .ok st
  | c :: rest, st =>
    if c = quotechar then
      match rest with
      | [] => .error .fault
      | _ :: rest => pass2 rest { st with size := st.size + 1 }
    else if c = componentSep then
      pass2 rest { st with i := st.i + 1, size := 0, lengths := st.lengths ++ [st.size] }
    else if c = realmSep then
      pass2 rest { st with size := 0, lengths := st.lengths ++ [st.size], parsedRealm := true }
    else pass2 rest { st with size := st.size + 1 }

/-- The `switch` behind a quote. -/
def unquote (c : UInt8) : UInt8 :=
  if c = 0x6e then 10
  else if c = 0x74 then 9
  else if c = 0x62 then 8
  else if c = 0x30 then 0
  else c

/-- Pass 3: the octets put into one buffer after another, the last of them at the end. -/
def pass3 : Octets → List Octets × Octets → Except Code (List Octets × Octets)
  | [], st => .ok st
  | c :: rest, (filled, q) =>
    if c = quotechar then
      match rest with
      | [] => .error .fault
      | k :: rest => pass3 rest (filled, q ++ [unquote k])
    else if c = componentSep ∨ c = realmSep then pass3 rest (filled ++ [q ++ [0]], [])
    else pass3 rest (filled, q ++ [c])

/-- A buffer of `length + 1` octets and what was put into it: the string of that length. -/
def contentsOf (length : Nat) (put : Octets) : Except Code Octets :=
  if put.length = length + 1 then .ok (put.take length) else .error .fault

def contentsOfAll : List Nat → List Octets → Except Code (List Octets)
  | [], [] => .ok []
  | length :: lengths, put :: puts => do
      let s ← contentsOf length put
      return s :: (← contentsOfAll lengths puts)
  | _, _ => .error .fault

/-- The lengths of the components: those of the first pass, or those of the second where
the table of the first is too small. -/
def componentLengths (name : Octets) (st : Pass1) : Except Code (List Nat) :=
  let components := st.i + 1
  if components ≥ fcompnum then do
    let st ← pass2 name ⟨0, 0, [], false⟩
    if st.i + 1 ≠ components then .error .programmingError
    else return if st.parsedRealm then st.lengths else st.lengths ++ [st.size]
  else .ok (if st.parsedRealm then st.fcompsize else st.record)

/-- `krb5_parse_name`; `defaultRealm` is what `krb5_get_default_realm` finds. -/
def parseName (defaultRealm : Except Code Octets) (mem : Octets) : Except Code Principal := do
  let name := cstring mem
  let st ← pass1 name ⟨0, 0, [], false⟩
  let ownRealm ← if st.parsedRealm then .ok [] else defaultRealm
  let lengths ← componentLengths name st
  let (filled, q) ← pass3 name ([], [])
  if st.parsedRealm then
    let realm ← contentsOf st.size (q ++ [0])
    return ⟨realm, ← contentsOfAll lengths filled, ntPrincipal⟩
  else return ⟨ownRealm, ← contentsOfAll lengths (filled ++ [q ++ [0]]), ntPrincipal⟩

end Krb5.Name
