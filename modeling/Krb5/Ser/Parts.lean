import Krb5.Lib.Serial
import Krb5.Name.Text

/-!
# Serializers (`serialize.c` and the `ser_*.c` of single structures)

Each structure has a sizer, an externalizer that writes into a buffer with a given room, and an
internalizer; it is written between two copies of its magic number. An externalizer asks its sizer
for the room, and from there on does not look at what the packing functions return.

Sizes are counted without a limit and memory is always found. A C string is read up to the first
zero.
-/

namespace Krb5.Ser

open Lib

inductive Code
  | einval
  | enomem
  | badEnctype
  | name (code : Name.Code)
  | fault
deriving DecidableEq, Repr

/-- What the name functions return, with their undefined behaviour as that of the caller. -/
def ofName {α : Type} : Except Name.Code α → Except Code α
  | .ok a => .ok a
  | .error .fault => .error .fault
  | .error code => .error (.name code)

abbrev Externalizer := Packing Code
abbrev Internalizer := Unpacking Code

/-! ## `serialize.c` -/

def serPackInt32 (iarg : Int32) : Externalizer Unit := packInt32 .enomem iarg

def serPackBytes (ostring : Octets) : Externalizer Unit := packBytes .enomem ostring

def serUnpackInt32 : Internalizer Int32 := unpackInt32 .enomem

/-- `krb5_ser_unpack_bytes` with `(size_t) isize`. -/
def serUnpackBytes (isize : Int32) : Internalizer Octets :=
  unpackBytes .enomem isize.toUInt32.toNat

/-- `if (!size(..) && (required <= remain)) { w }`, with `ENOMEM` otherwise. -/
def ifRoom (size : Except Code Nat) (w : Externalizer Unit) : Externalizer Unit :=
  match size with
  | .ok required => within .enomem required w
  | .error .fault => throw .fault
  | .error _ => throw .enomem

/-- A word that has to be the magic number. -/
def expectMagic (magic : Int32) : Internalizer Unit := do
  let ibuf ← unpackInt32OrZero
  if ibuf ≠ magic then throw .einval

/-- `if (remain >= ints*sizeof(krb5_int32))`, with `ENOMEM` otherwise. -/
def expectInts (ints : Nat) : Internalizer Unit := fun s =>
  if 4 * ints ≤ s.length then .ok ((), s) else .error .enomem

/-! ## Addresses, keys, checksums and authorization data

The four have one layout: a type and counted contents. -/

def externalizeItem (magic : Int32) (size : Except Code Nat) (type : Int32) (contents : Octets) :
    Externalizer Unit :=
  ifRoom size do
    silently (serPackInt32 magic)
    silently (serPackInt32 type)
    silently (serPackInt32 (.ofNat contents.length))
    silently (serPackBytes contents)
    silently (serPackInt32 magic)

/-- `ints` is the number of words that are asked for behind the magic number. -/
def internalizeItem {α : Type} (magic : Int32) (ints : Nat) (make : Int32 → Octets → α) :
    Internalizer α := do
  expectMagic magic
  expectInts ints
  let type ← serUnpackInt32
  let length ← serUnpackInt32
  let contents ← serUnpackBytes length
  expectMagic magic
  return make type contents

def kv5mPrincipal : Int32 := -1760647423
def kv5mKeyblock : Int32 := -1760647421
def kv5mChecksum : Int32 := -1760647420
def kv5mAuthdata : Int32 := -1760647414
def kv5mAuthenticator : Int32 := -1760647410
def kv5mAddress : Int32 := -1760647390

def addressSize (address : Address) : Except Code Nat :=
  .ok (4 + 4 + 4 + 4 + address.contents.length)

def addressExternalize (address : Address) : Externalizer Unit :=
  externalizeItem kv5mAddress (addressSize address) address.addrtype address.contents

def addressInternalize : Internalizer Address := internalizeItem kv5mAddress 2 .mk

/-- One word more than is written. -/
def keyblockSize (keyblock : Keyblock) : Except Code Nat :=
  .ok (4 + 4 + 4 + 4 + 4 + keyblock.contents.length)

def keyblockExternalize (keyblock : Keyblock) : Externalizer Unit :=
  externalizeItem kv5mKeyblock (keyblockSize keyblock) keyblock.enctype keyblock.contents

def keyblockInternalize : Internalizer Keyblock := internalizeItem kv5mKeyblock 3 .mk

def checksumEsize (checksum : Checksum) : Except Code Nat :=
  .ok (4 + 4 + 4 + 4 + checksum.contents.length)

def checksumExternalize (checksum : Checksum) : Externalizer Unit :=
  externalizeItem kv5mChecksum (checksumEsize checksum) checksum.checksumType checksum.contents

def checksumInternalize : Internalizer Checksum := internalizeItem kv5mChecksum 2 .mk

def authdataSize (authdata : Authdata) : Except Code Nat :=
  .ok (4 + 4 + 4 + 4 + authdata.contents.length)

def authdataExternalize (authdata : Authdata) : Externalizer Unit :=
  externalizeItem kv5mAuthdata (authdataSize authdata) authdata.adType authdata.contents

def authdataInternalize : Internalizer Authdata := internalizeItem kv5mAuthdata 2 .mk

/-! ## Principals (`ser_princ.c`)

A name is written as its text, so its type is lost. -/

def principalSize (principal : Principal) : Except Code Nat := do
  let fname ← ofName (Name.unparseName principal)
  return 3 * 4 + (cstring fname).length

def principalExternalize (principal : Principal) : Externalizer Unit :=
  ifRoom (principalSize principal) do
    let fname ← liftM (ofName (Name.unparseName principal))
    silently (serPackInt32 kv5mPrincipal)
    silently (serPackInt32 (.ofNat (cstring fname).length))
    silently (serPackBytes (cstring fname))
    silently (serPackInt32 kv5mPrincipal)

/-- `defaultRealm` is that of the context. -/
def principalInternalize (defaultRealm : Except Name.Code Octets) : Internalizer Principal := do
  expectMagic kv5mPrincipal
  let length ← serUnpackInt32
  let tmpname ← serUnpackBytes length
  let principal ← liftM (ofName (Name.parseName defaultRealm (tmpname ++ [0])))
  expectMagic kv5mPrincipal
  return principal

/-! ## Authenticators (`ser_auth.c`) -/

/-- `krb5_authenticator` as an authentication context holds it: `krb5_mk_req_extended` takes
the client out of it again. -/
structure HeldAuthenticator where
  client : Option Principal
  checksum : Option Checksum
  cusec : Int32
  ctime : Timestamp
  subkey : Option Keyblock
  seqNumber : Int32
  authorizationData : Option (List Authdata)
deriving DecidableEq, Repr

def memberSize {α : Type} (size : α → Except Code Nat) : Option α → Except Code Nat
  | none => .ok 0
  | some a => size a

def memberExternalize {α : Type} (externalize : α → Externalizer Unit) :
    Option α → Externalizer Unit
  | none => pure ()
  | some a => externalize a

def authdataSizes : List Authdata → Except Code Nat
  | [] => .ok 0
  | authdata :: rest => do
      let size ← authdataSize authdata
      return size + (← authdataSizes rest)

def authdataExternalizeAll : List Authdata → Externalizer Unit
  | [] => pure ()
  | authdata :: rest => do
      authdataExternalize authdata
      authdataExternalizeAll rest

def authdataInternalizeAll : Nat → Internalizer (List Authdata)
  | 0 => pure []
  | n + 1 => do
      let authdata ← authdataInternalize
      return authdata :: (← authdataInternalizeAll n)

def authenticatorSize (authenticator : HeldAuthenticator) : Except Code Nat := do
  let client ← memberSize principalSize authenticator.client
  let checksum ← memberSize checksumEsize authenticator.checksum
  let subkey ← memberSize keyblockSize authenticator.subkey
  let authdata ← authdataSizes (authenticator.authorizationData.getD [])
  return 4 * 6 + client + checksum + subkey + authdata

def authenticatorExternalize (authenticator : HeldAuthenticator) : Externalizer Unit :=
  ifRoom (authenticatorSize authenticator) do
    silently (serPackInt32 kv5mAuthenticator)
    silently (serPackInt32 authenticator.ctime)
    silently (serPackInt32 authenticator.cusec)
    silently (serPackInt32 authenticator.seqNumber)
    memberExternalize principalExternalize authenticator.client
    memberExternalize checksumExternalize authenticator.checksum
    memberExternalize keyblockExternalize authenticator.subkey
    silently (serPackInt32 (.ofNat (authenticator.authorizationData.getD []).length))
    authdataExternalizeAll (authenticator.authorizationData.getD [])
    silently (serPackInt32 kv5mAuthenticator)

/-- An attempt to read a member: with `EINVAL` it is not there; any other error is `kret`. -/
def attempt {α : Type} (internalize : Internalizer α) : Internalizer (Option α × Option Code) :=
  fun s =>
    match internalize s with
    | .ok (a, s') => .ok ((some a, none), s')
    | .error .fault => .error .fault
    | .error .einval => .ok ((none, none), s)
    | .error kret => .ok ((none, some kret), s)

/-- `if (!kret)` around an attempt. -/
def attemptUnless {α : Type} (kret : Option Code) (internalize : Internalizer α) :
    Internalizer (Option α × Option Code) :=
  if kret.isNone then attempt internalize else pure (none, kret)

/-- An error of one of the first three members is forgotten when the count is read; with a
negative count no authorization data is read. -/
def authenticatorInternalize (defaultRealm : Except Name.Code Octets) :
    Internalizer HeldAuthenticator := do
  expectMagic kv5mAuthenticator
  expectInts 3
  let ctime ← serUnpackInt32
  let cusec ← serUnpackInt32
  let seqNumber ← serUnpackInt32
  let (client, kret) ← attempt (principalInternalize defaultRealm)
  let (checksum, kret) ← attemptUnless kret checksumInternalize
  let (subkey, _) ← attemptUnless kret keyblockInternalize
  let nadata ← serUnpackInt32
  let authorizationData ← authdataInternalizeAll nadata.toInt.toNat
  expectMagic kv5mAuthenticator
  return { client, checksum, cusec, ctime, subkey, seqNumber,
           authorizationData := some authorizationData }

end Krb5.Ser
