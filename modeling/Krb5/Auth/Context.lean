import Krb5.Asn1.Krb5Decode
import Krb5.Asn1.Krb5Encode
import Krb5.Crypto.Cksum
import Krb5.Lib.Action
import Krb5.Rcache.Table

/-!
# Authentication contexts (`auth_con.h`)

What `krb5_mk_safe`, `krb5_mk_priv`, `krb5_rd_safe` and `krb5_rd_priv` share: the
context of a session, the addresses they put into messages and compare, and the
replay data that goes with a message.
-/

namespace Krb5.Auth

open Lib Asn1 List

/-- What the functions of this component return instead of zero; `fault` stands
for undefined behaviour, such as following a null pointer. -/
inductive Code
  | rcRequired
  | apErrMsgType
  | apErrBadaddr
  | apErrModified
  | apErrInappCksum
  | apErrSkew
  | apErrBadorder
  | progSumtypeNosupp
  | badEnctype
  | enomem
  | fault
  | decode (error : DecodeError)
  | encode (stop : EncodeStop)
  | crypto (error : Crypto.Code)
  | other (code : Int32)
deriving DecidableEq, Repr

/-! ## Contexts -/

/-- `krb5_auth_context`, with the fields that are used here. Of the replay cache
only whether there is one matters. -/
structure AuthContext where
  authContextFlags : Flags
  remoteAddr : Option Address
  remotePort : Option Address
  localAddr : Option Address
  localPort : Option Address
  keyblock : Option Keyblock
  localSubkey : Option Keyblock
  remoteSubkey : Option Keyblock
  remoteSeqNumber : Int32
  localSeqNumber : Int32
  safeCksumtype : Int32
  iVector : Option Octets
  rcache : Bool
deriving DecidableEq, Repr

def authContextDoTime : Flags := 0x00000001#32
def authContextRetTime : Flags := 0x00000002#32
def authContextDoSequence : Flags := 0x00000004#32
def authContextRetSequence : Flags := 0x00000008#32

namespace AuthContext

variable (ctx : AuthContext)

abbrev doTime : Bool := isflagset ctx.authContextFlags authContextDoTime
abbrev retTime : Bool := isflagset ctx.authContextFlags authContextRetTime
abbrev doSequence : Bool := isflagset ctx.authContextFlags authContextDoSequence
abbrev retSequence : Bool := isflagset ctx.authContextFlags authContextRetSequence

def sendKey : Option Keyblock := ctx.localSubkey <|> ctx.remoteSubkey <|> ctx.keyblock

def recvKey : Option Keyblock := ctx.remoteSubkey <|> ctx.localSubkey <|> ctx.keyblock

end AuthContext

structure ReplayData where
  timestamp : Timestamp
  usec : Int32
  seq : Int32
deriving DecidableEq, Repr

/-- What a call finds outside its arguments: the clocks, the addresses of the
machine, the replay cache, random octets, the tolerance of the library context,
and whether the stack holds something else than zero where `krb5_rd_safe_basic`
has its variable `valid`. -/
structure Host where
  usTimeofday : Except Code (Timestamp × Int32)
  timeofday : Except Code Timestamp
  osLocaladdr : Except Code (Option (List Address))
  rcStore : Rcache.DonotReplay → Except Code Unit
  random : Except Crypto.Code Octets
  clockskew : Deltat
  unset : Bool

def addrtypeAddrport : Int32 := 0x0100

/-- An address as a part of a full address: its type and length, the least
significant octet first, and its contents. -/
def marshal (addr : Address) : Octets :=
  [0, 0] ++ [0, 8].map (fun i => UInt8.ofNat (addr.addrtype.toUInt32.toNat / 2 ^ i)) ++
    [0, 8, 16, 24].map (fun i => UInt8.ofNat (addr.contents.length / 2 ^ i)) ++ addr.contents

def makeFulladdr (kaddr kport : Address) : Address where
  addrtype := addrtypeAddrport
  contents := marshal kaddr ++ marshal kport

def fulladdr (addr port : Option Address) : Option Address :=
  match addr, port with
  | some addr, some port => some (makeFulladdr addr port)
  | addr, _ => addr

def addressCompare (addr1 addr2 : Address) : Bool :=
  addr1.addrtype == addr2.addrtype && addr1.contents == addr2.contents

def addressSearch (addr : Address) (addrlist : Option (List Address)) : Bool :=
  match addrlist with
  | none => true
  | some addrs => addrs.any (addressCompare addr)

/-- The addresses in a message, compared with those of the session. -/
def checkAddresses (host : Host) (localAddr remoteAddr : Option Address) (sAddress : Address)
    (rAddress : Option Address) : Except Code Unit :=
  match remoteAddr with
  | none => .error .fault
  | some remoteAddr =>
    if !addressCompare remoteAddr sAddress then .error .apErrBadaddr
    else
      match rAddress, localAddr with
      | none, _ => .ok ()
      | some rAddress, some localAddr =>
        if addressCompare localAddr rAddress then .ok () else .error .apErrBadaddr
      | some rAddress, none => do
          let ourAddrs ← host.osLocaladdr
          if addressSearch rAddress ourAddrs then .ok () else .error .apErrBadaddr

def hexDigit (n : Nat) : UInt8 := if n < 10 then UInt8.ofNat (48 + n) else UInt8.ofNat (87 + n)

def hexOctet (o : UInt8) : Octets := [hexDigit (o.toNat / 16), hexDigit (o.toNat % 16)]

theorem hexDigit_ne_zero {n : Nat} (h : n < 16) : hexDigit n ≠ 0 := by
  have hall : ∀ m : Fin 16, hexDigit m ≠ 0 := by decide
  exact hall ⟨n, h⟩

def genReplayName (address : Address) (uniq : CString) : CString where
  text := uniq.1 ++ address.contents.flatMap hexOctet
  nul_notMem := by
    simp only [mem_append, mem_flatMap, hexOctet, mem_cons, not_mem_nil,
      or_false, not_or, not_exists, not_and]
    refine ⟨uniq.2, fun o _ => ⟨?_, ?_⟩⟩
    · exact (hexDigit_ne_zero (by have := o.toNat_lt; omega)).symm
    · exact (hexDigit_ne_zero (by omega)).symm

def uniqSafe : CString := ⟨ascii "_safe", by decide⟩
def uniqPriv : CString := ⟨ascii "_priv", by decide⟩

/-- A message is entered into the replay cache under the address of its sender. -/
def storeReplay (host : Host) (address : Option Address) (uniq : CString)
    (data : ReplayData) : Except Code Unit :=
  match address with
  | none => .error .fault
  | some address =>
    host.rcStore ⟨⟨[], by simp⟩, genReplayName address uniq, data.usec, data.timestamp⟩

def inClockSkew (host : Host) (currenttime date : Timestamp) : Bool :=
  (if date - currenttime < 0 then -(date - currenttime) else date - currenttime) < host.clockskew

end Krb5.Auth
