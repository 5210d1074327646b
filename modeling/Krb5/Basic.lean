import Mathlib.Data.List.TakeWhile
import Krb5.Lib.Mask

/-!
# Protocol data

The structures of `krb5.hin` that the modelled functions pass around, with the
fields these functions read or write. A C pointer that may be null is an
`Option`; a null-terminated array is a `List`. `krb5_timestamp` and
`krb5_deltat` are 32-bit signed and wrap, so both are `Int32`.
-/

namespace Krb5

open Lib List

/-- A condition on a list's members is decided along the list, however large their type. -/
theorem forall_mem_of_all {α : Type} {p : α → Prop} [DecidablePred p] {l : List α}
    (h : l.all (p ·)) : ∀ x ∈ l, p x := by
  simpa using h

/-- The octets of a `krb5_data` (or of a counted `krb5_octet` array). -/
abbrev Octets := List UInt8

/-- The octets of a string constant of the source. -/
def ascii (s : String) : Octets := s.toList.map fun c => UInt8.ofNat c.toNat

/-- The C string at the start of an octet array. -/
def cstring (data : Octets) : Octets := data.takeWhile (· != 0)

section

variable {text : Octets} (h : (0 : UInt8) ∉ text)
include h

theorem cstring_append (rest : Octets) :
    cstring (text ++ rest) = text ++ cstring rest := by
  refine takeWhile_append_of_pos fun c hc => ?_
  simpa using fun h0 : c = 0 => h (h0 ▸ hc)

theorem cstring_eq_self : cstring text = text := by
  simpa [cstring] using cstring_append h []

theorem cstring_in_memory (rest : Octets) : cstring (text ++ [0] ++ rest) = text := by
  rw [append_assoc, cstring_append h]
  simp [cstring]

theorem cstring_snoc_nul : cstring (text ++ [0]) = text := by
  simpa using cstring_in_memory h []

end

theorem nul_notMem_cstring (text : Octets) : (0 : UInt8) ∉ cstring text := by
  intro h
  have := mem_takeWhile_imp h
  simp at this

theorem length_cstring_lt {mem : Octets} (h : (0 : UInt8) ∈ mem) :
    (cstring mem).length < mem.length := by
  have hfront : cstring mem <+: mem := takeWhile_prefix _
  refine hfront.length_le.lt_of_ne fun hlen => nul_notMem_cstring mem ?_
  rwa [hfront.eq_of_length hlen]

theorem length_le_length_flatMap {α : Type} {f : α → Octets} (hf : ∀ a, 0 < (f a).length)
    (l : List α) : l.length ≤ (l.flatMap f).length := by
  induction l with
  | nil => exact Nat.zero_le _
  | cons a l ih =>
    have := hf a
    rw [flatMap_cons, length_append, length_cons]
    omega

/-- The octets of a `char *`, without the zero behind them. -/
structure CString where
  text : Octets
  nul_notMem : (0 : UInt8) ∉ text
deriving DecidableEq, Repr

/-- The string with the zero behind it. -/
def CString.buffer (s : CString) : Octets := s.text ++ [0]

/-- The string that stands at the beginning of some memory. -/
def CString.ofMemory (mem : Octets) : CString := ⟨cstring mem, nul_notMem_cstring mem⟩

/-- The string in a buffer, if it ends there. -/
def CString.ofBuffer (buf : Octets) : Option CString :=
  if (0 : UInt8) ∈ buf then some (.ofMemory buf) else none

theorem CString.ofMemory_buffer (s : CString) : CString.ofMemory s.buffer = s := by
  cases s with
  | mk text nul_notMem => simp only [ofMemory, buffer, cstring_snoc_nul nul_notMem]

@[simp] theorem CString.ofBuffer_buffer (s : CString) : CString.ofBuffer s.buffer = some s := by
  rw [ofBuffer, if_pos (by simp [buffer]), ofMemory_buffer]

/-- A string constant of the source, or the string in front of a zero in it. -/
def CString.ofAscii (s : String) : CString := ⟨cstring (ascii s), nul_notMem_cstring _⟩

/-- `krb5_timestamp`: seconds, 32 bits, signed, wrapping. -/
abbrev Timestamp := Int32

abbrev Deltat := Int32

abbrev Flags := BitVec 32

abbrev isflagset (flagfield flag : Flags) : Bool := isSet flagfield flag

def min32 (a b : Int32) : Int32 := if a < b then a else b

theorem min32_le_left (a b : Int32) : min32 a b ≤ a := by
  unfold min32; grind

theorem min32_le_right (a b : Int32) : min32 a b ≤ b := by
  unfold min32; grind

structure Principal where
  realm : Octets
  data : List Octets
  type : Int32
deriving DecidableEq, Repr

/-- `krb5_realm_compare` and the KDC's `realm_compare`. -/
def realmCompare (princ1 princ2 : Principal) : Bool := princ1.realm == princ2.realm

/-- `krb5_principal_compare`: the name type takes no part. -/
def principalCompare (princ1 princ2 : Principal) : Bool :=
  princ1.data.length == princ2.data.length && realmCompare princ1 princ2 &&
    princ1.data == princ2.data

def tgsName : Octets := ascii "krbtgt"

structure Keyblock where
  enctype : Int32
  contents : Octets
deriving DecidableEq, Repr

structure Checksum where
  checksumType : Int32
  contents : Octets
deriving DecidableEq, Repr

structure EncData where
  enctype : Int32
  kvno : Int32
  ciphertext : Option Octets
deriving DecidableEq, Repr

structure Address where
  addrtype : Int32
  contents : Octets
deriving DecidableEq, Repr

structure Authdata where
  adType : Int32
  contents : Octets
deriving DecidableEq, Repr

structure PaData where
  paType : Int32
  contents : Octets
deriving DecidableEq, Repr

structure Transited where
  trType : UInt8
  trContents : Octets
deriving DecidableEq, Repr

/-- `krb5_ticket_times`. A zero `starttime` stands for `authtime` and a zero
`renewTill` for no renewal at all. -/
structure TicketTimes where
  authtime : Timestamp
  starttime : Timestamp
  endtime : Timestamp
  renewTill : Timestamp
deriving DecidableEq, Repr

structure EncTktPart where
  flags : Flags
  session : Keyblock
  client : Principal
  transited : Transited
  times : TicketTimes
  caddrs : Option (List Address)
  authorizationData : Option (List Authdata)
deriving DecidableEq, Repr

/-- `krb5_ticket` as it travels: the encrypted part is not yet opened. -/
structure SealedTicket where
  server : Principal
  encPart : EncData
deriving DecidableEq, Repr

/-- `krb5_ticket` with `enc_part2` filled in. -/
structure Ticket extends SealedTicket where
  encPart2 : EncTktPart
deriving DecidableEq, Repr

structure KdcReq where
  msgType : UInt32
  padata : Option (List PaData)
  kdcOptions : Flags
  client : Option Principal
  server : Option Principal
  fromTime : Timestamp
  till : Timestamp
  rtime : Timestamp
  nonce : Int32
  ktype : List Int32
  addresses : Option (List Address)
  authorizationData : EncData
  secondTicket : Option (List SealedTicket)
deriving DecidableEq, Repr

structure Authenticator where
  client : Principal
  checksum : Option Checksum
  cusec : Int32
  ctime : Timestamp
  subkey : Option Keyblock
  seqNumber : Int32
  authorizationData : Option (List Authdata)
deriving DecidableEq, Repr

structure ApReq where
  apOptions : Flags
  ticket : SealedTicket
  authenticator : EncData
deriving DecidableEq, Repr

/-- The error codes the modelled functions return. `lib` stands for whatever
code a routine outside the model hands up. -/
inductive ErrorCode
  | kdcErrNameExp
  | kdcErrServiceExp
  | kdcErrCPrincipalUnknown
  | kdcErrSPrincipalUnknown
  | kdcErrPrincipalNotUnique
  | kdcErrCannotPostdate
  | kdcErrPolicy
  | kdcErrBadoption
  | kdcErrEtypeNosupp
  | kdcErrSumtypeNosupp
  | kdcErrPadataTypeNosupp
  | kdcErrTrtypeNosupp
  | kdcErrKeyExp
  | kdcErrPreauthFailed
  | kdcErrPreauthRequired
  | kdcErrServerNomatch
  | apErrBadIntegrity
  | apErrTktExpired
  | apErrTktNyv
  | apErrRepeat
  | apErrNotUs
  | apErrIllCrTkt
  | apErrInappCksum
  | apErrTktInvalid
  | errGeneric
  | noTktInRlm
  | noTktSupplied
  | rcIoIo
  | rcIoUnknown
  | lib (code : Int32)
deriving DecidableEq, Repr

def kdcOptForwardable : Flags := 0x40000000#32
def kdcOptForwarded : Flags := 0x20000000#32
def kdcOptProxiable : Flags := 0x10000000#32
def kdcOptProxy : Flags := 0x08000000#32
def kdcOptAllowPostdate : Flags := 0x04000000#32
def kdcOptPostdated : Flags := 0x02000000#32
def kdcOptRenewable : Flags := 0x00800000#32
def kdcOptRenewableOk : Flags := 0x00000010#32
def kdcOptEncTktInSkey : Flags := 0x00000008#32
def kdcOptRenew : Flags := 0x00000002#32
def kdcOptValidate : Flags := 0x00000001#32

def tktFlgForwardable : Flags := 0x40000000#32
def tktFlgForwarded : Flags := 0x20000000#32
def tktFlgProxiable : Flags := 0x10000000#32
def tktFlgProxy : Flags := 0x08000000#32
def tktFlgMayPostdate : Flags := 0x04000000#32
def tktFlgPostdated : Flags := 0x02000000#32
def tktFlgInvalid : Flags := 0x01000000#32
def tktFlgRenewable : Flags := 0x00800000#32
def tktFlgInitial : Flags := 0x00400000#32
def tktFlgPreAuth : Flags := 0x00200000#32
def tktFlgHwAuth : Flags := 0x00100000#32

def apOptsUseSessionKey : Flags := 0x40000000#32
def apOptsMutualRequired : Flags := 0x20000000#32

theorem toInt_toInt32_cases (r : UInt32) : r.toInt32.toInt =
    if r.toNat < 2 ^ 31 then (r.toNat : Int) else (r.toNat : Int) - 2 ^ 32 := by
  show (if 2 * r.toNat < 2 ^ 32 then _ else _) = _
  split <;> split <;> first | rfl | omega

end Krb5
