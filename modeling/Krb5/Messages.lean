import Krb5.Basic

/-!
# Messages

The structures of `krb5.hin` and `k5-int.h` that are encoded as messages or parts
of them, beside those of `Basic`. A pointer that a message needs is taken to be
set: only what may be absent from a message is an `Option`.
-/

namespace Krb5

structure LastReqEntry where
  lrType : UInt8
  value : Timestamp
deriving DecidableEq, Repr

structure EncKdcRepPart where
  msgType : UInt32
  session : Keyblock
  lastReq : List LastReqEntry
  nonce : Int32
  keyExp : Timestamp
  flags : Flags
  times : TicketTimes
  server : Principal
  caddrs : Option (List Address)
deriving DecidableEq, Repr

/-- `krb5_kdc_rep`, without the opened part. -/
structure KdcRep where
  msgType : UInt32
  padata : Option (List PaData)
  client : Principal
  ticket : SealedTicket
  encPart : EncData
deriving DecidableEq, Repr

structure KrbError where
  ctime : Timestamp
  cusec : Int32
  susec : Int32
  stime : Timestamp
  error : UInt32
  client : Option Principal
  server : Principal
  text : Octets
  eData : Octets
deriving DecidableEq, Repr

structure ApRep where
  encPart : EncData
deriving DecidableEq, Repr

structure ApRepEncPart where
  ctime : Timestamp
  cusec : Int32
  subkey : Option Keyblock
  seqNumber : Int32
deriving DecidableEq, Repr

structure Safe where
  userData : Octets
  timestamp : Timestamp
  usec : Int32
  seqNumber : Int32
  sAddress : Address
  rAddress : Option Address
  checksum : Checksum
deriving DecidableEq, Repr

structure Priv where
  encPart : EncData
deriving DecidableEq, Repr

structure PrivEncPart where
  userData : Octets
  timestamp : Timestamp
  usec : Int32
  seqNumber : Int32
  sAddress : Address
  rAddress : Option Address
deriving DecidableEq, Repr

structure CredInfo where
  session : Keyblock
  client : Option Principal
  server : Option Principal
  flags : Flags
  times : TicketTimes
  caddrs : Option (List Address)
deriving DecidableEq, Repr

structure CredEncPart where
  nonce : Int32
  timestamp : Timestamp
  usec : Int32
  sAddress : Option Address
  rAddress : Option Address
  ticketInfo : List CredInfo
deriving DecidableEq, Repr

/-- `krb5_cred`, without the opened part. -/
structure Cred where
  tickets : List SealedTicket
  encPart : EncData
deriving DecidableEq, Repr

structure PasswdPhraseElement where
  passwd : Octets
  phrase : Octets
deriving DecidableEq, Repr

structure PwdData where
  sequenceCount : Int32
  element : List PasswdPhraseElement
deriving DecidableEq, Repr

structure AltMethod where
  method : Int32
  data : Octets
deriving DecidableEq, Repr

/-- `krb5_etype_info_entry`; a negative length stands for no salt. -/
structure EtypeInfoEntry where
  etype : Int32
  salt : Option Octets
deriving DecidableEq, Repr

structure PaEncTs where
  patimestamp : Timestamp
  pausec : Int32
deriving DecidableEq, Repr

/-- `krb5_sam_challenge`; a negative length stands for a string that is absent. -/
structure SamChallenge where
  samType : Int32
  samFlags : Flags
  samTypeName : Option Octets
  samTrackId : Option Octets
  samChallengeLabel : Option Octets
  samChallenge : Option Octets
  samResponsePrompt : Option Octets
  samPkForSad : Option Octets
  samNonce : Int32
  samCksum : Checksum
deriving DecidableEq, Repr

structure SamKey where
  samKey : Keyblock
deriving DecidableEq, Repr

structure EncSamResponseEnc where
  samNonce : Int32
  samTimestamp : Timestamp
  samUsec : Int32
  samSad : Option Octets
deriving DecidableEq, Repr

structure SamResponse where
  samType : Int32
  samFlags : Flags
  samTrackId : Option Octets
  samEncKey : EncData
  samEncNonceOrTs : EncData
  samNonce : Int32
  samPatimestamp : Timestamp
deriving DecidableEq, Repr

structure PredictedSamResponse where
  samKey : Keyblock
  samFlags : Flags
  stime : Timestamp
  susec : Int32
  client : Principal
  msd : Option Octets
deriving DecidableEq, Repr

end Krb5
