import Krb5.Auth.Context

/-!
# Conversion of tickets (`cnv_tkt_skey.c`)

The lifetime of the new ticket is one octet: below 128 it counts units of 300 seconds, and from 128
on it is an index into `cmu_seconds`. The time that is left is rounded down to a unit but up to an
entry of the table.
-/

namespace Krb5.Krb524

open Auth Lib List

variable {d : Int32}

/-- The codes that `krb524_convert_tkt_skey` returns. -/
inductive Code
  | badKey
  | badAddr
  | v4Err
  | tktNyv
  | tktExpired
  | lib (code : Int32)
deriving DecidableEq, Repr

/-- The names that `krb524_convert_princs` gives. -/
structure V4Names where
  pname : Octets
  pinst : Octets
  prealm : Octets
  sname : Octets
  sinst : Octets
deriving DecidableEq, Repr

/-- What `krb_create_ticket` and `krb_cr_tkt_krb5` put into a ticket. -/
structure V4Ticket where
  flags : UInt8
  names : V4Names
  paddress : Octets
  session : Octets
  /-- `(char) life` -/
  life : UInt8
  timeSec : Timestamp
deriving DecidableEq, Repr

/-- What `krb524_convert_tkt_skey` gets from the library. -/
structure Env where
  /-- `krb5_decrypt_tkt_part` with the key of the service -/
  decrypted : Except Int32 EncTktPart
  convertPrincs : Principal → Principal → Except Int32 V4Names
  timeofday : Except Int32 Timestamp
  clockskew : Deltat
  /-- the ciphertext, or `KFAILURE` -/
  createTicket : V4Ticket → Keyblock → Option Octets

def enctypeDesCbcCrc : Int32 := 0x0001
def enctypeDes3CbcRaw : Int32 := 0x0006
def enctypeDes3CbcSha1 : Int32 := 0x0010
def enctypeLocalDes3HmacSha1 : Int32 := 0x7007
def addrtypeInet : Int32 := 0x0002

/-- `cmu_seconds`, with the zero at its end. -/
def cmuSeconds : List Int32 :=
  [38400, 41055, 43894, 46929, 50174, 53643, 57352, 61318,
   65558, 70091, 74937, 80119, 85658, 91581, 97914, 104684,
   111922, 119661, 127935, 136781, 146239, 156350, 167161, 178720,
   191077, 204289, 218415, 233517, 249663, 266926, 285383, 305116,
   326213, 348769, 372885, 398668, 426233, 455705, 487215, 520903,
   556921, 595430, 636600, 680618, 727679, 777995, 831789, 889303,
   950794, 1016536, 1086825, 1161973, 1242317, 1328217, 1420057, 1518246,
   1623225, 1735463, 1855462, 1983757, 2120924, 2267575, 2424366, 2591999,
   0]

/-- `while (*clist && *clist < deltatime) clist++`: how far the pointer gets. -/
def clistSteps (deltatime : Int32) : List Int32 → Nat
  | [] => 0
  | c :: clist => if c ≠ 0 ∧ c < deltatime then clistSteps deltatime clist + 1 else 0

def lifetime (deltatime : Int32) : Int32 :=
  if deltatime / 300 > 127 then 128 + .ofNat (clistSteps deltatime cmuSeconds) else deltatime / 300

/-- The key for the new ticket: DES3 is used raw. -/
def v4Key (key : Keyblock) : Keyblock :=
  if key.enctype = enctypeDes3CbcSha1 ∨ key.enctype = enctypeLocalDes3HmacSha1 then
    { key with enctype := enctypeDes3CbcRaw }
  else key

/-- The session key has to be one of version 4. -/
def checkSession (session : Keyblock) : Except Code Unit :=
  if session.enctype ≠ enctypeDesCbcCrc ∨ session.contents.length ≠ 8 then .error .badKey else .ok ()

def startOf (times : TicketTimes) : Timestamp :=
  if times.starttime = 0 then times.authtime else times.starttime

def checkTimes (clockskew : Deltat) (times : TicketTimes) (serverTime : Timestamp) : Except Code Int32 :=
  if serverTime + clockskew ≥ startOf times ∧ serverTime - clockskew ≤ times.endtime then
    .ok (times.endtime - (serverTime - clockskew))
  else if serverTime + clockskew < startOf times then .error .tktNyv
  else if serverTime - clockskew > times.endtime then .error .tktExpired
  else .error .tktNyv

def checkAddress (sinAddr : Octets) (caddrs : Option (List Address)) : Except Code Unit :=
  if addressSearch ⟨addrtypeInet, sinAddr⟩ caddrs then .ok () else .error .badAddr

/-- `krb524_convert_tkt_skey`: the new ticket, and how it is sent. -/
def krb524ConvertTktSkey (env : Env) (server : Principal) (v4Skey : Keyblock) (sinAddr : Octets) :
    Except Code (V4Ticket × Octets) := do
  let v5etkt ← env.decrypted.mapError .lib
  let names ← (env.convertPrincs v5etkt.client server).mapError .lib
  checkSession v5etkt.session
  let serverTime ← env.timeofday.mapError .lib
  let deltatime ← checkTimes env.clockskew v5etkt.times serverTime
  checkAddress sinAddr v5etkt.caddrs
  let ticket : V4Ticket :=
    ⟨0, names, sinAddr, v5etkt.session.contents, (lifetime deltatime).toUInt32.toUInt8, serverTime⟩
  match env.createTicket ticket (v4Key v4Skey) with
  | some ciphertext => return (ticket, ciphertext)
  | none => throw .v4Err

/-- The lifetime octet read back. Behind the end of the table there is nothing. -/
def lifeSeconds (life : UInt8) : Int :=
  if life < 128 then 300 * life.toNat else (cmuSeconds.getD (life.toNat - 128) 0).toInt

def V4Ticket.expires (ticket : V4Ticket) : Int := ticket.timeSec.toInt + lifeSeconds ticket.life

/-! ## The octet -/

theorem toNat_octet {x : Int32} (hpos : 0 ≤ x.toInt) (hlt : x.toInt < 256) :
    x.toUInt32.toUInt8.toNat = x.toInt.toNat := by
  have hnat : (x.toUInt32.toNat : Int) = x.toInt := by
    have hcond := BitVec.toInt_eq_toNat_cond x.toBitVec
    rw [Int32.toInt_toBitVec] at hcond
    have hbits : x.toUInt32.toNat = x.toBitVec.toNat := rfl
    split at hcond <;> omega
  rw [UInt32.toNat_toUInt8]
  omega

theorem lifeSeconds_le (life : UInt8) : lifeSeconds life ≤ 2591999 := by
  have htable : ∀ c ∈ cmuSeconds, c.toInt ≤ 2591999 := forall_mem_of_all (by decide +kernel)
  rw [lifeSeconds]
  split
  · rename_i hlt
    rw [UInt8.lt_iff_toNat_lt] at hlt
    have : (128 : UInt8).toNat = 128 := rfl
    omega
  · rw [getD_eq_getElem?_getD]
    cases hget : cmuSeconds[life.toNat - 128]? with
    | none => decide
    | some c => exact htable c (mem_of_getElem? hget)

theorem le_getD_clistSteps {l : List Int32} (hne : ∀ c ∈ l, c ≠ 0) (h : ∃ c ∈ l, d ≤ c) :
    d ≤ (l ++ [0]).getD (clistSteps d (l ++ [0])) 0 := by
  induction l with
  | nil =>
    obtain ⟨c, hc, -⟩ := h
    exact nomatch hc
  | cons c l ih =>
    rw [cons_append, clistSteps]
    split
    · rename_i hpass
      obtain ⟨c', hc', hle⟩ := h
      obtain rfl | hmem := mem_cons.mp hc'
      · exact absurd hpass.2 (Int32.not_lt.mpr hle)
      · exact ih (fun c'' hc'' => hne c'' (mem_cons_of_mem c hc'')) ⟨c', hmem, hle⟩
    · rename_i hstay
      exact Int32.not_lt.mp fun hlt => hstay ⟨hne c mem_cons_self, hlt⟩

theorem clistSteps_le (d : Int32) (l : List Int32) : clistSteps d (l ++ [0]) ≤ l.length := by
  induction l with
  | nil => exact Nat.le_refl _
  | cons c l ih =>
    rw [cons_append, clistSteps]
    split
    · exact Nat.succ_le_succ ih
    · exact Nat.zero_le _

def cmuEntries : List Int32 := cmuSeconds.dropLast

theorem cmuSeconds_eq : cmuSeconds = cmuEntries ++ [0] := rfl

def octetFor (deltatime : Int32) : UInt8 := (lifetime deltatime).toUInt32.toUInt8

theorem toInt_div_300 (hpos : 0 ≤ d.toInt) : (d / 300).toInt = d.toInt / 300 := by
  have hlt := Int32.toInt_lt d
  rw [Int32.toInt_div, Int.tdiv_eq_ediv_of_nonneg hpos]
  show (d.toInt / 300).bmod (2 ^ 32) = _
  apply Int.bmod_eq_of_le <;> omega

theorem lifeSeconds_units (hpos : 0 ≤ d.toInt) (hlt : d.toInt < 38400) :
    lifeSeconds (octetFor d) ≤ d.toInt := by
  have hdiv := toInt_div_300 hpos
  have hle : ¬d / 300 > 127 := by
    rw [gt_iff_lt, Int32.lt_iff_toInt_lt, hdiv]
    show ¬127 < d.toInt / 300
    omega
  have hoctet : (octetFor d).toNat = (d.toInt / 300).toNat := by
    rw [octetFor, lifetime, if_neg hle, toNat_octet] <;> omega
  have hlt' : octetFor d < 128 := by
    rw [UInt8.lt_iff_toNat_lt, hoctet]
    show (d.toInt / 300).toNat < 128
    omega
  rw [lifeSeconds, if_pos hlt']
  omega

theorem lifeSeconds_table (h : 38400 ≤ d.toInt) :
    lifeSeconds (octetFor d) = (cmuSeconds.getD (clistSteps d cmuSeconds) 0).toInt := by
  have hgt : d / 300 > 127 := by
    rw [gt_iff_lt, Int32.lt_iff_toInt_lt, toInt_div_300 (by omega)]
    show 127 < d.toInt / 300
    omega
  have hsteps := clistSteps_le d cmuEntries
  rw [← cmuSeconds_eq, show cmuEntries.length = 64 from rfl] at hsteps
  have hlife : (128 + Int32.ofNat (clistSteps d cmuSeconds)).toInt = 128 + clistSteps d cmuSeconds := by
    rw [Int32.toInt_add, Int32.toInt_ofNat_of_lt (by omega)]
    show (128 + (clistSteps d cmuSeconds : Int)).bmod (2 ^ 32) = _
    apply Int.bmod_eq_of_le <;> omega
  have hoctet : (octetFor d).toNat = 128 + clistSteps d cmuSeconds := by
    rw [octetFor, lifetime, if_pos hgt, toNat_octet] <;> omega
  have hge : ¬octetFor d < 128 := by
    rw [UInt8.lt_iff_toNat_lt, hoctet]
    show ¬128 + clistSteps d cmuSeconds < 128
    omega
  rw [lifeSeconds, if_neg hge, hoctet, Nat.add_sub_cancel_left]

/-- The octet stands for a longer life unless the table has this very one. -/
theorem lifeSeconds_le_iff (hge : 38400 ≤ d.toInt) (hle : d.toInt ≤ 2591999) :
    lifeSeconds (octetFor d) ≤ d.toInt ↔ d ∈ cmuSeconds := by
  have hlast : ∃ c ∈ cmuEntries, d ≤ c :=
    ⟨2591999, by decide +kernel, Int32.le_iff_toInt_le.mpr hle⟩
  have hup := le_getD_clistSteps (forall_mem_of_all (by decide +kernel)) hlast
  rw [lifeSeconds_table hge, ← Int32.le_iff_toInt_le]
  constructor
  · intro hdown
    have heq : d = cmuSeconds.getD (clistSteps d cmuSeconds) 0 := Int32.le_antisymm hup hdown
    rw [getD_eq_getElem?_getD] at heq
    cases hget : cmuSeconds[clistSteps d cmuSeconds]? with
    | none =>
      rw [hget] at heq
      rw [heq] at hge
      exact absurd hge (by decide)
    | some c =>
      rw [hget] at heq
      rw [heq]
      exact mem_of_getElem? hget
  · intro hmem
    -- an entry other than the zero is found where it is
    have hfound : ∀ c ∈ cmuSeconds, c ≠ 0 → cmuSeconds.getD (clistSteps c cmuSeconds) 0 ≤ c :=
      forall_mem_of_all (by decide +kernel)
    refine hfound d hmem ?_
    rintro rfl
    exact absurd hge (by decide)

/-! ## The conversion -/

theorem checkTimes_ok {clockskew : Deltat} {times : TicketTimes} {serverTime : Timestamp}
    (h : checkTimes clockskew times serverTime = .ok d) :
    d = times.endtime - (serverTime - clockskew) := by
  rw [checkTimes] at h
  split at h
  · exact (Except.ok.inj h).symm
  · split at h
    · cases h
    · split at h <;> cases h

theorem convert_ok {env : Env} {server : Principal} {v4Skey : Keyblock} {sinAddr : Octets}
    {ticket : V4Ticket} {ciphertext : Octets}
    (h : krb524ConvertTktSkey env server v4Skey sinAddr = .ok (ticket, ciphertext)) :
    ∃ v5etkt serverTime, env.decrypted = .ok v5etkt ∧ env.timeofday = .ok serverTime ∧
      ticket.timeSec = serverTime ∧
      ticket.life = octetFor (v5etkt.times.endtime - (serverTime - env.clockskew)) := by
  obtain ⟨v5etkt, htkt, h⟩ := bind_eq_ok.mp h
  obtain ⟨names, -, h⟩ := bind_eq_ok.mp h
  obtain ⟨_, -, h⟩ := bind_eq_ok.mp h
  obtain ⟨serverTime, htime, h⟩ := bind_eq_ok.mp h
  obtain ⟨deltatime, hdelta, h⟩ := bind_eq_ok.mp h
  obtain ⟨_, -, h⟩ := bind_eq_ok.mp h
  have hdelta' := checkTimes_ok hdelta
  dsimp only at h
  split at h
  · cases h
    exact ⟨v5etkt, serverTime, mapError_eq_ok.mp htkt, mapError_eq_ok.mp htime, rfl,
      congrArg octetFor hdelta'⟩
  · cases h

/-- The time that is left to a ticket, with the clock skew. -/
def timeLeft (env : Env) (v5etkt : EncTktPart) (serverTime : Timestamp) : Int :=
  v5etkt.times.endtime.toInt + env.clockskew.toInt - serverTime.toInt

/-- A converted ticket expires with the old one, clock skew included, exactly when the time that is
left is below the table, behind it or in it. -/
theorem expires_in_time_iff {env : Env} {server : Principal} {v4Skey : Keyblock} {sinAddr : Octets}
    {v5etkt : EncTktPart} {serverTime : Timestamp} {ticket : V4Ticket} {ciphertext : Octets}
    (hticket : env.decrypted = .ok v5etkt) (htime : env.timeofday = .ok serverTime)
    (hvalid : 0 ≤ timeLeft env v5etkt serverTime)
    (h : krb524ConvertTktSkey env server v4Skey sinAddr = .ok (ticket, ciphertext)) :
    ticket.expires ≤ v5etkt.times.endtime.toInt + env.clockskew.toInt ↔
      timeLeft env v5etkt serverTime < 38400 ∨ 2591999 < timeLeft env v5etkt serverTime ∨
        timeLeft env v5etkt serverTime ∈ cmuSeconds.map Int32.toInt := by
  obtain ⟨v5etkt', serverTime', hticket', htime', hsec, hlife⟩ := convert_ok h
  cases hticket.symm.trans hticket'
  cases htime.symm.trans htime'
  have hexpires : ticket.expires ≤ v5etkt.times.endtime.toInt + env.clockskew.toInt ↔
      lifeSeconds ticket.life ≤ timeLeft env v5etkt serverTime := by
    rw [V4Ticket.expires, hsec, timeLeft]
    omega
  rw [hexpires]
  have hmax := lifeSeconds_le ticket.life
  by_cases hbig : 2591999 < timeLeft env v5etkt serverTime
  · exact iff_of_true (by omega) (.inr (.inl hbig))
  -- the subtractions have not wrapped around
  have hdelta : (v5etkt.times.endtime - (serverTime - env.clockskew)).toInt =
      timeLeft env v5etkt serverTime := by
    rw [Int32.toInt_sub, Int32.toInt_sub, Int.sub_bmod_bmod]
    rw [timeLeft] at hvalid hbig
    rw [show v5etkt.times.endtime.toInt - (serverTime.toInt - env.clockskew.toInt) =
      v5etkt.times.endtime.toInt + env.clockskew.toInt - serverTime.toInt by omega]
    apply Int.bmod_eq_of_le <;> omega
  rw [hlife]
  by_cases hsmall : timeLeft env v5etkt serverTime < 38400
  · have := lifeSeconds_units (hdelta ▸ hvalid) (hdelta ▸ hsmall)
    exact iff_of_true (hdelta ▸ this) (.inl hsmall)
  have htable := lifeSeconds_le_iff (d := v5etkt.times.endtime - (serverTime - env.clockskew))
    (by omega) (by omega)
  rw [hdelta] at htable
  rw [htable, ← hdelta]
  constructor
  · exact fun hmem => .inr (.inr (mem_map_of_mem hmem))
  rintro (hlt | hgt | hmem)
  · omega
  · omega
  · obtain ⟨c, hc, heq⟩ := mem_map.mp hmem
    rwa [← Int32.toInt_inj.mp heq]

/-- A ticket that ends at 40000, and an environment in which it is converted at 2000. -/
def sampleTicket : EncTktPart where
  flags := 0
  session := ⟨enctypeDesCbcCrc, [1, 2, 3, 4, 5, 6, 7, 8]⟩
  client := ⟨ascii "R", [ascii "a"], 1⟩
  transited := ⟨0, []⟩
  times := ⟨1000, 0, 40000, 0⟩
  caddrs := none
  authorizationData := none

def sampleEnv (clockskew : Deltat) : Env where
  decrypted := .ok sampleTicket
  convertPrincs _ _ := .ok ⟨ascii "a", [], ascii "R", ascii "s", []⟩
  timeofday := .ok 2000
  clockskew := clockskew
  createTicket _ _ := some []

def sampleServer : Principal := ⟨ascii "R", [ascii "s"], 1⟩

def sampleKey : Keyblock := ⟨enctypeDesCbcCrc, [8, 7, 6, 5, 4, 3, 2, 1]⟩

/-- With a skew of 300 seconds 38300 seconds are left, which are counted in units. -/
theorem expires_in_time_300 : ∃ ticket ciphertext,
    krb524ConvertTktSkey (sampleEnv 300) sampleServer sampleKey [10, 0, 0, 1] = .ok (ticket, ciphertext) ∧
      ticket.expires ≤ 40300 := by
  have hvalid : 0 ≤ timeLeft (sampleEnv 300) sampleTicket 2000 := by decide
  refine ⟨_, _, rfl, (expires_in_time_iff rfl rfl hvalid
    (rfl : krb524ConvertTktSkey (sampleEnv 300) sampleServer sampleKey [10, 0, 0, 1] = _)).mpr ?_⟩
  exact .inl (by decide)

/-- With a skew of 401 seconds one second more than the first entry of the table is left, and the
new ticket is good for 2654 seconds longer. -/
theorem expires_too_late : ∃ ticket ciphertext,
    krb524ConvertTktSkey (sampleEnv 401) sampleServer sampleKey [10, 0, 0, 1] = .ok (ticket, ciphertext) ∧
      ticket.timeSec = 2000 ∧ ticket.life = 129 ∧ ticket.expires = 40000 + 401 + 2654 :=
  ⟨_, _, rfl, rfl, by decide +kernel, by decide +kernel⟩

end Krb5.Krb524
