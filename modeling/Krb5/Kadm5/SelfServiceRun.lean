import Krb5.Kadm5.PwHistoryRun
import Krb5.Kadm5.SelfService

/-!
# The minimum life of a password

A change through the RPC service comes at least the minimum life of the policy after the last change
by the owner, whichever way that one took.

Along a run the time that is stored with the password is not before the owner's last change
and not after the latest reading of the clock (`Tracks`).
-/

namespace Krb5.Kadm5

open Lib Kdb List

variable {handle : Handle} {io : Io} {db db' : Db} {p : Principal} {ksTuple : List KeySaltTuple}
  {keepold : Bool} {word : CString} {kdb : DbEntry} {adb : OsaPrincEnt} {pol : PolicyEnt}
  {clock : Except Kdb.Code Timestamp}

/-- When the password of a principal was changed, if it is read for it. -/
def LastChange (p : Principal) (db : Db) (last : Timestamp) : Prop :=
  ∃ handle kdb adb, (kdbGetEntry handle p).run db = (.ok (kdb, adb), db) ∧
    last = dbeLookupLastPwdChange kdb

variable {last now : Timestamp}

theorem lastChange_iff : LastChange p db last ↔ ∃ handle key stored kdb adb,
    ReadAs handle db p key stored kdb adb ∧ last = dbeLookupLastPwdChange stored := by
  constructor
  · rintro ⟨handle, kdb, adb, hget, rfl⟩
    obtain ⟨key, stored, hread⟩ := kdbGetEntry_ok hget
    refine ⟨handle, key, stored, kdb, adb, hread, ?_⟩
    rw [hread.eq]
    rfl
  · rintro ⟨handle, key, stored, kdb, adb, hread, rfl⟩
    refine ⟨handle, kdb, adb, hread.get, ?_⟩
    rw [hread.eq]
    rfl

/-- A change of the password is entered with its time. -/
theorem lastChange_chpass {client : Principal}
    (h : (kadm5ChpassPrincipal3 handle io (some client) keepold ksTuple (some word)).run db = (.ok (), db'))
    (hlast : LastChange p db' last) :
    ∃ now, io.now = .ok now ∧ (last = now ∨ client ≠ p ∧ LastChange p db last) := by
  obtain ⟨-, key, stored, kdb, adb, pol, kdb', adb', stored', hchanged⟩ := chpass_ok h
  obtain ⟨keys, now, hrepassed⟩ := changedPassword_ok hchanged.changed
  refine ⟨now, hrepassed.clock, ?_⟩
  obtain ⟨handle', key', stored'', kdb'', adb'', hread, rfl⟩ := lastChange_iff.mp hlast
  have hlook := hread.lookup
  rw [hchanged.put] at hlook
  by_cases hkey : key' = key
  · refine .inl ?_
    subst hkey
    cases (AList.lookup_insert _).symm.trans hlook
    obtain ⟨_, _, modified, record, -, -, -, -, rfl⟩ := prepared_ok.mp hchanged.prepared
    rw [hrepassed.entry]
    exact (dbeLookupLastPwdChange_stored modified record _).trans (dbeLookupLastPwdChange_withTl _ now)
  · refine .inr ⟨?_, lastChange_iff.mpr ⟨handle', key', stored'', kdb'', adb'', ?_, rfl⟩⟩
    · rintro rfl
      exact hkey (Except.ok.inj (hread.dbkey.symm.trans hchanged.read.dbkey))
    · exact { hread with lookup := (AList.lookup_insert_ne hkey).symm.trans hlook }

theorem silent_checkMinLife (now : Timestamp) (princ : PrincipalEntRec) :
    Silent (checkMinLife now princ) := by
  rw [checkMinLife]
  split
  · exact (silent_getPolicy _).bind fun _ => Silent.failIf _ _
  · exact Silent.pure _

theorem careful_chpassPrincipalWrapper (principal : Option Principal) (password : Option CString) :
    Careful (chpassPrincipalWrapper handle io clock principal password) :=
  (silent_ofKdb _).bind_careful fun _ => (silent_getPrincipal _).bind_careful fun _ =>
    (silent_checkMinLife _ _).bind_careful fun _ => careful_chpass _ _

theorem checkMinLife_ok {modified : Option (Timestamp × Principal)}
    (h : (checkMinLife now (answer p kdb adb modified maskNormal)).run db = (.ok (), db))
    (hpol : (recordPolicy adb).run db = (.ok (some pol), db)) :
    isSet kdb.attributes Kdc.kdbRequiresPwchange ∨
      pol.pwMinLife ≤ now - dbeLookupLastPwdChange kdb := by
  obtain ⟨haux, n, t, hn, hne, ht, rfl⟩ := recordPolicy_some hpol
  have hpolicy : (answer p kdb adb modified maskNormal).policy = some n := by
    rw [← hn]
    exact if_pos haux
  have hget := getPolicy_ok.mpr ⟨rfl, n, t, rfl, hne, ht, rfl⟩
  have haux' : isSet (answer p kdb adb modified maskNormal).auxAttributes maskPolicy := haux
  rw [checkMinLife, if_pos haux', hpolicy, bind_of_ok hget] at h
  have hsoon : tooSoon now (answer p kdb adb modified maskNormal) (t.ent n) = false := by
    by_contra htrue
    rw [Bool.not_eq_false] at htrue
    rw [htrue] at h
    cases h
  rw [tooSoon, Bool.and_eq_false_iff, Bool.not_eq_false', decide_eq_false_iff_not, Int32.not_lt] at hsoon
  exact hsoon.symm

theorem chpassPrincipalWrapper_ok
    (h : (chpassPrincipalWrapper handle io clock (some p) (some word)).run db = (.ok (), db')) :
    ∃ now kdb adb, clock = .ok now ∧ (kdbGetEntry handle p).run db = (.ok (kdb, adb), db) ∧
      (∀ pol, (recordPolicy adb).run db = (.ok (some pol), db) →
        isSet kdb.attributes Kdc.kdbRequiresPwchange ∨
          pol.pwMinLife ≤ now - dbeLookupLastPwdChange kdb) ∧
      (kadm5ChpassPrincipal handle io (some p) (some word)).run db = (.ok (), db') := by
  obtain ⟨now, hclock, h⟩ := run_ofKdb_bind_eq_ok.mp h
  obtain ⟨princ, hget, h⟩ := (run_silent_bind_eq_ok (silent_getPrincipal _)).mp h
  obtain ⟨_, hmin, hchpass⟩ := (run_silent_bind_eq_ok (silent_checkMinLife _ _)).mp h
  obtain ⟨p', key, stored, kdb, adb, modified, hp, hread, -, rfl⟩ := getPrincipal_ok hget
  cases hp
  exact ⟨now, kdb, adb, hclock, hread.get, fun _ hpol => checkMinLife_ok hmin hpol, hchpass⟩

theorem processChpwRequest_cases (env : ChpwEnv) (req : Octets)
    (h : (processChpwRequest handle io env req db).2 = db') : db' = db ∨ ∃ client apRep word,
      authenticate env req = .ok (client, apRep, word) ∧
        (kadm5ChpassPrincipalUtil handle io client word).run db = (.ok (), db') := by
  rw [processChpwRequest] at h
  split at h
  · exact .inl h.symm
  rename_i client apRep word hauth
  split at h
  · rename_i hrun
    exact .inr ⟨client, apRep, word, hauth, h ▸ hrun⟩
  · rename_i code db₁ hrun
    have hsame : db₁ = db := careful_chpass (some client) (some word) hrun
    exact .inl (h.symm.trans hsame)

/-! ## Runs -/

inductive SelfRequest
  | rpc (handle : Handle) (clock : Except Kdb.Code Timestamp) (io : Io) (word : CString)
  | kpasswd (handle : Handle) (env : ChpwEnv) (io : Io) (req : Octets)

namespace SelfRequest

def server : SelfRequest → Handle
  | rpc handle _ _ _ => handle
  | kpasswd handle _ _ _ => handle

def environment : SelfRequest → Io
  | rpc _ _ io _ => io
  | kpasswd _ _ io _ => io

def times : SelfRequest → List Timestamp
  | rpc _ clock io _ => clock.toOption.toList ++ io.now.toOption.toList
  | kpasswd _ _ io _ => io.now.toOption.toList

def changes (p : Principal) : SelfRequest → Db → Bool
  | rpc handle clock io word, db =>
    ((chpassPrincipalWrapper handle io clock (some p) (some word)).run db).1.isOk
  | kpasswd handle env io req, db =>
    match authenticate env req with
    | .ok (client, _, word) =>
      client = p && ((kadm5ChpassPrincipalUtil handle io client word).run db).1.isOk
    | .error _ => false

def changeTime (p : Principal) (r : SelfRequest) (db : Db) : Option Timestamp :=
  if r.changes p db then r.times.getLast? else none

def after (p : Principal) : SelfRequest → Db → Db
  | rpc handle clock io word, db =>
    ((chpassPrincipalWrapper handle io clock (some p) (some word)).run db).2
  | kpasswd handle env io req, db => (processChpwRequest handle io env req db).2

end SelfRequest

/-- The databases, the latest reading of the clock, and the last change by the owner. -/
structure Service where
  db : Db
  clock : Timestamp
  changed : Option Timestamp

/-- The steps: a request for the principal, or something else, after which the time that is
stored is the one from before or a later one. The clock does not go back. -/
inductive ServiceStep (p : Principal) : Service → Option SelfRequest → Service → Prop
  | request {s : Service} {r : SelfRequest} {clock : Timestamp}
      (hclock : (s.clock :: r.times ++ [clock]).Pairwise (· ≤ ·)) :
      ServiceStep p s (some r) ⟨r.after p s.db, clock, (r.changeTime p s.db).or s.changed⟩
  | other {s : Service} {db' : Db} {clock : Timestamp} (hclock : s.clock ≤ clock)
      (h : ∀ last', LastChange p db' last' →
        last' ≤ clock ∧ (s.clock ≤ last' ∨ ∃ last, LastChange p s.db last ∧ last ≤ last')) :
      ServiceStep p s none ⟨db', clock, s.changed⟩

def Tracks (p : Principal) (s : Service) : Prop :=
  ∀ t, s.changed = some t → t ≤ s.clock ∧ ∀ last, LastChange p s.db last → t ≤ last ∧ last ≤ s.clock

variable {r : SelfRequest}

theorem changes_eq_true (h : r.changes p db) :
    ∃ word, (kadm5ChpassPrincipal r.server r.environment (some p) (some word)).run db =
      (.ok (), r.after p db) := by
  cases r with
  | rpc handle clock io word =>
    rcases hrun : (chpassPrincipalWrapper handle io clock (some p) (some word)).run db with ⟨code | u, db'⟩
    · rw [SelfRequest.changes, hrun] at h
      cases h
    · obtain ⟨_, _, _, -, -, -, hchpass⟩ := chpassPrincipalWrapper_ok hrun
      exact ⟨word, hchpass.trans (by rw [SelfRequest.after, hrun])⟩
  | kpasswd handle env io req =>
    rw [SelfRequest.changes] at h
    split at h
    · rename_i client apRep word hauth
      rw [Bool.and_eq_true, decide_eq_true_eq] at h
      obtain ⟨rfl, hok⟩ := h
      rcases hrun : (kadm5ChpassPrincipalUtil handle io client word).run db with ⟨code | u, db'⟩
      · rw [hrun] at hok
        cases hok
      refine ⟨word, ?_⟩
      rw [SelfRequest.after, processChpwRequest, hauth]
      dsimp only
      rw [hrun]
      exact hrun
    · cases h

theorem getLast?_times (h : r.environment.now = .ok now) : r.times.getLast? = some now := by
  cases r with
  | rpc handle clock io word =>
    replace h : io.now = .ok now := h
    rw [SelfRequest.times, h]
    exact getLast?_concat
  | kpasswd handle env io req =>
    replace h : io.now = .ok now := h
    rw [SelfRequest.times, h]
    rfl

theorem changeTime_eq_some (h : r.changeTime p db = some now) :
    now ∈ r.times ∧ ∀ last, LastChange p (r.after p db) last → last = now := by
  rw [SelfRequest.changeTime] at h
  split at h
  · rename_i hchanges
    refine ⟨mem_of_getLast? h, fun last hlast => ?_⟩
    obtain ⟨word, hchpass⟩ := changes_eq_true hchanges
    obtain ⟨now', hnow', rfl | ⟨hne, -⟩⟩ := lastChange_chpass hchpass hlast
    · exact Option.some.inj ((getLast?_times hnow').symm.trans h)
    · exact absurd rfl hne
  · cases h

/-- The last change is one of the request, or the one before it. -/
theorem lastChange_after (hlast : LastChange p (r.after p db) last) :
    last ∈ r.times ∨ LastChange p db last := by
  have hchpass {client : Principal} {word : CString}
      (hrun : (kadm5ChpassPrincipal r.server r.environment (some client) (some word)).run db =
        (.ok (), r.after p db)) : last ∈ r.times ∨ LastChange p db last := by
    obtain ⟨now, hnow, rfl | ⟨-, hsame⟩⟩ := lastChange_chpass hrun hlast
    · exact .inl (mem_of_getLast? (getLast?_times hnow))
    · exact .inr hsame
  cases r with
  | rpc handle clock io word =>
    rcases hrun : (chpassPrincipalWrapper handle io clock (some p) (some word)).run db with ⟨code | u, db'⟩
    · have hsame := careful_chpassPrincipalWrapper _ _ hrun
      rw [SelfRequest.after, hrun] at hlast
      exact .inr (hsame ▸ hlast)
    · have hchanges : (SelfRequest.rpc handle clock io word).changes p db := by
        rw [SelfRequest.changes, hrun]
        rfl
      obtain ⟨word', hrun'⟩ := changes_eq_true hchanges
      exact hchpass hrun'
  | kpasswd handle env io req =>
    have hcases := processChpwRequest_cases env req
      (rfl : (processChpwRequest handle io env req db).2 = _)
    rcases hcases with hsame | ⟨client, apRep, word, -, hrun⟩
    · rw [SelfRequest.after, hsame] at hlast
      exact .inr hlast
    · exact hchpass hrun

/-- One request of the service keeps what is known about the last change. -/
theorem tracks_step {s u : Service} {e : Option SelfRequest} (h : Tracks p s)
    (hstep : ServiceStep p s e u) : Tracks p u := by
  cases hstep with
  | @request r clock hclock =>
    rw [cons_append, pairwise_cons, pairwise_append] at hclock
    obtain ⟨hstart, -, -, hend⟩ := hclock
    have hclock' : s.clock ≤ clock := hstart clock (mem_append_right _ mem_cons_self)
    have htime {x : Timestamp} (hx : x ∈ r.times) : s.clock ≤ x ∧ x ≤ clock :=
      ⟨hstart x (mem_append_left _ hx), hend x hx clock mem_cons_self⟩
    intro t ht
    cases htimes : r.changeTime p s.db with
    | some now =>
      rw [htimes] at ht
      cases ht
      obtain ⟨hmem, hnow⟩ := changeTime_eq_some htimes
      refine ⟨(htime hmem).2, fun last hlast => ?_⟩
      rw [hnow last hlast]
      exact ⟨Int32.le_refl _, (htime hmem).2⟩
    | none =>
      rw [htimes] at ht
      obtain ⟨hle, hold⟩ := h t ht
      refine ⟨Int32.le_trans hle hclock', fun last hlast => ?_⟩
      rcases lastChange_after hlast with hmem | hsame
      · exact ⟨Int32.le_trans hle (htime hmem).1, (htime hmem).2⟩
      · exact ⟨(hold last hsame).1, Int32.le_trans (hold last hsame).2 hclock'⟩
  | @other db' clock hclock hother =>
    intro t ht
    obtain ⟨hle, hold⟩ := h t ht
    refine ⟨Int32.le_trans hle hclock, fun last' hlast' => ?_⟩
    obtain ⟨hend, hlater | ⟨last, hlast, hlater⟩⟩ := hother last' hlast'
    · exact ⟨Int32.le_trans hle hlater, hend⟩
    · exact ⟨Int32.le_trans (hold last hlast).1 hlater, hend⟩

theorem tracks_run {s₀ s : Service} {events : List (Option SelfRequest)} (hnone : s₀.changed = none)
    (hrun : Run (ServiceStep p) s₀ events s) : Tracks p s := by
  have hfirst : Tracks p s₀ := fun t ht => (nomatch hnone.symm.trans ht)
  exact hrun.history (fun _ s => Tracks p s) hfirst fun _ _ _ _ h hstep => tracks_step h hstep

/-- A change by the owner that follows another one comes at least the minimum life of the policy
after it, or was asked for. -/
def Respects (p : Principal) (s : Service) (r : SelfRequest) : Prop :=
  ∀ kdb adb pol t now, (kdbGetEntry r.server p).run s.db = (.ok (kdb, adb), s.db) →
    (recordPolicy adb).run s.db = (.ok (some pol), s.db) → s.changed = some t →
    r.changeTime p s.db = some now →
      isSet kdb.attributes Kdc.kdbRequiresPwchange = true ∨
        pol.pwMinLife.toInt ≤ now.toInt - t.toInt

theorem le_sub_of_le {a b m : Int32} (hle : b ≤ a) (h : m ≤ a - b) : m.toInt ≤ a.toInt - b.toInt := by
  rw [Int32.le_iff_toInt_le] at hle h
  rw [Int32.toInt_sub, Int.bmod] at h
  split at h <;> omega

/-- After every run of requests through the two services, a change through the RPC service, and
the first change in any case, respects the minimum life. -/
theorem self_service_min_life {s₀ s : Service} {events : List (Option SelfRequest)} {r : SelfRequest}
    (hnone : s₀.changed = none) (hrun : Run (ServiceStep p) s₀ events s)
    (hclock : (s.clock :: r.times).Pairwise (· ≤ ·))
    (hrpc : s.changed = none ∨ ∃ handle clock io word, r = .rpc handle clock io word) :
    Respects p s r := by
  intro kdb adb pol t now hget hpol ht hnow
  rcases hrpc with hfirst | ⟨handle, clock, io, word, rfl⟩
  · cases hfirst.symm.trans ht
  obtain ⟨htlast, hlastclock⟩ :=
    (tracks_run hnone hrun t ht).2 (dbeLookupLastPwdChange kdb) ⟨handle, kdb, adb, hget, rfl⟩
  rw [SelfRequest.changeTime] at hnow
  split at hnow
  · rename_i hchanges
    rcases hwrapper : (chpassPrincipalWrapper handle io clock (some p) (some word)).run s.db with
      ⟨code | u, db'⟩
    · rw [SelfRequest.changes, hwrapper] at hchanges
      cases hchanges
    obtain ⟨start, kdb', adb', rfl, hget', hmin, -⟩ := chpassPrincipalWrapper_ok hwrapper
    cases hget.symm.trans hget'
    -- the clock was read before the check and again for the change
    have hmem := mem_of_getLast? hnow
    obtain ⟨hstart, hlater⟩ := pairwise_cons.mp hclock
    have hfirst : s.clock ≤ start := hstart start mem_cons_self
    have hnowle : start ≤ now := by
      rcases mem_cons.mp hmem with rfl | hmem
      · exact Int32.le_refl _
      · exact (pairwise_cons.mp hlater).1 now hmem
    refine (hmin pol hpol).imp_right fun hlife => ?_
    have hlife' := le_sub_of_le (Int32.le_trans hlastclock hfirst) hlife
    rw [Int32.le_iff_toInt_le] at htlast hnowle
    omega
  · cases hnow

/-! ## The kpasswd service does not ask -/

def lifeDb : Db :=
  ((kadm5ModifyPolicy { historyPolicy 1 with pwMinLife := 100 } maskPwMinLife).run secretDb).2

def ioAt (now : Timestamp) : Io := { sampleIo with now := .ok now, putNow := .ok now }

def plainEnv : ChpwEnv where
  init := .ok ()
  setFlags := .ok ()
  changepw := .ok ()
  rdReq _ := .ok ⟨principalA, tktFlgInitial⟩
  getsockname := .ok ()
  getpeername := .ok ()
  setRemote := .ok ()
  mkRep := .ok [0]
  rdPriv cipher := .ok cipher
  utilText _ _ _ := []
  setLocal := .ok ()
  mkPriv clear := .ok clear
  errorTime := .ok 0
  errorServer := .ok ()
  mkError _ _ eData := .ok eData

def chpwMessage (word : Octets) : Octets := be16 (7 + word.length) ++ be16 1 ++ be16 1 ++ [0] ++ word

def kpasswdAt (now : Timestamp) (word : String) : SelfRequest :=
  .kpasswd plainHandle plainEnv (ioAt now) (chpwMessage (ascii word))

def rpcAt (now : Timestamp) (word : String) : SelfRequest :=
  .rpc plainHandle (.ok now) (ioAt now) (.ofAscii word)

def changedService : Service := ⟨(kpasswdAt 2000 "public").after principalA lifeDb, 2000, some 2000⟩

theorem run_changedService : Run (ServiceStep principalA) ⟨lifeDb, 1500, none⟩
    [some (kpasswdAt 2000 "public")] changedService := by
  have htime : (kpasswdAt 2000 "public").changeTime principalA lifeDb = some 2000 := by decide +kernel
  have hclock : ((1500 : Timestamp) :: (kpasswdAt 2000 "public").times ++ [2000]).Pairwise (· ≤ ·) := by
    decide
  have hstep : ServiceStep principalA ⟨lifeDb, 1500, none⟩ (some (kpasswdAt 2000 "public"))
      ⟨_, 2000, ((kpasswdAt 2000 "public").changeTime principalA lifeDb).or none⟩ := .request hclock
  rw [htime] at hstep
  exact .snoc .nil hstep

/-- A change through the RPC service after 100 seconds. -/
theorem self_service_min_life_rpc :
    (rpcAt 2100 "third").changeTime principalA changedService.db = some 2100 ∧
    Respects principalA changedService (rpcAt 2100 "third") :=
  ⟨by decide +kernel, self_service_min_life rfl run_changedService (by decide)
    (.inr ⟨_, _, _, _, rfl⟩)⟩

def isYoung (db : Db) : Bool :=
  match (kdbGetEntry plainHandle principalA).run db with
  | (.ok (kdb, adb), _) => !isSet kdb.attributes Kdc.kdbRequiresPwchange &&
      match (recordPolicy adb).run db with
      | (.ok (some pol), _) => pol.pwMinLife = 100
      | _ => false
  | _ => false

theorem exists_of_isYoung (h : isYoung db) :
    ∃ kdb adb pol, (kdbGetEntry plainHandle principalA).run db = (.ok (kdb, adb), db) ∧
      (recordPolicy adb).run db = (.ok (some pol), db) ∧
      isSet kdb.attributes Kdc.kdbRequiresPwchange = false ∧ pol.pwMinLife = 100 := by
  rw [isYoung] at h
  split at h
  · rename_i kdb adb db' hget
    cases (silent_kdbGetEntry principalA).run_of_ok hget
    rw [Bool.and_eq_true, Bool.not_eq_true'] at h
    obtain ⟨hrequires, h⟩ := h
    split at h
    · rename_i pol db'' hpol
      cases (silent_recordPolicy adb).run_of_ok hpol
      exact ⟨kdb, adb, pol, hget, hpol, hrequires, of_decide_eq_true h⟩
    · cases h
  · cases h

/-- Two changes through the kpasswd service within a second, where the RPC service refuses the
second one. -/
theorem min_life_bypassed :
    Run (ServiceStep principalA) ⟨lifeDb, 1500, none⟩ [some (kpasswdAt 2000 "public")] changedService ∧
    (kpasswdAt 2001 "third").changeTime principalA changedService.db = some 2001 ∧
    (rpcAt 2001 "third").changeTime principalA changedService.db = none ∧
    ¬Respects principalA changedService (kpasswdAt 2001 "third") := by
  have htime : (kpasswdAt 2001 "third").changeTime principalA changedService.db = some 2001 := by
    decide +kernel
  refine ⟨run_changedService, htime, by decide +kernel, fun hrespects => ?_⟩
  obtain ⟨kdb, adb, pol, hget, hpol, hrequires, hlife⟩ :=
    exists_of_isYoung (show isYoung changedService.db = true by decide +kernel)
  have hserver : (kpasswdAt 2001 "third").server = plainHandle := rfl
  have hrespects' := hrespects kdb adb pol 2000 2001
  rw [hserver] at hrespects'
  rcases hrespects' hget hpol rfl htime with hset | hle
  · cases hrequires.symm.trans hset
  · rw [hlife] at hle
    exact absurd hle (by decide)

end Krb5.Kadm5
