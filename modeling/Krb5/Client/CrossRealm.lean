import Krb5.Lib.Action
import Krb5.Lib.Checked
import Krb5.Messages
import Krb5.Transited.RealmTree

/-!
# Cross-realm tickets (`gc_frm_kdc.c`, `gc_via_tkt.c`)

`krb5_get_cred_from_kdc_opt` looks for a ticket-granting ticket of the server's realm, in the cache
and then along the realm tree, and asks with it for the service. A cursor into the tree is an
index, `NULL` is `none`. What the KDCs answer is a parameter, as are the realm tree and the
enctypes. Addresses and authorization data are left out.

The name of the ticket-granting server of a realm without a name has one component. Where the
second one is looked at, what is read is whatever stands behind the array of the components.
-/

namespace Krb5.Client

open Lib Transited List Action

inductive Code
  | ccNotfound
  | ccNotKtype
  | princNomatch
  | noTktSupplied
  | no2ndTkt
  | noTktInRlm
  | apErrMsgType
  | progEtypeNosupp
  | kdcrepModified
  | kdcrepSkew
  | other (code : Int32)
deriving DecidableEq, Repr

structure Creds where
  client : Principal
  server : Principal
  keyblock : Keyblock
  times : TicketTimes
  ticketFlags : Flags
  ticket : Octets
  secondTicket : Octets
deriving DecidableEq, Repr

/-- `srvname_match`: the realm of the server takes no part. -/
def srvnameMatch (client server : Principal) (creds : Creds) : Bool :=
  principalCompare client creds.client && server.data == creds.server.data

/-- One round of `krb5_cc_retrieve_cred_seq`, with the best match so far. -/
def fetched (ktypes : List Int32) (client server : Principal)
    (best : Option (Creds × Nat) × Code) (creds : Creds) : Option (Creds × Nat) × Code :=
  if srvnameMatch client server creds then
    match ktypes.idxOf? creds.keyblock.enctype with
    | none => (best.1, .ccNotKtype)
    | some pref => if best.1.all (pref < ·.2) then (some (creds, pref), best.2) else best
  else best

/-- `krb5_cc_retrieve_cred`, under `KRB5_TC_MATCH_SRV_NAMEONLY` and
`KRB5_TC_SUPPORTED_KTYPES`. -/
def retrieveCred (ktypes : List Int32) (cache : Except Code (List Creds))
    (client server : Principal) : Except Code Creds := do
  match (← cache).foldl (fetched ktypes client server) (none, .ccNotfound) with
  | (some (creds, _), _) => return creds
  | (none, nomatchErr) => throw nomatchErr

/-! ## One request -/

/-- What comes back to a request, opened with the session key. -/
structure TgsReply where
  rep : KdcRep
  encPart2 : EncKdcRepPart
  expectedNonce : Int32
  requestTime : Timestamp

/-- What `krb5_walk_realm_tree` finds: the server of the client's realm, and those on the way to the
server's realm. -/
abbrev TgsList := { tgsList : List Principal // tgsList ≠ [] }

theorem walkRealmTree_ne_nil {capaths : Capaths} {client server : Octets} {branch : UInt8}
    {tgsList : List Principal} (h : walkRealmTree capaths client server branch = .ok tgsList) :
    tgsList ≠ [] := by
  unfold walkRealmTree hierarchicalTree at h
  split at h
  · cases h
    exact cons_ne_nil _ _
  · dsimp only at h
    split at h <;> cases h
    exact cons_ne_nil _ _

/-- The realms on the way, from the configuration and the names. -/
def realmTree (capaths : Capaths) (client server : Octets) : Except Code TgsList :=
  match h : walkRealmTree capaths client server realmBranchChar with
  | .ok tgsList => .ok ⟨tgsList, walkRealmTree_ne_nil h⟩
  | .error _ => .error .noTktInRlm

structure Env where
  ktypes : List Int32
  cache : Except Code (List Creds)
  /-- the answer to each request, by its number -/
  answer : Nat → Except Code TgsReply
  tree : (client server : Octets) → Except Code TgsList
  /-- what is read behind a name of one component -/
  beyond : Principal → Octets
  validEnctype : Int32 → Bool
  encodeTicket : SealedTicket → Octets
  clockskew : Deltat

def Env.inClockSkew (env : Env) (date now : Timestamp) : Bool :=
  (if date - now < 0 then -(date - now) else date - now) < env.clockskew

/-- "make sure the response hasn't been tampered with". -/
def replyGuards (env : Env) (tkt inCred : Creds) (kdcoptions : Flags) (r : TgsReply) :
    List (Guard Code) := [
  ⟨!principalCompare r.rep.client tkt.client, .kdcrepModified⟩,
  ⟨!principalCompare r.encPart2.server inCred.server, .kdcrepModified⟩,
  ⟨!principalCompare r.rep.ticket.server inCred.server, .kdcrepModified⟩,
  ⟨r.encPart2.nonce != r.expectedNonce, .kdcrepModified⟩,
  ⟨isflagset kdcoptions kdcOptPostdated && inCred.times.starttime != 0 &&
    inCred.times.starttime != r.encPart2.times.starttime, .kdcrepModified⟩,
  ⟨inCred.times.endtime != 0 && decide (r.encPart2.times.endtime > inCred.times.endtime),
    .kdcrepModified⟩,
  ⟨isflagset kdcoptions kdcOptRenewable && inCred.times.renewTill != 0 &&
    decide (r.encPart2.times.renewTill > inCred.times.renewTill), .kdcrepModified⟩,
  ⟨isflagset kdcoptions kdcOptRenewableOk && isflagset r.encPart2.flags kdcOptRenewable &&
    inCred.times.endtime != 0 && decide (r.encPart2.times.renewTill > inCred.times.endtime),
    .kdcrepModified⟩,
  ⟨inCred.times.starttime == 0 && !env.inClockSkew r.encPart2.times.starttime r.requestTime,
    .kdcrepSkew⟩]

/-- `krb5_get_cred_via_tkt`, on the answer that comes. -/
def getCredViaTkt (env : Env) (tkt : Creds) (kdcoptions : Flags) (inCred : Creds)
    (answer : Except Code TgsReply) : Except Code Creds := do
  runGuards [
    ⟨!principalCompare tkt.client inCred.client, .princNomatch⟩,
    ⟨tkt.ticket == [], .noTktSupplied⟩,
    ⟨isflagset kdcoptions kdcOptEncTktInSkey && inCred.secondTicket == [], .no2ndTkt⟩]
  let r ← answer
  runGuards (⟨r.rep.msgType != 13, .apErrMsgType⟩ :: replyGuards env tkt inCred kdcoptions r)
  -- `krb5_kdcrep2creds`
  return {
    client := r.rep.client
    server := r.encPart2.server
    keyblock := r.encPart2.session
    times := r.encPart2.times
    ticketFlags := r.encPart2.flags
    ticket := env.encodeTicket r.rep.ticket
    secondTicket := inCred.secondTicket }

/-! ## The walk -/

inductive Stop
  | code (c : Code)
  | fault
  | unfinished
deriving DecidableEq, Repr

/-- The variables of `krb5_get_cred_from_kdc_opt` that outlive a round, the number of requests
sent, and the ticket that the service was asked with. -/
structure Vars where
  tgt : Creds
  retTgts : List Creds
  sent : Nat
  asked : Option Creds

abbrev Walk := Action Vars Stop

def flags2opts (flags : Flags) : Flags := flags &&& 0x54800000#32

def viaTgt (env : Env) (kdcoptions : Flags) (inCred : Creds) : Walk (Except Code Creds) := do
  let st ← get
  .failIf (!env.validEnctype st.tgt.keyblock.enctype) (.code .progEtypeNosupp)
  .modify fun st => { st with sent := st.sent + 1 }
  return getCredViaTkt env st.tgt kdcoptions inCred (env.answer st.sent)

def requestTgt (env : Env) (intServer : Principal) : Walk (Except Code Creds) := do
  let tgt := (← get).tgt
  viaTgt env (flags2opts tgt.ticketFlags)
    ⟨tgt.client, intServer, ⟨0, []⟩, tgt.times, tgt.ticketFlags, [], []⟩

/-- `tgt = *ret_tgts[ntgts++]`, in an array for `nservers + 1`. -/
def saveTgt (nservers : Nat) (tgtr : Creds) : Walk Unit := do
  .failIf ((← get).retTgts.length > nservers) .fault
  .modify fun st => { st with tgt := tgtr, retTgts := st.retTgts ++ [tgtr] }

def lookup (env : Env) (client intServer : Principal) : Walk (Option Code) :=
  match retrieveCred env.ktypes env.cache client intServer with
  | .ok creds => do
    .modify fun st => { st with tgt := creds }
    return none
  | .error code => return some code

/-- The loop backwards from the end of the list to `top_server`; `next_server` is `k` behind
it, and `code` is the last error. -/
def lookBack (env : Env) (tgsList : List Principal) (top : Nat) : Nat → Code → Walk Nat
  | 0, code => .fail (.code code)
  | k + 1, _ =>
    match tgsList[top]?, tgsList[top + k + 1]? with
    | some topServer, some nextServer => do
      let intServer := tgtname nextServer.realm topServer.realm
      match ← lookup env (← get).tgt.client intServer with
      | none => return top + k + 1
      | some code =>
        .failIf (code != .ccNotfound) (.code code)
        match ← requestTgt env intServer with
        | .error code => lookBack env tgsList top k code
        | .ok tgtr =>
          saveTgt tgsList.length tgtr
          return top + k + 1
    | _, _ => .fail .fault

/-- `krb5_princ_component(context, p, 1)`. -/
def Env.second (env : Env) (p : Principal) : Octets := (p.data[1]?).getD (env.beyond p)

/-- The first entry from `next` on for this realm, or the end of the list. -/
def findServer (env : Env) (realm : Octets) : List Principal → Nat → Nat
  | [], next => next
  | p :: ps, next => if env.second p = realm then next else findServer env realm ps (next + 1)

def walkLoop (env : Env) (server : Principal) (tgsList : List Principal) :
    Nat → Option Nat → Option Nat → Walk Unit
  | 0, _, _ => .fail .unfinished
  -- A null pointer is below the end of the list, and is followed.
  | _ + 1, none, _ => .fail .fault
  | fuel + 1, some top, next =>
    match tgsList[top]? with
    | none => return ()
    | some topServer => do
      let intServer := tgtname server.realm topServer.realm
      match ← lookup env (← get).tgt.client intServer with
      | none => walkLoop env server tgsList fuel next next
      | some code =>
        .failIf (code != .ccNotfound && code != .ccNotKtype) (.code code)
        match ← requestTgt env intServer with
        | .error code =>
          let next ← lookBack env tgsList top (tgsList.length - 1 - top) code
          walkLoop env server tgsList fuel (some next) (some next)
        | .ok tgtr =>
          let next := findServer env (env.second tgtr.server) (tgsList.drop top) top
          saveTgt tgsList.length tgtr
          if next < tgsList.length then
            walkLoop env server tgsList fuel (some (next + 1)) (some (next + 1))
          else return ()

/-- `krb5_get_cred_from_kdc_opt` up to the ticket, with so many rounds for the loop. -/
def findTgt (env : Env) (fuel : Nat) (client server : Principal) : Walk Unit := do
  match ← lookup env client (tgtname server.realm client.realm) with
  | none => return ()
  | some code =>
    .failIf (code != .ccNotfound && code != .ccNotKtype) (.code code)
    match ← lookup env client (tgtname client.realm client.realm) with
    | some code => .fail (.code code)
    | none =>
      let tree ← .ofExcept ((env.tree client.realm server.realm).mapError .code)
      walkLoop env server tree.val fuel (some 0) none

def getCredFromKdcOpt (env : Env) (fuel : Nat) (inCred : Creds) (kdcopt : Flags) : Walk Creds := do
  findTgt env fuel inCred.client inCred.server
  .modify fun st => { st with asked := some st.tgt }
  let skey := if inCred.secondTicket = [] then 0 else kdcOptEncTktInSkey
  let r ← viaTgt env (flags2opts (← get).tgt.ticketFlags ||| kdcopt ||| skey) inCred
  .ofExcept (r.mapError .code)

/-! ## What one step does -/

theorem principalCompare_iff {p q : Principal} :
    principalCompare p q ↔ p.realm = q.realm ∧ p.data = q.data := by
  simp only [principalCompare, realmCompare, Bool.and_eq_true, beq_iff_eq]
  exact ⟨fun h => ⟨h.1.2, h.2⟩, fun h => ⟨⟨by rw [h.2], h.1⟩, h.2⟩⟩

section Steps

variable {env : Env} {client client' server server' intServer : Principal} {creds : Creds}
  {st : Vars}

/-- Credentials from the cache are for the names that were asked for. -/
theorem retrieveCred_ok (h : retrieveCred env.ktypes env.cache client server = .ok creds) :
    srvnameMatch client server creds := by
  have hbest : ∀ (l : List Creds) (best : Option (Creds × Nat) × Code),
      (∀ b ∈ best.1, srvnameMatch client server b.1) →
      ∀ b ∈ (l.foldl (fetched env.ktypes client server) best).1,
        srvnameMatch client server b.1 := by
    intro l
    induction l with
    | nil => exact fun _ h => h
    | cons c l ih =>
      intro best h
      refine ih _ ?_
      unfold fetched
      split
      · rename_i hmatch
        split
        · exact h
        · split
          · simpa using hmatch
          · exact h
      · exact h
  obtain ⟨l, -, h⟩ := bind_eq_ok.mp h
  have hl := hbest l (none, .ccNotfound) (by simp)
  split at h
  · rename_i hfold
    cases h
    exact hl _ (by rw [hfold]; rfl)
  · cases h

theorem retrieveCred_congr (hcli : principalCompare client client')
    (hsrv : server'.data = server.data) :
    retrieveCred env.ktypes env.cache client' server' =
      retrieveCred env.ktypes env.cache client server := by
  obtain ⟨hrealm, hdata⟩ := principalCompare_iff.mp hcli
  have hfetched : fetched env.ktypes client' server' = fetched env.ktypes client server := by
    funext best creds
    simp [fetched, srvnameMatch, principalCompare, realmCompare, hsrv, hrealm, hdata]
  rw [retrieveCred, retrieveCred, hfetched]

theorem lookup_cases : (∃ creds, retrieveCred env.ktypes env.cache client intServer = .ok creds ∧
      (lookup env client intServer).run st = (.ok none, { st with tgt := creds })) ∨
    ∃ code, retrieveCred env.ktypes env.cache client intServer = .error code ∧
      (lookup env client intServer).run st = (.ok (some code), st) := by
  unfold lookup
  cases retrieveCred env.ktypes env.cache client intServer with
  | ok creds => exact .inl ⟨creds, rfl, rfl⟩
  | error code => exact .inr ⟨code, rfl, rfl⟩

theorem getCredViaTkt_ok {tkt inCred tgtr : Creds} {opts : Flags} {answer : Except Code TgsReply}
    (h : getCredViaTkt env tkt opts inCred answer = .ok tgtr) :
    principalCompare tkt.client tgtr.client ∧ tgtr.server.data = inCred.server.data := by
  obtain ⟨_, -, h⟩ := bind_eq_ok.mp h
  obtain ⟨r, -, h⟩ := bind_eq_ok.mp h
  obtain ⟨_, hguards, h⟩ := bind_eq_ok.mp h
  cases h
  have hpass := runGuards_eq_ok.mp hguards
  simp only [replyGuards, forall_mem_cons, Bool.not_eq_false', principalCompare_iff] at hpass
  exact ⟨principalCompare_iff.mpr ⟨hpass.2.1.1.symm, hpass.2.1.2.symm⟩, hpass.2.2.1.2⟩

theorem wp_request {β : Type} {refuses : Bool} {code : Code} {f : Except Code Creds → Walk β}
    {Q : Except Stop β → Vars → Prop} (hstop : ∀ code, Q (.error (.code code)) st)
    (hask : ∀ r, (∀ tgtr, r = .ok tgtr → principalCompare st.tgt.client tgtr.client ∧
        tgtr.server.data = intServer.data) → wp (f r) Q { st with sent := st.sent + 1 }) :
    wp (failIf refuses (.code code) >>= fun _ => requestTgt env intServer >>= f) Q st := by
  simp only [requestTgt, viaTgt, wp_bind, wp_failIf, wp_get, post_ok]
  split
  · exact hstop code
  · split
    · exact hstop _
    · exact hask _ fun tgtr => getCredViaTkt_ok

end Steps

/-! ## What the loops do -/

def Stop.IsCode : Stop → Prop
  | .code _ => True
  | _ => False

/-- At every point of the walk: the current ticket is the client's, and no more than `n`
tickets are stored. -/
structure Walking (client : Principal) (n : Nat) (st : Vars) : Prop where
  client : principalCompare client st.tgt.client = true
  saved : st.retTgts.length ≤ n
  asked : st.asked = none

section Loops

variable {env : Env} {client server : Principal} {tgsList : List Principal} {st : Vars} {top : Nat}

theorem principalCompare_trans {p q r : Principal} (h : principalCompare p q)
    (h' : principalCompare q r) : principalCompare p r := by
  rw [principalCompare_iff] at h h' ⊢
  exact ⟨h.1.trans h'.1, h.2.trans h'.2⟩

theorem Walking.save {tgtr : Creds} (h : Walking client top st) (htop : top < tgsList.length)
    (hcli : principalCompare st.tgt.client tgtr.client) :
    ∃ st', (saveTgt tgsList.length tgtr).run st = (.ok (), st') ∧ st'.tgt = tgtr ∧
      Walking client (top + 1) st' := by
  have hroom : decide (st.retTgts.length > tgsList.length) = false :=
    decide_eq_false (by have := h.saved; omega)
  refine ⟨{ st with tgt := tgtr, retTgts := st.retTgts ++ [tgtr] }, ?_, rfl, ?_⟩
  · simp only [saveTgt, run_get_bind, hroom]
    rfl
  · exact ⟨principalCompare_trans h.client hcli, by simpa using h.saved, h.asked⟩

theorem Walking.mono {n m : Nat} (h : Walking client n st) (hle : n ≤ m) : Walking client m st :=
  ⟨h.client, Nat.le_trans h.saved hle, h.asked⟩

/-- Looking back from the target, a realm nearer to it is reached or an error is returned. -/
theorem lookBack_spec (k : Nat) (code : Code) (hk : top + k < tgsList.length)
    (h : Walking client top st) :
    wp (lookBack env tgsList top k code)
      (post (fun next st' => top < next ∧ next < tgsList.length ∧ Walking client next st')
        fun e st' => e.IsCode ∧ Walking client tgsList.length st') st := by
  induction k generalizing code st with
  | zero => exact ⟨trivial, h.mono (by omega)⟩
  | succ k ih =>
    have htop : tgsList[top]? = some (tgsList[top]) := getElem?_eq_getElem _
    have hnext : tgsList[top + k + 1]? = some (tgsList[top + k + 1]) := getElem?_eq_getElem _
    simp only [lookBack, htop, hnext, wp_bind, wp_get, post_ok]
    rw [← wp_bind]
    obtain ⟨creds, hretrieve, hrun⟩ | ⟨code, -, hrun⟩ := @lookup_cases env st.tgt.client
      (tgtname tgsList[top + k + 1].realm tgsList[top].realm) st
    · rw [wp_bind_of_ok hrun]
      have hmatch := retrieveCred_ok hretrieve
      simp only [srvnameMatch, Bool.and_eq_true] at hmatch
      exact ⟨by omega, hk, principalCompare_trans h.client hmatch.1, Nat.le_trans h.saved (by omega),
        h.asked⟩
    rw [wp_bind_of_ok hrun]
    refine wp_request (fun _ => ⟨trivial, h.mono (by omega)⟩) fun r hr => ?_
    have hsent : Walking client top { st with sent := st.sent + 1 } := ⟨h.1, h.2, h.3⟩
    cases r with
    | error code => exact ih code (by omega) hsent
    | ok tgtr =>
      obtain ⟨st', hsave, -, hst'⟩ := hsent.save (show top < tgsList.length by omega)
        (hr tgtr rfl).1
      rw [wp_bind_of_ok hsave]
      exact ⟨by omega, hk, hst'.mono (by omega)⟩

theorem le_findServer (realm : Octets) (ps : List Principal) (next : Nat) :
    next ≤ findServer env realm ps next := by
  induction ps generalizing next with
  | nil => exact Nat.le_refl next
  | cons p ps ih =>
    rw [findServer]
    split
    · exact Nat.le_refl next
    · exact Nat.le_of_succ_le (ih (next + 1))

/-- Every round takes `top_server` on. It ends behind the list, or where the ticket is not for
a realm of the list; either way the last ticket that was stored is for the server's realm. -/
theorem walkLoop_spec (habsent : ∃ code, retrieveCred env.ktypes env.cache client
      (tgtname server.realm client.realm) = .error code)
    (fuel : Nat) (next : Option Nat) (hfuel : tgsList.length - top < fuel)
    (h : Walking client top st) (htop : top ≤ tgsList.length)
    (hends : top = tgsList.length → st.tgt.server.data =
      (tgtname server.realm client.realm).data) :
    wp (walkLoop env server tgsList fuel (some top) next)
      (post (fun _ st' => Walking client tgsList.length st' ∧
          st'.tgt.server.data = (tgtname server.realm client.realm).data)
        fun e st' => e.IsCode ∧ Walking client tgsList.length st') st := by
  induction fuel generalizing top next st with
  | zero => omega
  | succ fuel ih =>
    have htarget : ∀ r : Octets, (tgtname server.realm r).data =
        (tgtname server.realm client.realm).data := fun _ => rfl
    cases hsrv : tgsList[top]? with
    | none =>
      have hend : top = tgsList.length := Nat.le_antisymm htop (List.getElem?_eq_none_iff.mp hsrv)
      simp only [walkLoop, hsrv]
      exact ⟨h.mono htop, hends hend⟩
    | some topServer =>
      have hlt : top < tgsList.length := (List.getElem?_eq_some_iff.mp hsrv).1
      simp only [walkLoop, hsrv, wp_bind, wp_get, post_ok]
      rw [← wp_bind]
      -- What was not in the cache at first is not in it now.
      obtain ⟨code₀, hcode₀⟩ := habsent
      have hcongr := @retrieveCred_congr env client st.tgt.client
        (tgtname server.realm client.realm) (tgtname server.realm topServer.realm) h.client
        (htarget _)
      obtain ⟨creds, hretrieve, -⟩ | ⟨code, -, hrun⟩ := @lookup_cases env st.tgt.client
        (tgtname server.realm topServer.realm) st
      · rw [hcongr, hcode₀] at hretrieve
        cases hretrieve
      rw [wp_bind_of_ok hrun]
      refine wp_request (fun _ => ⟨trivial, h.mono htop⟩) fun r hr => ?_
      have hsent : Walking client top { st with sent := st.sent + 1 } := ⟨h.1, h.2, h.3⟩
      cases r with
      | error code =>
        refine wp_seq (lookBack_spec _ code (by omega) hsent) ?_ fun e st' he => he
        rintro n st' ⟨hn, hn', hst'⟩
        exact ih (some n) (by omega) hst' (by omega) fun hend => absurd hend (Nat.ne_of_lt hn')
      | ok tgtr =>
        obtain ⟨hcli, hdata⟩ := hr tgtr rfl
        rw [htarget] at hdata
        have hn := @le_findServer env (env.second tgtr.server) (tgsList.drop top) top
        obtain ⟨st', hsave, htgt, hst'⟩ := hsent.save hlt hcli
        dsimp only
        rw [wp_bind_of_ok hsave]
        split
        · exact ih _ (by omega) (hst'.mono (by omega)) (by omega) fun _ => htgt ▸ hdata
        · exact ⟨hst'.mono hlt, htgt ▸ hdata⟩

end Loops

/-! ## The walk -/

def nservers (env : Env) (inCred : Creds) : Nat :=
  match env.tree inCred.client.realm inCred.server.realm with
  | .ok tree => tree.val.length
  | .error _ => 0

def Vars.start (zero : Creds) : Vars := ⟨zero, [], 0, none⟩

/-- The walk ends with a ticket for the realm of the server, or with an error. -/
theorem findTgt_spec (env : Env) (more : Nat) (inCred zero : Creds) :
    wp (findTgt env (nservers env inCred + 1 + more) inCred.client inCred.server)
      (post (fun _ st => Walking inCred.client (nservers env inCred) st ∧ st.tgt.server.data =
          (tgtname inCred.server.realm inCred.client.realm).data)
        fun e st => e.IsCode ∧ st.retTgts.length ≤ nservers env inCred ∧ st.asked = none)
      (.start zero) := by
  have hfound : ∀ {intServer : Principal} {creds : Creds},
      retrieveCred env.ktypes env.cache inCred.client intServer = .ok creds →
      principalCompare inCred.client creds.client ∧
        creds.server.data = intServer.data := by
    intro intServer creds h
    have hmatch := retrieveCred_ok h
    simp only [srvnameMatch, Bool.and_eq_true, beq_iff_eq] at hmatch
    exact ⟨hmatch.1, hmatch.2.symm⟩
  rw [findTgt]
  obtain ⟨creds, hcreds, hrun⟩ | ⟨code, hcode, hrun⟩ := @lookup_cases env inCred.client
    (tgtname inCred.server.realm inCred.client.realm) (.start zero)
  · rw [wp_bind_of_ok hrun]
    exact ⟨⟨(hfound hcreds).1, Nat.zero_le _, rfl⟩, (hfound hcreds).2⟩
  rw [wp_bind_of_ok hrun]
  simp only [wp_bind, wp_failIf]
  split
  · exact ⟨trivial, Nat.zero_le _, rfl⟩
  simp only [post_ok]
  obtain ⟨creds, hcreds, hrun⟩ | ⟨code, -, hrun⟩ := @lookup_cases env inCred.client
    (tgtname inCred.client.realm inCred.client.realm) (.start zero)
  · rw [wp_bind_of_ok hrun]
    refine wp_ofExcept_bind (fun tree htree => ?_) fun e he => ?_
    · have htree := mapError_eq_ok.mp htree
      have hn : nservers env inCred = tree.val.length := by rw [nservers, htree]
      have hsome := length_pos_of_ne_nil tree.property
      rw [hn]
      have hstart : Walking inCred.client 0 { Vars.start zero with tgt := creds } :=
        ⟨(hfound hcreds).1, Nat.le_refl 0, rfl⟩
      refine wp_mono (walkLoop_spec ⟨_, hcode⟩ _ none (by omega) hstart (Nat.zero_le _)
        fun hend => absurd hend (Nat.ne_of_lt hsome)) ?_
      rintro (e | _) st h
      · exact ⟨h.1, h.2.saved, h.2.asked⟩
      · exact h
    · cases htree : env.tree inCred.client.realm inCred.server.realm with
      | ok tree => rw [htree] at he; cases he
      | error code =>
        rw [htree] at he
        cases he
        exact ⟨trivial, Nat.zero_le _, rfl⟩
  · rw [wp_bind_of_ok hrun]
    exact ⟨trivial, Nat.zero_le _, rfl⟩

/-- Whatever is in the cache, whatever the KDCs answer and whichever way the tree goes: one
round more than the tree has entries is enough, no pointer leaves the list or the array, no
more tickets are stored than there are entries, and the service is asked for only with a
ticket-granting ticket of its realm. -/
theorem cross_realm_walk (env : Env) (more : Nat) (inCred zero : Creds) (kdcopt : Flags) :
    wp (getCredFromKdcOpt env (nservers env inCred + 1 + more) inCred kdcopt)
      (fun r st => r ≠ .error .fault ∧ r ≠ .error .unfinished ∧
        st.retTgts.length ≤ nservers env inCred ∧
        ∀ tgt ∈ st.asked, tgt.server.data =
          (tgtname inCred.server.realm inCred.client.realm).data)
      (.start zero) := by
  refine wp_seq (findTgt_spec env more inCred zero) ?_ ?_
  · rintro _ st ⟨hst, hdata⟩
    have hasked : ∀ tgt ∈ some st.tgt, tgt.server.data =
        (tgtname inCred.server.realm inCred.client.realm).data := by
      rintro tgt ⟨⟩
      exact hdata
    simp only [wp_bind, wp_modify, wp_get, post_ok, viaTgt, wp_failIf]
    split
    · exact ⟨nofun, nofun, hst.saved, hasked⟩
    generalize getCredViaTkt env _ _ inCred _ = r
    cases r with
    | ok creds => exact ⟨nofun, nofun, hst.saved, hasked⟩
    | error code => exact ⟨nofun, nofun, hst.saved, hasked⟩
  · rintro e st ⟨he, hsaved, hasked⟩
    refine ⟨?_, ?_, hsaved, by simp [hasked]⟩
    · rintro ⟨⟩
      exact he
    · rintro ⟨⟩
      exact he

/-- The ticket-granting ticket of `A.X`, which is all that the cache holds. -/
def homeTgt : Creds :=
  { client := ⟨ascii "A.X", [ascii "joe"], 1⟩
    server := tgtname (ascii "A.X") (ascii "A.X")
    keyblock := ⟨1, [7]⟩
    times := ⟨10, 10, 500, 0⟩
    ticketFlags := 0
    ticket := [1]
    secondTicket := [] }

def answerFor (server : Principal) : TgsReply :=
  { rep := ⟨13, none, homeTgt.client, ⟨server, ⟨1, 1, some [2]⟩⟩, ⟨1, 1, some [3]⟩⟩
    encPart2 := ⟨13, ⟨1, [8]⟩, [], 5, 0, 0, ⟨10, 10, 500, 0⟩, server, none⟩
    expectedNonce := 5
    requestTime := 10 }

/-- The KDC of `A.X` has no key for `B.X`, and that of `X` has one. -/
def twoHops : Env :=
  { ktypes := [1]
    cache := .ok [homeTgt]
    answer := fun
      | 1 => .ok (answerFor (tgtname (ascii "X") (ascii "A.X")))
      | 2 => .ok (answerFor (tgtname (ascii "B.X") (ascii "X")))
      | 3 => .ok (answerFor ⟨ascii "B.X", [ascii "host"], 1⟩)
      | _ => .error (.other 7)
    tree := realmTree fun _ _ => none
    beyond := fun _ => []
    validEnctype := fun _ => true
    encodeTicket := fun _ => [4]
    clockskew := 300 }

/-- Two tickets are stored, and the service is asked for with that of its realm. -/
theorem cross_realm_walk_two_hops :
    let inCred := { homeTgt with server := ⟨ascii "B.X", [ascii "host"], 1⟩ }
    let call := getCredFromKdcOpt twoHops (nservers twoHops inCred + 1 + 0) inCred 0
    let (r, st) := call.run (.start homeTgt)
    r.toBool ∧ st.retTgts.length = 2 ∧
      st.asked.map (·.server) = some (tgtname (ascii "B.X") (ascii "X")) ∧
      wp call (fun _ st => st.retTgts.length ≤ nservers twoHops inCred) (.start homeTgt) := by
  refine ⟨by decide +kernel, by decide +kernel, by decide +kernel, ?_⟩
  exact wp_mono (cross_realm_walk twoHops 0 _ homeTgt 0) fun _ _ h => h.2.2.1

end Krb5.Client
