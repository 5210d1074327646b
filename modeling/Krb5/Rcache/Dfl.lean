import Krb5.Lib.Runs
import Krb5.Rcache.Io

/-!
# The default replay cache

The functions of `rc_dfl.c`. Recovery reads the file into the table; expunging
closes the cache, recovers it, writes what is in the table to a temporary file
and renames that. Storing and recovering expunge by themselves once they have
come across enough entries that have expired. Memory is always to be had.
-/

namespace Krb5.Rcache

open Lib Action

/-- The clock, by reading: the time, and whether `krb5_timeofday` fails. -/
structure Clock where
  time : Nat → Timestamp
  fails : Nat → Bool

/-- What the functions take from the context and the process; `unset` is what an
`int` holds that was never set, which may be anything. -/
structure Context where
  clockskew : Deltat
  pid : Octets
  unset : Proc → Int32

variable (clock : Clock) (context : Context)

def timeofday : Rc (Option Timestamp) where
  run s :=
    (.ok (if clock.fails s.ticks then none else some (clock.time s.ticks)),
      { s with ticks := s.ticks + 1 })

/-- `alive`: whether an authenticator of that time has not expired. -/
def alive (ctime : Timestamp) (lifespan : Deltat) : Rc Bool := do
  match ← timeofday clock with
  | none => pure true
  | some now => pure !decide (ctime + lifespan < now)

def Dfl.count (t : Dfl) (live : Bool) : Dfl :=
  if live then { t with numhits := t.numhits + 1 } else { t with nummisses := t.nummisses + 1 }

/-- The search of `rc_store`: whether the chain holds the authenticator. -/
def searchChain (rep : DonotReplay) : List DonotReplay → Rc Bool
  | [] => pure false
  | old :: rest =>
    if cmp old rep then pure true
    else do
      let s ← get
      let live ← alive clock old.ctime s.t.lifespan
      modify fun s => { s with t := s.t.count live }
      searchChain rep rest

/-- `rc_store`: whether it is a replay; if not, it is now in the table. -/
def rcStore (rep : DonotReplay) : Rc Bool := do
  let s ← get
  let found ← searchChain clock rep (s.t.tab.h (hash rep))
  if found then pure true
  else do
    modify fun s => { s with t := { s.t with tab := s.t.tab.insert rep } }
    pure false

/-- The data `krb5_rc_dfl_resolve` gives a handle. -/
def dflResolve (name : Option Octets) : Dfl where
  name := name
  lifespan := 0
  numhits := 0
  nummisses := 0
  tab := Table.empty
  d := ⟨none, 0, none⟩
  recovering := false

/-- The lifespan a cache gets: zero stands for the clock skew. -/
def orClockskew (lifespan : Deltat) : Deltat := if lifespan = 0 then context.clockskew else lifespan

def dflInit (lifespan : Deltat) : Rc Unit := do
  modify fun s => { s with t := { s.t with lifespan := orClockskew context lifespan } }
  ioCreat context.pid
  (do ioWrite (intOctets (orClockskew context lifespan)); ioSync).withError .io

/-- The calls of `x` with a handle of their own, which is returned. -/
def withHandle (t : Dfl) (x : Rc Unit) : Rc Dfl where
  run s :=
    match x.run { s with t := t } with
    | (.ok _, s') => (.ok s'.t, { s' with t := s.t })
    | (.error e, s') => (.error e, { s' with t := s.t })

/-- The octets `krb5_rc_io_store` writes. -/
def record (rep : DonotReplay) : Octets :=
  intOctets (Int32.ofNat (rep.client.1.length + 1)) ++ rep.client.buffer ++
    intOctets (Int32.ofNat (rep.server.1.length + 1)) ++ rep.server.buffer ++
    intOctets rep.cusec ++ intOctets rep.ctime

def ioStore (rep : DonotReplay) : Rc Unit := ioWrite (record rep)

structure Fetched where
  client : Octets
  server : Octets
  cusec : Int32
  ctime : Timestamp

/-- The authenticator in a record, if its strings end in their buffers. -/
def Fetched.rep (f : Fetched) : Option DonotReplay := do
  let client ← CString.ofBuffer f.client
  let server ← CString.ofBuffer f.server
  pure ⟨server, client, f.cusec, f.ctime⟩

/-- `(len <= 0) || (len >= maxlen)`. -/
def badLength (len maxlen : Int32) : Bool := decide (len ≤ 0) || decide (maxlen ≤ len)

/-- `krb5_rc_io_read` into an `int` that may not have been set. -/
def ioReadIntOr (old : Option Int32) : Rc Int32 := do
  let s ← get
  ioReadInt (old.getD (context.unset s))

/-- `krb5_rc_io_fetch`; `old` is what `*rep` was before, if it was anything. -/
def ioFetch (old : Option Fetched) (maxlen : Int32) : Rc Fetched := do
  let clientlen ← ioReadIntOr context none
  failIf (badLength clientlen maxlen) .ioEof
  let client ← ioRead clientlen.toNatClampNeg
  let serverlen ← ioReadInt clientlen
  failIf (badLength serverlen maxlen) .ioEof
  let server ← ioRead serverlen.toNatClampNeg
  let cusec ← ioReadIntOr context (old.map Fetched.cusec)
  let ctime ← ioReadIntOr context (old.map Fetched.ctime)
  pure ⟨client, server, cusec, ctime⟩

/-! ## Recovery and expunging -/

/-- What is done with a record that was read: the number of expired ones so
far, counted on. -/
def loadRecord (f : Fetched) (expired : Int32) : Rc Int32 := do
  let s ← get
  let live ← alive clock f.ctime s.t.lifespan
  if live then
    match f.rep with
    | some rep => do
        let _ ← rcStore clock rep
        pure expired
    | none => fail .undefined
  else pure (expired + 1)

/-- The loop of `krb5_rc_dfl_recover`; it returns the number of expired
records. Each round reads something, so the size of the file is `fuel` enough. -/
def loadLoop (maxlen : Int32) : Nat → Option Fetched → Int32 → Rc Int32
  | 0, _, _ => fail .undefined
  | fuel + 1, old, expired => do
      ioMark
      match ← (ioFetch context old maxlen).upTo .ioEof with
      | none => pure expired
      | some f => do
          let expired ← loadRecord clock f expired
          loadLoop maxlen fuel (some f) expired

/-- `krb5_rc_dfl_recover` from the open file to `krb5_rc_io_unmark`. -/
def loadFile : Rc Int32 := do
  let maxSize ← ioSize
  let s ← get
  let lifespan ← (ioReadInt s.t.lifespan).withError .io
  modify fun s => { s with t := { s.t with lifespan := lifespan } }
  let expired ← loadLoop clock context (Int32.ofNat maxSize) (maxSize + 1) none 0
  ioUnmark
  pure expired

/-- The records of the entries in `t->a`. -/
def storeAll : List DonotReplay → Rc Unit
  | [] => pure ()
  | rep :: rest => do
      ioStore rep
      storeAll rest

/-- `krb5_rc_dfl_expunge` from the temporary cache on. -/
def rewrite (lifespan : Deltat) : Rc Unit := do
  let s ← get
  let tmp ← withHandle (dflResolve none) do
    dflInit context lifespan
    (storeAll s.t.tab.a).withError .io
  ioSync.withError .io
  (ioMove tmp.d).withError .io

/-- `krb5_rc_dfl_expunge`, with the recovery it calls unless it was called by
one. -/
def expungeVia (recover : Rc Unit) : Rc Unit := do
  let s ← get
  if s.t.recovering then rewrite context s.t.lifespan
  else do
    modify fun s => { s with t := dflResolve s.t.name }
    recover
    rewrite context s.t.lifespan

/-- `t->recovering = ...`. -/
def Proc.setRecovering (recovering : Bool) (s : Proc) : Proc :=
  { s with t := { s.t with recovering := recovering } }

/-- `krb5_rc_dfl_recover`. It expunges with `recovering` set, so that expunging
does not recover in turn. -/
def dflRecover : Rc Unit := do
  let s ← get
  match s.t.name with
  | none => fail .undefined
  | some name => do
      ioOpen name
      modify (Proc.setRecovering true)
      (do
        let expired ← (loadFile clock context).onError Proc.closeD
        if excessreps < expired then expungeVia context (fail .undefined)
        else pure ()).always (Proc.setRecovering false)

def dflExpunge : Rc Unit := expungeVia context (dflRecover clock context)

def dflStore (rep : DonotReplay) : Rc Unit := do
  let replay ← rcStore clock rep
  failIf replay .apErrRepeat
  ioStore rep
  let s ← get
  if s.t.numhits + excessreps < s.t.nummisses then dflExpunge clock context
  else ioSync.withError .io

/-! ## Processes with a replay cache -/

inductive Op
  | resolve
  | init (lifespan : Deltat)
  | recover
  | store (rep : DonotReplay)
  | expunge
  | close

structure Machine where
  fs : Fs
  ticks : Nat
  h : Option Dfl

structure Event where
  op : Op
  code : Except RcCode Unit

variable (clock : Clock) (context : Context) (name : Octets)

def call (x : Rc Unit) (m : Machine) : Except RcCode Unit × Machine :=
  match m.h with
  | none => (.error .undefined, m)
  | some t =>
    let (code, s) := x.run ⟨m.fs, m.ticks, t⟩
    (code, ⟨s.fs, s.ticks, some s.t⟩)

def exec : Op → Machine → Except RcCode Unit × Machine
  | .resolve, m => (.ok (), { m with h := some (dflResolve (some name)) })
  | .close, m => ((call (pure ()) m).1, { m with h := none })
  | .init lifespan, m => call (dflInit context lifespan) m
  | .recover, m => call (dflRecover clock context) m
  | .store rep, m => call (dflStore clock context rep) m
  | .expunge, m => call (dflExpunge clock context) m

def Step (m : Machine) (e : Event) (m' : Machine) : Prop :=
  exec clock context name e.op m = (e.code, m')

/-- Processes that share the files and the clock. -/
structure Net (ι : Type) where
  fs : Fs
  ticks : Nat
  h : ι → Option Dfl

variable {ι : Type} [DecidableEq ι]

def Net.machine (n : Net ι) (i : ι) : Machine := ⟨n.fs, n.ticks, n.h i⟩

/-- After a step of process `i`. -/
def Net.put (n : Net ι) (i : ι) (m : Machine) : Net ι :=
  ⟨m.fs, m.ticks, fun j => if j = i then m.h else n.h j⟩

def NetStep (contexts : ι → Context) (n : Net ι) (e : ι × Event) (n' : Net ι) : Prop :=
  ∃ m', Step clock (contexts e.1) name (n.machine e.1) e.2 m' ∧ n' = n.put e.1 m'

end Krb5.Rcache
