import Krb5.Lib.Action
import Krb5.Lib.Image
import Krb5.Rcache.Table

/-!
# The replay cache file

The functions of `rc_io.c`, over a directory of files. A file keeps its
contents when its name goes to another one: who has it open goes on with it.
System calls fail for the reasons the code can bring about itself (no such
file, a file in the way, a closed descriptor, a file past `2^31 - 1` octets);
what is written is written whole.
-/

namespace Krb5.Rcache

open Lib Action

/-- The codes returned, and `undefined` where octets would be used that nothing
was read into. -/
inductive RcCode
  | apErrRepeat | ioUnknown | ioPerm | ioSpace | ioEof | io | badvno | undefined
  deriving DecidableEq

/-- The files by number, and the directory. -/
structure Fs where
  data : Nat → Octets
  dir : Octets → Option Nat
  next : Nat
  dir_lt : ∀ {name i}, dir name = some i → i < next

namespace Fs

/-- `write`, at an offset. -/
def write (fs : Fs) (i off : Nat) (bs : Octets) : Fs :=
  { fs with data := fun j => if j = i then writeAt (fs.data i) bs off 0 else fs.data j }

/-- `open` with `O_CREAT`, of a name that is not there. -/
def create (fs : Fs) (name : Octets) : Fs where
  data j := if j = fs.next then [] else fs.data j
  dir n := if n = name then some fs.next else fs.dir n
  next := fs.next + 1
  dir_lt {n i} h := by
    split at h
    · cases h
      exact Nat.lt_succ_self _
    · exact Nat.lt_succ_of_lt (fs.dir_lt h)

def unlink (fs : Fs) (name : Octets) : Fs :=
  { fs with
    dir := fun n => if n = name then none else fs.dir n
    dir_lt := by
      intro n i h
      split at h
      · cases h
      · exact fs.dir_lt h }

/-- `rename` of a file that is there. -/
def rename (fs : Fs) (old new : Octets) : Fs :=
  { fs with
    dir := fun n => if n = new then fs.dir old else if n = old then none else fs.dir n
    dir_lt := by
      intro n i h
      split at h
      · exact fs.dir_lt h
      · split at h
        · cases h
        · exact fs.dir_lt h }

end Fs

/-- An open file: which, and the offset. -/
structure Fd where
  ino : Nat
  off : Nat
  deriving DecidableEq

/-- `krb5_rc_iostuff`. No descriptor is one that is not open. -/
structure IoStuff where
  fd : Option Fd
  mark : Nat
  fn : Option Octets

/-- `struct dfl_data`; `hsize` is always `HASHSIZE`. -/
structure Dfl where
  name : Option Octets
  lifespan : Deltat
  numhits : Int32
  nummisses : Int32
  tab : Table
  d : IoStuff
  recovering : Bool

/-- What a call works on: the files, how often the clock has been read, and the
handle it was given. -/
structure Proc where
  fs : Fs
  ticks : Nat
  t : Dfl

abbrev Rc := Action Proc RcCode

namespace Proc

def setD (s : Proc) (d : IoStuff) : Proc := { s with t := { s.t with d := d } }

/-- `close(d->fd)` with `FREE(d->fn); d->fn = NULL`. -/
def closeD (s : Proc) : Proc := s.setD { s.t.d with fd := none, fn := none }

/-- The same after `unlink(d->fn)`. -/
def unlinkD (s : Proc) : Proc :=
  match s.t.d.fn with
  | some fn => { s with fs := s.fs.unlink fn }.closeD
  | none => s.closeD

end Proc

/-- The largest file; `off_t` is a 32-bit integer. -/
def maxFile : Nat := 2 ^ 31 - 1

def ioWrite (bs : Octets) : Rc Unit where
  run s :=
    match s.t.d.fd with
    | none => (.error .ioUnknown, s)
    | some fd =>
      if fd.off + bs.length ≤ maxFile then
        (.ok (), { s with fs := s.fs.write fd.ino fd.off bs }.setD
          { s.t.d with fd := some ⟨fd.ino, fd.off + bs.length⟩ })
      else (.error .ioSpace, s)

/-- `krb5_rc_io_read`: the octets read, which may be fewer than asked for. -/
def ioRead (num : Nat) : Rc Octets where
  run s :=
    match s.t.d.fd with
    | none => (.error .ioUnknown, s)
    | some fd =>
      let bs := readAt (s.fs.data fd.ino) fd.off num
      if bs = [] then (.error .ioEof, s)
      else (.ok bs, s.setD { s.t.d with fd := some ⟨fd.ino, fd.off + bs.length⟩ })

/-- `krb5_rc_io_read` into an `int`. At the end of the file it may keep octets
of the value it had. -/
def ioReadInt (old : Int32) : Rc Int32 := do
  let bs ← ioRead 4
  pure (octetsInt (bs ++ (intOctets old).drop bs.length))

def ioSync : Rc Unit where
  run s :=
    match s.t.d.fd with
    | none => (.error .ioUnknown, s)
    | some _ => (.ok (), s)

def ioMark : Rc Unit := modify fun s =>
  s.setD { s.t.d with mark := (s.t.d.fd.map Fd.off).getD 0 }

def ioUnmark : Rc Unit := modify fun s =>
  s.setD { s.t.d with fd := s.t.d.fd.map fun fd => { fd with off := s.t.d.mark } }

def ioSize : Rc Nat where
  run s :=
    (.ok ((s.t.d.fd.map fun fd => (s.fs.data fd.ino).length).getD 0), s)

/-- `KRB5_RC_VNO` in network order. -/
def rcVno : Octets := [5, 1]

/-- The check of the version number at the start of the file. -/
def ioCheckVno : Rc Unit := do
  let vno ← ioRead 2
  if vno.length = 2 then failIf (vno != rcVno) .badvno
  else fail .undefined

/-- `krb5_rc_io_open`. A file that does not start with the version number is
unlinked. -/
def ioOpen (fn : Octets) : Rc Unit := do
  let s ← get
  match s.fs.dir fn with
  | none => do
      modify Proc.closeD
      fail .ioUnknown
  | some i => do
      modify fun s => s.setD { s.t.d with fd := some ⟨i, 0⟩, fn := some fn }
      ioCheckVno.onError Proc.unlinkD

/-- The names for temporary files, in the order they are tried; `pid` is the
process number as text. -/
def tmpNames (pid : Octets) : List Octets :=
  let letters := (List.range 26).map fun k => UInt8.ofNat (97 + k)
  letters.flatMap fun c0 => letters.flatMap fun c1 => letters.map fun c2 =>
    ascii "krb5_RC" ++ pid ++ [c0, c1, c2]

/-- The name `krb5_rc_io_creat` creates the file under: the one asked for, or
the first temporary one that is free. -/
def creatName (fs : Fs) (pid : Octets) : Option Octets → Option Octets
  | some fn => if (fs.dir fn).isNone then some fn else none
  | none => (tmpNames pid).find? fun n => (fs.dir n).isNone

/-- `krb5_rc_io_creat`, with `t->name` for the name. -/
def ioCreat (pid : Octets) : Rc Unit := do
  let s ← get
  match creatName s.fs pid s.t.name with
  | none => do
      modify Proc.closeD
      fail .ioPerm
  | some fn => do
      modify fun s =>
        { s with
          fs := s.fs.create fn
          t := { s.t with name := some fn, d := { s.t.d with fd := some ⟨s.fs.next, 0⟩, fn := some fn } } }
      (do ioWrite rcVno; ioSync).onError Proc.unlinkD

/-- `krb5_rc_io_move` onto the handle's file. The descriptor is a duplicate of
the other one, which is closed afterwards. -/
def ioMove (old : IoStuff) : Rc Unit := do
  let s ← get
  match old.fn, s.t.d.fn with
  | some oldFn, some newFn =>
    match s.fs.dir oldFn with
    | none => fail .ioUnknown
    | some _ => modify fun s =>
      { s with fs := s.fs.rename oldFn newFn }.setD { s.t.d with fd := old.fd }
  | _, _ => fail .undefined

end Krb5.Rcache
