import Krb5.Basic

/-!
# The replay cache in memory

The authenticators a cache holds (`krb5_donot_replay`), and the two lists that
run through them: all of them (`a`), and one chain per hash value (`h`). The
chains are the list, sorted out by hash value; `Table` carries that along.
-/

namespace Krb5.Rcache

open List

/-- `*s` of a `char *`, plain `char` being signed. -/
def first (s : CString) : Int32 := (s.text.headD 0).toInt8.toInt32

/-- An authenticator to be remembered. -/
structure DonotReplay where
  server : CString
  client : CString
  cusec : Int32
  ctime : Timestamp
  deriving DecidableEq

def hashsize : Int32 := 997

def excessreps : Int32 := 30

def hash (rep : DonotReplay) : Int32 :=
  ((rep.cusec + rep.ctime + first rep.server + first rep.client) % hashsize + hashsize) % hashsize

/-- `cmp`: whether it is a replay. -/
def cmp (old new : DonotReplay) : Bool :=
  old.cusec == new.cusec && old.ctime == new.ctime && old.client == new.client &&
    old.server == new.server

theorem cmp_iff {old new : DonotReplay} : cmp old new ↔ old = new := by
  cases old
  cases new
  simp only [cmp, Bool.and_eq_true, beq_iff_eq, DonotReplay.mk.injEq]
  tauto

/-- The authenticators in memory: `t->h` and `t->a`. -/
structure Table where
  h : Int32 → List DonotReplay
  a : List DonotReplay
  agree : ∀ k, h k = a.filter (hash · == k)

namespace Table

def empty : Table := ⟨fun _ => [], [], fun _ => rfl⟩

def insert (tab : Table) (rep : DonotReplay) : Table where
  h k := if hash rep = k then rep :: tab.h k else tab.h k
  a := rep :: tab.a
  agree k := by
    rw [filter_cons, tab.agree k]
    simp

@[simp] theorem a_empty : empty.a = [] := rfl

theorem mem_chain {tab : Table} {rep : DonotReplay} : rep ∈ tab.h (hash rep) ↔ rep ∈ tab.a := by
  simp [tab.agree]

end Table

end Krb5.Rcache
