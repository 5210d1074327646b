import Krb5.Basic

/-!
# Inserting into a buffer (`asn1buf.c`)

An encoding is built from its end: a string is written at `next`, its last octet first, and
`asn12krb5_buf` turns the whole around. What is allocated at `base` is a list of octets, empty for
NULL; `next` is an offset into it and `bound` its last index. A write beside it is the error
`outside`. A size that an `int` of 32 bits does not hold is negative, and as a `size_t` not granted.
-/

namespace Krb5.Asn1

open List

structure InsertBuf where
  mem : Octets
  next : Nat

inductive InsertError
  | enomem
  | outside

abbrev Inserter := InsertBuf → Except InsertError InsertBuf

/-- The one `malloc` or `realloc` of a call: what is found in the new octets, if it is granted. -/
abbrev Heap := Option (Nat → UInt8)

/-- `asn1buf_expand`. After a failure the pointers are stale, and no caller goes on. -/
def asn1bufExpand (heap : Heap) (inc : Nat) : Inserter := fun buf =>
  let inc := max inc 200
  match heap with
  | some found =>
    if buf.mem.length + inc < 2 ^ 31 then .ok { buf with mem := buf.mem ++ (range inc).map found }
    else .error .enomem
  | none => .error .enomem

def asn1bufEnsureSpace (heap : Heap) (amount : Nat) : Inserter := fun buf =>
  let avail := buf.mem.length - buf.next
  if avail < amount then asn1bufExpand heap (amount - avail) buf else .ok buf

/-- `*(buf->next) = o` and `(buf->next)++`. -/
def putOctet (o : UInt8) : Inserter := fun buf =>
  if buf.next < buf.mem.length then .ok ⟨buf.mem.set buf.next o, buf.next + 1⟩
  else .error .outside

def asn1bufInsertOctet (heap : Heap) (o : Int) : Inserter := fun buf =>
  asn1bufEnsureSpace heap 1 buf >>= putOctet (.ofInt o)

def asn1bufInsertOctetstring (heap : Heap) (s : Octets) : Inserter := fun buf =>
  asn1bufEnsureSpace heap s.length buf >>= s.foldrM putOctet

/-- The text of `asn1buf_insert_octetstring` once more, for a `char *`. -/
def asn1bufInsertCharstring := asn1bufInsertOctetstring

/-- What `asn12krb5_buf` copies once its own allocations are made. -/
def asn12krb5Buf (buf : InsertBuf) : Octets :=
  (range buf.next).map fun i => buf.mem.getD (buf.next - i - 1) 0

inductive Insertion
  | octet (o : Int)
  | octetstring (s : Octets)
  | charstring (s : Octets)

namespace Insertion

def octets : Insertion → Octets
  | octet o => [.ofInt o]
  | octetstring s | charstring s => s

def run (heap : Heap) : Insertion → Inserter
  | octet o => asn1bufInsertOctet heap o
  | octetstring s => asn1bufInsertOctetstring heap s
  | charstring s => asn1bufInsertCharstring heap s

/-- An octet is inserted as the string of that octet. -/
theorem run_eq (heap : Heap) (call : Insertion) :
    call.run heap = asn1bufInsertOctetstring heap call.octets := by
  cases call with
  | octet o =>
    funext buf
    simp [run, octets, asn1bufInsertOctet, asn1bufInsertOctetstring]
  | octetstring s | charstring s => rfl

end Insertion

/-- The calls, each with what the heap gives it, up to the first error. -/
def insertAll (calls : List (Heap × Insertion)) : Inserter :=
  calls.foldlM fun buf call => call.2.run call.1 buf

/-- The buffer into which `acc` has been inserted, with `rest` behind it. -/
def holding (acc rest : Octets) : InsertBuf := ⟨acc.reverse ++ rest, acc.length⟩

theorem asn12krb5Buf_holding (acc rest : Octets) : asn12krb5Buf (holding acc rest) = acc := by
  refine ext_getElem (by simp [asn12krb5Buf, holding]) fun i _ hi => ?_
  have hlt : acc.length - i - 1 < acc.length := by omega
  have hidx : acc.length - 1 - (acc.length - i - 1) = i := by omega
  simp [asn12krb5Buf, holding, getElem?_append_left, hlt, hidx]

section

variable {acc rest s : Octets}

theorem putOctet_holding {o x : UInt8} :
    putOctet o (holding acc (x :: rest)) = .ok (holding (o :: acc) rest) := by
  simp [putOctet, holding]

/-- The loop writes every octet of the string if there is room for all. -/
theorem foldrM_putOctet (h : s.length ≤ rest.length) :
    s.foldrM putOctet (holding acc rest) = .ok (holding (s ++ acc) (rest.drop s.length)) := by
  induction s with
  | nil => rfl
  | cons o s ih =>
    have hlt : s.length < rest.length := h
    rw [foldrM_cons, ih hlt.le, drop_eq_getElem_cons hlt]
    exact putOctet_holding

theorem ensureSpace_holding (heap : Heap) (n : Nat) : asn1bufEnsureSpace heap n (holding acc rest) =
    if rest.length < n then asn1bufExpand heap (n - rest.length) (holding acc rest)
    else .ok (holding acc rest) := by
  simp [asn1bufEnsureSpace, holding]

/-- The octets that are new are behind those that were free. -/
theorem expand_holding (found : Nat → UInt8) (inc : Nat) :
    asn1bufExpand (some found) inc (holding acc rest) =
      if acc.length + rest.length + max inc 200 < 2 ^ 31 then
        .ok (holding acc (rest ++ (range (max inc 200)).map found))
      else .error .enomem := by
  simp [asn1bufExpand, holding]

/-- The run has left the contents `acc`, or it was refused: by the heap, or because the octets and
the standard increment do not fit into an `int`. -/
def Outcome (granted : Prop) (acc : Octets) (result : Except InsertError InsertBuf) : Prop :=
  (∃ room, room.length ≤ 199 ∧ result = .ok (holding acc room)) ∨
  result = .error .enomem ∧ (granted → 2 ^ 31 ≤ acc.length + 199)

theorem insert_outcome (heap : Heap) (hrest : rest.length ≤ 199) :
    Outcome heap.isSome (s ++ acc) (asn1bufInsertOctetstring heap s (holding acc rest)) := by
  rw [asn1bufInsertOctetstring, ensureSpace_holding]
  split
  · cases heap with
    | some found =>
      rw [expand_holding]
      split
      · exact .inl ⟨_, by simp; omega, foldrM_putOctet (by simp; omega)⟩
      · exact .inr ⟨rfl, fun _ => by simp; omega⟩
    | none => exact .inr ⟨rfl, by simp⟩
  · exact .inl ⟨_, by simp; omega, foldrM_putOctet (by omega)⟩

theorem insertAll_outcome (calls : List (Heap × Insertion)) (hrest : rest.length ≤ 199) :
    Outcome (∀ call ∈ calls, call.1.isSome) (calls.reverse.flatMap (·.2.octets) ++ acc)
      (insertAll calls (holding acc rest)) := by
  induction calls generalizing acc rest with
  | nil => exact .inl ⟨rest, hrest, rfl⟩
  | cons call calls ih =>
    rw [insertAll, foldlM_cons, Insertion.run_eq, reverse_cons, flatMap_append, append_assoc,
      flatMap_singleton]
    obtain ⟨room, hroom, hok⟩ | ⟨herr, hrefused⟩ := insert_outcome call.1 hrest
    · rw [hok]
      obtain hrun | ⟨herr, hrefused⟩ := ih hroom
      · exact .inl hrun
      · exact .inr ⟨herr, fun hgrants => hrefused fun c hc => hgrants c (mem_cons_of_mem _ hc)⟩
    · rw [herr]
      refine .inr ⟨rfl, fun hgrants => ?_⟩
      have hle := hrefused (hgrants call mem_cons_self)
      rw [length_append]
      omega

end

/-- No write lies outside of what is allocated; calls that succeed leave the strings in the reverse
order of the calls, each of them forward; and they succeed if what they ask for is granted and all
octets with the standard increment fit into an `int`. -/
theorem inserted_reversed (calls : List (Heap × Insertion)) :
    insertAll calls ⟨[], 0⟩ ≠ .error .outside ∧
    (∀ buf, insertAll calls ⟨[], 0⟩ = .ok buf →
      asn12krb5Buf buf = calls.reverse.flatMap (·.2.octets)) ∧
    ((∀ call ∈ calls, call.1.isSome) →
      (calls.reverse.flatMap (·.2.octets)).length + 199 < 2 ^ 31 →
      ∃ buf, insertAll calls ⟨[], 0⟩ = .ok buf) := by
  have hrun : Outcome _ _ (insertAll calls ⟨[], 0⟩) :=
    @insertAll_outcome [] [] calls (by simp)
  rw [append_nil] at hrun
  obtain ⟨room, -, hok⟩ | ⟨herr, hrefused⟩ := hrun
  · simp [hok, asn12krb5Buf_holding]
  · refine ⟨by simp [herr], by simp [herr], fun hgrants hlt => ?_⟩
    exact absurd (hrefused hgrants) (by omega)

/-- An octet is refused although all is granted and there are less than 2³¹ octets. -/
theorem inserted_refused :
    ∃ calls : List (Heap × Insertion), (∀ call ∈ calls, call.1.isSome) ∧
      (calls.reverse.flatMap (·.2.octets)).length < 2 ^ 31 ∧
      insertAll calls ⟨[], 0⟩ = .error .enomem := by
  obtain ⟨s, hs⟩ : ∃ s : Octets, s.length = 2 ^ 31 - 101 := ⟨replicate _ 0, length_replicate⟩
  let heap : Heap := some fun _ => 0
  refine ⟨[(heap, .octetstring s), (heap, .octet 0)], by simp [heap], ?_, ?_⟩
  · simp [Insertion.octets, hs]
  · have hfirst : asn1bufInsertOctetstring heap s (holding [] []) = .ok (holding s []) := by
      rw [asn1bufInsertOctetstring, ensureSpace_holding, if_pos (by simp [hs]), expand_holding,
        if_pos (by simp [hs])]
      refine (foldrM_putOctet (by simp)).trans ?_
      rw [append_nil, drop_eq_nil_of_le (by simp; omega)]
    have hsecond : asn1bufInsertOctetstring heap [0] (holding s []) = .error .enomem := by
      rw [asn1bufInsertOctetstring, ensureSpace_holding, if_pos (by simp), expand_holding,
        if_neg (by simp [hs])]
      rfl
    simp only [insertAll, foldlM_cons, Insertion.run_eq]
    exact (congrArg (· >>= _) hfirst).trans (congrArg (· >>= _) hsecond)

end Krb5.Asn1
