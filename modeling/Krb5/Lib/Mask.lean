import Mathlib.Data.BitVec

/-!
# Flag words

A flag word is a bit vector and a flag is a mask of one or more of its bits.
`isSet` is the C test `word & mask`; `raise` and `clear` are the compound
assignments `word |= mask` and `word &= ~mask`. A lemma about a test after
updates asks for a closed fact about the masks, which `decide` settles.
-/

namespace Krb5.Lib

variable {w : Nat}

/-- `word & mask`, read as a C condition. -/
def isSet (word mask : BitVec w) : Bool := word &&& mask != 0#w

/-- `word |= mask`. -/
def raise (word mask : BitVec w) : BitVec w := word ||| mask

/-- `word &= ~mask`. -/
def clear (word mask : BitVec w) : BitVec w := word &&& ~~~mask

/-- `if (b) word |= mask`. -/
def raiseIf (b : Bool) (word mask : BitVec w) : BitVec w :=
  if b then raise word mask else word

@[simp] theorem isSet_zero (mask : BitVec w) : isSet 0#w mask = false := by
  simp [isSet]

theorem isSet_raise (word mask m : BitVec w) :
    isSet (raise word mask) m = (isSet word m || isSet mask m) := by
  rw [Bool.eq_iff_iff]
  simp only [isSet, raise, bne_iff_ne, ne_eq, Bool.or_eq_true,
    BitVec.and_or_distrib_right, BitVec.or_eq_zero_iff]
  tauto

theorem isSet_or (word m m' : BitVec w) : isSet word (m ||| m') = (isSet word m || isSet word m') := by
  rw [Bool.eq_iff_iff]
  simp only [isSet, bne_iff_ne, ne_eq, Bool.or_eq_true, BitVec.and_or_distrib_left,
    BitVec.or_eq_zero_iff]
  tauto

theorem isSet_of_subset {word m m' : BitVec w} (h : isSet word m' = false) (hsub : m ||| m' = m') :
    isSet word m = false := by
  rw [← hsub, isSet_or, Bool.or_eq_false_iff] at h
  exact h.1

theorem isSet_raiseIf (b : Bool) (word mask m : BitVec w) :
    isSet (raiseIf b word mask) m = (isSet word m || (b && isSet mask m)) := by
  cases b <;> simp [raiseIf, isSet_raise]

theorem isSet_raiseIf_of_disjoint {mask m : BitVec w} (h : isSet mask m = false) (b : Bool)
    (word : BitVec w) : isSet (raiseIf b word mask) m = isSet word m := by
  rw [isSet_raiseIf, h, Bool.and_false, Bool.or_false]

theorem isSet_clear_of_disjoint (word mask m : BitVec w) (h : m &&& ~~~mask = m) :
    isSet (clear word mask) m = isSet word m := by
  unfold isSet clear
  rw [BitVec.and_assoc, BitVec.and_comm (~~~mask) m, h]

theorem isSet_clear_self (word mask : BitVec w) : isSet (clear word mask) mask = false := by
  unfold isSet clear
  rw [BitVec.and_assoc]
  simp

theorem clear_raise (word mask : BitVec w) : clear (raise word mask) mask = clear word mask := by
  unfold clear raise
  rw [BitVec.and_or_distrib_right, BitVec.and_not_self]
  exact BitVec.or_zero

theorem clear_clear (word mask : BitVec w) : clear (clear word mask) mask = clear word mask := by
  unfold clear
  rw [BitVec.and_assoc, BitVec.and_self]

end Krb5.Lib
