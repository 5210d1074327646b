import Krb5.Asn1.Encode

/-!
# Time differences as text (`str_conv.c`, `x-deltat.y`)

`krb5_deltat_to_string` prints into the caller's buffer, and copies over it a buffer of its own
in which nothing was printed. `krb5_string_to_deltat` is a grammar over the tokens of `mylex`; every
nonterminal is a function of the tokens that are left.
-/

namespace Krb5.Client

open Asn1 List

/-- What is printed for a difference that is not negative. -/
def deltatText (deltat : Nat) : Octets :=
  let days := deltat / 86400
  let dt := deltat % 86400
  let clock := ascii ":" ++ decimal 2 (dt % 3600 / 60) ++ ascii ":" ++ decimal 2 (dt % 60)
  let dayText := ascii (toString days) ++ (if days > 1 then ascii " days" else ascii " day")
  if days = 0 then ascii (toString (dt / 3600)) ++ clock
  else if dt ≠ 0 then dayText ++ ascii " " ++ decimal 2 (dt / 3600) ++ clock
  else dayText

/-- `krb5_deltat_to_string`, on the memory from the buffer on; no code is `ENOMEM`. -/
def deltatToString (deltat buflen : Nat) (buffer : Octets) : Option Unit × Octets :=
  let tmpbuf : Octets := replicate 52 0
  let text := deltatText deltat ++ [0]
  let buffer := text ++ buffer.drop text.length
  if (cstring tmpbuf).length > buflen then (none, buffer)
  else (some (), (cstring tmpbuf ++ replicate buflen 0).take buflen ++ buffer.drop buflen)

/-- The call does not fail, and what it leaves is the empty string. It writes inside of the buffer
if the text has room there. -/
theorem deltatToString_spec (deltat buflen : Nat) (buffer : Octets) :
    (deltatToString deltat buflen buffer).1 = some () ∧
    (0 < buflen → cstring (deltatToString deltat buflen buffer).2 = []) ∧
    ((deltatText deltat).length < buflen →
      (deltatToString deltat buflen buffer).2.drop buflen = buffer.drop buflen) := by
  refine ⟨rfl, fun hpos => ?_, fun hroom => ?_⟩
  · obtain ⟨n, rfl⟩ := Nat.exists_eq_succ_of_ne_zero hpos.ne'
    rfl
  · have htext : (deltatText deltat ++ [0]).length ≤ buflen := by
      rw [length_append]
      exact hroom
    change drop buflen ((replicate buflen 0).take buflen ++ _) = _
    rw [take_of_length_le (by simp), drop_left' (by simp), drop_append, drop_of_length_le htext,
      drop_drop, nil_append, Nat.add_sub_of_le htext]

/-! ## The way back -/

inductive Token
  | num (val : Int32) (long : Bool)
  | minus | colon | d | h | m | s | ws
deriving DecidableEq, Repr

/-- The calls of `mylex` up to `YYEOF`, which every other octet is as well. -/
def mylex : Nat → Octets → List Token
  | fuel + 1, c :: p =>
    if c = 45 then .minus :: mylex fuel p
    else if c = 58 then .colon :: mylex fuel p
    else if c = 100 then .d :: mylex fuel p
    else if c = 104 then .h :: mylex fuel p
    else if c = 109 then .m :: mylex fuel p
    else if c = 115 then .s :: mylex fuel p
    else if 48 ≤ c ∧ c ≤ 57 then
      let digits := c :: p.takeWhile fun c => 48 ≤ c ∧ c ≤ 57
      .num (digits.foldl (fun num c => num * 10 + (c - 48).toUInt32.toInt32) 0)
          (digits.length > 2) ::
        mylex fuel (p.dropWhile fun c => 48 ≤ c ∧ c ≤ 57)
    else if c = 32 ∨ c = 9 ∨ c = 10 then
      .ws :: mylex fuel (p.dropWhile fun c => c = 32 ∨ 9 ≤ c ∧ c ≤ 13)
    else []
  | _, _ => []

def num : List Token → Option (Int32 × List Token)
  | .num val _ :: ts => some (val, ts)
  | .minus :: .num val _ :: ts => some (-val, ts)
  | _ => none

def wsnum : List Token → Option (Int32 × List Token)
  | .ws :: ts => num ts
  | ts => num ts

def optS (ts : List Token) : Option Int32 :=
  if ts = [] ∨ ts = [.ws] then some 0
  else
    match wsnum ts with
    | some (val, [.s]) => some val
    | _ => none

/-- A number of this unit in front of the smaller ones, or only those. -/
def optUnit (unit : Token) (seconds : Int32) (smaller : List Token → Option Int32)
    (ts : List Token) : Option Int32 :=
  match wsnum ts with
  | some (val, t :: rest) =>
    if t = unit then (smaller rest).map (val * seconds + ·) else smaller ts
  | _ => smaller ts

def optMs : List Token → Option Int32 := optUnit .m 60 optS

def optHms : List Token → Option Int32 := optUnit .h 3600 optMs

/-- The macro `DO`. -/
def delta (d h m s : Int32) : Int32 := (((d * 24) + h) * 60 + m) * 60 + s

/-- `krb5_string_to_deltat`; no value is `EINVAL`. -/
def stringToDeltat (string : Octets) : Option Int32 :=
  match wsnum (mylex string.length string) with
  | none => none
  | some (val, .d :: ts) => (optHms ts).map (delta val 0 0)
  | some (val, .h :: ts) => (optMs ts).map (delta 0 val 0)
  | some (val, .m :: ts) => (optS ts).map (delta 0 0 val)
  | some (val, [.s]) => some (delta 0 0 0 val)
  | some (val, [.minus, .num h false, .colon, .num m false, .colon, .num s false]) =>
    some (delta val h m s)
  | some (val, [.colon, .num m false, .colon, .num s false]) => some (delta 0 val m s)
  | some (val, [.colon, .num m false]) => some (delta 0 val m 0)
  | some _ => none

/-- Nothing behind the buffer is written, a text without room there is refused, and any other one
can be read back. -/
def PrintsBack (deltat buflen : Nat) (buffer : Octets) : Prop :=
  let call := deltatToString deltat buflen buffer
  call.2.drop buflen = buffer.drop buflen ∧
    if (deltatText deltat).length < buflen then
      call.1 = some () ∧ (stringToDeltat (cstring call.2)).map (·.toInt) = some (deltat : Int)
    else call.1 = none

/-- No call does: one without room for the text succeeds, and one with room leaves the empty string,
which is no time difference. -/
theorem deltatToString_not_printsBack (deltat buflen : Nat) (buffer : Octets) :
    ¬PrintsBack deltat buflen buffer := by
  obtain ⟨hok, hempty, -⟩ := deltatToString_spec deltat buflen buffer
  rintro ⟨-, h⟩
  split at h
  · rename_i hroom
    rw [hempty (Nat.zero_lt_of_lt hroom)] at h
    cases h.2
  · rw [hok] at h
    cases h

/-- A day in a buffer of four octets: the call succeeds, the text ends behind the buffer, and the
text that is left is refused. -/
theorem deltatToString_overruns :
    deltatToString 86400 4 (replicate 8 0x78) =
      (some (), [0, 0, 0, 0] ++ ascii "y" ++ [0, 0x78, 0x78]) ∧
    stringToDeltat (cstring (deltatToString 86400 4 (replicate 8 0x78)).2) = none ∧
    ¬PrintsBack 86400 4 (replicate 8 0x78) := by
  refine ⟨by decide +kernel, by decide +kernel, ?_⟩
  intro h
  have hbehind : (deltatToString 86400 4 (replicate 8 0x78)).2.drop 4 ≠ replicate 4 0x78 := by
    decide +kernel
  exact hbehind h.1

end Krb5.Client
