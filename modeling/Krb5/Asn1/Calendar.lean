import Krb5.Asn1.DecodeFacts
import Krb5.Asn1.Encode

/-!
# Times as text

The date that `gmtime` gives for a 32-bit time, written as `YYYYMMDDhhmmssZ`, is
read back by `gmt_mktime` to the same time, if it is not before 1970.
-/

namespace Krb5.Asn1

open Lib

def monthOf (leap : Bool) (day : Nat) : Nat :=
  ((monthStarts leap).filter (· ≤ day)).length - 1

def dayOf (leap : Bool) (day : Nat) : Int := day - (monthStarts leap).getD (monthOf leap day) 0 + 1

/-- What `gmt_mktime` adds up for a month and a day gives the day of the year. -/
def MonthsAgree (leap : Bool) (day : Nat) : Prop :=
  monthOf leap day ≤ 11 ∧ 1 ≤ dayOf leap day ∧ dayOf leap day ≤ 31 ∧
    (if monthOf leap day ≥ 2 ∧ leap then 1 else 0) +
      daysInMonth.getD (monthOf leap day) 0 + (dayOf leap day - 1) = day

instance (leap : Bool) (day : Nat) : Decidable (MonthsAgree leap day) := by
  unfold MonthsAgree
  infer_instance

theorem monthsAgree_of_lt {leap : Bool} {day : Nat} (h : day < if leap then 366 else 365) :
    MonthsAgree leap day := by
  cases leap with
  | false =>
    have hall : ∀ d < 365, MonthsAgree false d := by decide +kernel
    exact hall day h
  | true =>
    have hall : ∀ d < 366, MonthsAgree true d := by decide +kernel
    exact hall day h

/-! ## Years -/

def cycleOf (val : Timestamp) : Int := (val.toInt / 86400 + 25202) / 1461

def yearOf (val : Timestamp) : Int := min ((val.toInt / 86400 + 25202) % 1461 / 365) 3

def yearDayOf (val : Timestamp) : Int :=
  (val.toInt / 86400 + 25202) % 1461 - 365 * yearOf val

def leapOf (val : Timestamp) : Bool := yearOf val = 3

section

variable (val : Timestamp)

theorem gmtime_eq : gmtime val =
    { year := 1 + 4 * cycleOf val + yearOf val
      mon := monthOf (leapOf val) (yearDayOf val).toNat
      mday := dayOf (leapOf val) (yearDayOf val).toNat
      hour := val.toInt % 86400 / 3600
      min := val.toInt % 86400 / 60 % 60
      sec := val.toInt % 86400 % 60 } := rfl

theorem yearOf_bounds : 0 ≤ yearOf val ∧ yearOf val ≤ 3 := by
  unfold yearOf
  omega

theorem yearDayOf_bounds :
    0 ≤ yearDayOf val ∧ yearDayOf val < 366 ∧ (yearOf val < 3 → yearDayOf val < 365) := by
  unfold yearDayOf yearOf
  omega

theorem days_eq : val.toInt / 86400 =
    1461 * cycleOf val + 365 * yearOf val + yearDayOf val - 25202 := by
  unfold yearDayOf cycleOf
  omega

theorem monthsAgree : MonthsAgree (leapOf val) (yearDayOf val).toNat := by
  have hday := yearDayOf_bounds val
  have hyear := yearOf_bounds val
  apply monthsAgree_of_lt
  rw [leapOf]
  split
  · omega
  · rename_i hshort
    rw [decide_eq_true_eq] at hshort
    omega

/-- The fields of a date lie where `asn1_encode_generaltime` wants them, and have
as many digits as they are written with. -/
theorem gmtime_bounds :
    1 ≤ (gmtime val).year ∧ (gmtime val).year ≤ 138 ∧
    0 ≤ (gmtime val).mon ∧ (gmtime val).mon ≤ 11 ∧ 1 ≤ (gmtime val).mday ∧ (gmtime val).mday ≤ 31 ∧
    0 ≤ (gmtime val).hour ∧ (gmtime val).hour ≤ 23 ∧ 0 ≤ (gmtime val).min ∧
    (gmtime val).min ≤ 59 ∧ 0 ≤ (gmtime val).sec ∧ (gmtime val).sec ≤ 59 := by
  obtain ⟨hmon, hday, hday', -⟩ := monthsAgree val
  obtain ⟨hy, -⟩ := yearOf_bounds val
  have hlo := val.le_toInt
  have hhi := val.toInt_lt
  have hyear : 0 ≤ cycleOf val ∧ 4 * cycleOf val + yearOf val ≤ 137 := by
    unfold cycleOf yearOf
    omega
  rw [gmtime_eq]
  dsimp only
  omega

end

theorem hasleapday_iff {year : Int} (h : 1970 ≤ year) (h' : year ≤ 2038) :
    hasleapday year ↔ year % 4 = 0 := by
  unfold hasleapday
  split_ifs <;> simp <;> omega

/-! ## Dates and seconds -/

/-- The dates that `gmt_mktime` takes. -/
def InRange (t : Tm) : Prop :=
  70 ≤ t.year ∧ t.year ≤ 138 ∧ 0 ≤ t.mon ∧ t.mon ≤ 11 ∧ 1 ≤ t.mday ∧ t.mday ≤ 31 ∧
    0 ≤ t.hour ∧ t.hour ≤ 23 ∧ 0 ≤ t.min ∧ t.min ≤ 59 ∧ 0 ≤ t.sec ∧ t.sec ≤ 62

def daysOf (t : Tm) : Int :=
  (t.year - 70) * 365 + (t.year - 69) / 4 +
    (if t.mon ≥ 2 ∧ hasleapday (t.year + 1900) then 1 else 0) +
    daysInMonth.getD t.mon.toNat 0 + (t.mday - 1)

/-- The sum that `gmt_mktime` stores in 32 bits. -/
def secondsOf (t : Tm) : Int := ((daysOf t * 24 + t.hour) * 60 + t.min) * 60 + t.sec

theorem gmtMktime_eq_some {t : Tm} {v : Int} :
    gmtMktime t = some v ↔ InRange t ∧ wrap32 (secondsOf t) = v := by
  rw [gmtMktime]
  split
  · rename_i hrange
    exact ⟨fun h => ⟨hrange, Option.some.inj h⟩, fun h => congrArg some h.2⟩
  · rename_i hrange
    exact ⟨fun h => (by cases h), fun h => absurd h.1 hrange⟩

/-- From 1970 on `gmtime` is exact. -/
theorem secondsOf_gmtime {val : Timestamp} (hpos : 0 ≤ val.toInt) :
    InRange (gmtime val) ∧ secondsOf (gmtime val) = val.toInt := by
  have hbounds := gmtime_bounds val
  have hdays := days_eq val
  obtain ⟨hy, hy'⟩ := yearOf_bounds val
  obtain ⟨hd, hd', hshort⟩ := yearDayOf_bounds val
  obtain ⟨-, -, -, hmonths⟩ := monthsAgree val
  have hyear : (gmtime val).year = 1 + 4 * cycleOf val + yearOf val := rfl
  have hrange : InRange (gmtime val) := by
    unfold InRange
    omega
  refine ⟨hrange, ?_⟩
  have hleap : hasleapday ((gmtime val).year + 1900) = leapOf val := by
    rw [Bool.eq_iff_iff, hasleapday_iff (by omega) (by omega), leapOf, decide_eq_true_eq]
    omega
  have hcast : ((gmtime val).mon ≥ 2) = (monthOf (leapOf val) (yearDayOf val).toNat ≥ 2) := by
    rw [gmtime_eq]
    apply propext
    dsimp only
    omega
  have hday : daysOf (gmtime val) = val.toInt / 86400 := by
    simp only [daysOf, hleap, hcast]
    rw [gmtime_eq]
    dsimp
    omega
  have htime : ((gmtime val).hour * 60 + (gmtime val).min) * 60 + (gmtime val).sec =
      val.toInt % 86400 := by
    rw [gmtime_eq]
    dsimp only
    omega
  rw [secondsOf]
  omega

/-- `gmt_mktime` undoes `gmtime`; a date before 1970 it refuses. -/
theorem gmtMktime_gmtime (val : Timestamp) :
    gmtMktime (gmtime val) = if 0 ≤ val.toInt then some val.toInt else none := by
  split
  · rename_i hpos
    obtain ⟨hrange, hseconds⟩ := secondsOf_gmtime hpos
    rw [gmtMktime_eq_some, hseconds]
    exact ⟨hrange, wrap32_of_lt hpos val.toInt_lt⟩
  · have hdays := days_eq val
    have hy := yearOf_bounds val
    have hd := yearDayOf_bounds val
    have hyear : (gmtime val).year = 1 + 4 * cycleOf val + yearOf val := rfl
    rw [gmtMktime, if_neg]
    omega

def digit (n : Int) : UInt8 := UInt8.ofNat (48 + (n % 10).toNat)

theorem c2i_digit (n : Int) : c2i (digit n) = n % 10 := by
  have hall : ∀ k < 10, c2i (UInt8.ofNat (48 + k)) = k := by decide
  have h := hall (n % 10).toNat (by omega)
  rw [digit]
  omega

theorem timeText_eq (t : Tm) : timeText t =
    [digit ((1900 + t.year) / 10 / 10 / 10), digit ((1900 + t.year) / 10 / 10),
      digit ((1900 + t.year) / 10), digit (1900 + t.year), digit ((t.mon + 1) / 10),
      digit (t.mon + 1), digit (t.mday / 10), digit t.mday, digit (t.hour / 10), digit t.hour,
      digit (t.min / 10), digit t.min, digit (t.sec / 10), digit t.sec, 0x5a] := rfl

theorem tmOfDigits_timeText (val : Timestamp) : tmOfDigits (timeText (gmtime val)) = gmtime val := by
  have hbounds := gmtime_bounds val
  have heta : gmtime val = ⟨(gmtime val).year, (gmtime val).mon, (gmtime val).mday,
    (gmtime val).hour, (gmtime val).min, (gmtime val).sec⟩ := rfl
  rw [timeText_eq, tmOfDigits, heta]
  simp only [List.getD_cons_zero, List.getD_cons_succ, c2i_digit, Tm.mk.injEq]
  omega

end Krb5.Asn1
