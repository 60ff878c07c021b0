import Boat.Core.Date
import Boat.Text.Digits
import Mathlib.Algebra.Order.BigOperators.Group.List
import Mathlib.Tactic.IntervalCases

/-!
# Aware datetimes

Python's aware `datetime`: a date, a time of day, and the time zone that says how far the time
is from UTC. A time zone of the time zone database may have two offsets for a local time that
occurs twice, of which `fold` selects one.

A datetime is printed with its offset (`isoformat`), so that its zone is lost.
-/

namespace Boat

/-- The values of `utcoffset()`: less than a day. -/
structure UtcOffset where
  micros : ℤ
  lt : -86400000000 < micros ∧ micros < 86400000000
  deriving DecidableEq, Repr

/-- UTC has the offset 0. -/
theorem UtcOffset.zero_lt : -86400000000 < (0 : ℤ) ∧ (0 : ℤ) < 86400000000 := by decide

/-- The offset of UTC. -/
def UtcOffset.utc : UtcOffset := ⟨0, UtcOffset.zero_lt⟩

/-- The fields of the time of a `datetime`. -/
structure TimeOfDay where
  hour : ℕ
  minute : ℕ
  second : ℕ
  microsecond : ℕ
  valid : hour < 24 ∧ minute < 60 ∧ second < 60 ∧ microsecond < 1000000
  deriving DecidableEq, Repr

/-- The time zone database: the offset of a zone at a local time, for each fold. -/
class TimeZones where
  utcoffset : String → Date → TimeOfDay → Bool → UtcOffset

inductive TzInfo
  /-- `timezone(offset)`. -/
  | timezone (offset : UtcOffset)
  /-- `ZoneInfo(key)`. -/
  | zoneInfo (key : String)
  deriving DecidableEq, Repr

/-- An aware `datetime`. -/
structure DateTime where
  date : Date
  time : TimeOfDay
  fold : Bool
  tzinfo : TzInfo
  deriving DecidableEq, Repr

/-! ## Comparison -/

/-- `date.toordinal()`. -/
def Date.toordinal (d : Date) : ℤ :=
  let y : ℤ := d.year - 1
  y * 365 + y / 4 - y / 100 + y / 400 +
    ((List.range (d.month - 1)).map fun m => (monthDays d.year (m + 1) : ℤ)).sum + d.day

namespace Date

/-- The days of the year up to a date. -/
theorem dayOfYear_le (d : Date) :
    ((List.range (d.month - 1)).map fun m => (monthDays d.year (m + 1) : ℤ)).sum + d.day ≤
      if isLeap d.year then 366 else 365 := by
  obtain ⟨year, month, day, -, ⟨hmonth, hmonth'⟩, -, hday⟩ := d
  cases hleap : isLeap year
  · interval_cases month <;> simp [List.range_succ, monthDays, hleap] at hday ⊢ <;> omega
  · interval_cases month <;> simp [List.range_succ, monthDays, hleap] at hday ⊢ <;> omega

theorem one_le_toordinal (d : Date) : 1 ≤ d.toordinal := by
  obtain ⟨⟨hyear, -⟩, -, hday, -⟩ := d.valid
  have hmonths : 0 ≤ ((List.range (d.month - 1)).map fun m => (monthDays d.year (m + 1) : ℤ)).sum :=
    List.sum_nonneg (by simp)
  rw [toordinal]
  omega

/-- The ordinal of `date.max` is the greatest. -/
theorem toordinal_le (d : Date) : d.toordinal ≤ 3652059 := by
  obtain ⟨⟨hyear, hyear'⟩, -⟩ := d.valid
  have hdays := d.dayOfYear_le
  rw [toordinal]
  by_cases hlast : d.year = 9999
  · have hleap : isLeap (d.year : ℤ) = false := by
      rw [hlast]
      decide
    rw [hleap, if_neg Bool.false_ne_true] at hdays
    omega
  · have hle : (if isLeap (d.year : ℤ) = true then (366 : ℤ) else 365) ≤ 366 := by
      split <;> decide
    have hdays' := hdays.trans hle
    omega

end Date

/-- The microseconds since midnight. -/
def TimeOfDay.micros (t : TimeOfDay) : ℤ :=
  ((t.hour * 60 + t.minute) * 60 + t.second) * 1000000 + t.microsecond

theorem TimeOfDay.micros_nonneg (t : TimeOfDay) : 0 ≤ t.micros := by
  rw [micros]
  omega

theorem TimeOfDay.micros_lt (t : TimeOfDay) : t.micros < 86400000000 := by
  have hvalid := t.valid
  rw [micros]
  omega

namespace DateTime

section

variable [TimeZones]

/-- `utcoffset()`. -/
def utcoffset (d : DateTime) : UtcOffset :=
  match d.tzinfo with
  | .timezone offset => offset
  | .zoneInfo key => TimeZones.utcoffset key d.date d.time d.fold

/-- The instant, in microseconds of UTC since 1 January 1970. -/
def instant (d : DateTime) : Instant :=
  (d.date.toordinal - 719163) * 86400000000 + d.time.micros - d.utcoffset.micros

/-- The offset depends on the fold. -/
def Folded (d : DateTime) : Prop := d.utcoffset ≠ { d with fold := !d.fold }.utcoffset

instance (d : DateTime) : Decidable d.Folded := inferInstanceAs (Decidable (_ ≠ _))

/-- `d == e`: in one zone, the local times are compared. In two, a time whose offset depends on the
    fold equals no other, and the instants are compared. -/
def eq (d e : DateTime) : Bool :=
  if d.tzinfo = e.tzinfo then d.date = e.date ∧ d.time = e.time
  else if d.Folded ∨ e.Folded then false
  else d.instant = e.instant

end

/-! ## Text -/

/-- A fraction of a second, if there is one. -/
def dumpFraction (microsecond : ℕ) : List Char :=
  if microsecond = 0 then [] else '.' :: Text.padded 10 6 microsecond

def dumpTime (t : TimeOfDay) : List Char :=
  Text.padded 10 2 t.hour ++ ':' :: (Text.padded 10 2 t.minute ++ ':' :: (Text.padded 10 2 t.second ++
    dumpFraction t.microsecond))

/-- An offset, with the seconds if there are some. -/
def dumpOffset (offset : UtcOffset) : List Char :=
  let n := offset.micros.natAbs
  (if offset.micros < 0 then '-' else '+') :: (Text.padded 10 2 (n / 3600000000) ++ ':' ::
    (Text.padded 10 2 (n / 60000000 % 60) ++
      if n % 60000000 = 0 then []
        else ':' :: (Text.padded 10 2 (n / 1000000 % 60) ++ dumpFraction (n % 1000000))))

def dumpDate (d : Date) : List Char :=
  Text.padded 10 4 d.year ++ '-' :: (Text.padded 10 2 d.month ++ '-' :: Text.padded 10 2 d.day)

/-- `isoformat()`. -/
def isoformat [TimeZones] (d : DateTime) : String :=
  .ofList (dumpDate d.date ++ 'T' :: (dumpTime d.time ++ dumpOffset d.utcoffset))

/-- The rest after a character. -/
def expect (c : Char) : List Char → Option (List Char)
  | d :: s => if d = c then some s else none
  | [] => none

@[simp] theorem expect_cons (c : Char) (s : List Char) : expect c (c :: s) = some s := if_pos rfl

end DateTime

/-! ## Timestamps -/

/-- `timestamptz`, as the driver reads it: a datetime of UTC. -/
structure Timestamp where
  date : Date
  time : TimeOfDay
  deriving DecidableEq, Repr

/-- The instant, in microseconds of UTC. -/
def Timestamp.micros (t : Timestamp) : ℤ := (t.date.toordinal - 719163) * 86400000000 + t.time.micros

def Timestamp.toDateTime (t : Timestamp) : DateTime := ⟨t.date, t.time, false, .timezone .utc⟩

theorem Timestamp.instant_toDateTime [TimeZones]
    (t : Timestamp) : t.toDateTime.instant = t.micros := sub_zero _

end Boat
