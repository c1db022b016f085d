/-!
Moments of the calendar in UTC, to the nanosecond. The last second of a minute may be a leap
second, whose nanoseconds run from one billion on.
-/
set_option autoImplicit false

namespace ReasonAct

namespace Calendar

def isLeapYear (y : Int) : Bool := y % 4 == 0 && (y % 100 != 0 || y % 400 == 0)

def daysIn (y : Int) (month : Nat) : Nat :=
  if month = 2 then if isLeapYear y then 29 else 28
  else if month = 4 ∨ month = 6 ∨ month = 9 ∨ month = 11 then 30
  else 31

def firstYear : Int := -262143
def lastYear : Int := 262142

end Calendar

structure Date where
  year : Int
  month : Nat
  day : Nat
  deriving DecidableEq, Repr

namespace Date

def Valid (d : Date) : Prop :=
  Calendar.firstYear ≤ d.year ∧ d.year ≤ Calendar.lastYear ∧ 1 ≤ d.month ∧ d.month ≤ 12 ∧
    1 ≤ d.day ∧ d.day ≤ Calendar.daysIn d.year d.month

instance (d : Date) : Decidable d.Valid := by unfold Valid; infer_instance

def next (d : Date) : Date :=
  if d.day < Calendar.daysIn d.year d.month then { d with day := d.day + 1 }
  else if d.month < 12 then ⟨d.year, d.month + 1, 1⟩
  else ⟨d.year + 1, 1, 1⟩

def previous (d : Date) : Date :=
  if 1 < d.day then { d with day := d.day - 1 }
  else if 1 < d.month then ⟨d.year, d.month - 1, Calendar.daysIn d.year (d.month - 1)⟩
  else ⟨d.year - 1, 12, 31⟩

end Date

structure TimeOfDay where
  hour : Nat
  minute : Nat
  second : Nat
  nanos : Nat
  deriving DecidableEq, Repr

def TimeOfDay.Valid (t : TimeOfDay) : Prop :=
  t.hour < 24 ∧ t.minute < 60 ∧ t.second < 60 ∧
    (t.nanos < 1000000000 ∨ t.second = 59 ∧ t.nanos < 2000000000)

instance (t : TimeOfDay) : Decidable t.Valid := by unfold TimeOfDay.Valid; infer_instance

structure Instant where
  date : Date
  time : TimeOfDay
  date_valid : date.Valid
  time_valid : time.Valid
  deriving DecidableEq

namespace Instant

def of? (d : Date) (t : TimeOfDay) : Option Instant :=
  if hd : d.Valid then if ht : t.Valid then some ⟨d, t, hd, ht⟩ else none else none

def epoch : Instant := ⟨⟨1970, 1, 1⟩, ⟨0, 0, 0, 0⟩, by decide, by decide⟩

instance : Inhabited Instant := ⟨epoch⟩

/-- The moment of a local time that is `offset` minutes ahead of UTC, less than a day. -/
def ofLocal? (d : Date) (t : TimeOfDay) (offset : Int) : Option Instant :=
  if d.Valid ∧ t.Valid ∧ -1440 < offset ∧ offset < 1440 then
    let minutes : Int := t.hour * 60 + t.minute - offset
    let (d, minutes) :=
      if minutes < 0 then (d.previous, minutes + 1440)
      else if 1440 ≤ minutes then (d.next, minutes - 1440)
      else (d, minutes)
    of? d { t with hour := minutes.toNat / 60, minute := minutes.toNat % 60 }
  else none

def daysBeforeYear (y : Int) : Int :=
  365 * (y - 1) + (y - 1) / 4 - (y - 1) / 100 + (y - 1) / 400

def dayOfYear (d : Date) : Nat :=
  (List.range (d.month - 1)).foldl (fun n m => n + Calendar.daysIn d.year (m + 1)) d.day

def unix (i : Instant) : Int :=
  (daysBeforeYear i.date.year - daysBeforeYear 1970 + dayOfYear i.date - 1) * 86400 +
    (i.time.hour * 3600 + i.time.minute * 60 + i.time.second : Nat)

end Instant

end ReasonAct
