import Urgentry.Internal.Calendar
import Mathlib.Data.String.Basic
import Mathlib.Tactic.Ring

/-!
# Instants and the two timestamp texts

The code stores instants as text in two spellings and compares them as text:

```
Go, t.UTC().Format(time.RFC3339)     2026-03-29T14:05:06Z
SQLite, DEFAULT (datetime('now'))    2026-03-29 14:05:06
```

The spellings agree on the ten characters of the date and differ on the eleventh, `T` against a
space. So a comparison inside one spelling is a comparison of instants to the second, while a
comparison across the two is decided by the *date* alone: on equal dates the space is smaller,
whatever the times of day are. `rfc3339_lt_iff` and `datetime_lt_rfc3339_iff` are those two facts,
and everything the development says about stored timestamps goes through them.

## Range

An `Instant` is a clock reading from which any `time.Duration` can be added or subtracted without
leaving the years that four digits can write, so that both spellings have the same shape at every
instant the code formats. That is every reading from the year 293 to the year 9706.
-/

namespace Urgentry

open Calendar List

/-- A `time.Time`: nanoseconds since `0001-01-01T00:00:00Z`, which is Go's zero time. -/
structure Time where
  /-- Nanoseconds since the zero time. -/
  ns : ℕ
deriving DecidableEq

namespace Time

variable (t : Time)

/-- Whole seconds since the zero time. Both writers drop the fraction. -/
def secs : ℕ := t.ns / 10 ^ 9

/-- The UTC calendar day. -/
def day : ℕ := t.secs / secondsPerDay

/-- Seconds into the UTC calendar day. -/
def timeOfDay : ℕ := t.secs % secondsPerDay

/-- `t.UTC().Format(time.RFC3339)`. -/
def rfc3339 : String :=
  String.ofList (dateText t.day ++ 'T' :: (clockText t.timeOfDay ++ ['Z']))

/-- SQLite's `datetime('now')`, evaluated at `t`. -/
def datetime : String :=
  String.ofList (dateText t.day ++ ' ' :: clockText t.timeOfDay)

/-- The year has four digits. -/
def Writable : Prop := t.day < endOfDates

instance (t : Time) : Decidable t.Writable := Nat.decLt _ _

theorem timeOfDay_lt : t.timeOfDay < secondsPerDay := Nat.mod_lt _ (by decide)

theorem secs_lt_iff (s t : Time) :
    s.secs < t.secs ↔ s.day < t.day ∨ s.day = t.day ∧ s.timeOfDay < t.timeOfDay := by
  simp only [day, timeOfDay, secondsPerDay]
  omega

variable {s t : Time}

theorem day_le_of_secs_le (h : s.secs ≤ t.secs) : s.day ≤ t.day :=
  Nat.div_le_div_right h

/-- **Within one spelling** the texts compare as instants, to the second. -/
theorem rfc3339_lt_iff (hs : s.Writable) (ht : t.Writable) :
    s.rfc3339 < t.rfc3339 ↔ s.secs < t.secs := by
  rw [rfc3339, rfc3339, String.lt_iff_toList_lt, String.toList_ofList, String.toList_ofList,
    append_lt_append_iff ((length_dateText hs).trans (length_dateText ht).symm),
    dateText_lt_iff hs ht, dateText_inj, cons_lt_cons_iff, append_lt_append_iff (by simp),
    clockText_lt_iff s.timeOfDay_lt t.timeOfDay_lt, secs_lt_iff]
  simp

theorem rfc3339_inj : s.rfc3339 = t.rfc3339 ↔ s.secs = t.secs := by
  constructor
  · intro h
    obtain ⟨hdate, hrest⟩ := append_inj' (String.ofList_injective h) (by simp)
    obtain ⟨hclock, -⟩ := append_inj (cons.inj hrest).2 (by simp)
    have hlt := clockText_lt_iff s.timeOfDay_lt t.timeOfDay_lt
    have hgt := clockText_lt_iff t.timeOfDay_lt s.timeOfDay_lt
    rw [hclock] at hlt hgt
    have hday := dateText_inj.mp hdate
    have hsecs := secs_lt_iff s t
    have hsecs' := secs_lt_iff t s
    simp only [lt_irrefl, false_iff] at hlt hgt
    omega
  · intro h
    rw [rfc3339, rfc3339, day, day, timeOfDay, timeOfDay, h]

/-- **Across the two spellings** only the dates are compared, and a tie goes to SQLite's. -/
theorem datetime_lt_rfc3339_iff (hs : s.Writable) (ht : t.Writable) :
    s.datetime < t.rfc3339 ↔ s.day ≤ t.day := by
  have hspace : ' ' < 'T' := by decide
  rw [datetime, rfc3339, String.lt_iff_toList_lt, String.toList_ofList, String.toList_ofList,
    append_lt_append_iff ((length_dateText hs).trans (length_dateText ht).symm),
    dateText_lt_iff hs ht, dateText_inj, cons_lt_cons_iff]
  simp only [hspace, true_or, and_true]
  exact Nat.le_iff_lt_or_eq.symm

end Time

variable (t : Time)

/-- What `ParseDBTime` reads back from `t.UTC().Format(time.RFC3339)`: the fraction is lost, and a
year of more than four digits is not read. -/
def Time.readBack : Time := if t.Writable then ⟨t.secs * 10 ^ 9⟩ else ⟨0⟩

/-- Seconds between Go's zero time and the Unix epoch. -/
def unixEpoch : ℤ := 62135596800

/-- `t.Unix()`. -/
def Time.unix : ℤ := t.secs - unixEpoch

theorem Time.unix_inj {s t : Time} : s.unix = t.unix ↔ s.secs = t.secs := by
  rw [Time.unix, Time.unix]
  omega

/-! ## Clock readings and durations -/

/-- A `time.Duration`: a signed 64-bit count of nanoseconds, with Go's wrapping arithmetic. -/
abbrev Duration := Int64

/-- `t.Add(d)`; a time before the zero time becomes the zero time. -/
def Time.add (d : Duration) : Time := ⟨(t.ns + d.toInt).toNat⟩

/-- `t.Truncate(d)`. -/
def Time.truncate (d : Duration) : Time :=
  if d ≤ 0 then t else ⟨t.ns - t.ns % d.toInt.toNat⟩

/-- A reading of the clock. The two bounds leave room for any `Duration` on either side. -/
structure Instant extends Time where
  /-- Subtracting a duration stays after the zero time. -/
  lo : 2 ^ 63 ≤ ns
  /-- Adding a duration stays before the year 10000. -/
  hi : ns + 2 ^ 63 < endOfDates * secondsPerDay * 10 ^ 9
deriving DecidableEq

namespace Instant

/-- `t.Add(d)`. -/
def add (t : Instant) (d : Duration) : Time := ⟨(t.ns + d.toInt).toNat⟩

variable (t : Instant)

theorem ns_add (d : Duration) : ((t.add d).ns : ℤ) = t.ns + d.toInt := by
  have hd := d.le_toInt
  have ht := t.lo
  simp only [add]
  omega

theorem writable : t.Writable := by
  have ht := t.hi
  simp only [Time.Writable, Time.day, Time.secs, secondsPerDay] at *
  omega

theorem add_writable (d : Duration) : (t.add d).Writable := by
  have hd := d.toInt_lt
  have hadd := t.ns_add d
  have ht := t.hi
  simp only [Time.Writable, Time.day, Time.secs, secondsPerDay] at *
  omega

/-- The first instant of `2026-03-29`. -/
def midnight : Instant := ⟨⟨739703 * 86400 * 10 ^ 9⟩, by decide, by decide⟩

/-- A time of that day, in seconds. -/
def ofDaySeconds (seconds : Fin 86400) : Instant where
  ns := midnight.ns + seconds * 10 ^ 9
  lo := Nat.le_trans midnight.lo (Nat.le_add_right _ _)
  hi := by
    have hlt := seconds.isLt
    simp only [midnight, endOfDates, secondsPerDay]
    omega

end Instant

end Urgentry
