import Urgentry.Discovershared.AggregateColumns

/-!
# Rollup intervals

An interval is written as a number with a unit. `ParseDiscoverInterval` reads the number as an `int`
and multiplies it with the unit, as a `time.Duration`: nanoseconds in 64 bits. The number alone may
be close to `2 ^ 63`, so the product wraps around, and what comes out can be negative, can have a
fraction of a second, or can be zero.

What is meant by the text is `writtenNumber raw * writtenUnit raw`, an integer. The duration is that
integer exactly when it is below `2 ^ 63`; otherwise it is the integer wrapped around.

`BuildSeriesResult` divides by the seconds of the duration. They are zero when the duration is
shorter than a second, which no interval is as long as it does not wrap around. The validator only
asks for a text that is not blank.

## Main results

* `toInt_of_parseDiscoverInterval`: the duration of a text;
* `rollup_arithmetic_iff`: when the duration is what was written, and when the division is by zero.
-/

namespace Urgentry.Discover

/-- What is used of `int64(d.Seconds())`: whole seconds are exact, and only less than a second is
none. -/
structure FloatLib.Seconds {F : Type} (fl : FloatLib F) : Prop where
  whole : ∀ d : Duration, 10 ^ 9 ∣ d.toInt → fl.seconds d = d.toInt / 10 ^ 9
  zero : ∀ d : Duration, fl.seconds d = 0 ↔ |d.toInt| < 10 ^ 9

/-! ## Texts -/

variable (raw : String)

/-- The number of an interval. -/
def writtenNumber : ℤ :=
  (GoText.parseInt (intervalUnit (GoText.trimSpace raw)).2.toList).getD 0

/-- The unit of an interval, in nanoseconds. -/
def writtenUnit : ℤ := (intervalUnit (GoText.trimSpace raw)).1.toInt

/-- A unit is a positive number of seconds. -/
theorem intervalUnit_cases :
    ∃ n : ℤ, 1 ≤ n ∧ n ≤ 86400 ∧ (intervalUnit raw).1.toInt = n * 10 ^ 9 := by
  unfold intervalUnit
  split
  · exact ⟨60, by decide, by decide, rfl⟩
  · exact ⟨3600, by decide, by decide, rfl⟩
  · exact ⟨86400, by decide, by decide, rfl⟩
  · exact ⟨1, by decide, by decide, rfl⟩

/-- **The duration of a text** is what was written, wrapped around. -/
theorem toInt_of_parseDiscoverInterval {raw : String} {d : Duration}
    (h : parseDiscoverInterval raw = .ok d) :
    0 < writtenNumber raw ∧ d.toInt = (writtenNumber raw * writtenUnit raw).bmod (2 ^ 64) := by
  unfold parseDiscoverInterval at h
  simp only at h
  split at h
  · cases h
  · split at h
    · cases h
    · next value hvalue =>
      obtain ⟨n, hn, rfl⟩ := Option.map_eq_some_iff.mp hvalue
      obtain ⟨hlow, hhigh⟩ := GoText.parseInt_range hn
      have hnumber : writtenNumber raw = n := by rw [writtenNumber, hn, Option.getD_some]
      have htoInt : (Int64.ofInt n).toInt = n := Int64.toInt_ofInt_of_le hlow hhigh
      split at h
      · cases h
      · next hpos =>
        rw [Except.ok.injEq] at h
        rw [← h, Int64.toInt_mul, htoInt, hnumber]
        refine ⟨?_, rfl⟩
        rw [Int64.le_iff_toInt_le, htoInt] at hpos
        exact not_le.mp hpos

/-- **When the duration is what was written**: it is then a positive number of whole seconds. -/
theorem interval_exact_iff {raw : String} {d : Duration} (h : parseDiscoverInterval raw = .ok d) :
    (0 < d.toInt ∧ 10 ^ 9 ∣ d.toInt ∧ d.toInt = writtenNumber raw * writtenUnit raw) ↔
      writtenNumber raw * writtenUnit raw < 2 ^ 63 := by
  obtain ⟨hpos, hwrap⟩ := toInt_of_parseDiscoverInterval h
  obtain ⟨k, hk, -, hunit⟩ := intervalUnit_cases (GoText.trimSpace raw)
  have hseconds : writtenNumber raw * writtenUnit raw = writtenNumber raw * k * 10 ^ 9 := by
    rw [writtenUnit, hunit, mul_assoc]
  have hproduct : 0 < writtenNumber raw * k := Int.mul_pos hpos (by omega)
  constructor
  · rintro ⟨-, -, hsame⟩
    rw [← hsame]
    exact d.toInt_lt
  · intro hbound
    rw [hseconds] at hwrap hbound ⊢
    rw [Int.bmod_eq_of_le (by omega) (by omega)] at hwrap
    exact ⟨by omega, hwrap ▸ dvd_mul_left _ _, hwrap⟩

/-! ## The division -/

section Division

variable {F : Type} {fl : FloatLib F} {lib : GoLib}

/-- **When a series divides by zero**: it has a row, and its interval has come out shorter than a
second. -/
theorem divideByZero_iff (hfl : fl.Seconds) (order : MapOrder) (q : Query) (cost : CostEstimate)
    (rows : List (TableRow F)) :
    buildSeriesResult fl lib order q cost rows = .error .divideByZero ↔
      timedRows rows ≠ [] ∧ ∃ r, q.rollup = some r ∧ ∃ d, parseDiscoverInterval r.interval = .ok d ∧
        |(writtenNumber r.interval * writtenUnit r.interval).bmod (2 ^ 64)| < 10 ^ 9 := by
  unfold buildSeriesResult
  cases hr : q.rollup with
  | none => simp
  | some r =>
    cases hd : parseDiscoverInterval r.interval with
    | error e => simp [hd]
    | ok d =>
      have hseconds := hfl.zero d
      rw [(toInt_of_parseDiscoverInterval hd).2] at hseconds
      have hright : (∃ r', some r = some r' ∧ ∃ d', parseDiscoverInterval r'.interval = .ok d' ∧
          |(writtenNumber r'.interval * writtenUnit r'.interval).bmod (2 ^ 64)| < 10 ^ 9) ↔
          fl.seconds d = 0 := by
        rw [hseconds]
        constructor
        · rintro ⟨r', hr', d', -, hsmall⟩
          cases hr'
          exact hsmall
        · exact fun hsmall => ⟨r, rfl, d, hd, hsmall⟩
      rw [hright, and_comm]
      simp only [hd]
      split_ifs with hzero
      · exact iff_of_true rfl hzero
      · exact iff_of_false (fun h => by cases h) hzero

/-- **The arithmetic of rollups.** The duration of an interval that is accepted is a positive number
of whole seconds and what was written exactly when that is below `2 ^ 63` nanoseconds. The series of
an accepted query is built without a division by zero exactly when no row has a timestamp or the
interval, wrapped around, is a second at least, which it is when it was not wrapped around. -/
theorem rollup_arithmetic_iff (hfl : fl.Seconds) :
    (∀ (raw : String) (d : Duration), parseDiscoverInterval raw = .ok d →
      ((0 < d.toInt ∧ 10 ^ 9 ∣ d.toInt ∧ d.toInt = writtenNumber raw * writtenUnit raw) ↔
        writtenNumber raw * writtenUnit raw < 2 ^ 63)) ∧
    (∀ (order : MapOrder) (q₀ q : Query) (cost : CostEstimate) (rows : List (TableRow F)),
      validateQuery lib q₀ = .ok (q, cost) →
      (buildSeriesResult fl lib order q cost rows ≠ .error .divideByZero ↔
        timedRows rows = [] ∨ ∀ r, q.rollup = some r → ∀ d,
          parseDiscoverInterval r.interval = .ok d →
          10 ^ 9 ≤ |(writtenNumber r.interval * writtenUnit r.interval).bmod (2 ^ 64)|)) ∧
    ∀ (raw : String) (d : Duration), parseDiscoverInterval raw = .ok d →
      writtenNumber raw * writtenUnit raw < 2 ^ 63 →
      10 ^ 9 ≤ |(writtenNumber raw * writtenUnit raw).bmod (2 ^ 64)| := by
  refine ⟨fun raw d => interval_exact_iff, fun order q₀ q cost rows _ => ?_,
    fun raw d hd hbound => ?_⟩
  · rw [ne_eq, divideByZero_iff hfl, not_and_or, not_not]
    refine or_congr_right ?_
    simp only [not_exists, not_and, not_lt]
  · obtain ⟨hpos, hwhole, -⟩ := (interval_exact_iff hd).mpr hbound
    rw [← (toInt_of_parseDiscoverInterval hd).2, abs_of_pos hpos]
    exact Int.le_of_dvd hpos hwhole

end Division

/-! ## Two intervals -/

theorem ratLib_seconds : ratLib.Seconds where
  whole d h := by
    show d.toInt.tdiv (10 ^ 9) = d.toInt / 10 ^ 9
    exact Int.tdiv_eq_ediv_of_dvd h
  zero d := by
    show d.toInt.tdiv (10 ^ 9) = 0 ↔ _
    rw [← Int.natAbs_eq_zero, Int.natAbs_tdiv, Int.abs_eq_natAbs]
    show d.toInt.natAbs / 10 ^ 9 = 0 ↔ _
    omega

/-- The transactions of a day are counted in intervals. -/
def countedEvery (interval : String) : Query where
  version := 1
  dataset := "transactions"
  scope := { kind := "project", projectId := "p1" }
  select := [{ expr := .mk "" "count" [] "" }]
  timeRange := some { kind := "relative", value := "24h" }
  rollup := some { interval := interval }

/-- A transaction with a timestamp. -/
def timedTransaction : TableRow ℚ :=
  (∅ : TableRow ℚ).insert "timestamp" (.time Instant.midnight.toTime)

/-- Intervals of five minutes. -/
theorem fiveMinutes_exact :
    ∃ d, parseDiscoverInterval "5m" = .ok d ∧ d.toInt = 300 * 10 ^ 9 ∧
      ∃ q cost, validateQuery asciiLib (countedEvery "5m") = .ok (q, cost) ∧
        buildSeriesResult ratLib asciiLib (.last "") q cost [timedTransaction] ≠
          .error .divideByZero := by
  have hparse : parseDiscoverInterval "5m" = .ok 300000000000 := by decide +kernel
  have hvalid : validateQuery asciiLib (countedEvery "5m") =
      .ok (preparedQuery asciiLib (countedEvery "5m"), _) :=
    (validateQuery_eq_ok asciiLib).mpr ⟨rfl, rfl, by decide +kernel⟩
  have hrule := @rollup_arithmetic_iff ℚ ratLib asciiLib ratLib_seconds
  have hexact := (hrule.1 "5m" _ hparse).mpr (by decide +kernel)
  refine ⟨_, hparse, hexact.2.2.trans (by decide +kernel), _, _, hvalid, ?_⟩
  refine (hrule.2.1 (.last "") _ _ _ [timedTransaction] hvalid).mpr (.inr fun r hr d hd => ?_)
  obtain rfl : { interval := "5m" } = r := Option.some.inj (Eq.trans (by decide +kernel) hr)
  exact hrule.2.2 "5m" d hd (by decide +kernel)

/-- **An interval that wraps around to nothing**: the query is accepted, and its series divides by
zero. -/
theorem wrapped_interval_divides :
    parseDiscoverInterval "9007199254740992m" = .ok 0 ∧
    ∃ q cost, validateQuery asciiLib (countedEvery "9007199254740992m") = .ok (q, cost) ∧
      buildSeriesResult ratLib asciiLib (.last "") q cost [timedTransaction] =
        .error .divideByZero := by
  have hparse : parseDiscoverInterval "9007199254740992m" = .ok 0 := by decide +kernel
  refine ⟨hparse, _, _, (validateQuery_eq_ok asciiLib).mpr ⟨rfl, rfl, by decide +kernel⟩, ?_⟩
  rw [divideByZero_iff ratLib_seconds]
  exact ⟨by decide +kernel, { interval := "9007199254740992m" }, by decide +kernel, 0, hparse,
    by decide +kernel⟩

end Urgentry.Discover
