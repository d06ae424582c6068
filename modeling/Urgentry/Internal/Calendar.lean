import Mathlib.Data.List.Lex
import Mathlib.Data.Char
import Mathlib.Data.Prod.Lex
import Mathlib.Tactic.IntervalCases

/-!
# Calendar texts and their order

A timestamp that is stored as text and compared as text is compared character by character. This
module says what such a comparison means: it writes a day of the proleptic Gregorian calendar as
`YYYY-MM-DD`, a second of the day as `hh:mm:ss`, and proves that both writings are strictly
monotone, so that comparing the texts is comparing the numbers they were written from.

Days are counted from `0001-01-01`, which is day `0`. That is the epoch at which the 400, 100 and
4 year cycles all begin with a common year and end with their leap year, so the year of a day is
four divisions.

## Main results

* `decimal_lt_iff` — zero-padded decimals of one width compare as numbers
* `dateText_lt_iff` — dates with a four digit year compare as days
* `clockText_lt_iff` — clock texts compare as seconds
* `append_lt_append_iff` — comparing two concatenations whose first halves are equally long
-/

namespace Calendar

open List

/-! ## Comparing concatenations -/

theorem append_lt_append_iff {α : Type*} [LinearOrder α] :
    ∀ {a b c d : List α}, a.length = b.length → (a ++ c < b ++ d ↔ a < b ∨ a = b ∧ c < d)
  | [], [], c, d, _ => by simp
  | x :: a, y :: b, c, d, h => by
    have ih := append_lt_append_iff (c := c) (d := d) (Nat.succ.inj h)
    rw [cons_append, cons_append, cons_lt_cons_iff, cons_lt_cons_iff, cons_eq_cons]
    tauto

/-! ## Zero-padded decimals -/

/-- The last `w` decimal digits of `n`, most significant first, padded with zeros. -/
def decimal : ℕ → ℕ → List Char
  | 0, _ => []
  | w + 1, n => Nat.digitChar (n / 10 ^ w) :: decimal w (n % 10 ^ w)

@[simp] theorem length_decimal : ∀ w n : ℕ, (decimal w n).length = w
  | 0, _ => rfl
  | w + 1, n => by rw [decimal, length_cons, length_decimal w]

variable {a b e d : ℕ} (days : ℕ)

theorem digitChar_lt_iff (ha : a < 10) (hb : b < 10) :
    Nat.digitChar a < Nat.digitChar b ↔ a < b := by
  interval_cases a <;> interval_cases b <;> decide

theorem digitChar_inj (ha : a < 10) (hb : b < 10) : Nat.digitChar a = Nat.digitChar b ↔ a = b := by
  interval_cases a <;> interval_cases b <;> decide

theorem decimal_lt_iff :
    ∀ {w n m : ℕ}, n < 10 ^ w → m < 10 ^ w → (decimal w n < decimal w m ↔ n < m)
  | 0, n, m, hn, hm => by
    have h0 : n = m := by rw [pow_zero] at hn hm; omega
    simp [h0]
  | w + 1, n, m, hn, hm => by
    have hpos : 0 < 10 ^ w := Nat.pow_pos (by decide)
    have hdn : n / 10 ^ w < 10 := Nat.div_lt_of_lt_mul (by rwa [← pow_succ])
    have hdm : m / 10 ^ w < 10 := Nat.div_lt_of_lt_mul (by rwa [← pow_succ])
    rw [decimal, decimal, cons_lt_cons_iff, digitChar_lt_iff hdn hdm, digitChar_inj hdn hdm,
      decimal_lt_iff (Nat.mod_lt _ hpos) (Nat.mod_lt _ hpos)]
    have en := Nat.div_add_mod n (10 ^ w)
    have em := Nat.div_add_mod m (10 ^ w)
    constructor
    · rintro (h | ⟨h, hr⟩)
      · exact Nat.lt_of_div_lt_div h
      · rw [h] at en; omega
    · intro h
      rcases Nat.lt_or_ge (n / 10 ^ w) (m / 10 ^ w) with hlt | hge
      · exact Or.inl hlt
      · have heq : n / 10 ^ w = m / 10 ^ w :=
          le_antisymm (Nat.div_le_div_right h.le) hge
        rw [heq] at en
        exact Or.inr ⟨heq, by omega⟩

theorem decimal_inj {w n m : ℕ} (hn : n < 10 ^ w) (hm : m < 10 ^ w) :
    decimal w n = decimal w m ↔ n = m := by
  refine ⟨fun h => ?_, fun h => by rw [h]⟩
  rcases Nat.lt_trichotomy n m with hlt | heq | hgt
  · exact absurd h ((decimal_lt_iff hn hm).mpr hlt).ne
  · exact heq
  · exact absurd h ((decimal_lt_iff hm hn).mpr hgt).ne'

/-- A padded field in front of a text: the field decides, and on equal fields the rest does. -/
theorem decimal_append_lt_iff {w n m : ℕ} {c d : List Char} (hn : n < 10 ^ w) (hm : m < 10 ^ w) :
    decimal w n ++ c < decimal w m ++ d ↔ n < m ∨ n = m ∧ c < d := by
  rw [append_lt_append_iff (by simp), decimal_lt_iff hn hm, decimal_inj hn hm]

/-! ## Years -/

/-- The Gregorian leap year rule. -/
def isLeap (y : ℕ) : Bool := y % 4 = 0 && (y % 100 ≠ 0 || y % 400 = 0)

/-- The number of days from `0001-01-01` to the first day of year `y`. -/
def daysBefore (y : ℕ) : ℕ := 365 * (y - 1) + (y - 1) / 4 - (y - 1) / 100 + (y - 1) / 400

/-- The year a day falls in and its zero-based day of that year. The last of the four centuries
of a 400 year cycle, and the last year of a four year cycle, are the ones that are a day longer,
so a quotient of `4` stands for the last day of cycle `3`. -/
def yearDay (days : ℕ) : ℕ × ℕ :=
  let n400 := days / 146097
  let d400 := days % 146097
  let n100 := d400 / 36524 - d400 / 36524 / 4
  let d100 := d400 - 36524 * n100
  let n4 := d100 / 1461
  let d4 := d100 % 1461
  let n1 := d4 / 365 - d4 / 365 / 4
  (400 * n400 + 100 * n100 + 4 * n4 + n1 + 1, d4 - 365 * n1)

theorem daysBefore_succ {y : ℕ} (hy : 0 < y) :
    daysBefore (y + 1) = daysBefore y + 365 + (isLeap y).toNat := by
  unfold daysBefore isLeap
  rcases Nat.lt_or_ge 0 (y % 4) with h4 | h4
  · have : decide (y % 4 = 0) = false := by simp; omega
    simp only [this, Bool.false_and, Bool.toNat_false]
    omega
  · rcases Nat.lt_or_ge 0 (y % 100) with h100 | h100
    · have e4 : decide (y % 4 = 0) = true := by simp; omega
      have e100 : decide (y % 100 ≠ 0) = true := by simp; omega
      simp only [e4, e100, Bool.true_or, Bool.and_true, Bool.toNat_true]
      omega
    · rcases Nat.lt_or_ge 0 (y % 400) with h400 | h400
      · have e4 : decide (y % 4 = 0) = true := by simp; omega
        have e100 : decide (y % 100 ≠ 0) = false := by simp; omega
        have e400 : decide (y % 400 = 0) = false := by simp; omega
        simp only [e100, e400, Bool.or_self, Bool.and_false, Bool.toNat_false]
        omega
      · have e4 : decide (y % 4 = 0) = true := by simp; omega
        have e400 : decide (y % 400 = 0) = true := by simp; omega
        simp only [e4, e400, Bool.or_true, Bool.and_true, Bool.toNat_true]
        omega

theorem daysBefore_mono {y z : ℕ} (hy : 0 < y) (h : y ≤ z) : daysBefore y ≤ daysBefore z := by
  induction z, h using Nat.le_induction with
  | base => exact le_rfl
  | succ z hz ih => rw [daysBefore_succ (hy.trans_le hz)]; omega

/-- The cycle counts behind `yearDay`. Only the last cycle of each length can be a day longer, which
is what the final clause records: day `365` of a year is reached in the last year of a four year
cycle, and not in the last such cycle of a century unless the century is the fourth. -/
theorem yearDay_cycles : ∃ a b c e r : ℕ,
    days = 146097 * a + 36524 * b + 1461 * c + 365 * e + r ∧
      yearDay days = (400 * a + 100 * b + 4 * c + e + 1, r) ∧
      b ≤ 3 ∧ c ≤ 24 ∧ e ≤ 3 ∧ r ≤ 365 ∧ (r = 365 → e = 3 ∧ (c < 24 ∨ b = 3)) := by
  have hb : ∃ b r1, days % 146097 / 36524 - days % 146097 / 36524 / 4 = b ∧
      days % 146097 - 36524 * b = r1 ∧ days % 146097 = 36524 * b + r1 ∧ b ≤ 3 ∧
      r1 ≤ 36524 ∧ (r1 = 36524 → b = 3) := ⟨_, _, rfl, rfl, by omega, by omega, by omega, by omega⟩
  obtain ⟨b, r1, hb, hr1, hsum, hb3, hr1le, hr1eq⟩ := hb
  have he : ∃ e r, r1 % 1461 / 365 - r1 % 1461 / 365 / 4 = e ∧ r1 % 1461 - 365 * e = r ∧
      r1 % 1461 = 365 * e + r ∧ e ≤ 3 ∧ r ≤ 365 ∧ (r = 365 → e = 3) :=
    ⟨_, _, rfl, rfl, by omega, by omega, by omega, by omega⟩
  obtain ⟨e, r, he, hr, hsum', he3, hrle, hreq⟩ := he
  refine ⟨days / 146097, b, r1 / 1461, e, r, by omega, ?_, hb3, by omega, he3, hrle, by omega⟩
  simp only [yearDay, hb, hr1, he, hr]

/-- A day is its year's first day plus its day of the year. -/
theorem daysBefore_yearDay : daysBefore (yearDay days).1 + (yearDay days).2 = days := by
  obtain ⟨a, b, c, e, r, hd, hy, hb, hc, he, -, -⟩ := yearDay_cycles days
  rw [hy, daysBefore, Nat.add_sub_cancel, hd]
  omega

/-- The day of the year stays inside its year. -/
theorem yearDay_lt : (yearDay days).2 < 365 + (isLeap (yearDay days).1).toNat := by
  obtain ⟨a, b, c, e, r, hd, hy, hb, hc, he, hr, hlast⟩ := yearDay_cycles days
  rw [hy]
  rcases Nat.lt_or_ge r 365 with hlt | hge
  · exact Nat.lt_of_lt_of_le hlt (Nat.le_add_right _ _)
  · obtain ⟨rfl, hcb⟩ := hlast (by omega)
    have hleap : isLeap (400 * a + 100 * b + 4 * c + 3 + 1) = true := by
      simp only [isLeap, Bool.and_eq_true, Bool.or_eq_true, decide_eq_true_eq]
      omega
    rw [hleap, Bool.toNat_true]
    omega

theorem yearDay_mono (h : d ≤ e) : (yearDay d).1 ≤ (yearDay e).1 := by
  by_contra hlt
  have hle := daysBefore_mono (Nat.succ_pos _) (Nat.succ_le_of_lt (not_le.mp hlt))
  rw [daysBefore_succ (by simp [yearDay])] at hle
  have hd := daysBefore_yearDay d
  have he := daysBefore_yearDay e
  have hin := yearDay_lt e
  omega

/-! ## Months -/

variable (leap : Bool)

/-- The month lengths of a common or a leap year. -/
def monthLengths : List ℕ :=
  [31, 28 + leap.toNat, 31, 30, 31, 30, 31, 31, 30, 31, 30, 31]

/-- The month and day of the month of a zero-based day, walking down the month lengths. -/
def monthDay : List ℕ → ℕ → ℕ × ℕ
  | [], d => (1, d + 1)
  | len :: rest, d =>
    if d < len then (1, d + 1) else ((monthDay rest (d - len)).1 + 1, (monthDay rest (d - len)).2)

theorem monthDay_pos : ∀ (ls : List ℕ) (d : ℕ), 0 < (monthDay ls d).1
  | [], _ => Nat.one_pos
  | len :: rest, d => by
    rw [monthDay]
    split
    · exact Nat.one_pos
    · exact Nat.succ_pos _

/-- A later day has a later month, or the same month and a later day of it. -/
theorem monthDay_lt : ∀ (ls : List ℕ) {d e : ℕ}, d < e → (monthDay ls d).1 < (monthDay ls e).1 ∨
      (monthDay ls d).1 = (monthDay ls e).1 ∧ (monthDay ls d).2 < (monthDay ls e).2
  | [], d, e, h => Or.inr ⟨rfl, Nat.succ_lt_succ h⟩
  | len :: rest, d, e, h => by
    rw [monthDay, monthDay]
    by_cases hd : d < len
    · by_cases he : e < len
      · rw [if_pos hd, if_pos he]
        exact Or.inr ⟨rfl, Nat.succ_lt_succ h⟩
      · rw [if_pos hd, if_neg he]
        exact Or.inl (Nat.succ_lt_succ (monthDay_pos _ _))
    · have he : ¬ e < len := by omega
      rw [if_neg hd, if_neg he]
      have ih := monthDay_lt rest (d := d - len) (e := e - len) (by omega)
      exact ih.imp Nat.succ_lt_succ fun h => ⟨congrArg (· + 1) h.1, h.2⟩

theorem monthDay_bounds : ∀ (ls : List ℕ) {d : ℕ}, d < ls.sum → (∀ l ∈ ls, l ≤ 31) →
    (monthDay ls d).1 ≤ ls.length ∧ (monthDay ls d).2 ≤ 31
  | [], d, h, _ => absurd h (Nat.not_lt_zero d)
  | len :: rest, d, h, hl => by
    rw [monthDay]
    have hlen := hl len mem_cons_self
    split
    · exact ⟨by simp, by show d + 1 ≤ 31; omega⟩
    · rw [sum_cons] at h
      have ih := monthDay_bounds rest (d := d - len) (by omega)
        fun l hm => hl l (mem_cons_of_mem _ hm)
      exact ⟨Nat.succ_le_succ ih.1, ih.2⟩

theorem sum_monthLengths : (monthLengths leap).sum = 365 + leap.toNat := by
  cases leap <;> rfl

theorem monthLengths_le : ∀ l ∈ monthLengths leap, l ≤ 31 := by
  cases leap <;> decide

/-! ## Dates -/

/-- Year, month and day of the month. -/
def civil (days : ℕ) : ℕ × ℕ × ℕ :=
  ((yearDay days).1, monthDay (monthLengths (isLeap (yearDay days).1)) (yearDay days).2)

theorem civil_bounds : (civil days).2.1 ≤ 12 ∧ (civil days).2.2 ≤ 31 := by
  have h := monthDay_bounds (monthLengths (isLeap (yearDay days).1)) (d := (yearDay days).2)
    (by rw [sum_monthLengths]; exact yearDay_lt days) (monthLengths_le _)
  exact h

/-- Dates are ordered as days are. -/
theorem civil_lt (h : d < e) :
    (civil d).1 < (civil e).1 ∨ (civil d).1 = (civil e).1 ∧ ((civil d).2.1 < (civil e).2.1 ∨
        (civil d).2.1 = (civil e).2.1 ∧ (civil d).2.2 < (civil e).2.2) := by
  rcases (yearDay_mono h.le).lt_or_eq with hlt | heq
  · exact Or.inl hlt
  · refine Or.inr ⟨heq, ?_⟩
    have hd := daysBefore_yearDay d
    have he := daysBefore_yearDay e
    have hday : (yearDay d).2 < (yearDay e).2 := by rw [heq] at hd; omega
    simpa only [civil, heq] using monthDay_lt (monthLengths (isLeap (yearDay e).1)) hday

/-- The first day of the year `10000`, the first that four digits cannot write. -/
def endOfDates : ℕ := 3652059

theorem civil_year_lt (h : d < endOfDates) : (civil d).1 < 10 ^ 4 := by
  have hmono := yearDay_mono (Nat.le_sub_one_of_lt h)
  have hlast : (yearDay (endOfDates - 1)).1 = 9999 := by decide
  exact show (yearDay d).1 < 10000 by omega

/-- A year, in as many digits as it has and at least four. -/
def yearText (y : ℕ) : List Char := if y < 10 ^ 4 then decimal 4 y else Nat.toDigits 10 y

/-- `YYYY-MM-DD`. From the year `10000` on the text is longer, and its order is not that of the
days. -/
def dateText (days : ℕ) : List Char :=
  yearText (civil days).1 ++
    '-' :: (decimal 2 (civil days).2.1 ++ '-' :: decimal 2 (civil days).2.2)

theorem dateText_eq {days : ℕ} (h : days < endOfDates) : dateText days =
    decimal 4 (civil days).1 ++ '-' :: (decimal 2 (civil days).2.1 ++ '-' ::
      decimal 2 (civil days).2.2) := by
  rw [dateText, yearText, if_pos (civil_year_lt h)]

theorem length_dateText {days : ℕ} (h : days < endOfDates) : (dateText days).length = 10 := by
  simp [dateText_eq h]

theorem dateText_lt (h : d < e) (he : e < endOfDates) : dateText d < dateText e := by
  have hd2 := civil_bounds d
  have he2 := civil_bounds e
  rw [dateText_eq (h.trans he), dateText_eq he,
    decimal_append_lt_iff (civil_year_lt (h.trans he)) (civil_year_lt he)]
  refine (civil_lt h).imp_right (And.imp_right fun hm => ?_)
  rw [cons_lt_cons_iff, decimal_append_lt_iff (by omega) (by omega), cons_lt_cons_iff,
    decimal_lt_iff (by omega) (by omega)]
  exact Or.inr ⟨rfl, hm.imp_right (And.imp_right fun hday => Or.inr ⟨rfl, hday⟩)⟩

/-- **Date texts compare as days.** -/
theorem dateText_lt_iff (hd : d < endOfDates) (he : e < endOfDates) :
    dateText d < dateText e ↔ d < e := by
  refine ⟨fun h => ?_, fun h => dateText_lt h he⟩
  rcases Nat.lt_trichotomy d e with hlt | rfl | hgt
  · exact hlt
  · exact absurd h (lt_irrefl _)
  · exact absurd h (dateText_lt hgt hd).asymm

theorem yearText_inj {y z : ℕ} (h : yearText y = yearText z) : y = z := by
  have hlong {n : ℕ} (hn : ¬n < 10 ^ 4) : 4 < (Nat.toDigits 10 n).length := by
    rw [← not_le, Nat.length_toDigits_le_iff (by decide) (by decide)]
    exact hn
  unfold yearText at h
  have hlength := congrArg length h
  split at h <;> split at h <;> rename_i hy hz
  · exact (decimal_inj hy hz).mp h
  · rw [if_pos hy, if_neg hz] at hlength
    exact absurd hlength (hlong hz).ne
  · rw [if_neg hy, if_pos hz] at hlength
    exact absurd hlength (hlong hy).ne'
  · simpa using congrArg (Nat.ofDigitChars 10 · 0) h

/-- Different days have different texts, in whatever year. -/
@[simp]
theorem dateText_inj : dateText d = dateText e ↔ d = e := by
  refine ⟨fun h => ?_, fun h => by rw [h]⟩
  have hd := civil_bounds d
  have he := civil_bounds e
  obtain ⟨hyear, hrest⟩ := append_inj' h (by simp)
  obtain ⟨hmonth, hday⟩ := append_inj (cons.inj hrest).2 (by simp)
  rw [decimal_inj (by omega) (by omega)] at hmonth
  rw [cons_inj_right, decimal_inj (by omega) (by omega)] at hday
  have hyear := yearText_inj hyear
  rcases Nat.lt_trichotomy d e with hlt | heq | hgt
  · have hcivil := civil_lt hlt
    omega
  · exact heq
  · have hcivil := civil_lt hgt
    omega

/-! ## Times of day -/

/-- The number of seconds in a day. -/
def secondsPerDay : ℕ := 86400

/-- `hh:mm:ss`. -/
def clockText (s : ℕ) : List Char :=
  decimal 2 (s / 3600) ++ ':' :: (decimal 2 (s / 60 % 60) ++ ':' :: decimal 2 (s % 60))

@[simp] theorem length_clockText (s : ℕ) : (clockText s).length = 8 := by simp [clockText]

/-- **Clock texts compare as seconds.** -/
theorem clockText_lt_iff {s t : ℕ} (hs : s < secondsPerDay) (ht : t < secondsPerDay) :
    clockText s < clockText t ↔ s < t := by
  rw [secondsPerDay] at hs ht
  rw [clockText, clockText, decimal_append_lt_iff (by omega) (by omega), cons_lt_cons_iff,
    decimal_append_lt_iff (by omega) (by omega), cons_lt_cons_iff,
      decimal_lt_iff (by omega) (by omega)]
  simp only [lt_self_iff_false, true_and, false_or]
  omega

end Calendar
