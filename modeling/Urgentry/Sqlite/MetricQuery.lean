import Urgentry.Sqlite.EventStore

/-!
# Counting the events of an alert window

`CountEvents` is the query behind the error-count metric of an alert rule: the number of error
events of a project, in one environment or in all, that were ingested since the start of the
window. The start is written by Go and compared as text with `ingested_at`, which SQLite wrote, so
what the query counts are the events of the days *after* the day on which the window starts
(`countEvents_saveAll`). A window that starts today counts nothing.

The count is right exactly when no matching event was ingested on the first day of the window at or
after its start (`countEvents_exact_iff`).
-/

namespace Urgentry

open SqlTable List Function

/-- `MetricQueryEngine.CountEvents`. A `NULL` timestamp compares as false. -/
def countEvents (events : Table EventRow) (projectId : String) (since : Time)
    (environment : String) : ℕ :=
  let sinceStr := since.rfc3339
  if environment ≠ "" then
    events.rows.countP fun r => r.projectId == projectId && r.eventType == "error"
      && r.ingestedAt.any (sinceStr ≤ ·) && r.environment == some environment
  else
    events.rows.countP fun r => r.projectId == projectId && r.eventType == "error"
      && r.ingestedAt.any (sinceStr ≤ ·)

/-- The error events that an alert rule on a project and an environment is about. The empty
environment stands for all of them. -/
def Save.MatchesRule (s : Save) (projectId environment : String) : Bool :=
  s.evt.projectId == projectId && s.evt.storedType == "error"
    && (environment == "" || s.evt.environment == environment)

/-- **What the query counts**: the matching events whose ingestion day is after the day of
`since`. -/
theorem countEvents_saveAll (history : List Save) (projectId environment : String) {since : Time}
    (hsince : since.Writable) :
    countEvents (saveAll history) projectId since environment = (stored history).countP fun s =>
        s.MatchesRule projectId environment && decide (since.day < s.instant.day) := by
  have htext : ∀ s : Save,
      (some s.instant.datetime).any (since.rfc3339 ≤ ·) =
        decide (since.day < s.instant.day) := fun s => by
    rw [Option.any_some, decide_eq_decide, ← not_lt,
      Time.datetime_lt_rfc3339_iff s.instant.writable hsince, not_le]
  unfold countEvents
  rw [rows_saveAll]
  split_ifs with henv
  · rw [countP_map]
    refine countP_congr fun s _ => ?_
    simp only [comp_apply, Save.MatchesRule, Save.row, StoredEvent.row]
    grind
  · rw [countP_map]
    refine countP_congr fun s _ => ?_
    simp only [comp_apply, Save.MatchesRule, Save.row, StoredEvent.row]
    grind

/-- A narrower test counts as much as a wider one when every item with the wider test has the
narrower one. -/
theorem countP_eq_countP_iff {α : Type*} {p q : α → Bool} {l : List α}
    (h : ∀ x ∈ l, p x → q x) : l.countP p = l.countP q ↔ ∀ x ∈ l, q x → p x := by
  induction l with
  | nil => simp
  | cons a l ih =>
    have hl : ∀ x ∈ l, p x → q x := fun x hx => h x (mem_cons_of_mem a hx)
    have hle : l.countP p ≤ l.countP q := countP_mono_left hl
    have ha := h a mem_cons_self
    rw [forall_mem_cons, ← ih hl]
    rcases hp : p a <;> rcases hq : q a <;> simp only [hp] at ha ⊢ <;> grind

/-- **When the count is right.** The property on the left is the count to the second; it fails
for a matching event that was ingested inside the window on the window's first day. -/
theorem countEvents_exact_iff (history : List Save) (projectId environment : String) {since : Time}
    (hsince : since.Writable) :
    countEvents (saveAll history) projectId since environment = (stored history).countP (fun s =>
          s.MatchesRule projectId environment && decide (since.secs ≤ s.instant.secs)) ↔
      ∀ s ∈ stored history, s.MatchesRule projectId environment → since.secs ≤ s.instant.secs →
        s.instant.day ≠ since.day := by
  rw [countEvents_saveAll history projectId environment hsince, countP_eq_countP_iff]
  · refine forall₂_congr fun s _ => ?_
    have hday : since.secs ≤ s.instant.secs → since.day ≤ s.instant.day := Time.day_le_of_secs_le
    simp only [Bool.and_eq_true, decide_eq_true_eq]
    constructor
    · intro h hmatch hsecs
      exact Nat.ne_of_gt (h ⟨hmatch, hsecs⟩).2
    · rintro h ⟨hmatch, hsecs⟩
      exact ⟨hmatch, Nat.lt_of_le_of_ne (hday hsecs) (h hmatch hsecs).symm⟩
  · intro s _
    simp only [Bool.and_eq_true, decide_eq_true_eq]
    rintro ⟨hmatch, hday⟩
    exact ⟨hmatch, Nat.le_of_lt ((Time.secs_lt_iff _ _).mpr (.inl hday))⟩

/-! ## A half-hour window -/

/-- The day `2026-03-29`, at a number of seconds after midnight. -/
def sunday (seconds : ℕ) : Time := ⟨(739703 * 86400 + seconds) * 10 ^ 9⟩

/-- An error event of project `p`, ingested on that day at 14:00:00. -/
def sundayEvent : Save where
  evt := { id := "1", projectId := "p", eventId := "e" }
  instant := ⟨sunday (14 * 3600), by decide, by decide⟩

/-- The window from 13:30:00 misses the event, although it was ingested half an hour later. -/
theorem countEvents_misses :
    countEvents (saveAll [sundayEvent]) "p" (sunday (13 * 3600 + 1800)) "" = 0 ∧
      (stored [sundayEvent]).countP (fun s =>
        s.MatchesRule "p" "" && decide
          ((sunday (13 * 3600 + 1800)).secs ≤ s.instant.secs)) = 1 := by
  refine ⟨?_, by decide⟩
  rw [countEvents_saveAll _ _ _ (by decide)]
  decide

/-- A window that starts on the day before is counted in full. -/
theorem countEvents_exact_previous_day :
    countEvents (saveAll [sundayEvent]) "p" ⟨739702 * 86400 * 10 ^ 9⟩ "" =
      (stored [sundayEvent]).countP (fun s =>
        s.MatchesRule "p" "" && decide
          ((⟨739702 * 86400 * 10 ^ 9⟩ : Time).secs ≤ s.instant.secs)) :=
  (countEvents_exact_iff [sundayEvent] "p" "" (by decide)).mpr (by decide)

end Urgentry
