import Urgentry.Internal.SqlSum
import Urgentry.Sqlite.GroupStore

/-!
# The release health store

`release_health_store.go`: every session item becomes a row of `release_sessions`, and the health of
a release is a query that adds the rows up. The primary key is a fresh random id, which nothing here
reads, so a table is a list of rows and saving a session appends one.

The release itself is registered on the way; that is another table, and `ReleaseStore` has it.

The three counts of the summary by status differ from the session count only in the rows that they
add up. All four are `count` with a set of statuses.

## Main results

* `ReleaseHealthStore.getReleaseHealth_eq`: the summary of a release, when its number of sessions is
  a number of 64 bits, and `getReleaseHealth_overflow` for when it is not. -/

namespace Urgentry

open GoText SqlSum

/-- `ReleaseSession`, without its id. The attributes are a map. -/
structure ReleaseSession where
  (projectID release : String)
  environment : String := ""
  sessionID : String := ""
  distinctID : String := ""
  status : String := ""
  errors : ℤ := 0
  startedAt : Time := ⟨0⟩
  duration : ℚ := 0
  userAgent : String := ""
  attrs : List (String × String) := []
  quantity : ℤ := 0
  dateCreated : Time := ⟨0⟩
deriving DecidableEq

/-- A row of `release_sessions`. The column `attrs_json` holds the attributes. -/
structure SessionRow where
  (projectID releaseVersion environment : String)
  (sessionID distinctID : Option String)
  status : String
  errors : ℤ
  startedAt : Option String
  duration : ℚ
  userAgent : Option String
  attrs : List (String × String)
  quantity : ℤ
  createdAt : String
deriving DecidableEq

/-- `ReleaseHealthSummary`. -/
structure ReleaseHealthSummary where
  (projectID releaseVersion : String)
  sessionCount : ℤ := 0
  erroredSessions : ℤ := 0
  crashedSessions : ℤ := 0
  abnormalSessions : ℤ := 0
  affectedUsers : ℕ := 0
  crashFreeRate : ℚ
  lastSessionAt : Time := ⟨0⟩
deriving DecidableEq

/-- `crashFreeRate`. -/
def crashFreeRate (sessionCount crashed abnormal : ℤ) : ℚ :=
  if sessionCount ≤ 0 then 100
  else
    let bad := min (max (crashed + abnormal) 0) sessionCount
    (sessionCount - bad) / sessionCount * 100

namespace ReleaseHealthStore

/-- A status that is not given is `ok`. -/
def statusOrOk (status : String) : String := if status = "" then "ok" else status

/-- A quantity that is not positive is one. -/
def quantityOrOne (quantity : ℤ) : ℤ := if quantity ≤ 0 then 1 else quantity

variable (now : Time) (session : ReleaseSession)

/-- The row of a session that is saved at `now`, with the defaults. -/
def sessionRow : SessionRow where
  projectID := session.projectID
  releaseVersion := session.release
  environment := session.environment
  sessionID := nullable session.sessionID
  distinctID := nullable session.distinctID
  status := statusOrOk session.status
  errors := session.errors
  startedAt := if session.startedAt.ns = 0 then none else some session.startedAt.rfc3339
  duration := session.duration
  userAgent := nullable session.userAgent
  attrs := session.attrs
  quantity := quantityOrOne session.quantity
  createdAt := (if session.dateCreated.ns = 0 then now else session.dateCreated).rfc3339

variable (rows : List SessionRow)

/-- `SaveSession`. -/
def saveSession : Except String (List SessionRow) :=
  if session.projectID = "" ∨ trimSpace session.release = "" then
    .error "session project_id and release are required"
  else .ok (rows ++ [sessionRow now session])

/-- The row belongs to the release of the project. -/
def ofRelease (projectID releaseVersion : String) (r : SessionRow) : Bool :=
  r.projectID = projectID ∧ r.releaseVersion = releaseVersion

/-- `SUM(CASE WHEN status IN (...) THEN quantity ELSE 0 END)`. -/
def sumStatus (statuses : String → Bool) (rows : List SessionRow) : Except String ℤ :=
  match sumWhere SessionRow.quantity (fun r => statuses r.status) rows with
  | some n => .ok n
  | none => .error "query release health: integer overflow"

/-- `COUNT(DISTINCT CASE WHEN distinct_id IS NOT NULL AND distinct_id != '' THEN distinct_id
END)`. -/
def affectedUsers : ℕ :=
  ((rows.filterMap (·.distinctID)).filter (· ≠ "")).dedup.length

/-- `MAX(created_at)`. -/
def lastCreatedAt : String := (rows.map (·.createdAt)).foldl max ""

/-- `GetReleaseHealth`. `parseTime` reads a stored timestamp. -/
def getReleaseHealth (parseTime : String → Time) (projectID releaseVersion : String)
    (table : List SessionRow) : Except String ReleaseHealthSummary :=
  let rows := table.filter (ofRelease projectID releaseVersion)
  if rows = [] then .ok { projectID, releaseVersion, crashFreeRate := 100 }
  else do
    let sessionCount ← sumStatus (fun _ => true) rows
    let erroredSessions ← sumStatus (· = "errored") rows
    let crashedSessions ← sumStatus (· = "crashed") rows
    let abnormalSessions ← sumStatus (· = "abnormal") rows
    .ok {
      projectID
      releaseVersion
      sessionCount
      erroredSessions
      crashedSessions
      abnormalSessions
      affectedUsers := affectedUsers rows
      crashFreeRate := Urgentry.crashFreeRate sessionCount crashedSessions abnormalSessions
      lastSessionAt := parseTime (lastCreatedAt rows) }

/-! ## The four counts -/

/-- How many sessions of these statuses the rows count. -/
def count (statuses : String → Bool) (rows : List SessionRow) : ℤ :=
  weight SessionRow.quantity (fun r => statuses r.status) rows

/-- Every stored quantity is at least one, by the default. -/
theorem quantity_sessionRow_pos : 0 < (sessionRow now session).quantity := by
  show 0 < quantityOrOne session.quantity
  rw [quantityOrOne]
  split <;> omega

variable {projectID releaseVersion : String} {table : List SessionRow} (parseTime : String → Time)

/-- **The counts of the summary.** -/
theorem getReleaseHealth_eq (hpos : ∀ r ∈ table.filter (ofRelease projectID releaseVersion),
    0 < r.quantity)
    (hfits : count (fun _ => true) (table.filter (ofRelease projectID releaseVersion)) < 2 ^ 63) :
    ∃ summary, getReleaseHealth parseTime projectID releaseVersion table = .ok summary ∧
      summary.sessionCount =
        count (fun _ => true) (table.filter (ofRelease projectID releaseVersion)) ∧
      summary.erroredSessions =
        count (· = "errored") (table.filter (ofRelease projectID releaseVersion)) ∧
      summary.crashedSessions =
        count (· = "crashed") (table.filter (ofRelease projectID releaseVersion)) ∧
      summary.abnormalSessions =
        count (· = "abnormal") (table.filter (ofRelease projectID releaseVersion)) := by
  have hnonneg : ∀ r ∈ table.filter (ofRelease projectID releaseVersion), 0 ≤ r.quantity :=
    fun r hr => (hpos r hr).le
  have hsum : ∀ statuses, sumStatus statuses (table.filter (ofRelease projectID releaseVersion)) =
      .ok (count statuses (table.filter (ofRelease projectID releaseVersion))) := by
    intro statuses
    rw [sumStatus, sumWhere_eq hnonneg hfits, count]
  rw [getReleaseHealth]
  split
  · rename_i hnone
    simp only [hnone]
    exact ⟨_, rfl, rfl, rfl, rfl, rfl⟩
  · simp only [hsum]
    exact ⟨_, rfl, rfl, rfl, rfl, rfl⟩

theorem getReleaseHealth_overflow
    (hpos : ∀ r ∈ table.filter (ofRelease projectID releaseVersion), 0 < r.quantity)
    (hfits : ¬count (fun _ => true) (table.filter (ofRelease projectID releaseVersion)) < 2 ^ 63) :
    ∃ err, getReleaseHealth parseTime projectID releaseVersion table = .error err := by
  have hnonneg : ∀ r ∈ table.filter (ofRelease projectID releaseVersion), 0 ≤ r.quantity :=
    fun r hr => (hpos r hr).le
  have hsum : sumStatus (fun _ => true) (table.filter (ofRelease projectID releaseVersion)) =
      .error "query release health: integer overflow" := by
    rw [sumStatus, sumWhere_true_eq_none hnonneg hfits]
  rw [getReleaseHealth]
  split
  · rename_i hnone
    rw [hnone] at hfits
    exact absurd (by decide) hfits
  · simp only [hsum]
    exact ⟨_, rfl⟩

end ReleaseHealthStore

end Urgentry
