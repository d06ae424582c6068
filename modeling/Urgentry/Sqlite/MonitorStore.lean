import Urgentry.GoLib
import Urgentry.Sqlite.GroupStore
import Mathlib.Data.List.Sort

/-!
# The monitor store

`monitor_store.go` and the first half of `monitor_cron.go`. A monitor expects check-ins by a
schedule. Each check-in moves the time at which the next one is due, and a monitor that is overdue
gets a check-in with the status `missed` and a new due time.

`SaveCheckIn` is one transaction: it looks the monitor up or creates it, inserts the check-in unless
its id is known, and updates the monitor. The statements of `MarkMissed` are here one by one; how
they interleave with check-ins is another matter.

The columns of a monitor that repeat its configuration are not read by anything and are left out,
and the configuration is kept as `decodeMonitorConfig` reads it. A time column is kept as the time
that was written, and `Time.readBack` is what a query reads.

`nextCronOccurrence` and `time.AddDate` are parameters (`ScheduleLib`): nothing here depends on
them. -/

namespace Urgentry

open SqlTable GoText List Schema Table

/-! ## Data -/

/-- `MonitorSchedule`. -/
structure MonitorSchedule where
  kind : String := ""
  value : Int64 := 0
  unit : String := ""
  crontab : String := ""
deriving DecidableEq

/-- `MonitorConfig`. -/
structure MonitorConfig where
  schedule : MonitorSchedule := {}
  checkInMargin : ℤ := 0
  maxRuntime : ℤ := 0
  timezone : String := ""
deriving DecidableEq

/-- The status of a monitor. -/
inductive MonitorStatus
  | active
  | disabled
deriving DecidableEq

/-- The status of a check-in. -/
inductive CheckInStatus
  | ok
  | inProgress
  | error
  | missed
deriving DecidableEq

/-- A row of `monitors`. -/
structure MonitorRow where
  (id projectID slug : String)
  status : MonitorStatus
  environment : Option String
  config : MonitorConfig
  lastCheckInID : Option String
  lastStatus : Option CheckInStatus
  (lastCheckInAt nextCheckInAt : Option Time)
  (createdAt updatedAt : Time)
deriving DecidableEq

instance : Schema MonitorRow where
  conflict r s := r.id = s.id || (r.projectID = s.projectID && r.slug = s.slug)
  conflict_comm r s := by
    simp only [eq_comm (a := r.id), eq_comm (a := r.projectID), eq_comm (a := r.slug)]

/-- A row of `monitor_checkins`. -/
structure CheckInRow where
  (id monitorID projectID checkInID monitorSlug : String)
  status : CheckInStatus
  duration : Rat
  (release environment : Option String)
  scheduledFor : Option Time
  payloadJSON : String
  createdAt : Time
deriving DecidableEq

instance : Schema CheckInRow where
  conflict r s := r.id = s.id || (r.projectID = s.projectID && r.checkInID = s.checkInID)
  conflict_comm r s := by
    simp only [eq_comm (a := r.id), eq_comm (a := r.projectID), eq_comm (a := r.checkInID)]

/-- The two tables. -/
structure MonitorDb where
  monitors : Table MonitorRow
  checkIns : Table CheckInRow

/-- `Monitor`, as far as the two functions read it. -/
structure Monitor where
  (id projectID slug environment : String)
  config : MonitorConfig
  nextCheckInAt : Time
deriving DecidableEq

/-- `MonitorCheckIn`, as `SaveCheckIn` gets it, with the configuration that may come along. -/
structure CheckIn where
  id : String := ""
  checkInID : String := ""
  (projectID monitorSlug : String)
  status : String := ""
  duration : Rat := 0
  release : String := ""
  environment : String := ""
  scheduledFor : Time := ⟨0⟩
  payloadJSON : String := ""
  dateCreated : Time
  config : Option MonitorConfig := none
deriving DecidableEq

/-! ## Schedules -/

/-- `nextCronOccurrence` and `time.AddDate`. -/
structure ScheduleLib where
  /-- `nextCronOccurrence(after, expr, timezone)`; the zero time if there is none. -/
  cron : Time → String → String → Time
  /-- `t.AddDate(years, months, days)`. -/
  addDate : Time → ℤ → ℤ → ℤ → Time

section Schedules

variable (go : GoLib) (lib : ScheduleLib)

/-- `firstNonEmpty`. -/
def firstNonEmpty (a b : String) : String :=
  if trimSpace a ≠ "" then trimSpace a else trimSpace b

/-- The kind of a schedule that does not name one. -/
def MonitorSchedule.kindOrDefault (s : MonitorSchedule) : String :=
  if s.kind ≠ "" then s.kind
  else if s.crontab ≠ "" then "crontab"
  else if s.value > 0 then "interval"
  else ""

/-- The texts of a schedule, trimmed and in lower case. -/
def MonitorSchedule.trimmed (s : MonitorSchedule) : MonitorSchedule where
  kind := go.canonical s.kind
  value := s.value
  unit := go.canonical s.unit
  crontab := trimSpace s.crontab

/-- `normalizeMonitorConfig`. -/
def normalizeMonitorConfig (cfg : MonitorConfig) : MonitorConfig where
  schedule := { cfg.schedule.trimmed go with kind := (cfg.schedule.trimmed go).kindOrDefault }
  checkInMargin := cfg.checkInMargin
  maxRuntime := cfg.maxRuntime
  timezone := firstNonEmpty cfg.timezone "UTC"

/-- `time.Minute`. -/
def minute : Duration := 60000000000

/-- `addInterval`. -/
def addInterval (base : Time) (value : Int64) (unit : String) : Time :=
  let unit := go.canonical unit
  if value ≤ 0 then ⟨0⟩
  else if unit = "minute" ∨ unit = "minutes" then base.add (value * minute)
  else if unit = "hour" ∨ unit = "hours" then base.add (value * (60 * minute))
  else if unit = "day" ∨ unit = "days" then lib.addDate base 0 0 value.toInt
  else if unit = "week" ∨ unit = "weeks" then lib.addDate base 0 0 (7 * value).toInt
  else if unit = "month" ∨ unit = "months" then lib.addDate base 0 value.toInt 0
  else ⟨0⟩

/-- `computeNextCheckIn`, with the clock reading that replaces a zero time. -/
def computeNextCheckIn (now base : Time) (cfg : MonitorConfig) : Time :=
  let cfg := normalizeMonitorConfig go cfg
  let base := if base = ⟨0⟩ then now else base
  if cfg.schedule.kind = "interval" then
    addInterval go lib base cfg.schedule.value cfg.schedule.unit
  else if cfg.schedule.kind = "crontab" then lib.cron base cfg.schedule.crontab cfg.timezone
  else ⟨0⟩

/-- The condition under which the loop of `advancePast` ends. -/
def advanced (next now : Time) : Bool := next = ⟨0⟩ || now.ns < next.ns

end Schedules

/-! ## Queries and statements -/

section Statements

variable (go : GoLib) (lib : ScheduleLib)

/-- `normalizeCheckInStatus`. -/
def normalizeCheckInStatus (status : String) : CheckInStatus :=
  let status := go.canonical status
  if status = "" ∨ status = "ok" then .ok
  else if status = "in_progress" then .inProgress
  else if status = "error" then .error
  else if status = "missed" then .missed
  else .error

/-- `normalizeEnvironment`. -/
def normalizeEnvironment (env : String) : String :=
  if trimSpace env = "" then "production" else trimSpace env

/-- `nullIfTime`. -/
def nullIfTime (t : Time) : Option Time := if t = ⟨0⟩ then none else some t

/-- A text that is replaced when it is empty. -/
def orNew (s new : String) : String := if s = "" then new else s

variable (row : MonitorRow)

/-- `scanMonitor`. -/
def scanMonitor : Monitor where
  id := row.id
  projectID := row.projectID
  slug := row.slug
  environment := row.environment.getD ""
  config := normalizeMonitorConfig go row.config
  nextCheckInAt := (row.nextCheckInAt.map Time.readBack).getD ⟨0⟩

/-- The row that `ensureMonitor` inserts. -/
def newMonitorRow (newID projectID slug : String) (now : Time) : MonitorRow where
  id := newID
  projectID := projectID
  slug := slug
  status := .active
  environment := none
  config := { timezone := "UTC" }
  lastCheckInID := none
  lastStatus := none
  lastCheckInAt := none
  nextCheckInAt := none
  createdAt := now
  updatedAt := now

/-- `ensureMonitor`. -/
def ensureMonitor (newID projectID slug : String) (now : Time) (t : Table MonitorRow) :
    Option (MonitorRow × Table MonitorRow) :=
  match t.rows.find? fun r => r.projectID = projectID ∧ r.slug = slug with
  | some row => some (row, t)
  | none => (t.insert (newMonitorRow newID projectID slug now)).map
      fun t' => (newMonitorRow newID projectID slug now, t')

/-- What a check-in sets in the row of its monitor. -/
structure CheckInColumns where
  environment : Option String
  config : MonitorConfig
  lastCheckInID : Option String
  lastStatus : CheckInStatus
  (lastCheckInAt nextCheckInAt : Option Time)
  updatedAt : Time
deriving DecidableEq

/-- The row after a check-in. -/
def MonitorRow.withCheckIn (c : CheckInColumns) : MonitorRow :=
  { row with
    environment := c.environment
    config := c.config
    lastCheckInID := c.lastCheckInID
    lastStatus := some c.lastStatus
    lastCheckInAt := c.lastCheckInAt
    nextCheckInAt := c.nextCheckInAt
    updatedAt := c.updatedAt }

/-- The row after a missed check-in. -/
def MonitorRow.withMissed (checkInID : String) (now next : Time) : MonitorRow :=
  { row with
    lastCheckInID := some checkInID
    lastStatus := some .missed
    lastCheckInAt := some now
    nextCheckInAt := nullIfTime next
    updatedAt := now }

/-- `UPDATE monitors SET … WHERE id = ?`, for columns outside the keys. -/
def updateMonitor (id : String) (f : MonitorRow → MonitorRow)
    (hf : ∀ s u, Schema.conflict (f s) u = Schema.conflict s u) (t : Table MonitorRow) :
    Table MonitorRow :=
  t.map (fun s => if s.id = id then f s else s) fun s u => by
    split
    · exact hf s u
    · rfl

/-- The ids that are generated in a call, and a reading of the clock. -/
structure Generated where
  (monitorID checkInID rowID : String)
  now : Time
deriving DecidableEq

/-- The configuration that a check-in brings, or else that of the monitor. -/
def checkInConfig (c : CheckIn) (monitor : Monitor) : MonitorConfig :=
  (c.config.map (normalizeMonitorConfig go)).getD monitor.config

variable (gen : Generated) (c : CheckIn) (monitor : Monitor)

/-- What `SaveCheckIn` sets, for the monitor that it has found. -/
def checkInColumns : CheckInColumns where
  environment := nullable (normalizeEnvironment (firstNonEmpty c.environment monitor.environment))
  config := normalizeMonitorConfig go (checkInConfig go c monitor)
  lastCheckInID := nullable (orNew c.checkInID gen.checkInID)
  lastStatus := normalizeCheckInStatus go c.status
  lastCheckInAt := nullIfTime c.dateCreated
  nextCheckInAt :=
    nullIfTime (computeNextCheckIn go lib gen.now c.dateCreated (checkInConfig go c monitor))
  updatedAt := gen.now

/-- The row of a check-in. -/
def checkInRow : CheckInRow where
  id := orNew c.id gen.rowID
  monitorID := monitor.id
  projectID := c.projectID
  checkInID := orNew c.checkInID gen.checkInID
  monitorSlug := c.monitorSlug
  status := normalizeCheckInStatus go c.status
  duration := c.duration
  release := nullable c.release
  environment := nullable (normalizeEnvironment (firstNonEmpty c.environment monitor.environment))
  scheduledFor := nullIfTime c.scheduledFor
  payloadJSON := if c.payloadJSON = "" then "\x7b\x7d" else c.payloadJSON
  createdAt := c.dateCreated

@[simp]
theorem conflict_withCheckIn (c : CheckInColumns) (s u : MonitorRow) :
    conflict (s.withCheckIn c) u = conflict s u := rfl

@[simp]
theorem conflict_withMissed (checkInID : String) (now next : Time) (s u : MonitorRow) :
    conflict (s.withMissed checkInID now next) u = conflict s u := rfl

/-- The check-in with its date; a zero time is replaced by the clock. -/
def CheckIn.dated : CheckIn :=
  if c.dateCreated = ⟨0⟩ then { c with dateCreated := gen.now } else c

/-- The tables after the transaction of a check-in. -/
def commitCheckIn (row : MonitorRow) (monitors : Table MonitorRow)
    (checkIns : Table CheckInRow) : MonitorDb where
  monitors :=
    updateMonitor row.id (·.withCheckIn (checkInColumns go lib gen c (scanMonitor go row)))
    (conflict_withCheckIn _) monitors
  checkIns := checkIns.insertOrIgnore (checkInRow go gen c (scanMonitor go row))

/-- The errors of `SaveCheckIn`. -/
inductive CheckInError
  /-- `check-in project_id is required` -/
  | noProject
  /-- `check-in monitor_slug is required` -/
  | noSlug
  /-- A statement has failed, and the transaction is rolled back. -/
  | failed
deriving DecidableEq

/-- `SaveCheckIn`, with the id of the monitor and the columns that it sets. -/
def saveCheckIn (db : MonitorDb) : Except CheckInError (String × CheckInColumns × MonitorDb) :=
  if trimSpace c.projectID = "" then .error .noProject
  else if trimSpace c.monitorSlug = "" then .error .noSlug
  else match ensureMonitor gen.monitorID c.projectID c.monitorSlug gen.now db.monitors with
    | none => .error .failed
    | some (row, monitors) =>
      .ok (row.id, checkInColumns go lib gen (c.dated gen) (scanMonitor go row),
        commitCheckIn go lib gen (c.dated gen) row monitors db.checkIns)

/-- The text of `next_checkin_at` is not after that of the time. -/
def MonitorRow.isDue (row : MonitorRow) (now : Time) : Bool :=
  row.status = .active && row.nextCheckInAt.any fun t => t.rfc3339 ≤ now.rfc3339

variable (now : Time)

/-- The monitors that `MarkMissed` selects. -/
def dueRows (db : MonitorDb) : List MonitorRow :=
  ((db.monitors.rows.filter fun row => row.isDue now).insertionSort fun r s =>
    (r.nextCheckInAt.map Time.rfc3339).getD "" ≤ (s.nextCheckInAt.map Time.rfc3339).getD "").filter
      fun row => (scanMonitor go row).nextCheckInAt ≠ ⟨0⟩

/-- The row of a missed check-in. -/
def missedRow : CheckInRow where
  id := gen.rowID
  monitorID := monitor.id
  projectID := monitor.projectID
  checkInID := gen.checkInID
  monitorSlug := monitor.slug
  status := .missed
  duration := 0
  release := none
  environment := nullable monitor.environment
  scheduledFor := some monitor.nextCheckInAt
  payloadJSON := "\x7b\x7d"
  createdAt := now

/-- The `INSERT` of `MarkMissed`. -/
def insertMissed (db : MonitorDb) : Option MonitorDb :=
  (db.checkIns.insert (missedRow gen monitor now)).map fun checkIns => { db with checkIns }

/-- The `UPDATE` of `MarkMissed`. -/
def updateMissed (monitorID checkInID : String) (now next : Time) (db : MonitorDb) : MonitorDb :=
  { db with
    monitors := updateMonitor monitorID (·.withMissed checkInID now next)
      (conflict_withMissed checkInID now next) db.monitors }

end Statements

/-! ## What the statements do to the monitors -/

section Effects

variable {go : GoLib} {lib : ScheduleLib} {t t' : Table MonitorRow} {db db' : MonitorDb}
  {row : MonitorRow} {id checkInID : String} {f : MonitorRow → MonitorRow} {now : Time}
  {gen : Generated}

theorem mem_updateMonitor (hf : ∀ s u, conflict (f s) u = conflict s u) :
    row ∈ updateMonitor id f hf t ↔ (row ∈ t ∧ row.id ≠ id) ∨ ∃ s ∈ t, s.id = id ∧ row = f s := by
  have hmem : row ∈ updateMonitor id f hf t ↔ ∃ s ∈ t, (if s.id = id then f s else s) = row :=
    mem_map
  rw [hmem]
  constructor
  · rintro ⟨s, hs, heq⟩
    split_ifs at heq with hid
    · exact .inr ⟨s, hs, hid, heq.symm⟩
    · subst heq
      exact .inl ⟨hs, hid⟩
  · rintro (⟨hrow, hid⟩ | ⟨s, hs, hid, rfl⟩)
    · exact ⟨row, hrow, if_neg hid⟩
    · exact ⟨s, hs, if_pos hid⟩

/-- The due time and the status of one monitor are set, and the other monitors are left alone. -/
structure SetsDue (id : String) (next : Option Time) (status : CheckInStatus)
    (t t' : Table MonitorRow) : Prop where
  others : ∀ row : MonitorRow, row.id ≠ id → (row ∈ t' ↔ row ∈ t)
  exists_row : ∃ row ∈ t', row.id = id
  shown : ∀ row ∈ t', row.id = id → row.nextCheckInAt = next ∧ row.lastStatus = some status

/-- An update that sets the due time and the status. -/
theorem setsDue_updateMonitor (hf : ∀ s u, conflict (f s) u = conflict s u)
    {next : Option Time} {status : CheckInStatus} (hid : ∀ s, (f s).id = s.id)
    (hset : ∀ s, (f s).nextCheckInAt = next ∧ (f s).lastStatus = some status)
    (hrow : ∃ row ∈ t, row.id = id) : SetsDue id next status t (updateMonitor id f hf t) := by
  refine ⟨?_, ?_, ?_⟩
  · intro row hne
    rw [mem_updateMonitor hf]
    constructor
    · rintro (⟨hmem, -⟩ | ⟨s, -, hs, rfl⟩)
      · exact hmem
      · exact absurd ((hid s).trans hs) hne
    · exact fun hmem => .inl ⟨hmem, hne⟩
  · obtain ⟨row, hmem, hrow⟩ := hrow
    exact ⟨f row, (mem_updateMonitor hf).mpr (.inr ⟨row, hmem, hrow, rfl⟩), (hid row).trans hrow⟩
  · intro row hmem hrow
    rcases (mem_updateMonitor hf).mp hmem with ⟨-, hne⟩ | ⟨s, -, -, rfl⟩
    · exact absurd hrow hne
    · exact hset s

/-- `ensureMonitor` leaves the other monitors alone. -/
theorem ensureMonitor_spec {newID projectID slug : String}
    (h : ensureMonitor newID projectID slug now t = some (row, t')) :
    row ∈ t' ∧ ∀ s : MonitorRow, s.id ≠ row.id → (s ∈ t' ↔ s ∈ t) := by
  unfold ensureMonitor at h
  split at h
  next found hfound =>
    cases h
    exact ⟨mem_of_find?_eq_some hfound, fun _ _ => Iff.rfl⟩
  next =>
    obtain ⟨u, hu, heq⟩ := Option.map_eq_some_iff.mp h
    cases heq
    refine ⟨mem_of_insert_self hu, fun s hs => ?_⟩
    rw [mem_def, (insert_eq_some_iff.mp hu).2, mem_append, mem_singleton]
    refine or_iff_left fun hnew => hs ?_
    rw [hnew]

theorem setsDue_withCheckIn (columns : CheckInColumns) (hrow : ∃ row ∈ t, row.id = id) :
    SetsDue id columns.nextCheckInAt columns.lastStatus t
      (updateMonitor id (·.withCheckIn columns) (conflict_withCheckIn columns) t) :=
  setsDue_updateMonitor (conflict_withCheckIn columns) (fun _ => rfl) (fun _ => ⟨rfl, rfl⟩) hrow

/-- **A check-in** sets the due time and the status of its monitor. -/
theorem setsDue_saveCheckIn {c : CheckIn} {columns : CheckInColumns}
    (h : saveCheckIn go lib gen c db = .ok (id, columns, db')) :
    SetsDue id columns.nextCheckInAt columns.lastStatus db.monitors db'.monitors := by
  unfold saveCheckIn at h
  split at h
  next => cases h
  next =>
    split at h
    next => cases h
    next =>
      split at h
      next => cases h
      next row monitors hensure =>
        rw [Except.ok.injEq, Prod.mk.injEq, Prod.mk.injEq] at h
        rw [← h.1, ← h.2.1, ← h.2.2]
        obtain ⟨hrow, hothers⟩ := ensureMonitor_spec hensure
        have hset := setsDue_withCheckIn
          (checkInColumns go lib gen (c.dated gen) (scanMonitor go row)) ⟨row, hrow, rfl⟩
        exact ⟨fun s hs => (hset.others s hs).trans (hothers s hs), hset.exists_row, hset.shown⟩

/-- **A missed check-in** sets the due time and the status of its monitor. -/
theorem setsDue_updateMissed {next : Time} (hrow : ∃ row ∈ db.monitors, row.id = id) :
    SetsDue id (nullIfTime next) .missed db.monitors
      (updateMissed id checkInID now next db).monitors :=
  setsDue_updateMonitor (conflict_withMissed checkInID now next) (fun _ => rfl)
    (fun _ => ⟨rfl, rfl⟩) hrow

/-- A missed check-in leaves the configuration alone. -/
theorem config_updateMissed {next : Time} (hrow : row ∈ db.monitors) :
    ∃ row' ∈ (updateMissed id checkInID now next db).monitors,
      row'.id = row.id ∧ row'.config = row.config := by
  have hmem := fun row' => @mem_updateMonitor db.monitors row' id _
    (conflict_withMissed checkInID now next)
  by_cases hid : row.id = id
  · exact ⟨_, (hmem _).mpr (.inr ⟨row, hrow, hid, rfl⟩), rfl, rfl⟩
  · exact ⟨row, (hmem _).mpr (.inl ⟨hrow, hid⟩), rfl, rfl⟩

theorem monitors_insertMissed {monitor : Monitor} (h : insertMissed gen monitor now db = some db') :
    db'.monitors = db.monitors := by
  obtain ⟨checkIns, -, rfl⟩ := Option.map_eq_some_iff.mp h
  rfl

/-- The rows that a pass selects are rows of the table. -/
theorem mem_of_dueRows (h : row ∈ dueRows go now db) :
    row ∈ db.monitors ∧ row.isDue now = true := by
  rw [dueRows, mem_filter, mem_insertionSort, mem_filter] at h
  exact h.1

end Effects

end Urgentry
