import Urgentry.GoLib
import Urgentry.Internal.SqlTable
import Mathlib.Data.List.MinMax

/-!
# The append-only event queue

Ingested events are appended to `ingest_log`, whose sequence numbers come from an `AUTOINCREMENT`
column. What was consumed is one number, `last_seq` of `ingest_consumers`. An event whose processing
failed stays in the log and gets a row in `ingest_retries` that says from when on it may be claimed
again. Other kinds of jobs go to a second queue, which stays abstract (`Fallback`).
-/

namespace Urgentry

open SqlTable List Schema Table GoText

/-- `runtimeasync.Job`. -/
structure Job where
  (id kind projectId : String)
  payload : List UInt8
  attempts : ℤ
  createdAt : Time
deriving DecidableEq

/-- A row of `ingest_log`. -/
structure LogRow where
  seq : ℤ
  (projectId kind : String)
  payload : List UInt8
  createdAt : String
deriving DecidableEq

/-- A row of `ingest_consumers`. -/
structure ConsumerRow where
  consumer : String
  lastSeq : ℤ
  updatedAt : String
deriving DecidableEq

/-- A row of `ingest_retries`. -/
structure RetryRow where
  (seq attempts : ℤ)
  (availableAt lastError updatedAt : String)
deriving DecidableEq

instance : Schema LogRow := .ofKey LogRow.seq
instance : Schema ConsumerRow := .ofKey ConsumerRow.consumer
instance : Schema RetryRow := .ofKey RetryRow.seq

/-- The tables of the queue. `sequence` is the entry of `ingest_log` in `sqlite_sequence`: the
largest number that was ever given out. -/
structure QueueDB where
  log : Table LogRow
  sequence : ℤ
  consumers : Table ConsumerRow
  retries : Table RetryRow
  /-- The numbers in the log were given out. -/
  given : ∀ r ∈ log, 0 < r.seq ∧ r.seq ≤ sequence
  /-- A number given out fits in 64 bits. -/
  range : 0 ≤ sequence ∧ sequence < 2 ^ 63

/-- A new database. -/
def QueueDB.empty : QueueDB where
  log := .empty
  sequence := 0
  consumers := .empty
  retries := .empty
  given := nofun
  range := by decide

/-- `appendOnlyEventConsumer`. -/
def appendOnlyEventConsumer : String := "event"

/-- `JobKindEvent`. -/
def jobKindEvent : String := "event"

/-- `appendOnlyJobPrefix`. -/
def appendOnlyJobPrefix : String := "ilog:"

/-- `appendOnlyTrimInterval`. -/
def appendOnlyTrimInterval : ℤ := 256

/-! ## Job ids -/

/-- The id of a job from the log. -/
def appendOnlyJobID (seq : ℤ) : String := appendOnlyJobPrefix ++ toString seq

/-- `parseAppendOnlySeq`. -/
def parseAppendOnlySeq (jobID : String) : Option ℤ :=
  (appendOnlyJobPrefix.toList.isPrefixOf? jobID.toList).bind GoText.parseInt

theorem parseAppendOnlySeq_appendOnlyJobID {seq : ℤ} (hpos : 0 ≤ seq) (hlt : seq < 2 ^ 63) :
    parseAppendOnlySeq (appendOnlyJobID seq) = some seq := by
  obtain ⟨n, rfl⟩ := Int.eq_ofNat_of_zero_le hpos
  have htext : (appendOnlyJobID n).toList = appendOnlyJobPrefix.toList ++ Nat.toDigits 10 n := by
    rw [appendOnlyJobID, String.toList_append, show toString (n : ℤ) = n.repr from rfl,
      Nat.toList_repr]
  rw [parseAppendOnlySeq, htext]
  exact parseInt_toDigits (by omega)

/-! ## Statements on the tables -/

namespace QueueDB

variable (db : QueueDB)

/-- `COALESCE((SELECT last_seq FROM ingest_consumers WHERE consumer = ?), 0)`. -/
def lastSeq : ℤ :=
  ((db.consumers.rows.find? fun c => c.consumer = appendOnlyEventConsumer).map (·.lastSeq)).getD 0

/-- `COALESCE(MAX(seq), 0)` of `ingest_log`, whose numbers are positive. -/
def maxSeq : ℤ := (db.log.rows.map (·.seq)).foldr max 0

/-- `appendOnlyBacklog`. -/
def backlog : ℤ := db.maxSeq - db.lastSeq

variable (now : Time)

/-- The row that an insertion into `ingest_log` adds. -/
def newRow (projectID : String) (payload : List UInt8) : LogRow where
  seq := db.sequence + 1
  projectId := projectID
  kind := jobKindEvent
  payload := payload
  createdAt := now.rfc3339

/-- `INSERT INTO ingest_log`. It fails when the numbers are used up. -/
def append (projectID : String) (payload : List UInt8) (db : QueueDB) : Option QueueDB :=
  if h : db.sequence + 1 < 2 ^ 63 then
    some { db with
      log := db.log.append (db.newRow now projectID payload) (by
        rw [Table.clashes_eq_false]
        intro r hr
        have hgiven := db.given r hr
        simp only [Schema.conflict, newRow, beq_eq_false_iff_ne, ne_eq]
        omega)
      sequence := db.sequence + 1
      given := by
        intro r hr
        rcases List.mem_append.mp hr with hr | hr
        · have hgiven := db.given r hr
          omega
        · rw [List.mem_singleton.mp hr]
          have hrange := db.range
          simp only [newRow]
          omega
      range := by
        have hrange := db.range
        omega }
  else none

/-- `r.available_at IS NULL OR r.available_at <= ?`, for the retry of a row of the log. -/
def available (row : LogRow) : Bool :=
  (db.retries.rows.find? fun r => r.seq = row.seq).all fun r => r.availableAt ≤ now.rfc3339

-- The order by which the rows are compared, so that the query computes whatever else is known of
-- `ℤ`.
local instance : Preorder ℤ := Int.instLinearOrder.toPreorder

/-- The row that the query of `ClaimNext` selects. -/
def next : Option LogRow :=
  (db.log.rows.filter fun row => db.lastSeq < row.seq ∧ db.available now row).argmin (·.seq)

/-- `COALESCE(r.attempts, 0)`, for the retry of a row of the log. -/
def attempts (row : LogRow) : ℤ :=
  ((db.retries.rows.find? fun r => r.seq = row.seq).map (·.attempts)).getD 0

variable (seq : ℤ) (db : QueueDB)

/-- The first statement of `MarkDone`. -/
def advance : QueueDB :=
  let raised (c : ConsumerRow) : ConsumerRow :=
    { c with lastSeq := if seq > c.lastSeq then seq else c.lastSeq, updatedAt := now.rfc3339 }
  let row : ConsumerRow := ⟨appendOnlyEventConsumer, seq, now.rfc3339⟩
  { db with consumers := db.consumers.upsertKey row raised fun _ _ => rfl }

/-- The last two statements of `MarkDone`. -/
def trim : QueueDB :=
  { db with
    log := db.log.deleteWhere (·.seq ≤ seq)
    retries := db.retries.deleteWhere (·.seq ≤ seq)
    given := fun r hr => db.given r (List.mem_filter.mp hr).1 }

/-- `MarkDone` on the number of a job. -/
def markDone : QueueDB :=
  let db := db.advance now seq
  let db := { db with retries := db.retries.deleteWhere (·.seq = seq) }
  if seq % appendOnlyTrimInterval ≠ 0 then db else db.trim seq

/-- The delay that `Requeue` uses. -/
def requeueDelay (delay : Duration) : Duration := if delay ≤ 0 then 1000000000 else delay

/-- `Requeue` on the number of a job. -/
def requeue (now : Instant) (seq : ℤ) (delay : Duration) (lastError : String) (db : QueueDB) :
    QueueDB :=
  let availableAt := (now.add (requeueDelay delay)).rfc3339
  let again (r : RetryRow) :
    RetryRow := ⟨r.seq, r.attempts + 1, availableAt, lastError, now.rfc3339⟩
  let row : RetryRow := ⟨seq, 1, availableAt, lastError, now.rfc3339⟩
  { db with retries := db.retries.upsertKey row again fun _ _ => rfl }

/-! ## What the statements do -/

variable {db : QueueDB} {seq : ℤ}

theorem lastSeq_advance (now : Time) (hpos : 0 ≤ seq) :
    (db.advance now seq).lastSeq = max db.lastSeq seq := by
  have hpred : (fun c : ConsumerRow => decide (c.consumer = appendOnlyEventConsumer)) =
      conflict (⟨appendOnlyEventConsumer, seq, now.rfc3339⟩ : ConsumerRow) := by
    funext c
    simp only [conflict, Bool.beq_eq_decide_eq, eq_comm]
  simp only [lastSeq, advance, hpred]
  rw [find?_upsertKey (by simp [conflict])]
  rcases db.consumers.rows.find? _ with _ | c
  · simp [hpos]
  · simp only [Option.map_some, Option.getD_some]
    split <;> omega

variable {now : Time} {row : LogRow} {r : RetryRow}

theorem mem_log_markDone :
    row ∈ (db.markDone now seq).log ↔
      row ∈ db.log ∧ (seq % appendOnlyTrimInterval = 0 → seq < row.seq) := by
  unfold markDone
  split_ifs with h
  · exact ⟨fun hrow => ⟨hrow, fun h0 => absurd h0 h⟩, And.left⟩
  · simp only [trim, advance, mem_def, rows_deleteWhere]
    grind

theorem lastSeq_markDone (now : Time) (hpos : 0 ≤ seq) :
    (db.markDone now seq).lastSeq = max db.lastSeq seq := by
  rw [← lastSeq_advance now hpos]
  unfold markDone
  split <;> rfl

theorem mem_retries_of_markDone (h : r ∈ (db.markDone now seq).retries) : r ∈ db.retries := by
  unfold markDone at h
  split at h
  · exact (mem_filter.mp h).1
  · exact (mem_filter.mp (mem_filter.mp h).1).1

theorem mem_retries_requeue {now : Instant} {delay : Duration} {lastError : String}
    (h : r ∈ (db.requeue now seq delay lastError).retries) :
    (r ∈ db.retries ∧ r.seq ≠ seq) ∨
      (r.seq = seq ∧ r.availableAt = (now.add (requeueDelay delay)).rfc3339) := by
  simp only [requeue, mem_upsertKey] at h
  rcases h with ⟨hr, hconf⟩ | ⟨u, -, hconf, rfl⟩ | ⟨-, rfl⟩
  · refine .inl ⟨hr, fun heq => ?_⟩
    rw [← heq] at hconf
    simp [conflict] at hconf
  · exact .inr ⟨(beq_iff_eq.mp hconf).symm, rfl⟩
  · exact .inr ⟨rfl, rfl⟩

theorem append_eq_some {projectID : String} {payload : List UInt8} {db' : QueueDB}
    (h : db.append now projectID payload = some db') :
    db'.log.rows = db.log.rows ++ [db.newRow now projectID payload] ∧
      db'.sequence = db.sequence + 1 ∧ db'.consumers = db.consumers ∧ db'.retries = db.retries := by
  unfold append at h
  split at h
  · cases h
    exact ⟨rfl, rfl, rfl, rfl⟩
  · cases h

/-- The rows that the query of `ClaimNext` chooses from. -/
theorem mem_candidates :
    row ∈ db.log.rows.filter (fun row => db.lastSeq < row.seq ∧ db.available now row) ↔
      row ∈ db.log ∧ db.lastSeq < row.seq ∧ db.available now row = true := by
  simp only [mem_filter, decide_eq_true_eq]
  rfl

/-- **The oldest outstanding row is selected**, once it is available. -/
theorem next_eq_some (hrow : row ∈ db.log)
    (hlast : db.lastSeq < row.seq) (hav : db.available now row = true)
    (hmin : ∀ r ∈ db.log, db.lastSeq < r.seq → row.seq ≤ r.seq) : db.next now = some row := by
  refine argmin_eq_some_iff.mpr
    ⟨mem_candidates.mpr ⟨hrow, hlast, hav⟩, fun r hr => ?_, fun r hr hle => ?_⟩
  · obtain ⟨hr, hrlast, -⟩ := mem_candidates.mp hr
    exact hmin r hr hrlast
  · obtain ⟨hr, hrlast, -⟩ := mem_candidates.mp hr
    have hseq : row.seq = r.seq := le_antisymm (hmin r hr hrlast) hle
    rw [eq_of_conflict hrow hr (beq_iff_eq.mpr hseq)]

end QueueDB

/-! ## The queue -/

/-- The queue for the other kinds of jobs. It is reached through an interface, so all that is known
of it is that its job ids are not those of the log. -/
structure Fallback where
  State : Type
  enqueue : Instant → String → String → List UInt8 → ℤ → State → Except String Bool × State
  claimNext : Instant → String → Duration → State → Except String (Option Job) × State
  markDone : Instant → String → State → Except String Unit × State
  requeue : Instant → String → Duration → String → State → Except String Unit × State
  /-- The ids of its jobs do not read as ids of the log. -/
  foreign : ∀ now workerID lease s job,
    (claimNext now workerID lease s).1 = .ok (some job) → parseAppendOnlySeq job.id = none

/-- A second queue that never has a job. -/
def Fallback.idle : Fallback where
  State := Unit
  enqueue _ _ _ _ _ s := (.ok false, s)
  claimNext _ _ _ s := (.ok none, s)
  markDone _ _ s := (.ok (), s)
  requeue _ _ _ _ s := (.ok (), s)
  foreign _ _ _ _ _ h := nomatch Except.ok.inj h

/-- `AppendOnlyEventQueue`. -/
structure AppendOnlyEventQueue (F : Fallback) where
  db : QueueDB
  fallback : F.State

namespace AppendOnlyEventQueue

variable {F : Fallback} {now : Instant}

/-- The limit that `Enqueue` uses. -/
def backlogLimit (limit : ℤ) : ℤ := if limit ≤ 0 then 1000 else limit

variable (now : Instant)

/-- `Enqueue`. -/
def enqueue (kind projectID : String) (payload : List UInt8) (limit : ℤ)
    (q : AppendOnlyEventQueue F) : Except String Bool × AppendOnlyEventQueue F :=
  if GoText.trimSpace kind ≠ jobKindEvent then
    let (result, fallback) := F.enqueue now kind projectID payload limit q.fallback
    (result, { q with fallback })
  else if q.db.backlog ≥ backlogLimit limit then (.ok false, q)
  else
    match q.db.append now.toTime projectID payload with
    | none => (.error "append ingest log row: database or disk is full", q)
    | some db => (.ok true, { q with db })

/-- What `Enqueue` does to the tables: nothing, or a row is added and the event is accepted. -/
theorem enqueue_cases {kind projectID : String} {payload : List UInt8} {limit : ℤ}
    {q q' : AppendOnlyEventQueue F} {result : Except String Bool}
    (h : q.enqueue now kind projectID payload limit = (result, q')) :
    (q'.db = q.db ∧ ¬ (trimSpace kind = jobKindEvent ∧ result = .ok true)) ∨
      (trimSpace kind = jobKindEvent ∧ result = .ok true ∧
        q.db.append now.toTime projectID payload = some q'.db) := by
  rw [enqueue] at h
  split at h
  · next hkind =>
    cases h
    exact .inl ⟨rfl, fun hevent => hkind hevent.1⟩
  · next hkind =>
    split at h
    · cases h
      exact .inl ⟨rfl, fun hevent => nomatch hevent.2⟩
    · split at h
      · cases h
        exact .inl ⟨rfl, fun hevent => nomatch hevent.2⟩
      · next hdb =>
        cases h
        exact .inr ⟨not_not.mp hkind, rfl, hdb⟩

/-- The job of a row of the log. -/
def logJob (lib : GoLib) (now : Instant) (db : QueueDB) (row : LogRow) : Job where
  id := appendOnlyJobID row.seq
  kind := jobKindEvent
  projectId := row.projectId
  payload := row.payload
  attempts := db.attempts row + 1
  createdAt := (lib.parseRFC3339 row.createdAt).getD now.toTime

/-- `ClaimNext`. -/
def claimNext (lib : GoLib) (now : Instant) (workerID : String) (lease : Duration)
    (q : AppendOnlyEventQueue F) : Except String (Option Job) × AppendOnlyEventQueue F :=
  match F.claimNext now workerID lease q.fallback with
  | (.error e, fallback) => (.error e, { q with fallback })
  | (.ok (some job), fallback) => (.ok (some job), { q with fallback })
  | (.ok none, fallback) =>
    (.ok ((q.db.next now.toTime).map (logJob lib now q.db)), { q with fallback })

/-- `ClaimNext` leaves the tables alone, and a number that it returns is of a row of the log. -/
theorem claimNext_cases {lib : GoLib} {workerID : String} {lease : Duration}
    {q q' : AppendOnlyEventQueue F} {result : Except String (Option Job)}
    (h : q.claimNext lib now workerID lease = (result, q')) :
    q'.db = q.db ∧ ∀ job, result = .ok (some job) → ∀ seq ∈ parseAppendOnlySeq job.id,
      ∃ row ∈ q.db.log, row.seq = seq ∧ q.db.lastSeq < seq := by
  rw [claimNext] at h
  rcases hclaim : F.claimNext now workerID lease q.fallback with ⟨e | job | job, fallback⟩
  · rw [hclaim] at h
    cases h
    exact ⟨rfl, fun job hjob => nomatch hjob⟩
  · rw [hclaim] at h
    cases h
    refine ⟨rfl, fun job hjob seq hseq => ?_⟩
    obtain ⟨row, hnext, rfl⟩ := Option.map_eq_some_iff.mp (Except.ok.inj hjob)
    obtain ⟨hrow, hlast, -⟩ := QueueDB.mem_candidates.mp (argmin_mem hnext)
    have hgiven := q.db.given row hrow
    have hrange := q.db.range
    have hid : parseAppendOnlySeq (appendOnlyJobID row.seq) = some row.seq :=
      parseAppendOnlySeq_appendOnlyJobID (by omega) (by omega)
    rw [logJob, hid] at hseq
    cases hseq
    exact ⟨row, hrow, rfl, hlast⟩
  · rw [hclaim] at h
    cases h
    refine ⟨rfl, fun job' hjob seq hseq => ?_⟩
    cases hjob
    rw [F.foreign now workerID lease q.fallback job (by rw [hclaim])] at hseq
    exact nomatch hseq

/-- `MarkDone`. -/
def markDone (jobID : String) (q : AppendOnlyEventQueue F) :
    Except String Unit × AppendOnlyEventQueue F :=
  match parseAppendOnlySeq jobID with
  | none =>
    let (result, fallback) := F.markDone now jobID q.fallback
    (result, { q with fallback })
  | some seq => (.ok (), { q with db := q.db.markDone now.toTime seq })

/-- `Requeue`. -/
def requeue (jobID : String) (delay : Duration) (lastError : String)
    (q : AppendOnlyEventQueue F) : Except String Unit × AppendOnlyEventQueue F :=
  match parseAppendOnlySeq jobID with
  | none =>
    let (result, fallback) := F.requeue now jobID delay lastError q.fallback
    (result, { q with fallback })
  | some seq => (.ok (), { q with db := q.db.requeue now seq delay lastError })

end AppendOnlyEventQueue

end Urgentry
