import Urgentry.Sqlite.AppendOnlyEventQueue

/-!
# The job queue in SQLite

`job_store.go`: durable work is a row of `jobs`. A worker claims the next row that is due, which
marks the row as processing, writes the worker's name into it and gives it a lease. A job that is
done is deleted, one that failed is put back, and a sweep puts back the rows whose lease has run
out.

The statements that delete a job or put it back name the row by its id alone. Neither the worker nor
the lease of the row is looked at.
-/

namespace Urgentry

open SqlTable List

/-- The values of `jobs.status`. -/
inductive JobStatus
  | pending
  | processing
deriving DecidableEq

/-- A row of `jobs`. -/
structure JobRow where
  (id kind projectId : String)
  payload : List UInt8
  status : JobStatus
  attempts : ℤ
  availableAt : String
  (leaseUntil workerId lastError : Option String)
  (createdAt updatedAt : String)
deriving DecidableEq

instance : Schema JobRow := .ofKey JobRow.id

/-- `UPDATE jobs SET … WHERE p`, where the id stays. -/
def updateJobs (p : JobRow → Bool) (f : JobRow → JobRow) (hf : ∀ r, (f r).id = r.id)
    (jobs : Table JobRow) : Table JobRow :=
  jobs.map (fun r => if p r then f r else r) fun s u => by
    show ((if p s then f s else s).id == u.id) = (s.id == u.id)
    split
    · rw [hf]
    · rfl

/-! ## Claiming -/

/-- The order in which jobs are claimed. -/
def JobRow.before (r s : JobRow) : Bool :=
  r.availableAt < s.availableAt ∨ r.availableAt = s.availableAt ∧ r.createdAt < s.createdAt

/-- The job may be claimed. -/
def JobRow.due (now : String) (r : JobRow) : Bool := r.status = .pending ∧ r.availableAt ≤ now

/-- The due job that comes first. -/
def nextJob (now : String) : List JobRow → Option JobRow
  | [] => none
  | r :: rows =>
    if r.due now then
      match nextJob now rows with
      | some s => if s.before r then some s else some r
      | none => some r
    else nextJob now rows

theorem of_nextJob {now : String} {rows : List JobRow} {r : JobRow}
    (h : nextJob now rows = some r) : r ∈ rows ∧ r.due now = true := by
  induction rows with
  | nil => exact absurd h nofun
  | cons s rows ih =>
    rw [nextJob] at h
    split at h
    · next hdue =>
      cases hnext : nextJob now rows with
      | none =>
        rw [hnext] at h
        cases h
        exact ⟨mem_cons_self, hdue⟩
      | some u =>
        simp only [hnext] at h
        split at h
        · cases h
          obtain ⟨hmem, hdue⟩ := ih hnext
          exact ⟨mem_cons_of_mem s hmem, hdue⟩
        · cases h
          exact ⟨mem_cons_self, hdue⟩
    · obtain ⟨hmem, hdue⟩ := ih h
      exact ⟨mem_cons_of_mem s hmem, hdue⟩

/-- 30 seconds, the lease of a claim that asks for none. -/
def defaultLease : Duration := 30000000000

/-- The end of a lease. -/
def leaseEnd (now : Instant) (leaseDuration : Duration) : String :=
  (now.add (if leaseDuration ≤ 0 then defaultLease else leaseDuration)).rfc3339

/-- The row of a claimed job. -/
def JobRow.claimed (workerID : String) (now : Instant) (leaseDuration : Duration) (r : JobRow) :
    JobRow :=
  { r with
    status := .processing
    attempts := r.attempts + 1
    leaseUntil := some (leaseEnd now leaseDuration)
    workerId := some workerID
    updatedAt := now.rfc3339 }

/-- The lease of the row has run out. -/
def JobRow.expired (now : String) (r : JobRow) : Bool :=
  r.status = .processing ∧ r.leaseUntil.any (· ≤ now)

/-- What `ClaimNext` returns of a row. -/
def JobRow.job (lib : GoLib) (now : Instant) (r : JobRow) : Job where
  id := r.id
  kind := r.kind
  projectId := r.projectId
  payload := r.payload
  attempts := r.attempts
  createdAt := (lib.parseRFC3339 r.createdAt).getD now.toTime

namespace JobStore

/-- `ClaimNext`. -/
def claimNext (lib : GoLib) (workerID : String) (now : Instant) (leaseDuration : Duration)
    (jobs : Table JobRow) : Option (Table JobRow × Job) :=
  (nextJob now.rfc3339 jobs.rows).map fun r =>
    (updateJobs (fun s => s.id = r.id) (JobRow.claimed workerID now leaseDuration) (fun _ => rfl)
      jobs, (r.claimed workerID now leaseDuration).job lib now)

/-! ## Ending a claim -/

/-- `MarkDone`. -/
def markDone (jobID : String) (jobs : Table JobRow) : Table JobRow :=
  jobs.deleteWhere fun r => r.id = jobID

/-- `Requeue`. -/
def requeue (jobID : String) (now : Instant) (delay : Duration) (lastError : String)
    (jobs : Table JobRow) : Table JobRow :=
  updateJobs (fun r => r.id = jobID) (fun r => { r with
    status := .pending
    availableAt := (now.add delay).rfc3339
    leaseUntil := none
    workerId := none
    lastError := some lastError
    updatedAt := now.rfc3339 }) (fun _ => rfl) jobs

/-- `RequeueExpiredProcessing`. -/
def requeueExpiredProcessing (now : Instant) (jobs : Table JobRow) : Table JobRow :=
  updateJobs (fun r => r.expired now.rfc3339) (fun r => { r with
    status := .pending
    availableAt := now.rfc3339
    leaseUntil := none
    workerId := none
    updatedAt := now.rfc3339 }) (fun _ => rfl) jobs

/-- `Enqueue`: the new table, unless the queue is full. An id that is taken is an error. -/
def enqueue (id kind projectID : String) (payload : List UInt8) (limit : ℤ) (now : Instant)
    (jobs : Table JobRow) : Option (Table JobRow) :=
  if (jobs.rows.length : ℤ) < (if limit ≤ 0 then 1000 else limit) then
    jobs.insert {
      id := id
      kind := kind
      projectId := projectID
      payload := payload
      status := .pending
      attempts := 0
      availableAt := now.rfc3339
      leaseUntil := none
      workerId := none
      lastError := none
      createdAt := now.rfc3339
      updatedAt := now.rfc3339 }
  else none

end JobStore

end Urgentry
