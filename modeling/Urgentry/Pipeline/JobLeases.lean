import Urgentry.Internal.Run
import Urgentry.Sqlite.JobStore

/-!
# Leases on jobs

Any number of workers claim jobs, work on them for any time, and end a claim by marking the job done
or by putting it back. A sweep puts back the jobs whose lease has run out. The calls interleave
freely, and each of them is one statement of the database.

A worker that holds a lease should be alone with its job until the lease ends. What the workers
hold is not what the table says, so it is kept beside the table: `leases` has one entry for every
claim that its worker has not ended. The two agree in a state that is `Exclusive`: the row of a job
under a lease that has not run out still says so.

They can come apart in one way. A claim whose lease has run out can still be ended, and the
statement that ends it names the job by its id. If the job has been claimed again in the meantime,
the later claim loses its row.

## Time

The clock of the system does not go back. A call reads it when it starts and its statement may run
later, so a statement runs with any reading up to the present.

## Main results

* `JobLeases.run_exclusive_iff`: in every run, all states are exclusive if and only if no claim is
  ended while the job is under another lease.
-/

namespace Urgentry

open SqlTable Trace Option List

/-- A claim that its worker has not ended. -/
structure Lease where
  (worker jobId : String)
  /-- The end of the lease, as it was written into the row. -/
  till : String
deriving DecidableEq

/-- The row of the job says that it is under this lease. -/
def Lease.Recorded (l : Lease) (r : JobRow) : Prop :=
  r.id = l.jobId ∧ r.status = .processing ∧ r.workerId = some l.worker ∧ r.leaseUntil = some l.till
deriving Decidable

/-- The queue, the clock, and what the workers hold. -/
structure JobLeases where
  jobs : Table JobRow
  clock : Instant
  leases : List Lease

/-- What can happen. -/
inductive LeaseAction
  /-- Time passes. -/
  | tick (clock : Instant)
  /-- A worker claims the next job. -/
  | claimNext (worker : String) (now : Instant) (leaseDuration : Duration)
  /-- The worker of a claim marks its job done. -/
  | markDone (l : Lease)
  /-- The worker of a claim puts its job back. -/
  | requeue (l : Lease) (now : Instant) (delay : Duration) (lastError : String)
  /-- The sweep. -/
  | requeueExpiredProcessing (now : Instant)
  /-- A new job. -/
  | enqueue (id kind projectID : String) (payload : List UInt8) (limit : ℤ) (now : Instant)

namespace JobLeases

/-- A queue that nobody works on. -/
def start (jobs : Table JobRow) (clock : Instant) : JobLeases := ⟨jobs, clock, []⟩

/-- The lease has not run out. -/
def Unexpired (s : JobLeases) (l : Lease) : Prop := s.clock.rfc3339 < l.till
deriving Decidable

/-- **The property.** The job of a lease that has not run out is still there, is not pending, and
belongs to the worker of the lease and to no other. -/
def Exclusive (s : JobLeases) : Prop :=
  ∀ l ∈ s.leases, s.Unexpired l → ∃ r ∈ s.jobs.rows, l.Recorded r
deriving Decidable

variable (lib : GoLib) (s : JobLeases)

/-- One step. A reading of the clock is not later than the clock, and a worker ends only claims of
its own. -/
def step : LeaseAction → Option JobLeases
  | .tick clock => if s.clock.ns ≤ clock.ns then some { s with clock } else none
  | .claimNext worker now leaseDuration =>
    if now.ns ≤ s.clock.ns then
      (JobStore.claimNext lib worker now leaseDuration s.jobs).map fun (jobs, job) =>
        { s with jobs, leases := ⟨worker, job.id, leaseEnd now leaseDuration⟩ :: s.leases }
    else none
  | .markDone l =>
    if l ∈ s.leases then
      some { s with jobs := JobStore.markDone l.jobId s.jobs, leases := s.leases.erase l }
    else none
  | .requeue l now delay lastError =>
    if l ∈ s.leases ∧ now.ns ≤ s.clock.ns then
      some { s with
        jobs := JobStore.requeue l.jobId now delay lastError s.jobs, leases := s.leases.erase l }
    else none
  | .requeueExpiredProcessing now =>
    if now.ns ≤ s.clock.ns then
      some { s with jobs := JobStore.requeueExpiredProcessing now s.jobs }
    else none
  | .enqueue id kind projectID payload limit now =>
    (JobStore.enqueue id kind projectID payload limit now s.jobs).map fun jobs => { s with jobs }

/-- The job of the claim is not under another lease. -/
def Alone (l : Lease) : Prop :=
  ∀ l' ∈ s.leases.erase l, l'.jobId = l.jobId → ¬s.Unexpired l'
deriving Decidable

/-- **The condition.** A claim is ended only while its job is not under another lease. -/
def Timely : LeaseAction → Prop
  | .markDone l => s.Alone l
  | .requeue l _ _ _ => s.Alone l
  | _ => True

instance (s : JobLeases) (a : LeaseAction) : Decidable (s.Timely a) :=
  match a with
  | .markDone l => inferInstanceAs (Decidable (s.Alone l))
  | .requeue l _ _ _ => inferInstanceAs (Decidable (s.Alone l))
  | .tick _ | .claimNext _ _ _ | .requeueExpiredProcessing _ | .enqueue _ _ _ _ _ _ =>
    .isTrue trivial

/-! ## Steps -/

variable {lib} {s t : JobLeases} {a : LeaseAction}

theorem rfc3339_le {i j : Instant} (h : i.ns ≤ j.ns) : i.rfc3339 ≤ j.rfc3339 := by
  rw [← not_lt, Time.rfc3339_lt_iff j.writable i.writable, not_lt]
  exact Nat.div_le_div_right h

section

variable (h : s.Exclusive) {now : Instant} {jobs : Table JobRow}

include h

/-- A step keeps the property when it keeps the rows of the leases that are left, and when the row
of a new lease says so. -/
theorem Exclusive.mono (hclock : s.clock.rfc3339 ≤ t.clock.rfc3339)
    (hrows : ∀ l ∈ s.leases, l ∈ t.leases → t.Unexpired l → ∀ r ∈ s.jobs, l.Recorded r →
      ∃ r' ∈ t.jobs.rows, l.Recorded r')
    (hnew : ∀ l ∈ t.leases, l ∈ s.leases ∨ ∃ r ∈ t.jobs.rows, l.Recorded r) : t.Exclusive := by
  intro l hl hun
  rcases hnew l hl with hold | hrec
  · obtain ⟨r, hr, hrec⟩ := h l hold (lt_of_le_of_lt hclock hun)
    exact hrows l hold hl hun r hr hrec
  · exact hrec

theorem Exclusive.tick {clock : Instant} (hclock : s.clock.ns ≤ clock.ns) :
    ({ s with clock } : JobLeases).Exclusive :=
  h.mono (rfc3339_le hclock) (fun _ _ _ _ r hr hrec => ⟨r, hr, hrec⟩) fun _ hl => .inl hl

/-- The claimed job was pending, so its row is not that of a lease. -/
theorem Exclusive.claimNext {worker : String} {leaseDuration : Duration} {job : Job}
    (hclaim : JobStore.claimNext lib worker now leaseDuration s.jobs = some (jobs, job)) :
    ({ s with jobs, leases := ⟨worker, job.id, leaseEnd now leaseDuration⟩ :: s.leases } :
      JobLeases).Exclusive := by
  obtain ⟨r, hnext, heq⟩ := map_eq_some_iff.mp hclaim
  cases heq
  obtain ⟨hr, hdue⟩ := of_nextJob hnext
  have hpending : r.status = .pending := (of_decide_eq_true hdue).1
  refine h.mono le_rfl ?_ ?_
  · intro l _ _ _ u hu hrec
    refine ⟨u, mem_map.mpr ⟨u, hu, if_neg ?_⟩, hrec⟩
    intro hid
    rw [Table.eq_of_conflict hu hr (by simp [Schema.conflict, of_decide_eq_true hid])] at hrec
    rw [hrec.2.1] at hpending
    exact absurd hpending nofun
  · rintro l (_ | ⟨_, hl⟩)
    · refine .inr ⟨r.claimed worker now leaseDuration, mem_map.mpr ⟨r, hr, ?_⟩, ?_⟩
      · rw [if_pos (decide_eq_true rfl)]
      · exact ⟨rfl, rfl, rfl, rfl⟩
    · exact .inl hl

theorem Exclusive.requeueExpiredProcessing (hnow : now.ns ≤ s.clock.ns) :
    ({ s with jobs := JobStore.requeueExpiredProcessing now s.jobs } : JobLeases).Exclusive := by
  refine h.mono le_rfl ?_ fun _ hl => .inl hl
  intro l _ _ hun r hr hrec
  refine ⟨r, mem_map.mpr ⟨r, hr, if_neg ?_⟩, hrec⟩
  intro hexpired
  have hend := (of_decide_eq_true hexpired).2
  rw [hrec.2.2.2, any_some, decide_eq_true_eq] at hend
  exact absurd (lt_of_le_of_lt (hend.trans (rfc3339_le hnow)) hun) (lt_irrefl _)

theorem Exclusive.enqueue {id kind projectID : String} {payload : List UInt8} {limit : ℤ}
    (henqueue : JobStore.enqueue id kind projectID payload limit now s.jobs = some jobs) :
    ({ s with jobs } : JobLeases).Exclusive := by
  refine h.mono le_rfl ?_ fun _ hl => .inl hl
  intro l _ _ _ r hr hrec
  obtain ⟨-, hinsert⟩ := ite_none_right_eq_some.mp henqueue
  exact ⟨r, Table.mem_of_insert hinsert hr, hrec⟩

/-- Ending a claim keeps the rows of other jobs, and no other lease is on this one. -/
theorem Exclusive.markDone {l : Lease} (halone : s.Alone l) :
    ({ s with jobs := JobStore.markDone l.jobId s.jobs, leases := s.leases.erase l } :
      JobLeases).Exclusive := by
  refine h.mono le_rfl ?_ fun _ hl' => .inl (mem_of_mem_erase hl')
  intro l' _ hl' hun r hr hrec
  refine ⟨r, mem_filter.mpr ⟨hr, ?_⟩, hrec⟩
  rw [Bool.not_eq_true', decide_eq_false_iff_not, hrec.1]
  exact fun hid => halone l' hl' hid hun

theorem Exclusive.requeue {l : Lease} {delay : Duration} {lastError : String} (halone : s.Alone l) :
    ({ s with
        jobs := JobStore.requeue l.jobId now delay lastError s.jobs
        leases := s.leases.erase l } : JobLeases).Exclusive := by
  refine h.mono le_rfl ?_ fun _ hl' => .inl (mem_of_mem_erase hl')
  intro l' _ hl' hun r hr hrec
  refine ⟨r, mem_map.mpr ⟨r, hr, if_neg ?_⟩, hrec⟩
  intro hid
  exact halone l' hl' (hrec.1.symm.trans (of_decide_eq_true hid)) hun

/-- **A step that meets the condition keeps the property.** -/
theorem Exclusive.step (hok : s.Timely a) (hstep : step lib s a = some t) : t.Exclusive := by
  cases a with
  | tick clock =>
    obtain ⟨hclock, ⟨⟩⟩ := ite_none_right_eq_some.mp hstep
    exact h.tick hclock
  | claimNext worker now leaseDuration =>
    obtain ⟨-, hsome⟩ := ite_none_right_eq_some.mp hstep
    obtain ⟨⟨jobs, job⟩, hclaim, rfl⟩ := map_eq_some_iff.mp hsome
    exact h.claimNext hclaim
  | markDone l =>
    obtain ⟨-, ⟨⟩⟩ := ite_none_right_eq_some.mp hstep
    exact h.markDone hok
  | requeue l now delay lastError =>
    obtain ⟨-, ⟨⟩⟩ := ite_none_right_eq_some.mp hstep
    exact h.requeue hok
  | requeueExpiredProcessing now =>
    obtain ⟨hnow, ⟨⟩⟩ := ite_none_right_eq_some.mp hstep
    exact h.requeueExpiredProcessing hnow
  | enqueue id kind projectID payload limit now =>
    obtain ⟨jobs, henqueue, rfl⟩ := map_eq_some_iff.mp hstep
    exact h.enqueue henqueue

end

/-- **A step that does not meet the condition breaks the property.** The other lease has lost its
row, or the row is pending. -/
theorem not_exclusive_of_step (hbad : ¬s.Timely a) (hstep : step lib s a = some t) :
    ¬t.Exclusive := by
  cases a with
  | markDone l =>
    obtain ⟨-, ⟨⟩⟩ := ite_none_right_eq_some.mp hstep
    rw [Timely, Alone] at hbad
    push Not at hbad
    obtain ⟨l', hl', hid, hun⟩ := hbad
    intro h
    obtain ⟨r, hr, hrec⟩ := h l' hl' hun
    have hne := (mem_filter.mp hr).2
    rw [Bool.not_eq_true', decide_eq_false_iff_not] at hne
    exact hne (hrec.1.trans hid)
  | requeue l now delay lastError =>
    obtain ⟨-, ⟨⟩⟩ := ite_none_right_eq_some.mp hstep
    rw [Timely, Alone] at hbad
    push Not at hbad
    obtain ⟨l', hl', hid, hun⟩ := hbad
    intro h
    obtain ⟨r, hr, hrec⟩ := h l' hl' hun
    obtain ⟨u, -, hu⟩ := mem_map.mp hr
    split at hu
    · rw [← hu] at hrec
      exact absurd hrec.2.1 nofun
    · next hne =>
      rw [hu, decide_eq_true_eq] at hne
      exact hne (hrec.1.trans hid)
  | _ => exact absurd trivial hbad

/-- **Exclusive leases.** In every run, the leases are exclusive in all states if and only if every
claim is ended while its job is not under another lease. -/
theorem run_exclusive_iff {jobs : Table JobRow} {clock : Instant}
    {trace : List (JobLeases × LeaseAction)} (run : Run (step lib) (start jobs clock) trace t) :
    (∀ u ∈ visited trace t, u.Exclusive) ↔ ∀ p ∈ trace, p.1.Timely p.2 :=
  run.safe_iff nofun Exclusive.step id fun _ => not_exclusive_of_step

/-! ## Two runs -/

/-- One pending job. -/
def oneJob : Table JobRow where
  rows := [{
    id := "j"
    kind := "event"
    projectId := "p"
    payload := []
    status := .pending
    attempts := 0
    availableAt := Instant.midnight.rfc3339
    leaseUntil := none
    workerId := none
    lastError := none
    createdAt := Instant.midnight.rfc3339
    updatedAt := Instant.midnight.rfc3339 }]
  unique := by decide

/-- Midnight, some seconds later. -/
def after (seconds : Fin 3600) : Instant where
  ns := Instant.midnight.ns + seconds * 10 ^ 9
  lo := le_trans Instant.midnight.lo (Nat.le_add_right _ _)
  hi := by
    have hlt := seconds.isLt
    simp only [Instant.midnight, Calendar.endOfDates, Calendar.secondsPerDay]
    omega

/-- The claim of a worker, with a lease of 30 seconds. -/
def claimAt (worker : String) (seconds : Fin 3600) : LeaseAction :=
  .claimNext worker (after seconds) defaultLease

/-- The lease of such a claim on the job. -/
def leaseAt (worker : String) (seconds : Fin 3600) : Lease :=
  ⟨worker, "j", leaseEnd (after seconds) defaultLease⟩

/-- A worker claims the job and marks it done. -/
def quickRun : List LeaseAction := [claimAt "a" 0, .tick (after 10), .markDone (leaseAt "a" 0)]

/-- The lease of worker `a` runs out, `b` claims the job, and then `a` marks it done. -/
def slowRun : List LeaseAction :=
  [claimAt "a" 0, .tick (after 40), .requeueExpiredProcessing (after 40), claimAt "b" 40,
    .tick (after 50), .markDone (leaseAt "a" 0)]

theorem quickRun_exclusive : ∃ trace t,
    Run (step asciiLib) (start oneJob .midnight) trace t ∧ t.jobs.rows = [] ∧
      ∀ u ∈ visited trace t, u.Exclusive :=
  exists_run_and Timely quickRun (by decide +kernel)
    fun hrun htimely => (run_exclusive_iff hrun).mpr htimely

/-- **A lost lease.** Worker `b` holds a lease for another 20 seconds, and the row of its job is
gone. -/
theorem slowRun_loses_lease : ∃ trace t,
    Run (step asciiLib) (start oneJob .midnight) trace t ∧
      (∃ l ∈ t.leases, l.worker = "b" ∧ l.jobId = "j" ∧ t.Unexpired l) ∧ t.jobs.rows = [] ∧
      ¬t.Exclusive :=
  exists_run slowRun (by decide +kernel)

end JobLeases

end Urgentry
