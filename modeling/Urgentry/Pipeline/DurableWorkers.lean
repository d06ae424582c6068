import Urgentry.Internal.Run
import Urgentry.Issue.Processor

/-!
# Workers that share the stores

Any number of durable workers process jobs. A worker claims a job, checks whether its event is
already stored and whether a filter drops it, runs `Process`, and marks the job done; when `Process`
fails the job is put back and claimed again, unless the error is permanent. A lease can run out
while its worker goes on, and a process can stop, so a job that is not done may be claimed at any
time and a call may end between any two of its steps. The steps of different workers interleave
freely.

## Main results

* `step_cases`, `moved_of_advance`: what a step does, said once.
-/

namespace Urgentry

open SqlTable Trace Option List

/-- A queued event, by the ids that say which event it is. -/
structure EventJob where
  (projectId eventId : String)
deriving DecidableEq

/-- The stores and the workers. -/
structure DurableWorkers where
  groups : Table GroupRow
  events : Table EventRow
  jobs : List EventJob
  /-- The jobs marked done, by their positions. -/
  done : List ℕ
  /-- The calls of `Process` in progress. -/
  calls : List Call
  /-- What the calls returned, latest first, with the key of the group. -/
  results : List (GroupKey × ProcessResult)

/-- A step of a call. -/
inductive CallStep
  /-- `isDuplicateCompleted`; an unreadable store counts as an event that is not stored. -/
  | check (readable : Bool)
  /-- `checkFilters` gives a reason: the job is marked done without a call of `Process`. -/
  | filter
  /-- `GetGroupByKey`, with the answer of the release store. -/
  | lookup (order : Option (Except String Bool))
  | upsert
  /-- `UpdateStatus` and the ownership rule. Their errors are logged only. -/
  | adjust (ownership : Option (Except String (Option OwnershipResolveResult)))
    (statusSaved assigneeSaved : Bool)
  /-- `SaveEvent`, with the id of the new row. -/
  | save (rowId : String) (now : Time)
  /-- The next step fails, or the worker stops. After a permanent error the job is marked done. -/
  | fail (permanent : Bool)
  | markDone

/-- What can happen. -/
inductive WorkersAction
  /-- A worker claims a job and normalises its event. -/
  | claim (worker job : ℕ) (evt : NormalizedEvent) (groupId : String)
  | call (worker : ℕ) (step : CallStep)

/-- Which event a call is about. -/
def Call.event (c : Call) : EventJob := ⟨c.projectId, c.evt.eventId⟩

/-- Which event a row is. -/
def EventRow.event (r : EventRow) : EventJob := ⟨r.projectId, r.eventId⟩

namespace DurableWorkers

/-- The stores with the jobs to do. -/
def start (groups : Table GroupRow) (events : Table EventRow) (jobs : List EventJob) :
    DurableWorkers where
  groups := groups
  events := events
  jobs := jobs
  done := []
  calls := []
  results := []

/-- The call in its next phase. -/
def moveTo (s : DurableWorkers) (c : Call) (phase : Phase) : DurableWorkers :=
  { s with calls := { c with phase } :: s.calls.erase c }

/-- The call ends, and its job is marked done if `markDone` is set. -/
def finish (s : DurableWorkers) (c : Call) (markDone : Bool) : DurableWorkers :=
  { s with calls := s.calls.erase c, done := if markDone then c.job :: s.done else s.done }

/-- The event is stored and completed. -/
def isCompleted (s : DurableWorkers) (c : Call) : Bool :=
  (getEvent s.events c.projectId c.evt.eventId).any fun r => r.processingStatus = .completed

/-- The group after its status and assignee were adjusted. -/
def adjusted (groupId : String) (existing : Option GroupRow) (isRegression : Bool)
    (ownership : Option (Except String (Option OwnershipResolveResult)))
    (statusSaved assigneeSaved : Bool) (groups : Table GroupRow) : Table GroupRow :=
  let reopened :=
    if isRegression ∧ statusSaved then updateStatus groupId "unresolved" groups else groups
  match newAssignee existing ownership with
  | some assignee => if assigneeSaved then updateAssignee groupId assignee reopened else reopened
  | none => reopened

theorem sameCounts_adjusted (groupId : String) (existing : Option GroupRow) (isRegression : Bool)
    (ownership : Option (Except String (Option OwnershipResolveResult)))
    (statusSaved assigneeSaved : Bool) (groups : Table GroupRow) :
    SameCounts groups
      (adjusted groupId existing isRegression ownership statusSaved assigneeSaved groups) := by
  have hreopened : SameCounts groups
      (if isRegression ∧ statusSaved then updateStatus groupId "unresolved" groups
        else groups) := by
    split
    · exact sameCounts_updateGroup fun _ => ⟨rfl, rfl, rfl⟩
    · exact .refl groups
  rw [adjusted]
  split
  · split
    · exact hreopened.trans (sameCounts_updateGroup fun _ => ⟨rfl, rfl, rfl⟩)
    · exact hreopened
  · exact hreopened

/-- One step of the call `c`. -/
def advance (s : DurableWorkers) (c : Call) : CallStep → Option DurableWorkers
  | .check readable =>
    match c.phase with
    | .check => some (s.moveTo c (if readable && s.isCompleted c then .returned else .lookup))
    | _ => none
  | .filter =>
    match c.phase with
    | .lookup => some (s.finish c true)
    | _ => none
  | .lookup order =>
    match c.phase with
    | .lookup =>
      let existing := getGroupByKey s.groups c.groupKey
      some (s.moveTo c (.upsert existing (regression existing c.evt.releaseVersion order)))
    | _ => none
  | .upsert =>
    match c.phase with
    | .upsert existing isRegression =>
      (upsertGroup (c.evt.group c.projectId c.groupId) s.groups).map fun (groups, groupId) =>
        { s.moveTo c (.adjust groupId existing isRegression) with groups }
    | _ => none
  | .adjust ownership statusSaved assigneeSaved =>
    match c.phase with
    | .adjust groupId existing isRegression =>
      some { s.moveTo c (.save groupId existing.isNone isRegression) with
        groups := adjusted groupId existing isRegression ownership statusSaved assigneeSaved
          s.groups }
    | _ => none
  | .save rowId now =>
    match c.phase with
    | .save groupId isNew isRegression =>
      -- row ids are random: they are not in use
      if s.events.rows.any (·.id = rowId) then none
      else some { s.moveTo c .returned with
        events := saveEvent s.events (c.evt.storedEvent c.projectId rowId groupId) now
        results := (c.groupKey, c.result groupId isNew isRegression) :: s.results }
    | _ => none
  | .fail permanent => some (s.finish c permanent)
  | .markDone =>
    match c.phase with
    | .returned => some (s.finish c true)
    | _ => none

/-- The call of a worker. -/
def callOf (s : DurableWorkers) (worker : ℕ) : Option Call :=
  s.calls.find? fun c => c.worker = worker

/-- One step. A job that is not done may be claimed, also while another worker is at it. -/
def step (s : DurableWorkers) : WorkersAction → Option DurableWorkers
  | .claim worker job evt groupId =>
    match s.callOf worker, s.jobs[job]? with
    | none, some j =>
      if job ∈ s.done ∨ evt.eventId ≠ j.eventId then none
      else some { s with calls := ⟨worker, job, j.projectId, evt, groupId, .check⟩ :: s.calls }
    | _, _ => none
  | .call worker step => (s.callOf worker).bind fun c => s.advance c step

/-- **What a step of a call does**, with the phase it starts from. -/
inductive Moved (s : DurableWorkers) (c : Call) : CallStep → DurableWorkers → Prop
  | stored {readable : Bool} (hphase : c.phase = .check) (hstored : s.isCompleted c = true) :
    Moved s c (.check readable) (s.moveTo c .returned)
  | unstored {readable : Bool} (hphase : c.phase = .check) :
    Moved s c (.check readable) (s.moveTo c .lookup)
  | filtered (hphase : c.phase = .lookup) : Moved s c .filter (s.finish c true)
  | lookedUp {order : Option (Except String Bool)} {isRegression : Bool}
    (hphase : c.phase = .lookup) :
    Moved s c (.lookup order)
      (s.moveTo c (.upsert (getGroupByKey s.groups c.groupKey) isRegression))
  | upserted {existing : Option GroupRow} {isRegression : Bool} {groups : Table GroupRow}
    {groupId : String} (hphase : c.phase = .upsert existing isRegression)
    (hgroups : upsertGroup (c.evt.group c.projectId c.groupId) s.groups = some (groups, groupId)) :
    Moved s c .upsert { s.moveTo c (.adjust groupId existing isRegression) with groups }
  | adjusted {existing : Option GroupRow} {isRegression : Bool} {groupId : String}
    {ownership : Option (Except String (Option OwnershipResolveResult))}
    {statusSaved assigneeSaved : Bool} (hphase : c.phase = .adjust groupId existing isRegression) :
    Moved s c (.adjust ownership statusSaved assigneeSaved)
      { s.moveTo c (.save groupId existing.isNone isRegression) with
        groups := adjusted groupId existing isRegression ownership statusSaved assigneeSaved
          s.groups }
  | saved {rowId groupId : String} {now : Time} {isNew isRegression : Bool}
    (hphase : c.phase = .save groupId isNew isRegression)
    (hfresh : ∀ r ∈ s.events, r.id ≠ rowId) :
    Moved s c (.save rowId now)
      { s.moveTo c .returned with
        events := saveEvent s.events (c.evt.storedEvent c.projectId rowId groupId) now
        results := (c.groupKey, c.result groupId isNew isRegression) :: s.results }
  | failed {permanent : Bool} : Moved s c (.fail permanent) (s.finish c permanent)
  | marked (hphase : c.phase = .returned) : Moved s c .markDone (s.finish c true)

variable {s : DurableWorkers} {c : Call}

theorem moved_of_advance {t : DurableWorkers} {a : CallStep} (h : s.advance c a = some t) :
    Moved s c a t := by
  cases a with
  | check readable =>
    rw [advance] at h
    split at h
    · next hphase =>
      cases h
      cases hread : readable && s.isCompleted c with
      | false => exact .unstored hphase
      | true => exact .stored hphase (Bool.and_eq_true_iff.mp hread).2
    · cases h
  | filter =>
    rw [advance] at h
    split at h
    · next hphase =>
      cases h
      exact .filtered hphase
    · cases h
  | lookup order =>
    rw [advance] at h
    split at h
    · next hphase =>
      cases h
      exact .lookedUp hphase
    · cases h
  | upsert =>
    rw [advance] at h
    split at h
    · next hphase =>
      obtain ⟨⟨groups, groupId⟩, hgroups, rfl⟩ := map_eq_some_iff.mp h
      exact .upserted hphase hgroups
    · cases h
  | adjust =>
    rw [advance] at h
    split at h
    · next hphase =>
      cases h
      exact .adjusted hphase
    · cases h
  | save rowId now =>
    rw [advance] at h
    split at h
    · next hphase =>
      obtain ⟨hfresh, ⟨⟩⟩ := ite_none_left_eq_some.mp h
      refine .saved hphase fun r hr hid => hfresh ?_
      rw [List.any_eq_true]
      exact ⟨r, hr, by simpa using hid⟩
    · cases h
  | fail permanent =>
    cases h
    exact .failed
  | markDone =>
    rw [advance] at h
    split at h
    · next hphase =>
      cases h
      exact .marked hphase
    · cases h

/-! ## Counting calls -/

theorem countP_erase (hc : c ∈ s.calls) (p : Call → Bool) :
    s.calls.countP p = (s.calls.erase c).countP p + if p c then 1 else 0 := by
  rw [(perm_cons_erase hc).countP_eq, countP_cons]

theorem countP_moveTo (hc : c ∈ s.calls) (phase : Phase) (p : Call → Bool) :
    (s.moveTo c phase).calls.countP p + (if p c then 1 else 0) =
      s.calls.countP p + if p { c with phase } then 1 else 0 := by
  rw [countP_erase hc, moveTo, countP_cons]
  omega

/-- The two kinds of steps. -/
theorem step_cases {t : DurableWorkers} {a : WorkersAction} (h : s.step a = some t) :
    (∃ worker job evt groupId j, a = .claim worker job evt groupId ∧ s.jobs[job]? = some j ∧
      job ∉ s.done ∧ evt.eventId = j.eventId ∧
      t = { s with calls := ⟨worker, job, j.projectId, evt, groupId, .check⟩ :: s.calls }) ∨
    (∃ worker c cs, a = .call worker cs ∧ c ∈ s.calls ∧ s.callOf worker = some c ∧
      Moved s c cs t) := by
  cases a with
  | claim worker job evt groupId =>
    rw [step] at h
    split at h
    · next j _ hj =>
      obtain ⟨hguard, ⟨⟩⟩ := ite_none_left_eq_some.mp h
      obtain ⟨hdone, hevent⟩ := not_or.mp hguard
      exact .inl ⟨worker, job, evt, groupId, j, rfl, hj, hdone, not_not.mp hevent, rfl⟩
    · cases h
  | call worker cs =>
    obtain ⟨c, hc, h⟩ := bind_eq_some_iff.mp h
    exact .inr ⟨worker, c, cs, rfl, mem_of_find?_eq_some hc, hc, moved_of_advance h⟩

end DurableWorkers

end Urgentry
