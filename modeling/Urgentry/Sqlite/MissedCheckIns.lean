import Urgentry.Sqlite.MonitorStore
import Urgentry.Internal.DatedLog
import Urgentry.Internal.Pool
import Urgentry.Internal.Run

/-!
# Missed check-ins

A pass of `MarkMissed` selects the monitors that are due, and then goes through them: for each it
computes the next due time, inserts a check-in with the status `missed`, and updates the monitor.
Every statement runs on its own. A check-in is a transaction, and it may commit between any two of
them.

## What goes wrong

The update of a pass sets the due time and the status whatever they are by then. A check-in that
commits after the pass has selected its monitor is overwritten: the monitor says `missed`, and a
missed check-in is recorded although the check-in was there. And the query compares
`next_checkin_at` with the clock, without the margin of the monitor.

## The history

To say what should hold, the tables are accompanied by a history of what set the due time of a
monitor: check-ins, and passes with the date of the due time they had selected. The period of a due
time begins when it is set. A pass that inserts and updates only while no check-in has committed in
the period it selected, and that selects only monitors past their margin, is *undisturbed*.

## Main results

* `MissedCheckIns.run_respects_checkIns`: in a run of undisturbed passes, check-ins are respected;
* `MissedCheckIns.overtaken_pass`: a check-in that is overwritten, and a check-in that is missed
  within its margin. -/

namespace Urgentry

open SqlTable Trace DatedLog List

/-! ## The history -/

/-- What has set the due time of a monitor. -/
inductive DueSource
  | checkIn
  /-- A pass, with the date of the due time that it had selected. -/
  | pass (since : ℕ)
deriving DecidableEq

/-- What has been set. -/
structure DueWrite where
  next : Option Time
  status : CheckInStatus
  source : DueSource
deriving DecidableEq

/-- A missed check-in that was recorded: the monitor, the date and the date of its due time, the due
time, the time of the pass, and the margin of the monitor in minutes. -/
structure MissedRecord where
  monitorID : String
  (time since : ℕ)
  (scheduledFor now : Time)
  margin : ℤ
deriving DecidableEq

/-- The tables, and what has happened to them. -/
structure MonitorWorld where
  db : MonitorDb
  /-- The next date. -/
  clock : ℕ
  writes : List (Entry String DueWrite)
  missed : List MissedRecord

/-- A monitor that a pass has selected, with the date of its due time. -/
structure Selected where
  monitor : Monitor
  since : ℕ
deriving DecidableEq

/-- Where a call stands. -/
inductive MonitorCall
  /-- `SaveCheckIn`, before its transaction. -/
  | checkIn (c : CheckIn)
  /-- `MarkMissed`, before its query. -/
  | pass (now : Time)
  /-- In the loop of `advancePast`, for the first of the monitors. -/
  | advancing (now : Time) (due : Selected) (next : Time) (rest : List Selected)
  /-- Before the `INSERT`. -/
  | inserting (now : Time) (due : Selected) (next : Time) (rest : List Selected)
  /-- Before the `UPDATE`. -/
  | updating (now : Time) (due : Selected) (next : Time) (checkInID : String) (rest : List Selected)
  | done
deriving DecidableEq

/-- The monitors that a pass still has to do with, each with the time of the pass. -/
def MonitorCall.selected : MonitorCall → List (Time × Selected)
  | .advancing now due _ rest | .inserting now due _ rest | .updating now due _ _ rest =>
    (due :: rest).map fun due => (now, due)
  | .checkIn _ | .pass _ | .done => []

/-! ## Changes of the tables -/

namespace MonitorWorld

/-- The tables change at a date. -/
def commit (w : MonitorWorld) (db : MonitorDb) (id : String) (write : DueWrite) : MonitorWorld :=
  { w with db, clock := w.clock + 1, writes := ⟨id, w.clock, write⟩ :: w.writes }

/-- A missed check-in is recorded. -/
def record (w : MonitorWorld) (db : MonitorDb) (r : MissedRecord) : MonitorWorld :=
  { w with db, clock := w.clock + 1, missed := r :: w.missed }

end MonitorWorld

namespace MissedCheckIns

/-! ## Steps -/

section Steps

variable (go : GoLib) (lib : ScheduleLib)

/-- What the environment decides: the generated ids and the clock, and whether a statement fails. -/
structure Choice where
  gen : Generated
  fails : Bool := false
deriving DecidableEq

/-- The margin of a monitor, in minutes. -/
def marginOf (db : MonitorDb) (id : String) : ℤ :=
  ((db.monitors.rows.find? fun row => row.id = id).map fun row => row.config.checkInMargin).getD 0

/-- The record of a missed check-in. -/
def missedRecord (w : MonitorWorld) (now : Time) (due : Selected) : MissedRecord where
  monitorID := due.monitor.id
  time := w.clock
  since := due.since
  scheduledFor := due.monitor.nextCheckInAt
  now := now
  margin := marginOf w.db due.monitor.id

/-- The query of a pass. -/
def select (w : MonitorWorld) (now : Time) : List Selected :=
  (dueRows go now w.db).map fun row => ⟨scanMonitor go row, lastTime w.writes row.id⟩

/-- A pass goes to the next monitor. -/
def nextDue (now clock : Time) : List Selected → MonitorCall
  | [] => .done
  | due :: rest => .advancing now due
      (computeNextCheckIn go lib clock due.monitor.nextCheckInAt due.monitor.config) rest

/-- One access of a call to the database, or one round of the loop of `advancePast`. -/
def advance (choice : Choice) (w : MonitorWorld) : MonitorCall → Option (MonitorCall × MonitorWorld)
  | .checkIn c =>
    if choice.fails then some (.done, w)
    else match saveCheckIn go lib choice.gen c w.db with
      | .error _ => some (.done, w)
      | .ok (id, columns, db) =>
        some (.done, w.commit db id ⟨columns.nextCheckInAt, columns.lastStatus, .checkIn⟩)
  | .pass now =>
    if choice.fails then some (.done, w)
    else some (nextDue go lib now choice.gen.now (select go w now), w)
  | .advancing now due next rest =>
    if advanced next now then some (.inserting now due next rest, w)
    else some (.advancing now due
      (computeNextCheckIn go lib choice.gen.now next due.monitor.config) rest, w)
  | .inserting now due next rest =>
    if choice.fails then some (.done, w)
    else match insertMissed choice.gen due.monitor now w.db with
      | none => some (.done, w)
      | some db => some (.updating now due next choice.gen.checkInID rest,
          w.record db (missedRecord w now due))
  | .updating now due next checkInID rest =>
    if choice.fails then some (.done, w)
    else some (nextDue go lib now choice.gen.now rest,
      w.commit (updateMissed due.monitor.id checkInID now next w.db) due.monitor.id
        ⟨nullIfTime next, .missed, .pass due.since⟩)
  | .done => none

/-- A call begins with a check-in or a pass. -/
def initial : MonitorCall → Bool
  | .checkIn _ | .pass _ => true
  | _ => false

abbrev MonitorSystem := Pool.State MonitorWorld MonitorCall

abbrev MonitorAction := Pool.Action MonitorCall Choice

/-- The steps of all calls. -/
def step : MonitorSystem → MonitorAction → Option MonitorSystem :=
  Pool.step initial (advance go lib)

end Steps

/-- A system in which nothing has happened yet. -/
def start (db : MonitorDb) : MonitorSystem := ⟨⟨db, 1, [], []⟩, []⟩

/-! ## The property -/

/-- A check-in of the monitor has committed after the one date and before the other. -/
def CheckedIn (w : MonitorWorld) (id : String) (since time : ℕ) : Prop :=
  ∃ e ∈ w.writes, e.key = id ∧ e.value.source = .checkIn ∧ since < e.time ∧ e.time < time
deriving Decidable

/-- The time of the pass is past the due time and the margin. -/
def PastMargin (scheduledFor now : Time) (margin : ℤ) : Prop :=
  (scheduledFor.ns : ℤ) + margin * minute.toInt ≤ now.ns
deriving Decidable

/-- **Check-ins are respected.** -/
structure Respected (w : MonitorWorld) : Prop where
  /-- After a check-in, the due time and the status of the monitor are those it has set, as long as
  they were only set again by passes that had selected the monitor before the check-in. -/
  kept : ∀ row ∈ w.db.monitors, ∀ e ∈ w.writes, e.key = row.id → e.value.source = .checkIn →
    (∀ e' ∈ w.writes, e'.key = row.id → e.time < e'.time →
      ∃ since < e.time, e'.value.source = .pass since) →
    row.nextCheckInAt = e.value.next ∧ row.lastStatus = some e.value.status
  /-- No missed check-in is recorded for a period in which a check-in has committed. -/
  period : ∀ r ∈ w.missed, ¬CheckedIn w r.monitorID r.since r.time
  /-- A missed check-in is not recorded before the margin has passed. -/
  margin : ∀ r ∈ w.missed, PastMargin r.scheduledFor r.now r.margin

/-- A pass selects only monitors whose margin has passed, and no check-in of a monitor commits
between the `SELECT` and a write for it: there is none in the period that was selected. -/
def CallUndisturbed (go : GoLib) (w : MonitorWorld) : MonitorCall → Prop
  | .pass now => ∀ due ∈ select go w now,
      PastMargin due.monitor.nextCheckInAt now due.monitor.config.checkInMargin
  | .inserting _ due _ _ | .updating _ due _ _ _ =>
    ¬CheckedIn w due.monitor.id due.since w.clock
  | .checkIn _ | .advancing _ _ _ _ | .done => True

/-- **The condition.** The step of a pass is undisturbed. -/
def Undisturbed (go : GoLib) (s : MonitorSystem) : MonitorAction → Prop
  | .begin _ => True
  | .step i _ => ∀ call ∈ s.workers[i]?, CallUndisturbed go s.shared call

instance (go : GoLib) (w : MonitorWorld) (call : MonitorCall) :
    Decidable (CallUndisturbed go w call) :=
  match call with
  | .pass now => inferInstanceAs (Decidable (∀ due ∈ select go w now, _))
  | .inserting _ due _ _ | .updating _ due _ _ _ =>
    inferInstanceAs (Decidable (¬CheckedIn w due.monitor.id due.since w.clock))
  | .checkIn _ | .advancing _ _ _ _ | .done => isTrue trivial

instance (go : GoLib) (s : MonitorSystem) (a : MonitorAction) : Decidable (Undisturbed go s a) :=
  match a with
  | .begin _ => isTrue trivial
  | .step i _ => inferInstanceAs (Decidable (∀ call ∈ s.workers[i]?, _))

/-! ## What a step does -/

section Inversion

variable {go : GoLib} {lib : ScheduleLib} {choice : Choice} {w w' : MonitorWorld}
  {call call' : MonitorCall}

@[simp]
theorem selected_nextDue (now clock : Time) (due : List Selected) :
    (nextDue go lib now clock due).selected = due.map fun d => (now, d) := by
  cases due <;> rfl

theorem selected_advancing (now : Time) (due : Selected) (next : Time) (rest : List Selected) :
    (MonitorCall.advancing now due next rest).selected = (due :: rest).map fun d => (now, d) := rfl

/-- **What one access of a call does**: nothing, and then the call has to do with monitors that it
had to do with before or that its query selects; or it commits a check-in, or it inserts a missed
check-in, or it updates a monitor. -/
theorem of_advance (h : advance go lib choice w call = some (call', w')) :
    (w' = w ∧ ∀ p ∈ call'.selected, p ∈ call.selected ∨
      (call = .pass p.1 ∧ p.2 ∈ select go w p.1)) ∨
    (∃ c id columns db, call = .checkIn c ∧ call' = .done ∧
      saveCheckIn go lib choice.gen c w.db = .ok (id, columns, db) ∧
      w' = w.commit db id ⟨columns.nextCheckInAt, columns.lastStatus, .checkIn⟩) ∨
    (∃ now due next rest db, call = .inserting now due next rest ∧
      call' = .updating now due next choice.gen.checkInID rest ∧
      insertMissed choice.gen due.monitor now w.db = some db ∧
        w' = w.record db (missedRecord w now due)) ∨
    ∃ now due next checkInID rest, call = .updating now due next checkInID rest ∧
      call' = nextDue go lib now choice.gen.now rest ∧
      w' = w.commit (updateMissed due.monitor.id checkInID now next w.db) due.monitor.id
        ⟨nullIfTime next, .missed, .pass due.since⟩ := by
  cases call with
  | checkIn c =>
    rw [advance] at h
    split at h
    next =>
      cases h
      exact .inl ⟨rfl, forall_mem_nil _⟩
    next =>
      split at h
      next =>
        cases h
        exact .inl ⟨rfl, forall_mem_nil _⟩
      next id columns db hsave =>
        cases h
        exact .inr (.inl ⟨c, id, columns, db, rfl, rfl, hsave, rfl⟩)
  | pass now =>
    rw [advance] at h
    split at h
    next =>
      cases h
      exact .inl ⟨rfl, forall_mem_nil _⟩
    next =>
      cases h
      refine .inl ⟨rfl, fun p hp => .inr ?_⟩
      rw [selected_nextDue, mem_map] at hp
      obtain ⟨due, hdue, rfl⟩ := hp
      exact ⟨rfl, hdue⟩
  | advancing now due next rest =>
    rw [advance] at h
    split at h
    next =>
      cases h
      exact .inl ⟨rfl, fun p hp => .inl hp⟩
    next =>
      rw [Option.some.injEq, Prod.mk.injEq] at h
      rw [← h.1]
      refine .inl ⟨h.2.symm, fun p hp => .inl ?_⟩
      rwa [selected_advancing] at hp ⊢
  | inserting now due next rest =>
    rw [advance] at h
    split at h
    next =>
      cases h
      exact .inl ⟨rfl, forall_mem_nil _⟩
    next =>
      split at h
      next =>
        cases h
        exact .inl ⟨rfl, forall_mem_nil _⟩
      next db hinsert =>
        cases h
        exact .inr (.inr (.inl ⟨now, due, next, rest, db, rfl, rfl, hinsert, rfl⟩))
  | updating now due next checkInID rest =>
    rw [advance] at h
    split at h
    next =>
      cases h
      exact .inl ⟨rfl, forall_mem_nil _⟩
    next =>
      cases h
      exact .inr (.inr (.inr ⟨now, due, next, checkInID, rest, rfl, rfl, rfl⟩))
  | done => cases h

end Inversion

/-! ## Check-ins since a date -/

section CheckedIn

variable {w : MonitorWorld} {db : MonitorDb} {id id' : String} {since time : ℕ} {write : DueWrite}

@[simp]
theorem checkedIn_commit_iff :
    CheckedIn (w.commit db id' write) id since time ↔
      CheckedIn w id since time ∨
        (id' = id ∧ write.source = .checkIn ∧ since < w.clock ∧ w.clock < time) := by
  have hwrites : (w.commit db id' write).writes = ⟨id', w.clock, write⟩ :: w.writes := rfl
  rw [CheckedIn, hwrites]
  simp only [mem_cons, exists_eq_or_imp]
  exact or_comm

/-- All check-ins are before the next date. -/
theorem checkedIn_succ_iff (hdated : Dated w.clock w.writes) :
    CheckedIn w id since (w.clock + 1) ↔ CheckedIn w id since w.clock := by
  constructor
  · rintro ⟨e, he, hkey, hsource, hsince, -⟩
    exact ⟨e, he, hkey, hsource, hsince, hdated.lt e he⟩
  · rintro ⟨e, he, hkey, hsource, hsince, htime⟩
    exact ⟨e, he, hkey, hsource, hsince, Nat.lt_succ_of_lt htime⟩

end CheckedIn

/-! ## The invariant -/

/-- A call tracks a monitor that it has selected: the margin that it has read is that of the
monitor, unless a check-in has committed since. -/
structure Tracks (w : MonitorWorld) (now : Time) (due : Selected) : Prop where
  since_lt : due.since < w.clock
  pastMargin : PastMargin due.monitor.nextCheckInAt now due.monitor.config.checkInMargin
  row : ∃ row ∈ w.db.monitors, row.id = due.monitor.id ∧
    (¬CheckedIn w due.monitor.id due.since w.clock →
      row.config.checkInMargin = due.monitor.config.checkInMargin)

/-- What the history says about the tables. -/
structure Chronicled (w : MonitorWorld) : Prop where
  dated : Dated w.clock w.writes
  /-- Every monitor shows the last write. -/
  shown : ∀ row ∈ w.db.monitors, ∀ e, last? w.writes row.id = some e →
    row.nextCheckInAt = e.value.next ∧ row.lastStatus = some e.value.status
  /-- No pass has written after a check-in in the period that it selected. -/
  passes : ∀ e ∈ w.writes, ∀ since, e.value.source = .pass since → ¬CheckedIn w e.key since e.time
  missed_lt : ∀ r ∈ w.missed, r.time < w.clock
  period : ∀ r ∈ w.missed, ¬CheckedIn w r.monitorID r.since r.time
  margin : ∀ r ∈ w.missed, PastMargin r.scheduledFor r.now r.margin

/-- **The invariant.** -/
structure Inv (s : MonitorSystem) : Prop where
  chronicled : Chronicled s.shared
  tracks : ∀ call ∈ s.workers, ∀ p ∈ call.selected, Tracks s.shared p.1 p.2

/-- **Check-ins are respected** where the history is as the invariant says. The writes after a
check-in would have to come from passes that had selected the monitor before, and there are none. -/
theorem Chronicled.respected {w : MonitorWorld} (h : Chronicled w) : Respected w where
  period := h.period
  margin := h.margin
  kept := by
    intro row hrow e he hkey hsource hlater
    have hlast : last? w.writes e.key = some e := by
      refine h.dated.last?_eq_some he fun e' he' hkey' => ?_
      by_contra hlt
      rw [not_le] at hlt
      obtain ⟨since, hsince, hpass⟩ := hlater e' he' (hkey'.trans hkey) hlt
      exact h.passes e' he' since hpass ⟨e, he, hkey'.symm, hsource, hsince, hlt⟩
    rw [hkey] at hlast
    exact h.shown row hrow e hlast

section Steps

variable {go : GoLib} {lib : ScheduleLib} {w : MonitorWorld} {db : MonitorDb} {id : String}
  {write : DueWrite} {now : Time} {due : Selected}

/-- A write of the due time of a monitor. -/
theorem Chronicled.commit (h : Chronicled w)
    (hset : SetsDue id write.next write.status w.db.monitors db.monitors)
    (hpass : ∀ since, write.source = .pass since → ¬CheckedIn w id since w.clock) :
    Chronicled (w.commit db id write) where
  dated := h.dated.cons
  shown := by
    intro row hrow e hlast
    have hwrites : (w.commit db id write).writes = ⟨id, w.clock, write⟩ :: w.writes := rfl
    rw [hwrites] at hlast
    by_cases hid : row.id = id
    · rw [hid, last?_cons_self, Option.some_inj] at hlast
      rw [← hlast]
      exact hset.shown row hrow hid
    · rw [last?_cons_of_ne (Ne.symm hid)] at hlast
      exact h.shown row ((hset.others row hid).mp hrow) e hlast
  passes := by
    intro e he since hsource
    rw [checkedIn_commit_iff]
    rcases mem_cons.mp he with rfl | he
    · rintro (hchecked | ⟨-, -, -, hlt⟩)
      · exact hpass since hsource hchecked
      · exact lt_irrefl _ hlt
    · rintro (hchecked | ⟨-, -, -, hlt⟩)
      · exact h.passes e he since hsource hchecked
      · exact lt_asymm hlt (h.dated.lt e he)
  missed_lt r hr := Nat.lt_succ_of_lt (h.missed_lt r hr)
  period := by
    intro r hr
    rw [checkedIn_commit_iff]
    rintro (hchecked | ⟨-, -, -, hlt⟩)
    · exact h.period r hr hchecked
    · exact lt_asymm hlt (h.missed_lt r hr)
  margin := h.margin

/-- A missed check-in that is recorded. -/
theorem Chronicled.record (h : Chronicled w) (hdb : db.monitors = w.db.monitors) {r : MissedRecord}
    (htime : r.time = w.clock) (hperiod : ¬CheckedIn w r.monitorID r.since w.clock)
    (hmargin : PastMargin r.scheduledFor r.now r.margin) : Chronicled (w.record db r) where
  dated := h.dated.succ
  shown := by
    intro row hrow
    exact h.shown row (hdb ▸ hrow)
  passes := h.passes
  missed_lt := by
    refine forall_mem_cons.mpr ⟨?_, fun r' hr' => Nat.lt_succ_of_lt (h.missed_lt r' hr')⟩
    rw [htime]
    exact Nat.lt_succ_self w.clock
  period := by
    refine forall_mem_cons.mpr ⟨?_, h.period⟩
    rw [htime]
    exact hperiod
  margin := forall_mem_cons.mpr ⟨hmargin, h.margin⟩

/-- A write does not disturb what a call tracks: the configuration of a monitor changes with
check-ins only. -/
theorem Tracks.commit (h : Tracks w now due)
    (hset : SetsDue id write.next write.status w.db.monitors db.monitors)
    (hconfig : write.source ≠ .checkIn → ∀ row ∈ w.db.monitors, ∃ row' ∈ db.monitors,
      row'.id = row.id ∧ row'.config = row.config) : Tracks (w.commit db id write) now due := by
  obtain ⟨row, hrow, hid, hmargin⟩ := h.row
  refine ⟨Nat.lt_succ_of_lt h.since_lt, h.pastMargin, ?_⟩
  have hearlier : ¬CheckedIn (w.commit db id write) due.monitor.id due.since (w.clock + 1) →
      ¬CheckedIn w due.monitor.id due.since w.clock := by
    rintro hnot ⟨e, he, hkey, hsource, hsince, htime⟩
    exact hnot
      (checkedIn_commit_iff.mpr (.inl ⟨e, he, hkey, hsource, hsince, Nat.lt_succ_of_lt htime⟩))
  by_cases hother : due.monitor.id = id
  · by_cases hsource : write.source = .checkIn
    · obtain ⟨row', hrow', hid'⟩ := hset.exists_row
      refine ⟨row', hrow', hid'.trans hother.symm, fun hnot => absurd ?_ hnot⟩
      exact checkedIn_commit_iff.mpr
        (.inr ⟨hother.symm, hsource, h.since_lt, Nat.lt_succ_self w.clock⟩)
    · obtain ⟨row', hrow', hid', hsame⟩ := hconfig hsource row hrow
      refine ⟨row', hrow', hid'.trans hid, fun hnot => ?_⟩
      rw [hsame]
      exact hmargin (hearlier hnot)
  · refine ⟨row, (hset.others row ?_).mpr hrow, hid, fun hnot => hmargin (hearlier hnot)⟩
    rw [hid]
    exact hother

/-- A record does not disturb it either. -/
theorem Tracks.record (h : Tracks w now due) (hdated : Dated w.clock w.writes)
    (hdb : db.monitors = w.db.monitors) (r : MissedRecord) : Tracks (w.record db r) now due := by
  obtain ⟨row, hrow, hid, hmargin⟩ := h.row
  refine ⟨Nat.lt_succ_of_lt h.since_lt, h.pastMargin, row, ?_, hid, fun hnot => hmargin ?_⟩
  · rwa [← hdb] at hrow
  · exact fun hchecked => hnot ((checkedIn_succ_iff hdated).mpr hchecked)

/-- A monitor that a query selects is tracked. -/
theorem tracks_of_select (hdated : Dated w.clock w.writes) (hdue : due ∈ select go w now)
    (hpast : PastMargin due.monitor.nextCheckInAt now due.monitor.config.checkInMargin) :
    Tracks w now due := by
  obtain ⟨row, hrow, heq⟩ := mem_map.mp hdue
  refine ⟨?_, hpast, row, (mem_of_dueRows hrow).1, ?_, fun _ => ?_⟩
  · rw [← heq]
    exact hdated.lastTime_lt row.id
  · simp only [← heq, scanMonitor]
  · simp only [← heq, scanMonitor, normalizeMonitorConfig]

/-- The margin of the monitor that a call tracks, if no check-in has committed. -/
theorem Tracks.marginOf_eq (h : Tracks w now due)
    (hnot : ¬CheckedIn w due.monitor.id due.since w.clock) :
    marginOf w.db due.monitor.id = due.monitor.config.checkInMargin := by
  obtain ⟨row, hrow, hid, hmargin⟩ := h.row
  have hfind : (w.db.monitors.rows.find? fun r => r.id = due.monitor.id) = some row := by
    refine Table.find?_of_mem hrow (by simpa using hid) fun s hs => ?_
    simp only [decide_eq_true_eq] at hs
    simp [Schema.conflict, hid, hs]
  rw [marginOf, hfind]
  exact hmargin hnot

end Steps

/-- **A step of an undisturbed pass keeps the invariant.** -/
theorem Inv.step {go : GoLib} {lib : ScheduleLib} {s t : MonitorSystem} {a : MonitorAction}
    (h : Inv s) (hok : Undisturbed go s a) (hstep : step go lib s a = some t) : Inv t := by
  rcases Pool.of_step hstep with ⟨call, -, hinitial, rfl⟩
    | ⟨before, call, after, choice, call', w', rfl,
    hworkers, hadvance, rfl⟩
  · refine ⟨h.chronicled, forall_mem_append.mpr ⟨h.tracks, forall_mem_singleton.mpr ?_⟩⟩
    cases call with
    | checkIn _ | pass _ => exact forall_mem_nil _
    | advancing _ _ _ _ | inserting _ _ _ _ | updating _ _ _ _ _ | done => cases hinitial
  · obtain ⟨hbefore, hrest⟩ := forall_mem_append.mp (hworkers ▸ h.tracks)
    obtain ⟨hcall, hafter⟩ := forall_mem_cons.mp hrest
    have htracks := forall_mem_append.mpr ⟨hbefore, hafter⟩
    have hundisturbed : CallUndisturbed go s.shared call := hok call (by simp [hworkers])
    -- the other calls, and the one that has moved
    suffices hsuffices :
      Chronicled w' ∧ (∀ c ∈ before ++ after, ∀ p ∈ c.selected, Tracks w' p.1 p.2) ∧
        ∀ p ∈ call'.selected, Tracks w' p.1 p.2 by
      obtain ⟨hbefore, hafter⟩ := forall_mem_append.mp hsuffices.2.1
      exact ⟨hsuffices.1,
        forall_mem_append.mpr ⟨hbefore, forall_mem_cons.mpr ⟨hsuffices.2.2, hafter⟩⟩⟩
    rcases of_advance hadvance with ⟨rfl, hselected⟩ | ⟨c, id, columns, db, rfl, rfl, hsave, rfl⟩ |
      ⟨now, due, next, rest, db, rfl, rfl, hinsert, rfl⟩ |
      ⟨now, due, next, checkInID, rest, rfl, rfl, rfl⟩
    · refine ⟨h.chronicled, htracks, fun p hp => ?_⟩
      rcases hselected p hp with hp | ⟨rfl, hp⟩
      · exact hcall p hp
      · exact tracks_of_select h.chronicled.dated hp (hundisturbed p.2 hp)
    · have hset := setsDue_saveCheckIn hsave
      refine ⟨h.chronicled.commit hset fun since hsource => ?_, fun c hc p hp => ?_,
        forall_mem_nil _⟩
      · cases hsource
      · exact (htracks c hc p hp).commit hset fun hsource => absurd rfl hsource
    · have hdb := monitors_insertMissed hinsert
      have hnot : ¬CheckedIn s.shared due.monitor.id due.since s.shared.clock := hundisturbed
      have hdue := hcall (now, due) mem_cons_self
      refine ⟨h.chronicled.record hdb rfl hnot ?_, fun c hc p hp => ?_, fun p hp => ?_⟩
      · have hpast := hdue.pastMargin
        rwa [← hdue.marginOf_eq hnot] at hpast
      · exact (htracks c hc p hp).record h.chronicled.dated hdb _
      · exact (hcall p hp).record h.chronicled.dated hdb _
    · have hnot : ¬CheckedIn s.shared due.monitor.id due.since s.shared.clock := hundisturbed
      obtain ⟨row, hrow, hid, -⟩ := (hcall (now, due) mem_cons_self).row
      have hset := @setsDue_updateMissed s.shared.db due.monitor.id checkInID now next
        ⟨row, hrow, hid⟩
      have hconfig : ∀ row ∈ s.shared.db.monitors, ∃ row' ∈
          (updateMissed due.monitor.id checkInID now next s.shared.db).monitors,
          row'.id = row.id ∧ row'.config = row.config := fun row hrow => config_updateMissed hrow
      refine ⟨h.chronicled.commit hset fun since hsource => ?_, fun c hc p hp => ?_, fun p hp => ?_⟩
      · cases hsource
        exact hnot
      · exact (htracks c hc p hp).commit hset fun _ => hconfig
      · rw [selected_nextDue] at hp
        obtain ⟨d, hd, rfl⟩ := mem_map.mp hp
        exact (hcall (now, d) (mem_map_of_mem (mem_cons_of_mem due hd))).commit hset
          fun _ => hconfig

/-- **Check-ins are respected.** In every run of check-ins and undisturbed passes, from any tables
and for every schedule, no check-in is overwritten by a pass that had selected its monitor before,
no missed check-in is recorded for a period with a check-in, and none before the margin has
passed. -/
theorem run_respects_checkIns (go : GoLib) (lib : ScheduleLib) (db : MonitorDb)
    {trace : List (MonitorSystem × MonitorAction)} {t : MonitorSystem}
    (run : Run (step go lib) (start db) trace t)
    (hok : ∀ p ∈ trace, Undisturbed go p.1 p.2) : ∀ u ∈ visited trace t, Respected u.shared := by
  have hstart : Inv (start db) := by
    refine ⟨⟨Dated.nil, ?_, forall_mem_nil _, forall_mem_nil _, forall_mem_nil _,
      forall_mem_nil _⟩, forall_mem_nil _⟩
    intro row _ e he
    exact absurd (mem_of_last? he) not_mem_nil
  intro u hu
  exact (run.invariant hstart (fun h hok hstep => h.step hok hstep) hok u hu).chronicled.respected

/-! ## Runs -/

section Examples

/-- A library for schedules by the minute. -/
def minuteLib : ScheduleLib where
  cron _ _ _ := ⟨0⟩
  addDate t _ _ _ := t

/-- A time some seconds after midnight. -/
def daySeconds (seconds : ℕ) : Time := ⟨Instant.midnight.ns + seconds * 10 ^ 9⟩

/-- A check-in of the monitor `s`, every minute, with this margin. -/
def minutely (margin : ℤ) (seconds : ℕ) : MonitorCall :=
  .checkIn
    { projectID := "p", monitorSlug := "s", status := "ok", dateCreated := daySeconds seconds,
      config := some { schedule := { value := 1, unit := "minute" }, checkInMargin := margin } }

/-- The generated ids of a step. -/
def generated (checkInID : String) : Choice := { gen := ⟨"m", checkInID, checkInID, ⟨1⟩⟩ }

def emptyDb : MonitorDb := ⟨Table.empty, Table.empty⟩

/-- A check-in, a pass that selects its monitor a minute later, and a second check-in before the
pass goes on. -/
def overtaking : List MonitorAction :=
  [.begin (minutely 0 0), .step 0 (generated "a"), .begin (.pass (daySeconds 60)),
    .step 1 (generated "b"), .begin (minutely 0 61), .step 2 (generated "c"),
    .step 1 (generated "d"), .step 1 (generated "e"), .step 1 (generated "f")]

/-- A check-in of a monitor with a margin, and a pass a minute later. -/
def withinMargin : List MonitorAction :=
  [.begin (minutely 5 0), .step 0 (generated "a"), .begin (.pass (daySeconds 60)),
    .step 1 (generated "b"), .step 1 (generated "c"), .step 1 (generated "d")]

/-- A check-in, a pass that finds nothing, a pass that finds the monitor overdue, and a check-in
after it. -/
def undisturbedActions : List MonitorAction :=
  [.begin (minutely 0 0), .step 0 (generated "a"), .begin (.pass (daySeconds 30)),
    .step 1 (generated "b"), .begin (.pass (daySeconds 60)), .step 2 (generated "c"),
    .step 2 (generated "d"), .step 2 (generated "e"), .step 2 (generated "f"),
    .begin (minutely 0 61), .step 3 (generated "g")]

/-- The check-ins of a run with a missed check-in are respected. -/
theorem undisturbedActions_respected : ∃ trace t,
    Run (step asciiLib minuteLib) (start emptyDb) trace t ∧
    (∀ p ∈ trace, Undisturbed asciiLib p.1 p.2) ∧ t.shared.missed.length = 1 ∧
    ∀ u ∈ visited trace t, Respected u.shared := by
  obtain ⟨trace, t, hrun, hok, hmissed⟩ : ∃ trace t,
      Run (step asciiLib minuteLib) (start emptyDb) trace t ∧
      (∀ q ∈ trace, Undisturbed asciiLib q.1 q.2) ∧ t.shared.missed.length = 1 :=
    exists_run undisturbedActions (by decide +kernel)
  exact ⟨trace, t, hrun, hok, hmissed, run_respects_checkIns asciiLib minuteLib emptyDb hrun hok⟩

/-- **The check-in is overwritten**: the status is `missed`, the due time is not that of the
check-in, and a missed check-in is recorded for the period of the check-in. And a missed check-in is
recorded five minutes before the margin has passed. -/
theorem overtaken_pass :
    (∃ trace t, Run (step asciiLib minuteLib) (start emptyDb) trace t ∧
      (∃ row ∈ t.shared.db.monitors, row.lastStatus = some .missed ∧
        row.nextCheckInAt = some (daySeconds 120)) ∧ (∃ e ∈ t.shared.writes,
          e.key = "m" ∧ e.time = 2 ∧
        e.value = ⟨some (daySeconds 121), .ok, .checkIn⟩) ∧
      (∃ r ∈ t.shared.missed, CheckedIn t.shared r.monitorID r.since r.time) ∧
        ¬Respected t.shared) ∧
    ∃ trace t, Run (step asciiLib minuteLib) (start emptyDb) trace t ∧
      ∃ r ∈ t.shared.missed, ¬PastMargin r.scheduledFor r.now r.margin := by
  refine ⟨?_, exists_run withinMargin (by decide +kernel)⟩
  obtain ⟨trace, t, hrun, hrow, hwrite, r, hr, hchecked⟩ : ∃ trace t,
      Run (step asciiLib minuteLib) (start emptyDb) trace t ∧
      (∃ row ∈ t.shared.db.monitors.rows, row.lastStatus = some .missed ∧
        row.nextCheckInAt = some (daySeconds 120)) ∧
      (∃ e ∈ t.shared.writes, e.key = "m" ∧ e.time = 2 ∧
        e.value = ⟨some (daySeconds 121), .ok, .checkIn⟩) ∧
      ∃ r ∈ t.shared.missed, CheckedIn t.shared r.monitorID r.since r.time :=
    exists_run overtaking (by decide +kernel)
  exact ⟨trace, t, hrun, hrow, hwrite, ⟨r, hr, hchecked⟩, fun h => h.period r hr hchecked⟩

end Examples

end MissedCheckIns

end Urgentry
