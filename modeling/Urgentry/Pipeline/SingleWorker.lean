import Urgentry.Internal.Run
import Urgentry.Sqlite.AppendOnlyEventQueue

/-!
# One worker on the append-only queue

In append-only mode a single durable worker consumes the queue. It claims a job, processes it, and
then either marks it done or puts it back with a delay; meanwhile events are enqueued and the clock
goes on. The process may stop at any point and open the store again, which loses the job in hand and
nothing else.

A job that was put back is not available for a while, and the worker goes on with the next one. When
that one is marked done, `last_seq` passes the number of the job that waits, and the waiting job is
never looked at again. `run_keeps_events_iff` says that this is the only way to lose an event: a run
keeps all its events exactly when every job is marked done while no older event is outstanding.
-/

namespace Urgentry

open SqlTable Trace List Option Function

/-- The queue with its worker. The last three fields record what happened: the rows of the events
that were accepted, the numbers of the jobs marked done, and from when on a job that was put back
may be claimed. -/
structure SingleWorker (F : Fallback) where
  queue : AppendOnlyEventQueue F
  now : Instant
  /-- The id of the job in hand. -/
  held : Option String
  accepted : List LogRow
  done : List ℤ
  due : ℤ → Option Time

/-- What can happen. -/
inductive WorkerAction
  | enqueue (kind projectID : String) (payload : List UInt8) (limit : ℤ)
  | claim (workerID : String) (lease : Duration)
  | markDone
  | requeue (delay : Duration) (lastError : String)
  | wait (later : Instant)
  | reopen

namespace SingleWorker

variable {F : Fallback}

/-- A new store. -/
def start (fallback : F.State) (now : Instant) : SingleWorker F where
  queue := ⟨.empty, fallback⟩
  now := now
  held := none
  accepted := []
  done := []
  due := fun _ => none

variable (lib : GoLib) (s : SingleWorker F)

/-- One step. The worker claims when it has no job in hand, and finishes the job it has. -/
def step : WorkerAction → Option (SingleWorker F)
  | .enqueue kind projectID payload limit =>
    match s.queue.enqueue s.now kind projectID payload limit with
    | (.ok true, queue) =>
      if GoText.trimSpace kind = jobKindEvent then
        let row := s.queue.db.newRow s.now.toTime projectID payload
        some { s with queue, accepted := row :: s.accepted }
      else some { s with queue }
    | (_, queue) => some { s with queue }
  | .claim workerID lease =>
    match s.held with
    | some _ => none
    | none =>
      match s.queue.claimNext lib s.now workerID lease with
      | (.ok (some job), queue) => some { s with queue, held := some job.id }
      | (_, queue) => some { s with queue }
  | .markDone =>
    s.held.map fun jobID =>
      { s with
        queue := (s.queue.markDone s.now jobID).2
        held := none
        done := (parseAppendOnlySeq jobID).toList ++ s.done }
  | .requeue delay lastError =>
    if delay < 0 then none
    else s.held.map fun jobID =>
      { s with
        queue := (s.queue.requeue s.now jobID delay lastError).2
        held := none
        due := match parseAppendOnlySeq jobID with
          | none => s.due
          | some seq => Function.update s.due seq
              (some (s.now.add (QueueDB.requeueDelay delay))) }
  | .wait later => if s.now.ns ≤ later.ns then some { s with now := later } else none
  | .reopen => some { s with held := none }

/-- An accepted event that was not marked done. -/
def Outstanding (row : LogRow) : Prop := row ∈ s.accepted ∧ row.seq ∉ s.done

/-- **No event is lost**: every outstanding event is stored above `last_seq`, and it is the one that
is claimed as soon as its delay has passed, the accepted events before it are done and no other kind
of job waits. -/
structure KeepsEvents : Prop where
  stored : ∀ row, s.Outstanding row → row ∈ s.queue.db.log ∧ s.queue.db.lastSeq < row.seq
  claimed : ∀ row, s.Outstanding row →
    (∀ r ∈ s.accepted, r.seq < row.seq → r.seq ∈ s.done) →
    ∀ now : Instant, s.now.ns ≤ now.ns → (∀ t, s.due row.seq = some t → t.secs ≤ now.secs) →
    ∀ workerID lease, (F.claimNext now workerID lease s.queue.fallback).1 = .ok none →
    ∃ job, (s.queue.claimNext lib now workerID lease).1 = .ok (some job) ∧
      parseAppendOnlySeq job.id = some row.seq ∧ job.projectId = row.projectId ∧
      job.payload = row.payload

/-- A job is marked done only while no older event is outstanding in the log. -/
def InOrder : WorkerAction → Prop
  | .markDone => ∀ jobID ∈ s.held, ∀ seq ∈ parseAppendOnlySeq jobID,
      ∀ row ∈ s.queue.db.log, s.queue.db.lastSeq < row.seq → seq ≤ row.seq
  | _ => True

instance (s : SingleWorker F) : (a : WorkerAction) → Decidable (s.InOrder a)
  | .markDone => inferInstanceAs (Decidable (∀ jobID ∈ _, ∀ seq ∈ _, ∀ row ∈ _, _ → _))
  | .enqueue .. | .claim .. | .requeue .. | .wait _ | .reopen => inferInstanceAs (Decidable True)

/-- What holds along every run whose steps are in order. -/
structure Valid : Prop where
  /-- The log holds accepted events only. -/
  log : ∀ row ∈ s.queue.db.log, row ∈ s.accepted
  /-- What is consumed was given out, and what is done is consumed. -/
  last : s.queue.db.lastSeq ≤ s.queue.db.sequence
  done : ∀ seq ∈ s.done, seq ≤ s.queue.db.lastSeq
  /-- What is not done is stored and not consumed. -/
  stored : ∀ row, s.Outstanding row → row ∈ s.queue.db.log ∧ s.queue.db.lastSeq < row.seq
  /-- The job in hand has a number that was given out. -/
  held : ∀ jobID ∈ s.held, ∀ seq ∈ parseAppendOnlySeq jobID, 0 ≤ seq ∧ seq ≤ s.queue.db.sequence
  /-- The stored delays are the ones that were asked for. -/
  due : ∀ r ∈ s.queue.db.retries, ∃ t : Time, s.due r.seq = some t ∧ t.Writable ∧
    r.availableAt = t.rfc3339

variable {lib} {s t : SingleWorker F} {projectID : String} {payload : List UInt8} {a : WorkerAction}

theorem valid_start (fallback : F.State) (now : Instant) : (start fallback now).Valid where
  log := nofun
  last := le_refl 0
  done := nofun
  stored := fun _ h => absurd h.1 not_mem_nil
  held := nofun
  due := nofun

/-- Outside of its delay a row is available. -/
theorem Valid.available (h : s.Valid) {row : LogRow} {now : Instant}
    (hdue : ∀ t, s.due row.seq = some t → t.secs ≤ now.secs) :
    s.queue.db.available now.toTime row = true := by
  rw [QueueDB.available, Option.all_eq_true]
  intro r hr
  obtain ⟨t, ht, hwritable, htext⟩ := h.due r (mem_of_find?_eq_some hr)
  have hseq : r.seq = row.seq := by simpa using find?_some hr
  rw [hseq] at ht
  rw [decide_eq_true_eq, htext, ← not_lt, Time.rfc3339_lt_iff now.writable hwritable, not_lt]
  exact hdue t ht

theorem Valid.keepsEvents (h : s.Valid) : s.KeepsEvents lib where
  stored := h.stored
  claimed := by
    intro row hout hbefore now _ hdue workerID lease hfallback
    obtain ⟨hrow, hlast⟩ := h.stored row hout
    -- an older row that is not consumed would be an event that is not done
    have hmin : ∀ r ∈ s.queue.db.log, s.queue.db.lastSeq < r.seq → row.seq ≤ r.seq := by
      intro r hr hrlast
      by_contra! hlt
      have hdone := h.done r.seq (hbefore r (h.log r hr) hlt)
      omega
    have hnext := QueueDB.next_eq_some hrow hlast (h.available hdue) hmin
    refine ⟨AppendOnlyEventQueue.logJob lib now s.queue.db row, ?_, ?_, rfl, rfl⟩
    · rcases hclaim : F.claimNext now workerID lease s.queue.fallback with ⟨result, fallback⟩
      rw [hclaim] at hfallback
      cases hfallback
      rw [AppendOnlyEventQueue.claimNext, hclaim, hnext, map_some]
    · have hgiven := s.queue.db.given row hrow
      have hrange := s.queue.db.range
      exact parseAppendOnlySeq_appendOnlyJobID (by omega) (by omega)

/-! ## Steps in order keep the invariant -/

/-- An accepted event gets a number above all the others. -/
theorem Valid.accept (h : s.Valid) {queue : AppendOnlyEventQueue F}
    (hdb : s.queue.db.append s.now.toTime projectID payload = some queue.db) :
    ({ s with queue, accepted := s.queue.db.newRow s.now.toTime projectID payload :: s.accepted } :
      SingleWorker F).Valid := by
  obtain ⟨hlog, hsequence, hconsumers, hretries⟩ := QueueDB.append_eq_some hdb
  have hlast : queue.db.lastSeq = s.queue.db.lastSeq := by
    rw [QueueDB.lastSeq, hconsumers, QueueDB.lastSeq]
  have hmem (row : LogRow) : row ∈ queue.db.log ↔
      row ∈ s.queue.db.log ∨ row = s.queue.db.newRow s.now.toTime projectID payload := by
    rw [Table.mem_def, hlog, mem_append, mem_singleton, Table.mem_def]
  have hsl := h.last
  refine ⟨fun row hrow => ?_, ?_, ?_, ?_, fun jobID hjob seq hseq => ?_, ?_⟩
  · rcases (hmem row).mp hrow with hrow | rfl
    · exact mem_cons_of_mem _ (h.log row hrow)
    · exact mem_cons_self
  · simp only [hlast]
    omega
  · simp only [hlast]
    exact h.done
  · rintro row ⟨hrow, hdone⟩
    simp only [hlast, hmem]
    rcases mem_cons.mp hrow with rfl | hrow
    · refine ⟨.inr rfl, ?_⟩
      simp only [QueueDB.newRow]
      omega
    · obtain ⟨hstored, hlt⟩ := h.stored row ⟨hrow, hdone⟩
      exact ⟨.inl hstored, hlt⟩
  · have hseq := h.held jobID hjob seq hseq
    simp only [hsequence]
    omega
  · simp only [hretries]
    exact h.due

theorem Valid.enqueue {kind : String} {limit : ℤ} (h : s.Valid)
    (hstep : s.step lib (.enqueue kind projectID payload limit) = some t) : t.Valid := by
  rw [SingleWorker.step] at hstep
  rcases hq : s.queue.enqueue s.now kind projectID payload limit with ⟨result, queue⟩
  rw [hq] at hstep
  rcases AppendOnlyEventQueue.enqueue_cases _ hq with ⟨hdb, hnot⟩ | ⟨hkind, rfl, hdb⟩
  · have hsame : ({ s with queue } : SingleWorker F).Valid := by
      refine ⟨?_, ?_, ?_, ?_, ?_, ?_⟩ <;> simp only [hdb]
      exacts [h.log, h.last, h.done, h.stored, h.held, h.due]
    split at hstep
    · next heq =>
      cases heq
      rw [if_neg fun hkind => hnot ⟨hkind, rfl⟩] at hstep
      cases hstep
      exact hsame
    · next heq =>
      cases heq
      cases hstep
      exact hsame
  · simp only [if_pos hkind, some_inj] at hstep
    rw [← hstep]
    exact h.accept hdb

theorem Valid.claim {workerID : String} {lease : Duration} (h : s.Valid)
    (hstep : s.step lib (.claim workerID lease) = some t) : t.Valid := by
  rw [SingleWorker.step] at hstep
  split at hstep
  · cases hstep
  · rcases hq : s.queue.claimNext lib s.now workerID lease with ⟨result, queue⟩
    obtain ⟨hdb, hnumber⟩ := AppendOnlyEventQueue.claimNext_cases _ hq
    rw [hq] at hstep
    split at hstep
    · next heq =>
      cases heq
      cases hstep
      refine ⟨?_, ?_, ?_, ?_, fun jobID hjob seq hseq => ?_, ?_⟩ <;> simp only [hdb]
      · exact h.log
      · exact h.last
      · exact h.done
      · exact h.stored
      · cases hjob
        obtain ⟨row, hrow, rfl, -⟩ := hnumber _ rfl seq hseq
        have hgiven := s.queue.db.given row hrow
        omega
      · exact h.due
    · next heq =>
      cases heq
      cases hstep
      refine ⟨?_, ?_, ?_, ?_, ?_, ?_⟩ <;> simp only [hdb]
      exacts [h.log, h.last, h.done, h.stored, h.held, h.due]

theorem Valid.markDone (h : s.Valid) (horder : s.InOrder .markDone)
    (hstep : s.step lib .markDone = some t) : t.Valid := by
  obtain ⟨jobID, hheld, rfl⟩ := map_eq_some_iff.mp hstep
  rw [AppendOnlyEventQueue.markDone]
  rcases hid : parseAppendOnlySeq jobID with _ | seq
  · exact ⟨h.log, h.last, h.done, h.stored, nofun, h.due⟩
  · obtain ⟨hpos, hgiven⟩ := h.held jobID hheld seq hid
    have hfirst := horder jobID hheld seq hid
    have hlast : (s.queue.db.markDone s.now.toTime seq).lastSeq = max s.queue.db.lastSeq seq :=
      QueueDB.lastSeq_markDone s.now.toTime hpos
    refine ⟨fun row hrow => ?_, ?_, ?_, ?_, nofun, fun r hr => ?_⟩
    · exact h.log row (QueueDB.mem_log_markDone.mp hrow).1
    · have hsequence : (s.queue.db.markDone s.now.toTime seq).sequence = s.queue.db.sequence := by
        unfold QueueDB.markDone
        split <;> rfl
      have hsl := h.last
      simp only [hlast]
      omega
    · intro q hq
      simp only [hlast]
      rcases mem_cons.mp hq with rfl | hq
      · exact le_max_right _ _
      · exact le_trans (h.done q hq) (le_max_left _ _)
    · rintro row ⟨hrow, hdone⟩
      obtain ⟨hne, hdone⟩ := not_or.mp (mt mem_cons.mpr hdone)
      obtain ⟨hstored, hlt⟩ := h.stored row ⟨hrow, hdone⟩
      -- the row is not older than the job, and it is not the job
      have hafter : seq < row.seq := lt_of_le_of_ne (hfirst row hstored hlt) (Ne.symm hne)
      simp only [hlast]
      exact ⟨QueueDB.mem_log_markDone.mpr ⟨hstored, fun _ => hafter⟩, max_lt hlt hafter⟩
    · exact h.due r (QueueDB.mem_retries_of_markDone hr)

theorem Valid.requeue {delay : Duration} {lastError : String} (h : s.Valid)
    (hstep : s.step lib (.requeue delay lastError) = some t) : t.Valid := by
  obtain ⟨-, hstep⟩ := ite_none_left_eq_some.mp hstep
  obtain ⟨jobID, hheld, rfl⟩ := map_eq_some_iff.mp hstep
  rw [AppendOnlyEventQueue.requeue]
  rcases hid : parseAppendOnlySeq jobID with _ | seq
  · exact ⟨h.log, h.last, h.done, h.stored, nofun, h.due⟩
  · refine ⟨h.log, h.last, h.done, h.stored, nofun, fun r hr => ?_⟩
    rcases QueueDB.mem_retries_requeue hr with ⟨hr, hne⟩ | ⟨hseq, htext⟩
    · obtain ⟨u, hu, hwritable, htext⟩ := h.due r hr
      exact ⟨u, (update_of_ne hne _ _).trans hu, hwritable, htext⟩
    · refine ⟨_, ?_, s.now.add_writable _, htext⟩
      rw [hseq]
      exact update_self _ _ _

theorem Valid.step (h : s.Valid) (horder : s.InOrder a) (hstep : s.step lib a = some t) :
    t.Valid := by
  cases a with
  | enqueue => exact h.enqueue hstep
  | claim => exact h.claim hstep
  | markDone => exact h.markDone horder hstep
  | requeue => exact h.requeue hstep
  | wait later =>
    obtain ⟨-, ⟨⟩⟩ := ite_none_right_eq_some.mp hstep
    exact ⟨h.log, h.last, h.done, h.stored, h.held, h.due⟩
  | reopen =>
    cases hstep
    exact ⟨h.log, h.last, h.done, h.stored, nofun, h.due⟩

/-- **A step out of order loses an event.** -/
theorem not_keepsEvents_of_not_inOrder (h : s.Valid) (horder : ¬ s.InOrder a)
    (hstep : s.step lib a = some t) : ¬ t.KeepsEvents lib := by
  cases a with
  | markDone =>
    simp only [InOrder, not_forall] at horder
    obtain ⟨jobID, hheld, seq, hid, row, hrow, hlast, hlt⟩ := horder
    obtain ⟨jobID', hheld', rfl⟩ := map_eq_some_iff.mp hstep
    obtain rfl : jobID' = jobID := some_inj.mp (hheld'.symm.trans hheld)
    obtain ⟨hpos, -⟩ := h.held jobID' hheld seq hid
    intro hkeeps
    have hid' : parseAppendOnlySeq jobID' = some seq := hid
    have hout : row.seq ∉ (parseAppendOnlySeq jobID').toList ++ s.done := by
      rw [hid', toList_some, singleton_append, mem_cons]
      rintro (heq | hdone)
      · omega
      · have hle := h.done row.seq hdone
        omega
    have hafter := (hkeeps.stored row ⟨h.log row hrow, hout⟩).2
    simp only [AppendOnlyEventQueue.markDone, hid'] at hafter
    rw [QueueDB.lastSeq_markDone s.now.toTime hpos] at hafter
    omega
  | _ => exact absurd trivial horder

/-- One hour after midnight. -/
def oneHourLater : Instant :=
  ⟨⟨(739703 * 86400 + 3600) * 10 ^ 9⟩, by decide, by decide⟩

/-- **The runs that lose no event** are those in which every job is marked done in order. -/
theorem run_keeps_events_iff (lib : GoLib) (fallback : F.State) (now : Instant)
    {trace : List (SingleWorker F × WorkerAction)} {t : SingleWorker F}
    (run : Run (step lib) (start fallback now) trace t) :
    (∀ u ∈ visited trace t, u.KeepsEvents lib) ↔ ∀ p ∈ trace, p.1.InOrder p.2 :=
  run.safe_iff (valid_start fallback now) Valid.step Valid.keepsEvents
    not_keepsEvents_of_not_inOrder

/-- An event that is processed at the second attempt is kept all along. -/
theorem retried_event_kept :
    ∃ trace t, Run (step asciiLib) (start (F := .idle) () .midnight) trace t ∧
      t.done = [1] ∧ ∀ u ∈ visited trace t, u.KeepsEvents asciiLib :=
  exists_run_and InOrder [.enqueue "event" "p" [1] 10, .claim "w" 30, .requeue 0 "busy",
    .wait oneHourLater, .claim "w" 30, .markDone] (by decide +kernel)
    fun hrun horder => (run_keeps_events_iff asciiLib () .midnight hrun).mpr horder

/-- **A lost event.** The first event is put back, the second is marked done, and the first is never
claimed again. -/
theorem requeued_event_lost :
    ∃ trace t, Run (step asciiLib) (start (F := .idle) () .midnight) trace t ∧
      (∃ row, t.Outstanding row ∧ row.seq ≤ t.queue.db.lastSeq) ∧
      (t.queue.claimNext asciiLib oneHourLater "w" 30).1 = .ok none := by
  obtain ⟨trace, t, hrun, ⟨row, hrow, hdone, hlast⟩, hnext⟩ : ∃ trace t,
      Run (step asciiLib) (start (F := .idle) () .midnight) trace t ∧
      (∃ row ∈ t.accepted, row.seq ∉ t.done ∧ row.seq ≤ t.queue.db.lastSeq) ∧
      t.queue.db.next oneHourLater.toTime = none :=
    exists_run [.enqueue "event" "p" [1] 10, .enqueue "event" "p" [2] 10, .claim "w" 30,
      .requeue 0 "busy", .claim "w" 30, .markDone] (by decide +kernel)
  refine ⟨trace, t, hrun, ⟨row, ⟨hrow, hdone⟩, hlast⟩, ?_⟩
  simp only [AppendOnlyEventQueue.claimNext, Fallback.idle, hnext, map_none]

end SingleWorker

end Urgentry
