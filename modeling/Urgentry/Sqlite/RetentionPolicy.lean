import Urgentry.Sqlite.RetentionEvents

/-!
# Retention policies

`applyPolicy` runs the sweep of one telemetry surface of one project. Four of the eight surfaces
are kinds of events, and those are judged by

```
ingested_at < now.Add(-days * 24h).Format(time.RFC3339)
```

which compares a column that SQLite wrote with a cutoff that Go writes. The comparison is decided
by the dates (`expired_row_iff`): an event of the *whole* day on which the cutoff falls is taken for
older than the cutoff. The number of days is not bounded, and the product of `days` and 24 hours
wraps around in 64 bits; it wraps towards a later cutoff (`cutoff_ge`), so this too can only remove
events early.

A statement that deletes rows by their ids binds one variable for each, and SQLite refuses it beyond
its limit of bound variables. That is one of the calls that may fail: the pass stops with an error,
and has removed nothing that a completed pass would not remove.

## Main results

* `holds_applyPolicy`: what a pass does to `events`, whether it completes or not.
* `applyPolicy_timely_iff`: a completed pass treats an event in time unless the policy governs it
  and it was ingested after the end of its retention period, on a day not after the cutoff's; and
  then a pass that stops with an error does not remove it early either. -/

namespace Urgentry

open SqlTable Effect List

section Surfaces

variable (oracle : Oracle) (now : Instant)

/-! ## The surfaces that are not events -/

variable (projectId : String) (retentionDays : Int64)

/-- `deleteTransactionsOlderThan`. -/
def deleteTransactionsOlderThan : Act ℕ := do
  if retentionDays ≤ 0 then return 0
  else
    let cutoff := (retentionCutoff now retentionDays).rfc3339
    let rows ← query oracle "list old traces" fun w =>
      w.transactions.rows.filter fun t => t.projectId == projectId && t.endTimestamp < cutoff
    rows.foldlM (fun _ t => deleteObject oracle (t.payloadKey.getD "")) ⟨⟩
    if rows = [] then return 0
    else
      exec oracle "delete old spans" fun w =>
        { w with spans := w.spans.deleteWhere fun s => s.projectId == projectId
            && (rows.map (·.eventId)).contains s.transactionEventId }
      exec oracle "delete old traces" fun w =>
        { w with transactions := w.transactions.deleteWhere fun t =>
            (rows.map (·.id)).contains t.id }
      return rows.length

/-- One iteration of the loop of `archiveTransactionsOlderThan`: the transaction, its spans, then
the deletions. Returns the number of archived records. -/
def archiveTransaction (item : TransactionRow) : Act ℕ := do
  archiveRecord oracle now projectId .traces (.transaction item)
  let spans ← query oracle "list spans for archive" fun w =>
    w.spans.rows.filter fun s => s.projectId == projectId && s.transactionEventId == item.eventId
  let archived ← archiveListed oracle now projectId .traces .span (fun _ => pure ⟨⟩) spans
  exec oracle "delete archived spans" fun w =>
    { w with spans := w.spans.deleteWhere fun s => s.projectId == projectId
        && s.transactionEventId == item.eventId }
  exec oracle "delete archived transaction" fun w =>
    { w with transactions := w.transactions.deleteWhere (·.id == item.id) }
  return archived + 1

/-- `archiveTransactionsOlderThan`. -/
def archiveTransactionsOlderThan : Act ℕ := do
  if retentionDays ≤ 0 then return 0
  else
    let cutoff := (retentionCutoff now retentionDays).rfc3339
    let txns ← query oracle "list traces to archive" fun w =>
      w.transactions.rows.filter fun t => t.projectId == projectId && t.endTimestamp < cutoff
    txns.foldlM (fun archived item => do
      let n ← archiveTransaction oracle now projectId item
      return archived + n) 0

/-- `deleteOutcomesOlderThan`. -/
def deleteOutcomesOlderThan : Act ℕ := do
  if retentionDays ≤ 0 then return 0
  else
    let cutoff := (retentionCutoff now retentionDays).rfc3339
    let old (o : OutcomeRow) : Bool := o.projectId == projectId && o.recordedAt < cutoff
    let w ← get
    exec oracle "delete old outcomes" fun w => { w with outcomes := w.outcomes.deleteWhere old }
    return w.outcomes.rows.countP old

/-- `archiveOutcomesOlderThan`. -/
def archiveOutcomesOlderThan : Act ℕ := do
  if retentionDays ≤ 0 then return 0
  else
    let cutoff := (retentionCutoff now retentionDays).rfc3339
    let outcomes ← query oracle "list outcomes to archive" fun w =>
      w.outcomes.rows.filter fun o => o.projectId == projectId && o.recordedAt < cutoff
    archiveListed oracle now projectId .outcomes .outcome (fun item =>
      exec oracle "delete archived outcome" fun w =>
        { w with outcomes := w.outcomes.deleteWhere (·.id == item.id) }) outcomes

/-- The test of both attachment queries. The join finds the event of the attachment in its own
project; the attachments of replays are left to the policy of replays. -/
def oldAttachments (cutoff projectId : String) (w : World) : List AttachmentRow :=
  w.attachments.rows.filter fun a => a.projectId == projectId && a.createdAt.any (· < cutoff)
    && !(w.events.rows.any fun e => e.projectId == a.projectId && e.eventId == a.eventId
      && e.eventType == "replay")

/-- `deleteAttachmentsOlderThan`. -/
def deleteAttachmentsOlderThan : Act ℕ := do
  if retentionDays ≤ 0 then return 0
  else
    let cutoff := (retentionCutoff now retentionDays).rfc3339
    deleteListed oracle "list old attachments" "delete old attachments"
      (oldAttachments cutoff projectId) (·.id) (·.objectKey) fun ids w =>
        { w with attachments := w.attachments.deleteWhere fun a => ids.contains a.id }

/-- `archiveOldAttachments`. The rows stay: only their objects move into the archive. -/
def archiveOldAttachments (surface : Surface) (retentionDays : Int64) : Act ℕ := do
  if retentionDays ≤ 0 then return 0
  else
    let cutoff := (retentionCutoff now retentionDays).rfc3339
    let attachments ← query oracle "list attachments to archive" (oldAttachments cutoff projectId)
    archiveListed oracle now projectId surface .attachment (fun _ => pure ⟨⟩) attachments

/-- The test of both debug file queries. -/
def oldDebugFiles (cutoff projectId : String) (w : World) : List DebugFileRow :=
  w.debugFiles.rows.filter fun d => d.projectId == projectId && d.createdAt.any (· < cutoff)

/-- `deleteDebugFilesOlderThan`. -/
def deleteDebugFilesOlderThan : Act ℕ := do
  if retentionDays ≤ 0 then return 0
  else
    let cutoff := (retentionCutoff now retentionDays).rfc3339
    deleteListed oracle "list old debug files" "delete old debug files"
      (oldDebugFiles cutoff projectId) (·.id) (·.objectKey) fun ids w =>
        { w with debugFiles := w.debugFiles.deleteWhere fun d => ids.contains d.id }

/-- `archiveOldDebugFiles`. The rows stay, as with attachments. -/
def archiveOldDebugFiles : Act ℕ := do
  if retentionDays ≤ 0 then return 0
  else
    let cutoff := (retentionCutoff now retentionDays).rfc3339
    let files ← query oracle "list debug files to archive" (oldDebugFiles cutoff projectId)
    archiveListed oracle now projectId .debugFiles .debugFile (fun _ => pure ⟨⟩) files

/-! ## Policies -/

variable (policy : RetentionPolicy)

/-- The shape that all the policy functions share: the archive tier archives and then drops what
has been in the archive for too long, the other tier deletes. Returns the number of archived and of
deleted rows. -/
def applyTier (archiveOld deleteOld : Act ℕ) : Act (ℕ × ℕ) := do
  if policy.storageTier = .archive then
    let archived ← archiveOld
    let deleted ← deleteArchivedSurfacePastBoundary oracle now projectId policy.surface
      policy.archiveRetentionDays
    return (archived, deleted)
  else
    let deleted ← deleteOld
    return (0, deleted)

/-- `applyEventPolicy`. -/
def applyEventPolicy (includeAttachments : Bool) (eventTypes : List String) : Act (ℕ × ℕ) :=
  applyTier oracle now projectId policy
    (archiveEventsByTypeOlderThan oracle now projectId policy.surface includeAttachments
      policy.retentionDays eventTypes)
    (deleteEventsByTypeOlderThan oracle now projectId policy.retentionDays
      includeAttachments eventTypes)

/-- `applyTracePolicy`. -/
def applyTracePolicy : Act (ℕ × ℕ) :=
  applyTier oracle now projectId policy
    (archiveTransactionsOlderThan oracle now projectId policy.retentionDays)
    (deleteTransactionsOlderThan oracle now projectId policy.retentionDays)

/-- `applyOutcomePolicy`. -/
def applyOutcomePolicy : Act (ℕ × ℕ) :=
  applyTier oracle now projectId policy
    (archiveOutcomesOlderThan oracle now projectId policy.retentionDays)
    (deleteOutcomesOlderThan oracle now projectId policy.retentionDays)

/-- `applyAttachmentPolicy`. -/
def applyAttachmentPolicy : Act (ℕ × ℕ) :=
  applyTier oracle now projectId policy
    (archiveOldAttachments oracle now projectId .attachments policy.retentionDays)
    (deleteAttachmentsOlderThan oracle now projectId policy.retentionDays)

/-- `applyDebugFilePolicy`. -/
def applyDebugFilePolicy : Act (ℕ × ℕ) :=
  applyTier oracle now projectId policy
    (archiveOldDebugFiles oracle now projectId policy.retentionDays)
    (deleteDebugFilesOlderThan oracle now projectId policy.retentionDays)

/-- `applyPolicy`. -/
def applyPolicy : Act (ℕ × ℕ) :=
  if policy.storageTier = .hot ∨ policy.retentionDays ≤ 0 then return (0, 0)
  else match policy.surface with
    | .errors => applyEventPolicy oracle now projectId policy false ["error", "security"]
    | .logs => applyEventPolicy oracle now projectId policy false ["log"]
    | .replays => applyEventPolicy oracle now projectId policy true ["replay"]
    | .profiles => applyEventPolicy oracle now projectId policy false ["profile"]
    | .traces => applyTracePolicy oracle now projectId policy
    | .outcomes => applyOutcomePolicy oracle now projectId policy
    | .attachments => applyAttachmentPolicy oracle now projectId policy
    | .debugFiles => applyDebugFilePolicy oracle now projectId policy

end Surfaces

/-! ## What a pass does to `events` -/

/-- The event types that a surface stands for. -/
def Surface.eventTypes : Surface → List String
  | errors => ["error", "security"]
  | logs => ["log"]
  | replays => ["replay"]
  | profiles => ["profile"]
  | _ => []

/-- The events that a pass at `now` is to remove. -/
def RetentionPolicy.sweeps (policy : RetentionPolicy) (now : Instant) (projectId : String)
    (r : EventRow) : Bool :=
  decide (policy.storageTier ≠ .hot) && decide (¬ policy.retentionDays ≤ 0)
    && r.expired (retentionCutoff now policy.retentionDays).rfc3339 projectId
      policy.surface.eventTypes

section Contracts

variable {oracle : Oracle} {now : Instant} (projectId : String) (days : Int64)
  (events : Table EventRow)

theorem keeps_events_deleteTransactions :
    Keeps World.events (deleteTransactionsOlderThan oracle now projectId days) := by
  unfold deleteTransactionsOlderThan
  split
  · exact Keeps.pure _
  · refine Keeps.bind (keeps_query (fun _ _ => rfl) _ _) fun rows =>
      Keeps.bind (Keeps.foldlM (fun _ t => keeps_events_deleteObject _) _ _) fun _ => ?_
    split
    · exact Keeps.pure _
    · exact Keeps.bind (keeps_exec (fun _ _ => rfl) _ fun _ => rfl) fun _ =>
        Keeps.bind (keeps_exec (fun _ _ => rfl) _ fun _ => rfl) fun _ => Keeps.pure _

theorem keeps_events_archiveTransactions :
    Keeps World.events (archiveTransactionsOlderThan oracle now projectId days) := by
  unfold archiveTransactionsOlderThan
  split
  · exact Keeps.pure _
  · refine Keeps.bind (keeps_query (fun _ _ => rfl) _ _) fun txns => Keeps.foldlM ?_ txns 0
    intro archived item
    refine Keeps.bind ?_ fun _ => Keeps.pure _
    exact Keeps.bind (keeps_events_archiveRecord projectId .traces _) fun _ =>
      Keeps.bind (keeps_query (fun _ _ => rfl) _ _) fun spans =>
      Keeps.bind (keeps_events_archiveListed (fun _ => Keeps.pure _) spans) fun _ =>
      Keeps.bind (keeps_exec (fun _ _ => rfl) _ fun _ => rfl) fun _ =>
      Keeps.bind (keeps_exec (fun _ _ => rfl) _ fun _ => rfl) fun _ => Keeps.pure _

theorem keeps_events_deleteOutcomes :
    Keeps World.events (deleteOutcomesOlderThan oracle now projectId days) := by
  unfold deleteOutcomesOlderThan
  split
  · exact Keeps.pure _
  · exact Keeps.bind Keeps.get fun _ =>
      Keeps.bind (keeps_exec (fun _ _ => rfl) _ fun _ => rfl) fun _ => Keeps.pure _

theorem keeps_events_archiveOutcomes :
    Keeps World.events (archiveOutcomesOlderThan oracle now projectId days) := by
  unfold archiveOutcomesOlderThan
  split
  · exact Keeps.pure _
  · refine Keeps.bind (keeps_query (fun _ _ => rfl) _ _) fun outcomes =>
      keeps_events_archiveListed ?_ outcomes
    intro item
    exact keeps_exec (fun _ _ => rfl) _ fun _ => rfl

theorem keeps_events_deleteAttachments :
    Keeps World.events (deleteAttachmentsOlderThan oracle now projectId days) := by
  unfold deleteAttachmentsOlderThan
  split
  · exact Keeps.pure _
  · exact keeps_events_deleteListed fun _ _ => rfl

theorem keeps_events_archiveAttachments (surface : Surface) (days : Int64) :
    Keeps World.events (archiveOldAttachments oracle now projectId surface days) := by
  unfold archiveOldAttachments
  split
  · exact Keeps.pure _
  · exact Keeps.bind (keeps_query (fun _ _ => rfl) _ _) fun attachments =>
      keeps_events_archiveListed (fun _ => Keeps.pure _) attachments

theorem keeps_events_deleteDebugFiles :
    Keeps World.events (deleteDebugFilesOlderThan oracle now projectId days) := by
  unfold deleteDebugFilesOlderThan
  split
  · exact Keeps.pure _
  · exact keeps_events_deleteListed fun _ _ => rfl

theorem keeps_events_archiveDebugFiles :
    Keeps World.events (archiveOldDebugFiles oracle now projectId days) := by
  unfold archiveOldDebugFiles
  split
  · exact Keeps.pure _
  · exact Keeps.bind (keeps_query (fun _ _ => rfl) _ _) fun files =>
      keeps_events_archiveListed (fun _ => Keeps.pure _) files

/-- The two ends of a pass over events that start as `events`, when the pass is to remove the
events that pass the test `p`. -/
def Sweep (events : Table EventRow) (p : EventRow → Bool) (m : Act (ℕ × ℕ)) : Prop :=
  Holds (fun w => w.events = events) m
    (fun _ w => w.events.rows = events.rows.filter fun r => !p r)
    (fun w => ∀ r ∈ events, p r = false → r ∈ w.events)

theorem sweep_of_keeps {events : Table EventRow} {p : EventRow → Bool} {m : Act (ℕ × ℕ)}
    (hp : ∀ r, p r = false) (hm : Keeps World.events m) : Sweep events p m := by
  refine (hm.holds (· = events)).conseq (fun _ h => h) ?_ fun w hw r hr _ => hw ▸ hr
  intro _ w hw
  rw [hw, filter_eq_self.mpr]
  intro r _
  rw [hp r, Bool.not_false]

theorem sweep_applyEventPolicy (projectId : String) (policy : RetentionPolicy)
    (hdays : ¬ policy.retentionDays ≤ 0) (includeAttachments : Bool) {eventTypes : List String}
    (htypes : eventTypes ≠ []) :
    Sweep events
      (EventRow.expired (retentionCutoff now policy.retentionDays).rfc3339 projectId eventTypes)
      (applyEventPolicy oracle now projectId policy includeAttachments eventTypes) := by
  unfold applyEventPolicy applyTier Sweep
  split
  · refine Holds.bind (holds_archiveEventsByTypeOlderThan events projectId policy.surface
      includeAttachments hdays htypes) fun archived => ?_
    refine Holds.bind (((keeps_events_deleteArchivedSurfacePastBoundary projectId policy.surface
      policy.archiveRetentionDays).holds fun t => t.rows = events.rows.filter fun r =>
        !r.expired (retentionCutoff now policy.retentionDays).rfc3339 projectId eventTypes).conseq
      (fun _ h => h) (fun _ _ h => h) ?_) fun deleted => Holds.pure _ fun _ h => h
    intro w hw r hr hkeep
    rw [Table.mem_def, hw, mem_filter]
    exact ⟨hr, by rw [hkeep, Bool.not_false]⟩
  · refine Holds.bind ((holds_deleteEventsByTypeOlderThan events projectId hdays includeAttachments
      htypes).conseq (fun _ h => h) (fun _ _ h => h) fun w hw r hr _ => hw ▸ hr) fun deleted =>
      Holds.pure _ fun _ h => h

/-- **A pass and the events.** One that completes removes exactly the events it is to remove, and
one that stops with an error has removed no other event. -/
theorem holds_applyPolicy (projectId : String) (policy : RetentionPolicy) :
    Sweep events (policy.sweeps now projectId) (applyPolicy oracle now projectId policy) := by
  unfold applyPolicy
  split
  · next hoff =>
    refine sweep_of_keeps (fun r => ?_) (Keeps.pure _)
    rcases hoff with h | h <;> simp [RetentionPolicy.sweeps, h]
  · next hon =>
    obtain ⟨htier, hdays⟩ := not_or.mp hon
    have hsweeps : policy.sweeps now projectId = EventRow.expired
        (retentionCutoff now policy.retentionDays).rfc3339 projectId policy.surface.eventTypes := by
      funext r
      simp only [RetentionPolicy.sweeps, ne_eq, htier, hdays, not_false_eq_true, decide_true,
        Bool.true_and]
    have hevents : policy.surface.eventTypes ≠ [] → ∀ includeAttachments,
        Sweep events (policy.sweeps now projectId) (applyEventPolicy oracle now projectId policy
          includeAttachments policy.surface.eventTypes) := by
      intro htypes includeAttachments
      rw [hsweeps]
      exact sweep_applyEventPolicy events projectId policy hdays includeAttachments htypes
    have hother : policy.surface.eventTypes = [] → ∀ archiveOld deleteOld,
        Keeps World.events archiveOld → Keeps World.events deleteOld →
        Sweep events (policy.sweeps now projectId)
          (applyTier oracle now projectId policy archiveOld deleteOld) := by
      intro htypes archiveOld deleteOld harchive hdelete
      refine sweep_of_keeps (fun r => ?_) ?_
      · rw [hsweeps, htypes, EventRow.expired, contains_nil, Bool.and_false]
      · unfold applyTier
        split
        · exact Keeps.bind harchive fun _ =>
            Keeps.bind (keeps_events_deleteArchivedSurfacePastBoundary _ _ _) fun _ => Keeps.pure _
        · exact Keeps.bind hdelete fun _ => Keeps.pure _
    cases hsurface : policy.surface <;> rw [hsurface] at hevents hother
    case errors | logs | replays | profiles => exact hevents (by decide) _
    case traces =>
      exact hother rfl _ _ (keeps_events_archiveTransactions _ _)
        (keeps_events_deleteTransactions _ _)
    case outcomes =>
      exact hother rfl _ _ (keeps_events_archiveOutcomes _ _) (keeps_events_deleteOutcomes _ _)
    case attachments =>
      exact hother rfl _ _ (keeps_events_archiveAttachments _ _ _)
        (keeps_events_deleteAttachments _ _)
    case debugFiles =>
      exact hother rfl _ _ (keeps_events_archiveDebugFiles _ _) (keeps_events_deleteDebugFiles _ _)

end Contracts

/-! ## The cutoff -/

theorem toInt_retentionDuration (days : Int64) :
    (-days * 24 * hour).toInt = (-days.toInt * 86400000000000).bmod (2 ^ 64) := by
  rw [Int64.toInt_mul, Int64.toInt_mul, Int64.toInt_neg, Int.bmod_mul_bmod, Int.mul_assoc,
    Int.bmod_mul_bmod]
  rfl

/-- The cutoff is never before the end of the retention period: where the product wraps around it
moves the cutoff forward. -/
theorem cutoff_ge (now : Instant) {days : Int64} (hdays : 1 ≤ days.toInt) :
    (now.ns : ℤ) - days.toInt * 86400000000000 ≤ (retentionCutoff now days).ns := by
  have hadd := now.ns_add (-days * 24 * hour)
  have hprod := toInt_retentionDuration days
  rw [retentionCutoff]
  rw [Int.bmod_def] at hprod
  split at hprod <;> omega

/-- **What the comparison decides**: the day of the cutoff counts as older than the cutoff. -/
theorem expired_row_iff (evt : StoredEvent) (i now : Instant) (days : Int64) (projectId : String)
    (eventTypes : List String) :
    (evt.row i.toTime).expired (retentionCutoff now days).rfc3339 projectId eventTypes = true ↔
      evt.projectId = projectId ∧ evt.storedType ∈ eventTypes ∧
        i.day ≤ (retentionCutoff now days).day := by
  have htext := Time.datetime_lt_rfc3339_iff i.writable (now.add_writable (-days * 24 * hour))
  simp only [EventRow.expired, StoredEvent.row, Option.any_some, Bool.and_eq_true, beq_iff_eq,
    decide_eq_true_eq, contains_iff_mem]
  rw [retentionCutoff, htext]
  tauto

/-! ## Retention in time -/

/-- The policy is about events of this project and type, and does not keep them for ever. -/
def RetentionPolicy.Governs (policy : RetentionPolicy) (projectId : String)
    (evt : StoredEvent) : Prop :=
  policy.storageTier ≠ .hot ∧ evt.projectId = projectId ∧
    evt.storedType ∈ policy.surface.eventTypes

/-- The retention period of an event ingested at `i` is over, to the second. -/
def RetentionPolicy.Over (policy : RetentionPolicy) (i now : Instant) : Prop :=
  i.secs + policy.retentionDays.toInt * 86400 ≤ now.secs

instance (policy : RetentionPolicy) (i now : Instant) : Decidable (policy.Over i now) :=
  Int.decLe _ _

/-- A pass is to remove an event exactly when the policy governs it and its day is not after the day
of the cutoff. -/
theorem sweeps_row_iff {now i : Instant} {projectId : String} {policy : RetentionPolicy}
    {evt : StoredEvent} (hdays : 1 ≤ policy.retentionDays.toInt) :
    policy.sweeps now projectId (evt.row i.toTime) = true ↔
      policy.Governs projectId evt ∧ i.day ≤ (retentionCutoff now policy.retentionDays).day := by
  have hpos : ¬ policy.retentionDays ≤ 0 := by
    rw [Int64.le_iff_toInt_le]
    exact not_le.mpr (Int.lt_of_lt_of_le (by decide) hdays)
  rw [RetentionPolicy.sweeps, Bool.and_eq_true, Bool.and_eq_true, decide_eq_true_eq,
    decide_eq_true_eq, expired_row_iff, RetentionPolicy.Governs]
  tauto

theorem day_le_cutoff {now i : Instant} {days : Int64} (hdays : 1 ≤ days.toInt)
    (h : i.ns + days.toInt * 86400000000000 + 1000000000 < now.ns) :
    i.day ≤ (retentionCutoff now days).day := by
  have hge := cutoff_ge now hdays
  have hns : i.ns ≤ (retentionCutoff now days).ns := by omega
  exact Time.day_le_of_secs_le (Nat.div_le_div_right hns)

/-- **When retention is in time.** A completed pass at `now` removes an event that was saved at `i`
only when its retention period is over, and does remove it when the period was over by more than a
second, if and only if the policy does not govern the event, or the period is over, or the event's
day is after the day of the cutoff. In these cases a pass that stops with an error removes the event
only when its period is over, too. -/
theorem applyPolicy_timely_iff (oracle : Oracle) (now i : Instant) (projectId : String)
    (policy : RetentionPolicy) (evt : StoredEvent) (hdays : 1 ≤ policy.retentionDays.toInt)
    {w w' : World} {result : Except String (ℕ × ℕ)} (hstored : evt.row i.toTime ∈ w.events)
    (hrun : (applyPolicy oracle now projectId policy).exec w = (result, w')) :
    (result.isOk = true → (((evt.row i.toTime ∉ w'.events → policy.Over i now) ∧
        (policy.Governs projectId evt →
          i.ns + policy.retentionDays.toInt * 86400000000000 + 1000000000 < now.ns →
          evt.row i.toTime ∉ w'.events)) ↔ (policy.Governs projectId evt → policy.Over i now ∨
        (retentionCutoff now policy.retentionDays).day < i.day))) ∧
    ((policy.Governs projectId evt → policy.Over i now ∨
        (retentionCutoff now policy.retentionDays).day < i.day) →
      evt.row i.toTime ∉ w'.events → policy.Over i now) := by
  have hsweep :
      Sweep w.events (policy.sweeps now projectId) (applyPolicy oracle now projectId policy) :=
    holds_applyPolicy w.events projectId policy
  have hgone : evt.row i.toTime ∉ w'.events → policy.Governs projectId evt ∧
      i.day ≤ (retentionCutoff now policy.retentionDays).day := by
    rw [← sweeps_row_iff hdays]
    intro hnot
    cases result with
    | ok counts =>
      rw [Table.mem_def, hsweep.of_ok rfl hrun, mem_filter, not_and] at hnot
      simpa using hnot hstored
    | error e =>
      by_contra hkept
      exact hnot (hsweep.of_error rfl hrun _ hstored (Bool.not_eq_true _ ▸ hkept))
  have honly (h : policy.Governs projectId evt → policy.Over i now ∨
        (retentionCutoff now policy.retentionDays).day < i.day)
      (hnot : evt.row i.toTime ∉ w'.events) : policy.Over i now :=
    (h (hgone hnot).1).resolve_right (not_lt.mpr (hgone hnot).2)
  refine ⟨fun hok => ?_, honly⟩
  obtain ⟨counts, rfl⟩ : ∃ counts, result = .ok counts := by
    cases result with
    | ok counts => exact ⟨counts, rfl⟩
    | error e => cases hok
  have hremoved (hgoverns : policy.Governs projectId evt)
      (hday : i.day ≤ (retentionCutoff now policy.retentionDays).day) :
      evt.row i.toTime ∉ w'.events := by
    rw [Table.mem_def, hsweep.of_ok rfl hrun, mem_filter,
      (sweeps_row_iff hdays).mpr ⟨hgoverns, hday⟩]
    simp
  constructor
  · rintro ⟨honly, -⟩ hgoverns
    rcases le_or_gt i.day (retentionCutoff now policy.retentionDays).day with hday | hday
    · exact .inl (honly (hremoved hgoverns hday))
    · exact .inr hday
  · intro h
    exact ⟨honly h, fun hgoverns hlate => hremoved hgoverns (day_le_cutoff hdays hlate)⟩

/-! ## A one-day policy at noon -/

/-- An error event of project `p`. -/
def someEvent : StoredEvent := { id := "1", projectId := "p", eventId := "e" }

/-- `2026-03-29`, a number of hours after midnight. -/
def hourOf (h : ℕ) (hlo : 2 ^ 63 ≤ (739703 * 86400 + h * 3600) * 10 ^ 9 := by decide)
    (hhi : (739703 * 86400 + h * 3600) * 10 ^ 9 + 2 ^ 63 <
      Calendar.endOfDates * Calendar.secondsPerDay * 10 ^ 9 := by decide) : Instant :=
  ⟨⟨(739703 * 86400 + h * 3600) * 10 ^ 9⟩, hlo, hhi⟩

/-- When the rows of the examples are written. -/
def morning : Instant := hourOf 6

/-- When retention runs in the examples, more than a day later. -/
def nextNoon : Instant := hourOf 36

/-- Errors are deleted after a day. -/
def oneDay : RetentionPolicy where
  surface := .errors
  retentionDays := 1
  storageTier := .delete
  archiveRetentionDays := 0

/-- A database that holds one event, saved at `i`. -/
def worldWith (i : Instant) : World where
  events := saveEvent .empty someEvent i.toTime
  attachments := .empty
  transactions := .empty
  spans := .empty
  outcomes := .empty
  debugFiles := .empty
  archives := .empty
  hasBlobs := false
  blobs := fun _ => none
  calls := 0

/-- No call fails. -/
def reliable : Oracle where
  fails := fun _ => false
  id := fun n => toString n

/-- An event saved at 18:00 is deleted at noon of the next day, six hours early. -/
theorem oneDay_early :
    let ran := (applyPolicy reliable (hourOf 36) "p" oneDay).exec (worldWith (hourOf 18))
    ran.1.isOk = true ∧ someEvent.row (hourOf 18).toTime ∈ (worldWith (hourOf 18)).events ∧
      someEvent.row (hourOf 18).toTime ∉ ran.2.events ∧ ¬ oneDay.Over (hourOf 18) (hourOf 36) := by
  decide +kernel

/-- An event saved at 06:00 is treated in time at noon of the next day. -/
theorem oneDay_in_time :
    ∃ counts after, (applyPolicy reliable (hourOf 36) "p" oneDay).exec (worldWith (hourOf 6)) =
        (.ok counts, after) ∧
      (someEvent.row (hourOf 6).toTime ∉ after.events → oneDay.Over (hourOf 6) (hourOf 36)) ∧
      (oneDay.Governs "p" someEvent →
        (hourOf 6).ns + oneDay.retentionDays.toInt * 86400000000000 + 1000000000 < (hourOf 36).ns →
        someEvent.row (hourOf 6).toTime ∉ after.events) := by
  have hok : ((applyPolicy reliable (hourOf 36) "p" oneDay).exec (worldWith (hourOf 6))).1 =
      .ok (0, 1) := by decide +kernel
  have hstored : someEvent.row (hourOf 6).toTime ∈ (worldWith (hourOf 6)).events := by
    decide +kernel
  rcases hrun : (applyPolicy reliable (hourOf 36) "p" oneDay).exec (worldWith (hourOf 6))
    with ⟨result, after⟩
  rw [hrun] at hok
  cases hok
  exact ⟨(0, 1), after, rfl, ((applyPolicy_timely_iff reliable (hourOf 36) (hourOf 6) "p" oneDay
    someEvent (by decide) hstored hrun).1 rfl).mpr fun _ => .inl (by decide)⟩

end Urgentry
