import Urgentry.Sqlite.GroupStore
import Urgentry.Sqlite.World

/-!
# Sweeping events

Retention removes the rows that are older than a policy allows. This module has the part of it that
works on `events`, with the archive that both halves of retention write to. A sweep either deletes
the events it lists or moves each of them into the archive and deletes it then; neither runs in a
transaction, and every call may fail.

The archive is written before the event is deleted, and the blob store before the archive, so what
a failure leaves behind depends on the call that failed. What it does to `events` does not:
`holds_deleteEventsByTypeOlderThan` and `holds_archiveEventsByTypeOlderThan` say that a sweep that
completes removes exactly the events it lists, and that one that stops half way has removed no
other event.
-/

namespace Urgentry

open SqlTable Effect List Table

/-- `store.TelemetryStorageTier`. -/
inductive StorageTier
  | hot
  | archive
  | delete
deriving DecidableEq

/-- `store.TelemetryRetentionPolicy`. -/
structure RetentionPolicy where
  surface : Surface
  retentionDays : Int64
  storageTier : StorageTier
  archiveRetentionDays : Int64

/-- `time.Hour`. -/
def hour : Duration := 3600000000000

/-- `time.Now().UTC().Add(-time.Duration(days) * 24 * time.Hour)`, with Go's wrapping
multiplication. -/
def retentionCutoff (now : Instant) (days : Int64) : Time := now.add (-days * 24 * hour)

/-- `sanitizeKeySegment`. -/
def sanitizeKeySegment (s : String) : String :=
  let s := GoText.trimSpace s
  if s = "" then "unknown"
  else String.ofList (s.toList.map fun c => if c = '/' ∨ c = '\\' ∨ c = ':' then '_' else c)

/-- `telemetryArchiveBlobKey`. -/
def telemetryArchiveBlobKey (projectId : String) (surface : Surface)
    (recordType recordId : String) : String :=
  "archives/" ++ sanitizeKeySegment projectId ++ "/" ++ surface.text ++ "/"
    ++ sanitizeKeySegment recordType ++ "/" ++ sanitizeKeySegment recordId

section Retention

variable (oracle : Oracle) (now : Instant)

/-! ## The archive -/

variable (projectId : String) (surface : Surface) (record : ArchivedRecord)

/-- The blob part of `archiveRecord`: the object is copied under its archive key, then deleted.
Returns the archive key, or `none` when there was no object to move. -/
def archiveBlob : Act (Option String) := do
  if (← get).hasBlobs = false ∨ record.objectKey = "" then return none
  else
    match ← blobGet oracle ("load blob for archive " ++ record.recordId) record.objectKey with
    | none => return none
    | some body =>
      let archiveKey :=
        telemetryArchiveBlobKey projectId surface record.recordType record.recordId
      blobPut oracle ("write archive blob " ++ record.recordId) archiveKey body
      blobDelete oracle record.objectKey
      return some archiveKey

/-- `archiveRecord`. -/
def archiveRecord : Act PUnit := do
  let archiveKey ← archiveBlob oracle projectId surface record
  let id ← generateID oracle
  execChecked oracle ("insert archive record " ++ record.recordId) fun w =>
    (w.archives.insert
      { id, projectId, surface, record, archiveKey
        archivedAt := now.rfc3339, restoredAt := none }).map fun archives => { w with archives }

/-- The row that `deleteArchivedSurfacePastBoundary` deletes with an archive record: the archiving
of attachments and of debug files left it in its table. -/
def deleteArchivedMetadata : Act PUnit :=
  match surface, record with
  | .attachments, .attachment item =>
    exec oracle "delete archived attachment metadata" fun w =>
      { w with attachments := w.attachments.deleteWhere (·.id == item.id) }
  | .debugFiles, .debugFile item =>
    exec oracle "delete archived debug file metadata" fun w =>
      { w with debugFiles := w.debugFiles.deleteWhere (·.id == item.id) }
  | _, _ => pure ⟨⟩

/-- `_ = s.blobs.Delete(ctx, key)` behind the test that there is a blob store and a key. -/
def deleteObject (key : String) : Act PUnit := do
  if (← get).hasBlobs ∧ key ≠ "" then blobDelete oracle key else return ⟨⟩

/-- `deleteArchivedSurfacePastBoundary`. -/
def deleteArchivedSurfacePastBoundary (archiveRetentionDays : Int64) : Act ℕ := do
  if archiveRetentionDays ≤ 0 then return 0
  else
    let cutoff := (retentionCutoff now archiveRetentionDays).rfc3339
    let archives ← query oracle ("list archived " ++ surface.text ++ " rows") fun w =>
      w.archives.rows.filter fun a => a.projectId == projectId && a.surface == surface
        && a.restoredAt == none && a.archivedAt < cutoff
    archives.foldlM (fun _ a => do
      deleteArchivedMetadata oracle surface a.record
      deleteObject oracle (a.archiveKey.getD "")) ⟨⟩
    if archives = [] then return 0
    else
      exec oracle ("delete archived " ++ surface.text ++ " rows") fun w =>
        { w with archives := w.archives.deleteWhere fun a => (archives.map (·.id)).contains a.id }
      return archives.length

/-! ## The two shapes of a sweep -/

/-- Lists rows, deletes their objects while reading the list, and deletes the rows by their ids in
one statement. -/
def deleteListed {ρ : Type} (listWhat deleteWhat : String) (listing : World → List ρ)
    (id objectKey : ρ → String) (erase : List String → World → World) : Act ℕ := do
  let rows ← query oracle listWhat listing
  rows.foldlM (fun _ r => deleteObject oracle (objectKey r)) ⟨⟩
  if rows.isEmpty then return 0
  else
    exec oracle deleteWhat (erase (rows.map id))
    return rows.length

/-- Archives rows one by one, each followed by what is to be done with an archived row. -/
def archiveListed {ρ : Type} (projectId : String) (surface : Surface)
    (record : ρ → ArchivedRecord) (afterwards : ρ → Act PUnit) (rows : List ρ) : Act ℕ :=
  rows.foldlM (fun archived item => do
    archiveRecord oracle now projectId surface (record item)
    afterwards item
    return archived + 1) 0

/-! ## Events -/

/-- The test of both event queries. -/
def EventRow.expired (cutoff projectId : String) (eventTypes : List String) (r : EventRow) : Bool :=
  r.projectId == projectId && r.ingestedAt.any (· < cutoff) && eventTypes.contains r.eventType

/-- `deleteAttachmentsForEventIDs`. -/
def deleteAttachmentsForEventIDs (eventIds : List String) : Act ℕ := do
  if eventIds = [] then return 0
  else
    deleteListed oracle "list attachments for events" "delete attachments for events"
      (fun w => w.attachments.rows.filter fun a =>
        a.projectId == projectId && eventIds.contains a.eventId)
      (·.id) (·.objectKey) fun ids w =>
        { w with attachments := w.attachments.deleteWhere fun a => ids.contains a.id }

/-- `deleteEventsByTypeOlderThan`. -/
def deleteEventsByTypeOlderThan (retentionDays : Int64)
    (deleteAttachments : Bool) (eventTypes : List String) : Act ℕ := do
  if retentionDays ≤ 0 ∨ eventTypes = [] then return 0
  else
    let cutoff := (retentionCutoff now retentionDays).rfc3339
    let rows ← query oracle "list old events" fun w =>
      w.events.rows.filter (EventRow.expired cutoff projectId eventTypes)
    rows.foldlM (fun _ r => deleteObject oracle (r.payloadKey.getD "")) ⟨⟩
    if rows = [] then return 0
    else
      let _ ← (deleteAttachmentsForEventIDs oracle projectId (rows.map (·.eventId))).when
        deleteAttachments 0
      exec oracle "delete old events" fun w =>
        { w with events := w.events.deleteWhere fun r => (rows.map (·.id)).contains r.id }
      return rows.length

/-- `archiveAttachmentsForEvent`. Scanning a `NULL` creation time is an error. -/
def archiveAttachmentsForEvent (eventId : String) : Act ℕ := do
  let candidates ← query oracle "list attachments for event archive" fun w =>
    w.attachments.rows.filter fun a => a.projectId == projectId && a.eventId == eventId
  if candidates.any (·.createdAt == none) then throw "scan attachment archive candidate"
  else
    archiveListed oracle now projectId surface .attachment (fun item =>
      exec oracle "delete archived attachment" fun w =>
        { w with attachments := w.attachments.deleteWhere (·.id == item.id) }) candidates

/-- What the loop of `archiveEventsByTypeOlderThan` does after archiving an event. -/
def removeArchivedEvent (includeAttachments : Bool) (item : EventRow) : Act PUnit := do
  let _ ← (archiveAttachmentsForEvent oracle now projectId surface item.eventId).when
    includeAttachments 0
  exec oracle "delete archived event" fun w =>
    { w with events := w.events.deleteWhere (·.id == item.id) }

/-- `archiveEventsByTypeOlderThan`. -/
def archiveEventsByTypeOlderThan (includeAttachments : Bool) (retentionDays : Int64)
    (eventTypes : List String) : Act ℕ := do
  if retentionDays ≤ 0 ∨ eventTypes = [] then return 0
  else
    let cutoff := (retentionCutoff now retentionDays).rfc3339
    let candidates ← query oracle ("list " ++ surface.text ++ " events to archive") fun w =>
      w.events.rows.filter (EventRow.expired cutoff projectId eventTypes)
    archiveListed oracle now projectId surface (fun item => .event item.archived)
      (removeArchivedEvent oracle now projectId surface includeAttachments) candidates

end Retention

/-! ## What the event sweeps do to `events` -/

section Contracts

variable {oracle : Oracle} {now : Instant}

theorem keeps_events_blobDelete (key : String) : Keeps World.events (blobDelete oracle key) := by
  refine Keeps.bind Keeps.get fun w => Keeps.bind (Keeps.modify fun _ => rfl) fun _ => ?_
  split
  · exact Keeps.pure _
  · exact Keeps.modify fun _ => rfl

theorem keeps_events_generateID : Keeps World.events (generateID oracle) :=
  Keeps.bind Keeps.get fun _ => Keeps.bind (Keeps.modify fun _ => rfl) fun _ => Keeps.pure _

variable (projectId : String) (surface : Surface) (record : ArchivedRecord)

theorem keeps_events_archiveBlob :
    Keeps World.events (archiveBlob oracle projectId surface record) := by
  refine Keeps.bind Keeps.get fun w => ?_
  split
  · exact Keeps.pure _
  · refine Keeps.bind (keeps_query (fun _ _ => rfl) _ _) fun body => ?_
    cases body with
    | none => exact Keeps.pure _
    | some body =>
      exact Keeps.bind (keeps_exec (fun _ _ => rfl) _ fun _ => rfl) fun _ =>
        Keeps.bind (keeps_events_blobDelete _) fun _ => Keeps.pure _

theorem keeps_events_archiveRecord :
    Keeps World.events (archiveRecord oracle now projectId surface record) := by
  refine Keeps.bind (keeps_events_archiveBlob projectId surface record) fun key =>
    Keeps.bind keeps_events_generateID fun id => keeps_execChecked (fun _ _ => rfl) _ ?_
  intro w w' hw
  obtain ⟨archives, -, rfl⟩ := Option.map_eq_some_iff.mp hw
  rfl

theorem keeps_events_deleteArchivedMetadata :
    Keeps World.events (deleteArchivedMetadata oracle surface record) := by
  unfold deleteArchivedMetadata
  split
  · exact keeps_exec (fun _ _ => rfl) _ fun _ => rfl
  · exact keeps_exec (fun _ _ => rfl) _ fun _ => rfl
  · exact Keeps.pure _

theorem keeps_events_deleteObject (key : String) :
    Keeps World.events (deleteObject oracle key) := by
  refine Keeps.bind Keeps.get fun w => ?_
  split
  · exact keeps_events_blobDelete key
  · exact Keeps.pure _

theorem keeps_events_deleteArchivedSurfacePastBoundary (days : Int64) :
    Keeps World.events (deleteArchivedSurfacePastBoundary oracle now projectId surface days) := by
  unfold deleteArchivedSurfacePastBoundary
  split
  · exact Keeps.pure _
  · refine Keeps.bind (keeps_query (fun _ _ => rfl) _ _) fun archives => Keeps.bind ?_ fun _ => ?_
    · refine Keeps.foldlM ?_ _ _
      intro _ a
      exact Keeps.bind (keeps_events_deleteArchivedMetadata surface _) fun _ =>
        keeps_events_deleteObject _
    · split
      · exact Keeps.pure _
      · exact Keeps.bind (keeps_exec (fun _ _ => rfl) _ fun _ => rfl) fun _ => Keeps.pure _

theorem keeps_events_deleteListed {ρ : Type} {listWhat deleteWhat : String}
    {listing : World → List ρ} {id objectKey : ρ → String} {erase : List String → World → World}
    (h : ∀ ids w, (erase ids w).events = w.events) :
    Keeps World.events (deleteListed oracle listWhat deleteWhat listing id objectKey erase) := by
  refine Keeps.bind (keeps_query (fun _ _ => rfl) _ _) fun rows =>
    Keeps.bind (Keeps.foldlM (fun _ r => keeps_events_deleteObject _) _ _) fun _ => ?_
  split
  · exact Keeps.pure _
  · exact Keeps.bind (keeps_exec (fun _ _ => rfl) _ (h _)) fun _ => Keeps.pure _

theorem keeps_events_archiveListed {ρ : Type} {projectId : String} {surface : Surface}
    {record : ρ → ArchivedRecord} {afterwards : ρ → Act PUnit}
    (h : ∀ item, Keeps World.events (afterwards item)) (rows : List ρ) :
    Keeps World.events (archiveListed oracle now projectId surface record afterwards rows) := by
  refine Keeps.foldlM ?_ rows 0
  intro archived item
  exact Keeps.bind (keeps_events_archiveRecord projectId surface _) fun _ =>
    Keeps.bind (h item) fun _ => Keeps.pure _

theorem keeps_events_deleteAttachmentsForEventIDs (eventIds : List String) :
    Keeps World.events (deleteAttachmentsForEventIDs oracle projectId eventIds) := by
  unfold deleteAttachmentsForEventIDs
  split
  · exact Keeps.pure _
  · exact keeps_events_deleteListed fun _ _ => rfl

theorem keeps_events_archiveAttachmentsForEvent (eventId : String) :
    Keeps World.events (archiveAttachmentsForEvent oracle now projectId surface eventId) := by
  refine Keeps.bind (keeps_query (fun _ _ => rfl) _ _) fun candidates => ?_
  split
  · exact Keeps.throw _
  · refine keeps_events_archiveListed ?_ candidates
    intro item
    exact keeps_exec (fun _ _ => rfl) _ fun _ => rfl

theorem EventRow.conflict_of_id {r s : EventRow} (h : r.id = s.id) :
    Schema.conflict r s = true := by
  simp [Schema.conflict, h]

variable (events : Table EventRow) {days : Int64} {eventTypes : List String} (projectId : String)

/-- **Deleting.** The expired events go in one statement, after everything that may fail. -/
theorem holds_deleteEventsByTypeOlderThan (hdays : ¬ days ≤ 0) (deleteAttachments : Bool)
    (htypes : eventTypes ≠ []) :
    Holds (fun w => w.events = events)
      (deleteEventsByTypeOlderThan oracle now projectId days deleteAttachments eventTypes)
      (fun _ w => w.events.rows = events.rows.filter fun r =>
        !r.expired (retentionCutoff now days).rfc3339 projectId eventTypes)
      (fun w => w.events = events) := by
  unfold deleteEventsByTypeOlderThan
  rw [if_neg (by rintro (h | h) <;> contradiction)]
  refine holds_query_bind (a := events.rows.filter (EventRow.expired _ projectId eventTypes))
    (fun w hw => ⟨hw, by rw [← hw]; rfl⟩) (fun _ h => h) ?_
  refine Holds.bind ((Keeps.foldlM (fun _ r => keeps_events_deleteObject _) _ _).holds (· = events))
    fun _ => ?_
  split
  · next hnone =>
    refine Holds.pure _ fun w hw => ?_
    rw [hw, filter_eq_self.mpr]
    intro r hr
    have := filter_eq_nil_iff.mp hnone r hr
    simpa using this
  · refine Holds.bind
      (((keeps_events_deleteAttachmentsForEventIDs projectId _).when 0).holds (· = events))
        fun _ => ?_
    refine Holds.bind (holds_exec (f := World.events) (P := (· = events)) (fun _ _ => rfl) _ ?_)
      fun _ => Holds.pure _ fun _ hw => hw
    rintro w rfl
    exact rows_deleteWhere_key (fun _ _ => EventRow.conflict_of_id) _ w.events

theorem holds_removeArchivedEvent (P : Table EventRow → Prop) (projectId : String)
    (surface : Surface) (includeAttachments : Bool) (item : EventRow) :
    Holds (fun w => P w.events)
      (removeArchivedEvent oracle now projectId surface includeAttachments item)
      (fun _ w => ∃ events, P events ∧ w.events = events.deleteWhere (·.id == item.id))
      (fun w => P w.events) := by
  refine Holds.bind
    (((keeps_events_archiveAttachmentsForEvent projectId surface _).when 0).holds P) fun _ => ?_
  exact holds_exec (f := World.events) (fun _ _ => rfl) _ fun w hw => ⟨w.events, hw, rfl⟩

/-- The events that are left when those with the ids of `gone` were deleted. -/
def withoutEvents (events : Table EventRow) (gone : List EventRow) : Table EventRow :=
  events.deleteWhere fun r => (gone.map (·.id)).contains r.id

theorem withoutEvents_nil : withoutEvents events [] = events :=
  deleteKeys_nil EventRow.id events

theorem withoutEvents_concat (gone : List EventRow) (item : EventRow) :
    (withoutEvents events gone).deleteWhere (·.id == item.id) =
      withoutEvents events (gone ++ [item]) :=
  deleteKeys_concat EventRow.id gone item events

/-- Deleting events that pass a test leaves those that do not. -/
theorem mem_withoutEvents {events : Table EventRow} {p : EventRow → Bool} {gone : List EventRow}
    (hgone : ∀ s ∈ gone, s ∈ events.rows.filter p) {r : EventRow} (hr : r ∈ events)
    (hp : p r = false) : r ∈ withoutEvents events gone := by
  refine mem_filter.mpr ⟨hr, ?_⟩
  rw [Bool.not_eq_true', Bool.eq_false_iff, ne_eq, contains_iff_mem, mem_map]
  rintro ⟨s, hs, hid⟩
  obtain ⟨hmem, hps⟩ := mem_filter.mp (hgone s hs)
  rw [eq_of_conflict hmem hr (EventRow.conflict_of_id hid), hp] at hps
  exact Bool.false_ne_true hps

/-- **Archiving.** The expired events go one by one, so a failure leaves the later ones. -/
theorem holds_archiveEventsByTypeOlderThan (surface : Surface) (includeAttachments : Bool)
    (hdays : ¬ days ≤ 0) (htypes : eventTypes ≠ []) :
    Holds (fun w => w.events = events)
      (archiveEventsByTypeOlderThan oracle now projectId surface includeAttachments days eventTypes)
      (fun _ w => w.events.rows = events.rows.filter fun r =>
        !r.expired (retentionCutoff now days).rfc3339 projectId eventTypes) (fun w => ∀ r ∈ events,
        r.expired (retentionCutoff now days).rfc3339 projectId eventTypes = false →
          r ∈ w.events) := by
  unfold archiveEventsByTypeOlderThan
  rw [if_neg (by rintro (h | h) <;> contradiction)]
  set p := EventRow.expired (retentionCutoff now days).rfc3339 projectId eventTypes with hp
  refine holds_query_bind (a := events.rows.filter p) (fun w hw => ⟨hw, by rw [← hw]; rfl⟩)
    (fun w hw r hr _ => hw ▸ hr) ?_
  -- After each iteration exactly the events processed so far are gone.
  refine (Holds.foldlM (I := fun gone (_ : ℕ) (w : World) => w.events = withoutEvents events gone)
    _ 0 ?_).conseq ?_ ?_ fun _ h => h
  · intro gone item rest archived hitems
    have herror : ∀ w : World, w.events = withoutEvents events gone →
        ∀ r ∈ events, p r = false → r ∈ w.events := by
      intro w hw r hr hpr
      rw [hw]
      refine mem_withoutEvents (p := p) (fun s hs => ?_) hr hpr
      rw [hitems]
      exact mem_append_left _ hs
    refine Holds.bind
      (((keeps_events_archiveRecord projectId surface _).holds
        (· = withoutEvents events gone)).conseq
        (fun _ h => h) (fun _ _ h => h) herror) fun _ => ?_
    refine Holds.bind (Q := fun _ (w : World) => w.events = withoutEvents events (gone ++ [item]))
      ((holds_removeArchivedEvent (· = withoutEvents events gone) projectId surface
        includeAttachments item).conseq (fun _ h => h) ?_ herror)
      fun _ => Holds.pure _ fun _ h => h
    rintro _ w ⟨_, rfl, hw⟩
    rw [hw, withoutEvents_concat]
  · intro w hw
    rw [hw, withoutEvents_nil]
  · intro _ w hw
    rw [hw]
    exact rows_deleteWhere_key (fun _ _ => EventRow.conflict_of_id) p events

end Contracts

/-! ## Groups without events -/

/-- The query inside `deleteOrphanGroups` names the group. -/
def EventRow.inGroup (projectId groupId : String) (r : EventRow) : Bool :=
  r.projectId == projectId && r.groupId == some groupId && groupId != ""

/-- `deleteOrphanGroups`: one statement. -/
def deleteOrphanGroups (projectId : String) (events : Table EventRow) (groups : Table GroupRow) :
    Table GroupRow :=
  groups.deleteWhere fun g =>
    g.projectId == projectId && !events.rows.any (EventRow.inGroup projectId g.id)

theorem mem_deleteOrphanGroups {projectId : String} {events : Table EventRow}
    {groups : Table GroupRow} {g : GroupRow} :
    g ∈ deleteOrphanGroups projectId events groups ↔
      g ∈ groups ∧ (g.projectId = projectId → ∃ r ∈ events, r.inGroup projectId g.id = true) := by
  refine mem_filter.trans (and_congr_right fun _ => ?_)
  rw [Bool.not_and, Bool.not_not, Bool.or_eq_true, any_eq_true, Bool.not_eq_true',
    beq_eq_false_iff_ne,
    or_iff_not_imp_left, not_not]
  rfl

end Urgentry
