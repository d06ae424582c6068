import Urgentry.Clock
import Urgentry.Internal.SqlTable
import Mathlib.Data.List.Induction

/-!
# The event store

The `events` table, with the columns that the modelled code reads, and `SaveEvent`, the one writer
of events on the ingestion path. `SaveEvent` names twenty columns and leaves out `ingested_at`, so
that column is always filled in by the table default `datetime('now')`: every event that reaches the
table through `SaveEvent` at an instant `i` has SQLite's spelling of `i` there, never Go's.

`SaveEvent` is `INSERT OR IGNORE`. A second event with the row id, or with the project and event
id, of a stored one is dropped without an error. `stored` is the list of the events of a history
that were not dropped, and `rows_saveAll` says that it is what the table holds.
-/

namespace Urgentry

open SqlTable List Schema

/-- `store.EventProcessingStatus`. -/
inductive ProcessingStatus
  | pending
  | processing
  | completed
  | failed
deriving DecidableEq

/-- `store.StoredEvent`. The tags are given by their JSON text, and an unset processing status by
`none`. The summary is the text that `eventSummaryJSON` makes of the payload. -/
structure StoredEvent where
  (id projectId eventId : String)
  groupId : String := ""
  releaseId : String := ""
  environment : String := ""
  platform : String := ""
  level : String := ""
  eventType : String := ""
  occurredAt : Time := ⟨0⟩
  message : String := ""
  title : String := ""
  culprit : String := ""
  tagsJson : String := "null"
  normalizedJson : String := ""
  summaryJson : String := ""
  payloadKey : String := ""
  userIdentifier : String := ""
  processingStatus : Option ProcessingStatus := none
  ingestError : String := ""
deriving DecidableEq

/-- A row of `events`. A column that may be `NULL` is an `Option`. -/
structure EventRow where
  (id projectId eventId : String)
  (groupId release environment platform level : Option String)
  eventType : String
  (title culprit message tagsJson payloadJson : Option String)
  summaryJson : String
  (occurredAt ingestedAt userIdentifier payloadKey : Option String)
  processingStatus : ProcessingStatus
  ingestError : String
deriving DecidableEq

/-- `PRIMARY KEY (id)` and `UNIQUE (project_id, event_id)`. -/
instance : Schema EventRow where
  conflict r s := r.id == s.id || (r.projectId == s.projectId && r.eventId == s.eventId)
  conflict_comm r s := by simp only [Bool.beq_comm]

namespace StoredEvent

/-- `eventWriteFields` fills in the event type. -/
def storedType (evt : StoredEvent) : String :=
  if evt.eventType = "" then "error" else evt.eventType

/-- The row that `SaveEvent` writes when the clock shows `now`. -/
def row (evt : StoredEvent) (now : Time) : EventRow where
  id := evt.id
  projectId := evt.projectId
  eventId := evt.eventId
  groupId := some evt.groupId
  release := some evt.releaseId
  environment := some evt.environment
  platform := some evt.platform
  level := some evt.level
  eventType := evt.storedType
  title := some evt.title
  culprit := some evt.culprit
  message := some evt.message
  tagsJson := some evt.tagsJson
  payloadJson := some evt.normalizedJson
  summaryJson := evt.summaryJson
  occurredAt := some evt.occurredAt.rfc3339
  -- Not among the columns of the statement: the table default.
  ingestedAt := some now.datetime
  userIdentifier := some evt.userIdentifier
  payloadKey := some evt.payloadKey
  processingStatus := evt.processingStatus.getD .completed
  ingestError := evt.ingestError

end StoredEvent

/-- `EventStore.SaveEvent`, executed when the clock shows `now`. -/
def saveEvent (events : Table EventRow) (evt : StoredEvent) (now : Time) : Table EventRow :=
  events.insertOrIgnore (evt.row now)

/-- `EventStore.GetEvent`. -/
def getEvent (events : Table EventRow) (projectId eventId : String) : Option EventRow :=
  events.rows.find? fun r => r.projectId == projectId && r.eventId == eventId

/-- `UPDATE events SET … WHERE id = ?`, for columns outside the unique keys. -/
def updateEvent (id : String) (f : EventRow → EventRow)
    (hf : ∀ s u, Schema.conflict (f s) u = Schema.conflict s u) (events : Table EventRow) :
    Table EventRow :=
  events.map (fun r => if r.id == id then f r else r) fun s u => by
    split
    · exact hf s u
    · rfl

theorem mem_updateEvent {id : String} {f : EventRow → EventRow}
    {hf : ∀ s u, conflict (f s) u = conflict s u} {events : Table EventRow} {r' : EventRow} :
    r' ∈ updateEvent id f hf events ↔ ∃ r ∈ events, (if r.id == id then f r else r) = r' :=
  mem_map

/-! ## Histories of saves -/

/-- One call of `SaveEvent` and the instant at which it runs. -/
structure Save where
  evt : StoredEvent
  instant : Instant

/-- The row a save writes. -/
def Save.row (s : Save) : EventRow := s.evt.row s.instant.toTime

/-- The table after a history of saves, from the empty table. -/
def saveAll (history : List Save) : Table EventRow :=
  history.foldl (fun events s => saveEvent events s.evt s.instant.toTime) .empty

/-- The saves of a history that took effect: those whose keys were not taken by an earlier one. -/
def stored (history : List Save) : List Save :=
  history.foldl
    (fun kept s => if kept.any (fun k => Schema.conflict s.row k.row) then kept else kept ++ [s]) []

theorem rows_saveAll (history : List Save) :
    (saveAll history).rows = (stored history).map Save.row := by
  induction history using reverseRecOn with
  | nil => rfl
  | append_singleton history s ih =>
    have hsave : saveAll (history ++ [s]) = (saveAll history).insertOrIgnore s.row := by
      rw [saveAll, foldl_append]; rfl
    have hstored : stored (history ++ [s]) =
        if (stored history).any (fun k => conflict s.row k.row) then stored history
        else stored history ++ [s] := by
      rw [stored, foldl_append]; rfl
    have hclash : (saveAll history).clashes s.row =
        (stored history).any (fun k => conflict s.row k.row) := by
      rw [Table.clashes, ih, any_map]; rfl
    rw [hsave, hstored, Table.rows_insertOrIgnore, hclash]
    split
    · exact ih
    · rw [ih, map_append, map_singleton]

end Urgentry
