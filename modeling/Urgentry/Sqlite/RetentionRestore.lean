import Urgentry.Sqlite.RetentionPolicy
import Mathlib.Data.List.Sort

/-!
# Restoring from the archive

`RestoreSurface` brings back what retention archived: for each archive record it copies the object
to its old key, inserts the row again, drops the archive record and deletes the archived object.
Like retention itself it runs outside a transaction, and each call can fail.

Two kinds of events are worked on when they are back. A profile without an object of its own gets
one, made from its payload. A replay is indexed again, which sets its processing status. The index
is made of the segments of the replay (`ReplayIndex`), which the archive does not touch: here it may
be any function of the state, and so may the id that a profile is found to have (`RestoreLib`). -/

namespace Urgentry

open SqlTable Effect

/-- What restoring asks of the profile and replay code. Nothing is assumed of the answers. -/
structure RestoreLib where
  /-- `guessProfileID`. -/
  profileId : ArchivedEvent → String
  /-- The replay event that `IndexReplay` finds for the project and event id, by its row id, and the
  processing status and error that it gives to it. It fails when a recording of the replay cannot be
  loaded. -/
  replayIndex : World → String → String →
    Option (String × Except String (ProcessingStatus × String))

/-- The row that an archived event is restored to, when its type is not blank. The columns that the
archive does not have get their defaults. -/
def ArchivedEvent.row (item : ArchivedEvent) : EventRow where
  id := item.id
  projectId := item.projectId
  eventId := item.eventId
  groupId := nullable item.groupId
  release := nullable item.release
  environment := nullable item.environment
  platform := nullable item.platform
  level := nullable item.level
  eventType := item.eventType
  title := nullable item.title
  culprit := nullable item.culprit
  message := nullable item.message
  tagsJson := some item.tagsJson
  payloadJson := some item.payloadJson
  summaryJson := ""
  occurredAt := nullable item.occurredAt
  ingestedAt := nullable item.ingestedAt
  userIdentifier := nullable item.userIdentifier
  payloadKey := nullable item.payloadKey
  processingStatus := .completed
  ingestError := ""

/-- The row that an archived attachment is restored to. -/
def AttachmentRow.restored (item : AttachmentRow) : AttachmentRow :=
  { item with contentType := nullable (item.contentType.getD "") }

/-- The row that an archived transaction is restored to. -/
def TransactionRow.restored (item : TransactionRow) : TransactionRow :=
  { item with payloadKey := nullable (item.payloadKey.getD "") }

/-- The row that an archived debug file is restored to. -/
def DebugFileRow.restored (item : DebugFileRow) : DebugFileRow :=
  { item with
    codeId := nullable (item.codeId.getD "")
    checksum := nullable (item.checksum.getD "")
    contentType := nullable (item.contentType.getD "") }

/-- `profileRawBlobKey`. -/
def profileRawBlobKey (projectId profileId : String) : String :=
  "profiles/" ++ sanitizeKeySegment projectId ++ "/" ++ sanitizeKeySegment profileId ++ ".json"

/-- The bytes of a text. -/
def textBody (s : String) : Body := s.toUTF8.data.toList

section Restore

variable (lib : RestoreLib) (oracle : Oracle)

/-- `restoreObject`. -/
def restoreObject (archiveKey objectKey : String) : Act PUnit := do
  if (← get).hasBlobs = false ∨ archiveKey = "" ∨ objectKey = "" then return ⟨⟩
  else
    match ← blobGet oracle "load archived blob" archiveKey with
    | none => throw "load archived blob"
    | some body => blobPut oracle "restore archived blob" objectKey body

/-- The object of a profile that has none. -/
def rebuildProfileObject (item : ArchivedEvent) : Act PUnit := do
  if (← get).hasBlobs ∧ item.payloadKey = "" ∧ textBody item.payloadJson ≠ [] then
    let key := profileRawBlobKey item.projectId (lib.profileId item)
    blobPut oracle "store rebuilt raw profile blob" key (textBody item.payloadJson)
    exec oracle "update rebuilt profile payload key" fun w => { w with
      events := updateEvent item.id (fun r => { r with payloadKey := some key }) (fun _ _ => rfl)
        w.events }
  else return ⟨⟩

/-- `materializeProfileEventWithQuerier`; the manifest is not modelled. -/
def materializeProfileEvent (item : ArchivedEvent) : Act PUnit := do
  rebuildProfileObject lib oracle item
  call oracle "restore profile manifest"

/-- `reindexReplayEvent`; the manifest is not modelled. -/
def reindexReplayEvent (projectId eventId : String) : Act PUnit := do
  if GoText.trimSpace projectId = "" ∨ GoText.trimSpace eventId = "" then return ⟨⟩
  else
    let w ← get
    match lib.replayIndex w projectId eventId with
    | none => call oracle "load replay restore target"
    | some (_, .error e) =>
      call oracle "restore replay manifest"
      throw e
    | some (rowId, .ok (status, ingestError)) =>
      call oracle "restore replay manifest"
      exec oracle "update replay receipt status" fun w => { w with
        events := updateEvent rowId (fun r =>
          { r with processingStatus := status, ingestError := GoText.trimSpace ingestError })
          (fun _ _ => rfl) w.events }

/-- The part of `restoreArchiveRow` that writes the row of the record. -/
def restoreRow : ArchivedRecord → Act PUnit
  | .event item => execChecked oracle "restore event" fun w =>
    -- `event_type` may not be `NULL`
    if GoText.trimSpace item.eventType = "" then none
    else (w.events.insertUnless item.row (·.id == item.id)).map fun events => { w with events }
  | .attachment item => execChecked oracle "restore attachment" fun w =>
    (w.attachments.insertUnless item.restored (·.id == item.id)).map
      fun attachments => { w with attachments }
  | .transaction item => execChecked oracle "restore transaction" fun w =>
    (w.transactions.insertUnless item.restored (·.id == item.id)).map
      fun transactions => { w with transactions }
  | .span item => execChecked oracle "restore span" fun w =>
    (w.spans.insertUnless item (·.id == item.id)).map fun spans => { w with spans }
  | .outcome item => execChecked oracle "restore outcome" fun w =>
    (w.outcomes.insertUnless item (·.id == item.id)).map fun outcomes => { w with outcomes }
  | .debugFile item => execChecked oracle "restore debug file" fun w =>
    (w.debugFiles.insertUnless item.restored (·.id == item.id)).map
      fun debugFiles => { w with debugFiles }

/-- What `restoreArchiveRow` does with a row that is back. -/
def restoreDetails : ArchivedRecord → Act PUnit
  | .event item => do
    (materializeProfileEvent lib oracle item).when (item.eventType = "profile") ⟨⟩
    (reindexReplayEvent lib oracle item.projectId item.eventId).when (item.eventType = "replay") ⟨⟩
  | .attachment item => reindexReplayEvent lib oracle item.projectId item.eventId
  | _ => pure ⟨⟩

/-- `restoreArchiveRow`. -/
def restoreArchiveRow (archive : ArchiveRow) : Act PUnit := do
  restoreObject oracle (archive.archiveKey.getD "") archive.record.objectKey
  restoreRow oracle archive.record
  restoreDetails lib oracle archive.record
  exec oracle "delete archive record" fun w =>
    { w with archives := w.archives.deleteWhere (·.id == archive.id) }
  deleteObject oracle (archive.archiveKey.getD "")

/-- The archive records that `RestoreSurface` lists: `ORDER BY archived_at ASC, id ASC LIMIT ?`. -/
def listArchives (projectId : String) (surface : Surface) (limit : ℤ) (w : World) :
    List ArchiveRow :=
  let active := w.archives.rows.filter fun a =>
    a.projectId == projectId && a.surface == surface && a.restoredAt == none
  (active.insertionSort fun a b => toLex (a.archivedAt, a.id) ≤ toLex (b.archivedAt, b.id)).take
    (if limit ≤ 0 then 100 else limit.toNat)

/-- `RestoreSurface`. -/
def restoreSurface (projectId : String) (surface : Surface) (limit : ℤ) : Act ℕ := do
  let archives ← query oracle "list archives to restore" (listArchives projectId surface limit)
  archives.foldlM (fun restored archive => do
    restoreArchiveRow lib oracle archive
    return restored + 1) 0

end Restore

end Urgentry
