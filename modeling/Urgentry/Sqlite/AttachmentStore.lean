import Urgentry.Sqlite.World

/-!
# The attachment store

`GetAttachment` and `ListByEvent` of `attachment_store.go`. The metadata are in the table
`event_attachments`; the bytes are objects of the blob store. When the object of an attachment is
missing, `GetAttachment` looks for an active archive of it and puts the archived bytes back.

Neither query names a project. An attachment is found by its id, and the attachments of an event by
the event id.
-/

namespace Urgentry

open SqlTable

/-- `attachment.Attachment`. -/
structure Attachment where
  (id eventId projectId name contentType : String)
  size : ℤ
  objectKey : String
  createdAt : Time
deriving DecidableEq

/-- The tables and objects that the store reads. -/
structure AttachmentDb where
  attachments : Table AttachmentRow
  archives : Table ArchiveRow
  blobs : String → Option Body

/-- The calls of one request to the database and the blob store; each of them is made at most
once. -/
inductive AttachmentCall
  | listByEvent
  | getAttachment
  | getBlob
  | loadArchive
  | getArchivedBlob
  | putBlob
  | deleteArchivedBlob
  | markRestored
  | getRestoredBlob
deriving DecidableEq

/-- What a request has besides the tables and objects: the calls that fail, the clock, and
`sqlutil.ParseDBTime`. -/
structure AttachmentContext where
  fails : AttachmentCall → Bool := fun _ => false
  now : Time := ⟨0⟩
  parseTime : String → Time

variable (ctx : AttachmentContext)

/-- The metadata of a row. -/
def AttachmentRow.attachment (r : AttachmentRow) : Attachment where
  id := r.id
  eventId := r.eventId
  projectId := r.projectId
  name := r.name
  contentType := r.contentType.getD ""
  size := r.sizeBytes
  objectKey := r.objectKey
  -- a `NULL` timestamp leaves the zero time
  createdAt := (r.createdAt.map ctx.parseTime).getD ⟨0⟩

/-! ## Listing -/

/-- `ORDER BY created_at DESC, id DESC`; `NULL` is below every text. -/
def AttachmentRow.notBefore (r s : AttachmentRow) : Bool :=
  match r.createdAt, s.createdAt with
  | some a, some b => b < a || (a == b && s.id ≤ r.id)
  | some _, none => true
  | none, some _ => false
  | none, none => s.id ≤ r.id

/-- `ListByEvent`. -/
def listByEvent (db : AttachmentDb) (eventId : String) : Except String (List Attachment) :=
  if ctx.fails .listByEvent then .error "list attachments"
  else .ok (((db.attachments.rows.filter fun r => r.eventId = eventId).mergeSort
    AttachmentRow.notBefore).map fun r => r.attachment ctx)

/-! ## Loading -/

namespace AttachmentDb

variable (db : AttachmentDb)

/-- `latestActiveTelemetryArchive`; there is at most one active archive of a record. -/
def latestActiveArchive (projectId recordType recordId : String) : Option ArchiveRow :=
  db.archives.rows.find? fun r => r.projectId = projectId ∧ r.record.recordType = recordType ∧
    r.record.recordId = recordId ∧ r.restoredAt = none

variable (projectId recordType recordId archiveKey : String)

/-- The statement that marks an archive as restored. -/
def markRestored : Option (Table ArchiveRow) :=
  db.archives.update
    (fun r => r.projectId = projectId ∧ r.record.recordType = recordType ∧
      r.record.recordId = recordId ∧ r.archiveKey = some archiveKey ∧ r.restoredAt = none)
    fun r => { r with restoredAt := some ctx.now.rfc3339 }

/-- `blobs.Get`. -/
def getBlob (which : AttachmentCall) (key : String) : Except String Body :=
  if ctx.fails which then .error "blob store"
  else match db.blobs key with
    | none => .error "not found"
    | some body => .ok body

/-- The objects after the archived bytes are put back and the archived object is deleted. The error
of the deletion is ignored. -/
def restoredBlobs (objectKey archiveKey : String) (body : Body) : String → Option Body :=
  let restored := Function.update db.blobs objectKey (some body)
  if ctx.fails .deleteArchivedBlob then restored else Function.update restored archiveKey none

/-- The rest of `restoreArchivedBlob`, once the archived bytes are there. -/
def putBack (projectId recordType recordId objectKey archiveKey : String)
    (body : Body) : Except String Unit × AttachmentDb :=
  if ctx.fails .putBlob then (.error "restore archived blob", db)
  else
    let db' := { db with blobs := db.restoredBlobs ctx objectKey archiveKey body }
    if ctx.fails .markRestored then (.error "mark telemetry archive restored", db')
    else match db'.markRestored ctx projectId recordType recordId archiveKey with
      | none => (.error "mark telemetry archive restored", db')
      | some archives => (.ok (), { db' with archives })

/-- `restoreArchivedBlob`. -/
def restoreArchivedBlob (projectId recordType recordId objectKey : String) :
    Except String Unit × AttachmentDb :=
  if objectKey = "" then (.ok (), db)
  else if ctx.fails .loadArchive then (.error "load telemetry archive", db)
  else match (db.latestActiveArchive projectId recordType recordId).map (·.archiveKey.getD "") with
    | none => (.error "not found", db)
    | some archiveKey =>
      if archiveKey = "" then (.error "not found", db)
      else match db.getBlob ctx .getArchivedBlob archiveKey with
        | .error e => (.error e, db)
        | .ok body => db.putBack ctx projectId recordType recordId objectKey archiveKey body

/-- The bytes of an attachment, and the state that loading them leaves behind. -/
def loadBody (r : AttachmentRow) : Except String Body × AttachmentDb :=
  match db.getBlob ctx .getBlob r.objectKey with
  | .ok body => (.ok body, db)
  | .error _ =>
    match db.restoreArchivedBlob ctx r.projectId "attachment" r.id r.objectKey with
    | (.error e, db') => (.error e, db')
    | (.ok _, db') => (db'.getBlob ctx .getRestoredBlob r.objectKey, db')

/-! ### What loading depends on -/

theorem exists_markRestored :
    ∃ archives, db.markRestored ctx projectId recordType recordId archiveKey = some archives := by
  -- a restored archive is no longer active, so it clashes with no more rows than before
  refine Table.exists_update _ fun r s => ?_
  simp only [Schema.conflict]
  split <;> split <;> simp +contextual

variable {ctx} {db db' : AttachmentDb}

theorem getBlob_congr {which : AttachmentCall} {key : String} (h : db.blobs key = db'.blobs key) :
    db.getBlob ctx which key = db'.getBlob ctx which key := by
  rw [getBlob, getBlob, h]

theorem restoredBlobs_objectKey (objectKey archiveKey : String) (body : Body) :
    db.restoredBlobs ctx objectKey archiveKey body objectKey =
      db'.restoredBlobs ctx objectKey archiveKey body objectKey := by
  simp only [restoredBlobs]
  split
  · simp
  · by_cases hkey : objectKey = archiveKey
    · simp [hkey]
    · simp [Function.update_of_ne hkey]

/-- Putting archived bytes back ends the same way whatever else the store holds. -/
theorem putBack_congr (ctx : AttachmentContext) (db db' : AttachmentDb)
    (projectId recordType recordId objectKey archiveKey : String) (body : Body) :
    (∃ e u u',
      db.putBack ctx projectId recordType recordId objectKey archiveKey body = (.error e, u) ∧
      db'.putBack ctx projectId recordType recordId objectKey archiveKey body = (.error e, u')) ∨
    (∃ u u', db.putBack ctx projectId recordType recordId objectKey archiveKey body = (.ok (), u) ∧
      db'.putBack ctx projectId recordType recordId objectKey archiveKey body = (.ok (), u') ∧
      u.blobs objectKey = u'.blobs objectKey) := by
  simp only [putBack]
  by_cases hput : ctx.fails .putBlob = true
  · rw [if_pos hput, if_pos hput]
    exact .inl ⟨_, _, _, rfl, rfl⟩
  rw [if_neg hput, if_neg hput]
  by_cases hmark : ctx.fails .markRestored = true
  · rw [if_pos hmark, if_pos hmark]
    exact .inl ⟨_, _, _, rfl, rfl⟩
  rw [if_neg hmark, if_neg hmark]
  obtain ⟨archives, harchives⟩ := exists_markRestored ctx
    { db with blobs := db.restoredBlobs ctx objectKey archiveKey body }
    projectId recordType recordId archiveKey
  obtain ⟨archives', harchives'⟩ := exists_markRestored ctx
    { db' with blobs := db'.restoredBlobs ctx objectKey archiveKey body }
    projectId recordType recordId archiveKey
  rw [harchives, harchives']
  exact .inr ⟨_, _, rfl, rfl, restoredBlobs_objectKey objectKey archiveKey body⟩

/-- **What loading depends on**: the object, the active archive, and the archived object. -/
theorem loadBody_congr {r : AttachmentRow} (hblob : db.blobs r.objectKey = db'.blobs r.objectKey)
    (harchive : db.latestActiveArchive r.projectId "attachment" r.id =
      db'.latestActiveArchive r.projectId "attachment" r.id)
    (harchived : ∀ archive, db.latestActiveArchive r.projectId "attachment" r.id = some archive →
      ∀ key ∈ archive.archiveKey, db.blobs key = db'.blobs key) :
    (db.loadBody ctx r).1 = (db'.loadBody ctx r).1 := by
  simp only [loadBody, ← @getBlob_congr ctx _ _ _ _ hblob]
  cases db.getBlob ctx .getBlob r.objectKey with
  | ok body => rfl
  | error e =>
    simp only [restoreArchivedBlob, ← harchive]
    by_cases hempty : r.objectKey = ""
    · simp only [hempty]
      exact getBlob_congr (hempty ▸ hblob)
    by_cases hload : ctx.fails .loadArchive = true
    · simp [hempty, hload]
    simp only [if_neg hempty, if_neg hload]
    cases hlatest : db.latestActiveArchive r.projectId "attachment" r.id with
    | none => rfl
    | some archive =>
      simp only [Option.map_some]
      by_cases hkey : archive.archiveKey.getD "" = ""
      · simp [hkey]
      simp only [if_neg hkey]
      have hsame :
          db.blobs (archive.archiveKey.getD "") = db'.blobs (archive.archiveKey.getD "") := by
        obtain ⟨key, hopt⟩ := ArchiveRow.exists_archiveKey hkey
        rw [hopt]
        exact harchived archive hlatest key hopt
      rw [← getBlob_congr hsame]
      cases db.getBlob ctx .getArchivedBlob (archive.archiveKey.getD "") with
      | error e => rfl
      | ok body =>
        rcases putBack_congr ctx db db' r.projectId "attachment" r.id r.objectKey
          (archive.archiveKey.getD "") body with ⟨e, u, u', h, h'⟩ | ⟨u, u', h, h', hblobs⟩
        · simp only [h, h']
        · simp only [h, h']
          exact getBlob_congr hblobs

end AttachmentDb

/-- `GetAttachment`: the metadata and the bytes, both absent when there is no such row. -/
def getAttachment (db : AttachmentDb) (id : String) :
    Except String (Option Attachment × Option Body) × AttachmentDb :=
  if ctx.fails .getAttachment then (.error "load attachment", db)
  else match db.attachments.rows.find? fun r => r.id = id with
    | none => (.ok (none, none), db)
    | some r =>
      let (body, db') := db.loadBody ctx r
      (body.map fun body => (some (r.attachment ctx), some body), db')

end Urgentry
