import Urgentry.Sqlite.RetentionRestore

/-!
# Objects on their way into the archive and back

`archiveRecord` moves the object of a record in four calls: it reads the object, writes it under its
archive key, deletes it under its own key, and inserts the archive record. Only then does the caller
delete the row. Between the third call and the fourth, nothing points to the object: the row names a
key that is empty, and there is no archive record. If the process stops there, or the insertion
fails, the object is stranded under a key that nobody knows, and the next pass takes the record for
one without an object.

## Stopping

A call that fails has no effect, and a process that stops makes no further calls, so stopping after
any call is the same, as far as the stores go, as every later call failing. A theorem about all
oracles is about all prefixes.

## Main results

* `archiveRecord_end`: how archiving a record can end.
* `ArchiveSafe.preserves`, `RestoreSafe.preserves`: archiving a record and restoring it keep every
  object in reach, however they end, unless an object is deleted and its archive record does not
  follow, or two records share a key.
-/

namespace Urgentry

open SqlTable Effect GoText List Option Function Schema Table

/-! ## Reaching an object -/

/-- A record, by its type and id. -/
structure RecordRef where
  (recordType recordId : String)
deriving DecidableEq

def ArchivedRecord.ref (r : ArchivedRecord) : RecordRef := ⟨r.recordType, r.recordId⟩

variable (w : World)

/-- The rows that name objects, each with the key that it names. -/
def World.records : List (RecordRef × String) :=
  w.events.rows.map (fun r => (⟨"event", r.id⟩, r.payloadKey.getD "")) ++
    (w.attachments.rows.map (fun r => (⟨"attachment", r.id⟩, r.objectKey)) ++
      (w.transactions.rows.map (fun r => (⟨"transaction", r.id⟩, r.payloadKey.getD "")) ++
        w.debugFiles.rows.map (fun r => (⟨"debug_file", r.id⟩, r.objectKey))))

/-- There is an archive record that points to the object. -/
def World.Archived (ref : RecordRef) (key : String) (body : Body) : Prop :=
  ∃ a ∈ w.archives, a.record.ref = ref ∧ a.record.objectKey = key ∧
    ∃ archiveKey, a.archiveKey = some archiveKey ∧ w.blobs archiveKey = some body

/-- **The property.** The object of a record can be reached: its row is there and its key holds the
object, or there is an archive record of it that points to the object. -/
def World.Reaches (ref : RecordRef) (key : String) (body : Body) : Prop :=
  w.hasBlobs = true ∧ key ≠ "" ∧
    ((ref, key) ∈ w.records ∧ w.blobs key = some body ∨ w.Archived ref key body)

/-- Every object that could be reached can be reached. -/
def World.Preserves (w w' : World) : Prop :=
  ∀ ref key body, w.Reaches ref key body → w'.Reaches ref key body

/-! ## How archiving a record ends -/

/-- The archive record that `archiveRecord` inserts. -/
def archiveRow (now : Instant) (projectId : String) (surface : Surface) (record : ArchivedRecord)
    (id : String) (archiveKey : Option String) : ArchiveRow where
  id
  projectId
  surface
  record
  archiveKey
  archivedAt := now.rfc3339
  restoredAt := none

/-- The objects after one of them was copied, and deleted under its own key or not. -/
def movedBlobs (blobs : String → Option Body) (key archiveKey : String) (body : Body)
    (deleted : Bool) : String → Option Body :=
  let copied := Function.update blobs archiveKey (some body)
  if deleted then Function.update copied key none else copied

/-- The ends of `archiveRecord`. The calls are numbered from where they start: reading the object,
writing it, deleting it, drawing an id, inserting the archive record. -/
inductive ArchiveEnd (oracle : Oracle) (now : Instant) (projectId : String) (surface : Surface)
    (record : ArchivedRecord) (w : World) : Except String PUnit → World → Prop
  /-- Nothing was done. -/
  | failed (e : String) (n : ℕ) :
    ArchiveEnd oracle now projectId surface record w (.error e) { w with calls := n }
  /-- There was no object to move. -/
  | plain (n : ℕ) (id : String) (archives : Table ArchiveRow)
    (hobject : w.hasBlobs = true → record.objectKey ≠ "" → w.blobs record.objectKey = none)
    (hinsert : w.archives.insert (archiveRow now projectId surface record id none) =
      some archives) :
    ArchiveEnd oracle now projectId surface record w (.ok ⟨⟩) { w with archives, calls := n }
  /-- The object was copied, and the archive record was not inserted. -/
  | stuck (e : String) (n : ℕ) (body : Body) (deleted : Bool) (hblobs : w.hasBlobs = true)
    (hkey : record.objectKey ≠ "") (hbody : w.blobs record.objectKey = some body)
    (hstuck : deleted = true → oracle.fails w.calls = false ∧ oracle.fails (w.calls + 1) = false ∧
      oracle.fails (w.calls + 2) = false ∧ (oracle.fails (w.calls + 4) = true ∨
        w.archives.insert (archiveRow now projectId surface record (oracle.id (w.calls + 3))
          (some (telemetryArchiveBlobKey projectId surface record.recordType record.recordId))) =
            none)) :
    ArchiveEnd oracle now projectId surface record w (.error e)
      { w with
        blobs := movedBlobs w.blobs record.objectKey
          (telemetryArchiveBlobKey projectId surface record.recordType record.recordId) body deleted
        calls := n }
  /-- The object was moved. -/
  | moved (n : ℕ) (id : String) (archives : Table ArchiveRow) (body : Body) (deleted : Bool)
    (hblobs : w.hasBlobs = true) (hkey : record.objectKey ≠ "")
    (hbody : w.blobs record.objectKey = some body)
    (hinsert : w.archives.insert (archiveRow now projectId surface record id
      (some (telemetryArchiveBlobKey projectId surface record.recordType record.recordId))) =
      some archives) :
    ArchiveEnd oracle now projectId surface record w (.ok ⟨⟩)
      { w with
        blobs := movedBlobs w.blobs record.objectKey
          (telemetryArchiveBlobKey projectId surface record.recordType record.recordId) body deleted
        archives
        calls := n }

section ArchiveEnds

variable {oracle : Oracle} {now : Instant} {projectId : String} {surface : Surface}
  {record : ArchivedRecord} {w : World}

/-- `archiveRecord` after the object: an id is drawn and the archive record inserted. -/
theorem exec_archiveRecord {archiveKey : Option String} {w' : World}
    (hblob : (archiveBlob oracle projectId surface record).exec w = (.ok archiveKey, w')) :
    (archiveRecord oracle now projectId surface record).exec w =
      if oracle.fails w'.tick.calls then
        (.error ("insert archive record " ++ record.recordId), w'.tick.tick)
      else match w'.archives.insert
          (archiveRow now projectId surface record (oracle.id w'.calls) archiveKey) with
        | some archives => (.ok ⟨⟩, { w'.tick.tick with archives })
        | none => (.error ("insert archive record " ++ record.recordId), w'.tick.tick) := by
  unfold archiveRecord
  rw [exec_bind_ok hblob, exec_bind_ok (exec_generateID w'), exec_execChecked]
  refine if_congr Iff.rfl rfl ?_
  dsimp only [World.tick, archiveRow]
  generalize insert _ w'.archives = inserted
  cases inserted <;> rfl

/-- Nothing is moved when there is no object to move. -/
theorem exec_archiveBlob_none (projectId : String) (surface : Surface)
    (hnone : w.hasBlobs = true → record.objectKey ≠ "" →
      oracle.fails w.calls = false ∧ w.blobs record.objectKey = none) :
    ∃ n,
      (archiveBlob oracle projectId surface record).exec w = (.ok none, { w with calls := n }) := by
  change ∃ n, Action.exec (if w.hasBlobs = false ∨ record.objectKey = "" then _ else _) w = _
  split_ifs with hobject
  · exact ⟨w.calls, rfl⟩
  · obtain ⟨hblobs, hkey⟩ := not_or.mp hobject
    obtain ⟨hget, hbody⟩ := hnone (Bool.of_not_eq_false hblobs) hkey
    refine ⟨w.calls + 1, exec_bind_ok (a := none) ?_⟩
    rw [exec_blobGet, hget, hbody]
    rfl

/-- Moving the object, when there is one. -/
theorem exec_archiveBlob_some {body : Body} (hblobs : w.hasBlobs = true)
    (hkey : record.objectKey ≠ "") (hget : oracle.fails w.calls = false)
    (hbody : w.blobs record.objectKey = some body) (hput : oracle.fails (w.calls + 1) = false) :
    (archiveBlob oracle projectId surface record).exec w =
      (.ok (some (telemetryArchiveBlobKey projectId surface record.recordType record.recordId)),
        { w with
          blobs := movedBlobs w.blobs record.objectKey
            (telemetryArchiveBlobKey projectId surface record.recordType record.recordId) body
            (!oracle.fails (w.calls + 2))
          calls := w.calls + 3 }) := by
  have hobject : ¬(w.hasBlobs = false ∨ record.objectKey = "") := by simp [hblobs, hkey]
  have hload (what : String) :
      (blobGet oracle what record.objectKey).exec w = (.ok (some body), w.tick) := by
    rw [exec_blobGet, hget, hbody]
    rfl
  have hwrite (what key : String) : (blobPut oracle what key body).exec w.tick =
      (.ok ⟨⟩, { w.tick.tick with blobs := update w.blobs key (some body) }) := by
    rw [exec_blobPut, show w.tick.calls = w.calls + 1 from rfl, hput]
    rfl
  change Action.exec (if w.hasBlobs = false ∨ record.objectKey = "" then _ else _) w = _
  rw [if_neg hobject, exec_bind_ok (hload _), exec_bind_ok (hwrite _ _),
    exec_bind_ok (exec_blobDelete _ _)]
  show (_, if oracle.fails (w.calls + 2) then _ else _) = _
  cases oracle.fails (w.calls + 2) <;> rfl

/-- An error before the object is written. -/
theorem exec_archiveBlob_error (projectId : String) (surface : Surface) (hblobs : w.hasBlobs = true)
    (hkey : record.objectKey ≠ "") (hfails : oracle.fails w.calls = true ∨
      oracle.fails (w.calls + 1) = true ∧ w.blobs record.objectKey ≠ none) :
    ∃ e n,
      (archiveBlob oracle projectId surface record).exec w = (.error e, { w with calls := n }) := by
  have hobject : ¬(w.hasBlobs = false ∨ record.objectKey = "") := by simp [hblobs, hkey]
  change ∃ e n, Action.exec (if w.hasBlobs = false ∨ record.objectKey = "" then _ else _) w = _
  rw [if_neg hobject]
  by_cases hget : oracle.fails w.calls = true
  · refine ⟨"load blob for archive " ++ record.recordId, w.calls + 1, exec_bind_error ?_⟩
    rw [exec_blobGet, hget]
    rfl
  · obtain ⟨hput, hsome⟩ := hfails.resolve_left hget
    obtain ⟨body, hbody⟩ := ne_none_iff_exists'.mp hsome
    have hload (what : String) :
        (blobGet oracle what record.objectKey).exec w = (.ok (some body), w.tick) := by
      rw [exec_blobGet, Bool.of_not_eq_true hget, hbody]
      rfl
    rw [exec_bind_ok (hload _)]
    refine ⟨"write archive blob " ++ record.recordId, w.calls + 2, exec_bind_error ?_⟩
    rw [exec_blobPut, show w.tick.calls = w.calls + 1 from rfl, hput]
    rfl

/-- **The ends of `archiveRecord`.** -/
theorem archiveRecord_end :
    ArchiveEnd oracle now projectId surface record w
      ((archiveRecord oracle now projectId surface record).exec w).1
      ((archiveRecord oracle now projectId surface record).exec w).2 := by
  by_cases hnone : w.hasBlobs = true → record.objectKey ≠ "" →
      oracle.fails w.calls = false ∧ w.blobs record.objectKey = none
  · obtain ⟨n, hblob⟩ := exec_archiveBlob_none projectId surface hnone
    rw [exec_archiveRecord hblob]
    split
    · exact .failed _ _
    · split
      · next hinsert => exact .plain _ _ _ (fun hblobs hkey => (hnone hblobs hkey).2) hinsert
      · exact .failed _ _
  · simp only [Classical.not_imp] at hnone
    obtain ⟨hblobs, hkey, hsome⟩ := hnone
    by_cases hfails : oracle.fails w.calls = true ∨
        oracle.fails (w.calls + 1) = true ∧ w.blobs record.objectKey ≠ none
    · obtain ⟨e, n, hblob⟩ := exec_archiveBlob_error projectId surface hblobs hkey hfails
      rw [archiveRecord, exec_bind_error hblob]
      exact .failed e n
    · obtain ⟨hget, hput⟩ := not_or.mp hfails
      rw [Bool.not_eq_true] at hget
      obtain ⟨body, hbody⟩ := ne_none_iff_exists'.mp fun h => hsome ⟨hget, h⟩
      have hput : oracle.fails (w.calls + 1) = false := by simpa [hbody] using hput
      rw [exec_archiveRecord (exec_archiveBlob_some hblobs hkey hget hbody hput)]
      split_ifs with hinsert
      · refine .stuck _ _ body _ hblobs hkey hbody fun hdelete => ⟨hget, hput, ?_, .inl hinsert⟩
        simpa using hdelete
      · split
        · next hinsert => exact .moved _ _ _ body _ hblobs hkey hbody hinsert
        · next hinsert =>
          refine .stuck _ _ body _ hblobs hkey hbody fun hdelete => ⟨hget, hput, ?_, .inr hinsert⟩
          simpa using hdelete

end ArchiveEnds

/-! ## Archiving keeps the objects in reach -/

variable (w : World)

/-- A key that a row or an archive record names. -/
def World.Uses (key : String) : Prop :=
  (∃ o ∈ w.records, o.2 = key) ∨ ∃ a ∈ w.archives.rows, a.archiveKey = some key

/-- The object key and the archive key of a record serve no other record. -/
@[mk_iff]
structure KeysFree (record : ArchivedRecord) (archiveKey : String) : Prop where
  distinct : archiveKey ≠ record.objectKey
  /-- No row names the archive key. -/
  rows : ∀ o ∈ w.records, o.2 ≠ archiveKey
  /-- No archive record points to the object key. -/
  object : ∀ a ∈ w.archives.rows, a.archiveKey ≠ some record.objectKey
  /-- Only archive records of this record point to the archive key. -/
  archive : ∀ a ∈ w.archives.rows, a.archiveKey = some archiveKey →
    a.record.ref = record.ref ∧ a.record.objectKey = record.objectKey

/-- **The condition on moving an object into the archive.** -/
@[mk_iff]
structure MoveSafe (oracle : Oracle) (now : Instant) (projectId : String) (surface : Surface)
    (record : ArchivedRecord) (w : World) (archiveKey : String) (body : Body) : Prop where
  keys : KeysFree w record archiveKey
  /-- No other row names the object key. -/
  owner : ∀ o ∈ w.records, o.2 = record.objectKey → o.1 = record.ref
  /-- An object that is under the archive key already is the same. -/
  copy : ∀ old ∈ w.blobs archiveKey, old = body
  /-- Deleting the object is followed by inserting the archive record, unless there is one. -/
  inserted : oracle.fails w.calls = false → oracle.fails (w.calls + 1) = false →
    oracle.fails (w.calls + 2) = false →
    (∃ a ∈ w.archives.rows, a.record.ref = record.ref ∧ a.record.objectKey = record.objectKey ∧
      a.archiveKey = some archiveKey) ∨
    (oracle.fails (w.calls + 4) = false ∧
      (w.archives.insert (archiveRow now projectId surface record
      (oracle.id (w.calls + 3)) (some archiveKey))).isSome)

/-- **The condition on archiving a record.** -/
@[mk_iff]
structure ArchiveSafe (oracle : Oracle) (now : Instant) (projectId : String) (surface : Surface)
    (record : ArchivedRecord) (w : World) : Prop where
  /-- The record is not out of date: its row, if it is there, names its object. -/
  current : ∀ o ∈ w.records, o.1 = record.ref → o.2 = record.objectKey
  object : w.hasBlobs = true → record.objectKey ≠ "" → ∀ body ∈ w.blobs record.objectKey,
    MoveSafe oracle now projectId surface record w
      (telemetryArchiveBlobKey projectId surface record.recordType record.recordId) body

theorem World.Preserves.refl : w.Preserves w := fun _ _ _ h => h

theorem World.Preserves.trans {w w' w'' : World} (h : w.Preserves w') (h' : w'.Preserves w'') :
    w.Preserves w'' :=
  fun ref key body hreach => h' ref key body (h ref key body hreach)

theorem World.preserves_calls (n : ℕ) : w.Preserves { w with calls := n } :=
  fun _ _ _ h => h

/-- More archive records reach no less. -/
theorem World.preserves_archives {w : World} {archives : Table ArchiveRow}
    (h : ∀ a ∈ w.archives, a ∈ archives) (n : ℕ) : w.Preserves { w with archives, calls := n } := by
  rintro ref key body ⟨hblobs, hkey, hrow | ⟨a, ha, hrest⟩⟩
  · exact ⟨hblobs, hkey, .inl hrow⟩
  · exact ⟨hblobs, hkey, .inr ⟨a, h a ha, hrest⟩⟩

section Move

variable {oracle : Oracle} {now : Instant} {projectId archiveKey key : String} {surface : Surface}
  {record : ArchivedRecord} {w : World} {body : Body} {deleted : Bool}
  {blobs : String → Option Body}
  {archives : Table ArchiveRow}

theorem movedBlobs_of_ne {other : String} (harchive : other ≠ archiveKey)
    (hkey : other ≠ key) : movedBlobs blobs key archiveKey body deleted other = blobs other := by
  cases deleted <;> simp [movedBlobs, harchive, hkey]

theorem movedBlobs_archiveKey (hne : archiveKey ≠ key) :
    movedBlobs blobs key archiveKey body deleted archiveKey = some body := by
  cases deleted <;> simp [movedBlobs, hne]

theorem movedBlobs_key (hne : archiveKey ≠ key) :
    movedBlobs blobs key archiveKey body deleted key = if deleted then none else blobs key := by
  cases deleted <;> simp [movedBlobs, hne.symm]

/-- Moving an object keeps what the archive records point to. -/
theorem MoveSafe.archived (h : MoveSafe oracle now projectId surface record w archiveKey body)
    (harchives : ∀ a ∈ w.archives, a ∈ archives) (n : ℕ) {ref : RecordRef} {body' : Body}
    (hat : w.Archived ref key body') :
    World.Archived { w with
      blobs := movedBlobs w.blobs record.objectKey archiveKey body deleted, archives, calls := n }
      ref key body' := by
  obtain ⟨a, ha, href, hobject, at', hpoint, hat⟩ := hat
  refine ⟨a, harchives a ha, href, hobject, at', hpoint, ?_⟩
  by_cases hsame : at' = archiveKey
  · subst hsame
    rw [h.copy body' hat]
    exact movedBlobs_archiveKey h.keys.distinct
  · refine (movedBlobs_of_ne hsame fun heq => ?_).trans hat
    exact h.keys.object a ha (heq ▸ hpoint)

/-- **Moving an object** keeps all objects in reach when an archive record points to the copy, or
the object is still where it was. -/
theorem MoveSafe.preserves (h : MoveSafe oracle now projectId surface record w archiveKey body)
    (hbody : w.blobs record.objectKey = some body) (harchives : ∀ a ∈ w.archives, a ∈ archives)
    (hpoints : deleted = false ∨ ∃ a ∈ archives, a.record.ref = record.ref ∧
      a.record.objectKey = record.objectKey ∧ a.archiveKey = some archiveKey) (n : ℕ) :
    w.Preserves { w with
      blobs := movedBlobs w.blobs record.objectKey archiveKey body deleted, archives,
        calls := n } := by
  rintro ref key body' ⟨hblobs, hkey, ⟨hrow, hat⟩ | hat⟩
  · refine ⟨hblobs, hkey, ?_⟩
    by_cases hsame : key = record.objectKey
    · -- the object itself
      subst hsame
      obtain rfl : body = body' := some.inj (hbody.symm.trans hat)
      rcases hpoints with rfl | ⟨a, ha, href, hobject, hpoint⟩
      · refine .inl ⟨hrow, ?_⟩
        dsimp only
        rwa [movedBlobs_key h.keys.distinct]
      · have howner : ref = record.ref := h.owner _ hrow rfl
        exact .inr ⟨a, ha, href.trans howner.symm, hobject, archiveKey, hpoint,
          movedBlobs_archiveKey h.keys.distinct⟩
    · exact .inl ⟨hrow, (movedBlobs_of_ne (h.keys.rows _ hrow) hsame).trans hat⟩
  · exact ⟨hblobs, hkey, .inr (h.archived harchives n hat)⟩

end Move

/-- **Archiving a record** keeps the objects in reach, however it ends. -/
theorem ArchiveSafe.preserves {oracle : Oracle} {now : Instant} {projectId : String}
    {surface : Surface} {record : ArchivedRecord} {w w' : World} {res : Except String PUnit}
    (h : ArchiveSafe oracle now projectId surface record w)
    (hend : ArchiveEnd oracle now projectId surface record w res w') : w.Preserves w' := by
  cases hend with
  | failed e n => exact w.preserves_calls n
  | plain n id archives hobject hinsert =>
    exact World.preserves_archives (fun a ha => mem_of_insert hinsert ha) n
  | stuck e n body deleted hblobs hkey hbody hstuck =>
    have hsafe := h.object hblobs hkey body hbody
    refine hsafe.preserves hbody (fun a ha => ha) ?_ n
    cases deleted with
    | false => exact .inl rfl
    | true =>
      obtain ⟨hget, hput, hdelete, hnot⟩ := hstuck rfl
      refine .inr ((hsafe.inserted hget hput hdelete).resolve_right ?_)
      rintro ⟨hok, hsome⟩
      rcases hnot with hfails | hnone
      · rw [hok] at hfails
        exact absurd hfails Bool.false_ne_true
      · rw [hnone] at hsome
        cases hsome
  | moved n id archives body deleted hblobs hkey hbody hinsert =>
    have hsafe := h.object hblobs hkey body hbody
    refine hsafe.preserves hbody (fun a ha => mem_of_insert hinsert ha) (.inr ?_) n
    exact ⟨_, mem_of_insert_self hinsert, rfl, rfl, rfl⟩

/-! ## Restoring keeps the objects in reach -/

/-- The object that restoring copies back. -/
def World.archivedObject (w : World) (archive : ArchiveRow) : Option Body :=
  if w.hasBlobs = true ∧ archive.archiveKey.getD "" ≠ "" ∧ archive.record.objectKey ≠ "" then
    w.blobs (archive.archiveKey.getD "")
  else none

/-- The key under which restoring stores the payload of a profile that has no object. -/
def RestoreLib.rebuiltKey (lib : RestoreLib) : ArchivedRecord → Option String
  | .event item =>
    if item.eventType = "profile" ∧ item.payloadKey = "" ∧ textBody item.payloadJson ≠ [] then
      some (profileRawBlobKey item.projectId (lib.profileId item))
    else none
  | _ => none

/-- **The condition on copying an object back.** -/
@[mk_iff]
structure CopySafe (record : ArchivedRecord) (w : World) (archiveKey : String) (body : Body) :
    Prop where
  named : archiveKey ≠ ""
  keys : KeysFree w record archiveKey
  /-- The row that is inserted names the object. -/
  notBlank : record.objectKey ≠ "" → trimSpace record.objectKey ≠ ""
  /-- An object that is under the object key already is the same. -/
  copy : ∀ old ∈ w.blobs record.objectKey, old = body

/-- **The condition on restoring a record.** -/
@[mk_iff]
structure RestoreSafe (lib : RestoreLib) (archive : ArchiveRow) (w : World) : Prop where
  /-- The archive record is not out of date. -/
  current : ∀ a ∈ w.archives.rows, a.id = archive.id → a = archive
  /-- A row with the id of the record names its object. -/
  row : ∀ o ∈ w.records, o.1 = archive.record.ref → o.2 = archive.record.objectKey
  object : w.hasBlobs = true → ∀ archiveKey ∈ archive.archiveKey, ∀ body ∈ w.blobs archiveKey,
    CopySafe archive.record w archiveKey body
  /-- Nothing else is stored under the key of a profile that gets an object. -/
  rebuilt : w.hasBlobs = true → ∀ key ∈ lib.rebuiltKey archive.record, ¬w.Uses key

/-- What holds while a record is restored, until its archive record is deleted. -/
structure Restoring (w₀ : World) (archive : ArchiveRow) (w : World) : Prop where
  hasBlobs : w.hasBlobs = w₀.hasBlobs
  archives : w.archives = w₀.archives
  records : ∀ o ∈ w₀.records, o.2 ≠ "" → o ∈ w.records
  blobs : ∀ key body, w₀.Uses key → w₀.blobs key = some body → w.blobs key = some body
  object : ∀ body, w₀.archivedObject archive = some body →
    w.blobs archive.record.objectKey = some body

/-- The row of the record names the object. -/
def RowBack (w₀ : World) (archive : ArchiveRow) (w : World) : Prop :=
  ∀ body, w₀.archivedObject archive = some body →
    (archive.record.ref, archive.record.objectKey) ∈ w.records

section Restoring

variable {lib : RestoreLib} {oracle : Oracle} {archive : ArchiveRow} {w₀ w w' : World}
  {o : RecordRef × String} {key archiveKey : String} {R : World → Prop} {body : Body}

theorem World.uses_of_record (h : o ∈ w.records) : w.Uses o.2 :=
  .inl ⟨o, h, rfl⟩

theorem World.uses_of_archive {a : ArchiveRow} (h : a ∈ w.archives)
    (hkey : a.archiveKey = some key) : w.Uses key :=
  .inr ⟨a, h, hkey⟩

theorem Restoring.preserves (h : Restoring w₀ archive w) : w₀.Preserves w := by
  rintro ref key body ⟨hblobs, hkey, ⟨hrow, hat⟩ | ⟨a, ha, href, hobject, at', hpoint, hat⟩⟩
  · exact ⟨h.hasBlobs.trans hblobs, hkey, .inl ⟨h.records _ hrow hkey,
      h.blobs key body (World.uses_of_record hrow) hat⟩⟩
  · refine ⟨h.hasBlobs.trans hblobs, hkey, .inr ⟨a, ?_, href, hobject, at', hpoint,
      h.blobs at' body (World.uses_of_archive ha hpoint) hat⟩⟩
    rw [h.archives]
    exact ha

theorem Restoring.tick (h : Restoring w₀ archive w) : Restoring w₀ archive w.tick :=
  ⟨h.hasBlobs, h.archives, h.records, h.blobs, h.object⟩

/-- A statement in a state with a property that does not depend on the number of calls. -/
theorem holds_exec_of {Q : World → Prop} (htick : ∀ w, R w → R w.tick) (what : String)
    {write : World → World} (h : ∀ w, R w → Q (write w)) :
    Holds R (exec oracle what write) (fun _ => Q) R := by
  intro w hw
  rw [exec_exec]
  cases oracle.fails w.calls with
  | true => exact htick w hw
  | false => exact h _ (htick w hw)

theorem holds_call_of (htick : ∀ w, R w → R w.tick) (what : String) :
    Holds R (call oracle what) (fun _ => R) R := by
  intro w hw
  rw [exec_call]
  cases oracle.fails w.calls <;> exact htick w hw

theorem holds_execChecked_of {Q : World → Prop} (htick : ∀ w, R w → R w.tick) (what : String)
    {write : World → Option World} (h : ∀ w w', R w → write w = some w' → Q w') :
    Holds R (execChecked oracle what write) (fun _ => Q) R := by
  intro w hw
  rw [exec_execChecked]
  cases oracle.fails w.calls with
  | true => exact htick w hw
  | false =>
    cases hwrite : write w.tick with
    | none => exact htick w hw
    | some w' => exact h _ _ (htick w hw) hwrite

/-- A row that is inserted unless its id is taken: the records grow, and one of them has its id. -/
theorem records_insertUnless {ρ : Type} [Schema ρ] {t u : Table ρ} {r : ρ} {target : ρ → Bool}
    {w : World} (h : t.insertUnless r target = some u) (f : ρ → RecordRef × String)
    (before after : List (RecordRef × String)) (hw : w.records = before ++ (t.rows.map f ++ after))
    (hw' : w'.records = before ++ (u.rows.map f ++ after)) {record : ArchivedRecord}
    (hid : ∀ s, target s = true → (f s).1 = record.ref)
    (hrow : trimSpace record.objectKey ≠ "" → f r = (record.ref, record.objectKey)) :
    (∀ o ∈ w.records, o ∈ w'.records) ∧ ((∃ key, (record.ref, key) ∈ w.records) ∨
      (trimSpace record.objectKey ≠ "" → (record.ref, record.objectKey) ∈ w'.records)) := by
  rw [hw, hw']
  rcases insertUnless_cases h with ⟨rfl, s, hs, htarget⟩ | hrows
  · refine ⟨fun o ho => ho, .inl ⟨(f s).2, ?_⟩⟩
    have hmem : f s ∈ u.rows.map f := mem_map_of_mem hs
    rw [← hid s htarget]
    exact mem_append_right _ (mem_append_left _ hmem)
  · rw [hrows, map_append]
    refine ⟨fun o ho => ?_, .inr fun hblank => ?_⟩
    · simp only [mem_append] at ho ⊢
      tauto
    · simp [hrow hblank]

theorem nullable_getD {s : String} (h : trimSpace s ≠ "") : (nullable s).getD "" = s := by
  rw [nullable, if_neg h]
  rfl

-- Comparing rows would otherwise unfold the texts of their columns.
attribute [local irreducible] nullable

/-- More rows keep what holds while a record is restored. -/
theorem Restoring.grow (h : Restoring w₀ archive w) (hblobs : w'.hasBlobs = w.hasBlobs)
    (harchives : w'.archives = w.archives) (hobjects : w'.blobs = w.blobs)
    (hrecords : ∀ o ∈ w.records, o ∈ w'.records) : Restoring w₀ archive w' :=
  ⟨hblobs.trans h.hasBlobs, harchives.trans h.archives,
    fun o ho hne => hrecords o (h.records o ho hne),
    fun key body huse hat => hobjects ▸ h.blobs key body huse hat,
    fun body hbody => hobjects ▸ h.object body hbody⟩

/-- An update of an event keeps the other rows, and its own if it leaves the key alone. -/
theorem World.mem_records_updateEvent (id : String) (f : EventRow → EventRow)
    (hf : ∀ s u, conflict (f s) u = conflict s u) (ho : o ∈ w.records) (hid : ∀ r, (f r).id = r.id)
    (hkey : o.1 ≠ ⟨"event", id⟩ ∨ ∀ r, (f r).payloadKey = r.payloadKey) :
    o ∈ World.records { w with events := updateEvent id f hf w.events } := by
  refine mem_append.mpr ((mem_append.mp ho).imp_left fun ho => ?_)
  obtain ⟨r, hr, rfl⟩ := mem_map.mp ho
  have hmem : (if r.id == id then f r else r) ∈ updateEvent id f hf w.events :=
    mem_updateEvent.mpr ⟨r, hr, rfl⟩
  refine mem_map.mpr ⟨_, hmem, ?_⟩
  split_ifs with hsame
  · rw [beq_iff_eq] at hsame
    have hkey := hkey.resolve_left fun hne => hne (by rw [hsame])
    rw [hid, hkey]
  · rfl

/-- What holds between the insertion of the row and the deletion of the archive record. -/
def RowRestored (w₀ : World) (archive : ArchiveRow) (w : World) : Prop :=
  Restoring w₀ archive w ∧ RowBack w₀ archive w

theorem RowRestored.tick (w : World) (h : RowRestored w₀ archive w) :
    RowRestored w₀ archive w.tick :=
  ⟨h.1.tick, h.2⟩

theorem World.archivedObject_eq_none (h : archive.record.objectKey = "") :
    w₀.archivedObject archive = none :=
  if_neg fun hcond => hcond.2.2 h

/-- An object under a key that nothing uses, for a record without an object. -/
theorem RowRestored.putUnused (h : RowRestored w₀ archive w) (hunused : ¬w₀.Uses key)
    (hobject : archive.record.objectKey = "") (body : Body) :
    RowRestored w₀ archive { w with blobs := update w.blobs key (some body) } := by
  refine ⟨⟨h.1.hasBlobs, h.1.archives, h.1.records, fun other body' huse hat => ?_,
    fun body' hbody => ?_⟩, h.2⟩
  · have hne : other ≠ key := by
      rintro rfl
      exact hunused huse
    exact (update_of_ne hne ..).trans (h.1.blobs other body' huse hat)
  · rw [World.archivedObject_eq_none hobject] at hbody
    cases hbody

theorem holds_when {m : Act PUnit} {flag : Bool} (h : flag = true → Holds R m (fun _ => R) R) :
    Holds R (m.when flag ⟨⟩) (fun _ => R) R := by
  cases flag with
  | false => exact Holds.pure _ fun _ hw => hw
  | true => exact h rfl

/-- What holds after the archive record is deleted. -/
structure ArchiveDropped (w₀ : World) (archive : ArchiveRow) (w : World) : Prop where
  hasBlobs : w.hasBlobs = w₀.hasBlobs
  archives : ∀ a ∈ w₀.archives, a.id ≠ archive.id → a ∈ w.archives
  records : ∀ o ∈ w₀.records, o.2 ≠ "" → o ∈ w.records
  blobs : ∀ key body, w₀.Uses key → archive.archiveKey ≠ some key →
    w₀.blobs key = some body → w.blobs key = some body
  object : ∀ body, w₀.archivedObject archive = some body →
    w.blobs archive.record.objectKey = some body
  back : RowBack w₀ archive w

theorem ArchiveDropped.tick (w : World) (h : ArchiveDropped w₀ archive w) :
    ArchiveDropped w₀ archive w.tick :=
  ⟨h.hasBlobs, h.archives, h.records, h.blobs, h.object, h.back⟩

/-- Deleting the archive record. -/
theorem RowRestored.drop (h : RowRestored w₀ archive w) :
    ArchiveDropped w₀ archive
      { w with archives := w.archives.deleteWhere (·.id == archive.id) } := by
  refine ⟨h.1.hasBlobs, fun a ha hid => ?_, h.1.records,
    fun key body huse _ => h.1.blobs key body huse,
    h.1.object, h.2⟩
  rw [← h.1.archives] at ha
  exact mem_filter.mpr ⟨ha, by simpa using hid⟩

variable (hsafe : RestoreSafe lib archive w₀)

include hsafe

/-- **The object** is copied back, or there is an error and nothing is changed. -/
theorem holds_restoreObject :
    Holds (· = w₀) (restoreObject oracle (archive.archiveKey.getD "") archive.record.objectKey)
      (fun _ w => Restoring w₀ archive w ∧ w.records = w₀.records) w₀.Preserves := by
  refine Holds.get_bind ?_
  rintro w rfl
  split_ifs with hcond
  · refine Holds.pure _ ?_
    rintro _ rfl
    refine ⟨⟨rfl, rfl, fun o ho _ => ho, fun _ _ _ h => h, fun body hbody => ?_⟩, rfl⟩
    rw [World.archivedObject, if_neg] at hbody
    · cases hbody
    · rintro ⟨hblobs, hkey, hobject⟩
      rcases hcond with hno | hno | hno
      · rw [hblobs] at hno
        cases hno
      · exact hkey hno
      · exact hobject hno
  · obtain ⟨hblobs, hkey, hobject⟩ : w.hasBlobs = true ∧ archive.archiveKey.getD "" ≠ "" ∧
        archive.record.objectKey ≠ "" := by
      simpa [not_or] using hcond
    rintro _ rfl
    obtain ⟨archiveKey, harchive⟩ := ArchiveRow.exists_archiveKey hkey
    rw [harchive, getD_some, exec_bind, exec_blobGet]
    cases oracle.fails w.calls with
    | true => exact w.preserves_calls _
    | false =>
      cases hbody : w.blobs archiveKey with
      | none => exact w.preserves_calls _
      | some body =>
        simp only [Bool.false_eq_true, if_false]
        rw [exec_blobPut]
        cases oracle.fails w.tick.calls with
        | true => exact w.preserves_calls _
        | false =>
          have hcopy := (hsafe.object hblobs archiveKey harchive body hbody).copy
          refine ⟨⟨rfl, rfl, fun o ho _ => ho, fun key body' _ hat => ?_,
            fun body' hbody' => ?_⟩, rfl⟩
          · by_cases hsame : key = archive.record.objectKey
            · subst hsame
              rw [hcopy body' hat]
              exact update_self ..
            · exact (update_of_ne hsame ..).trans hat
          · rw [World.archivedObject, if_pos ⟨hblobs, hkey, hobject⟩, harchive, getD_some,
              hbody] at hbody'
            rw [← hbody']
            exact update_self ..

/-- The object that is copied back is the one that the archive record points to. -/
theorem RestoreSafe.copySafe (hbody : w₀.archivedObject archive = some body) :
    archive.record.objectKey ≠ "" ∧
      ∃ archiveKey, archive.archiveKey = some archiveKey ∧
        CopySafe archive.record w₀ archiveKey body := by
  obtain ⟨⟨hblobs, hkey, hobject⟩, hbody⟩ := ite_none_right_eq_some.mp hbody
  obtain ⟨archiveKey, harchive⟩ := ArchiveRow.exists_archiveKey hkey
  rw [harchive] at hbody
  exact ⟨hobject, archiveKey, harchive, hsafe.object hblobs archiveKey harchive body hbody⟩

/-- A row that is inserted, or has the id already, is the row of the record. -/
theorem RowBack.of_row (hrecords : w.records = w₀.records) (key : String)
    (hback : (archive.record.ref, key) ∈ w.records ∧ (archive.record.ref, key) ∈ w'.records ∨
      (trimSpace archive.record.objectKey ≠ "" →
        (archive.record.ref, archive.record.objectKey) ∈ w'.records)) : RowBack w₀ archive w' := by
  intro body hbody
  rcases hback with ⟨hold, hnew⟩ | hnew
  · rw [hrecords] at hold
    have hkey : key = archive.record.objectKey := hsafe.row _ hold rfl
    rwa [hkey] at hnew
  · obtain ⟨hobject, _, -, hcopy⟩ := hsafe.copySafe hbody
    exact hnew (hcopy.notBlank hobject)

/-- **The row** is inserted, unless there is one with its id. -/
theorem holds_restoreRow :
    Holds (fun w => Restoring w₀ archive w ∧ w.records = w₀.records)
      (restoreRow oracle archive.record)
      (fun _ w => Restoring w₀ archive w ∧ RowBack w₀ archive w) w₀.Preserves := by
  have htick : ∀ w, Restoring w₀ archive w ∧ w.records = w₀.records →
      Restoring w₀ archive w.tick ∧ w.tick.records = w₀.records := fun w h => ⟨h.1.tick, h.2⟩
  have hchecked (what : String) (write : World → Option World)
      (h : ∀ w w', write w = some w' → w'.hasBlobs = w.hasBlobs ∧ w'.archives = w.archives ∧
        w'.blobs = w.blobs ∧ (∀ o ∈ w.records, o ∈ w'.records) ∧
        ((∃ key, (archive.record.ref, key) ∈ w.records) ∨ (trimSpace archive.record.objectKey ≠ "" →
            (archive.record.ref, archive.record.objectKey) ∈ w'.records))) :
      Holds (fun w => Restoring w₀ archive w ∧ w.records = w₀.records)
        (execChecked oracle what write)
        (fun _ w => Restoring w₀ archive w ∧ RowBack w₀ archive w) w₀.Preserves := by
    refine (holds_execChecked_of htick what ?_).conseq (fun _ h => h) (fun _ _ h => h)
      fun w hw => hw.1.preserves
    rintro w w' ⟨hw, hrecords⟩ hwrite
    obtain ⟨hblobs, harchives, hobjects, hgrow, hback⟩ := h w w' hwrite
    refine ⟨hw.grow hblobs harchives hobjects hgrow, ?_⟩
    rcases hback with ⟨key, hold⟩ | hnew
    · exact RowBack.of_row hsafe hrecords key (.inl ⟨hold, hgrow _ hold⟩)
    · exact RowBack.of_row hsafe hrecords "" (.inr hnew)
  cases hrecord : archive.record with
  | event item =>
    refine hchecked _ _ fun w w' hwrite => ?_
    obtain ⟨-, hwrite⟩ := ite_none_left_eq_some.mp hwrite
    obtain ⟨events, hinsert, rfl⟩ := map_eq_some_iff.mp hwrite
    rw [hrecord]
    exact ⟨rfl, rfl, rfl, records_insertUnless hinsert
      (fun r => (⟨"event", r.id⟩, r.payloadKey.getD "")) [] _ rfl rfl
      (fun r hid => congrArg (RecordRef.mk "event") (beq_iff_eq.mp hid))
      fun hblank => Prod.ext rfl (nullable_getD hblank)⟩
  | attachment item =>
    refine hchecked _ _ fun w w' hwrite => ?_
    obtain ⟨attachments, hinsert, rfl⟩ := map_eq_some_iff.mp hwrite
    rw [hrecord]
    exact ⟨rfl, rfl, rfl, records_insertUnless hinsert
      (fun r => (⟨"attachment", r.id⟩, r.objectKey)) _ _ rfl rfl
      (fun r hid => congrArg (RecordRef.mk "attachment") (beq_iff_eq.mp hid)) fun _ => rfl⟩
  | transaction item =>
    refine hchecked _ _ fun w w' hwrite => ?_
    obtain ⟨transactions, hinsert, rfl⟩ := map_eq_some_iff.mp hwrite
    rw [hrecord]
    exact ⟨rfl, rfl, rfl, records_insertUnless hinsert
      (fun r => (⟨"transaction", r.id⟩, r.payloadKey.getD "")) (_ ++ _) _
      (append_assoc ..).symm (append_assoc ..).symm
      (fun r hid => congrArg (RecordRef.mk "transaction") (beq_iff_eq.mp hid))
      fun hblank => Prod.ext rfl (nullable_getD hblank)⟩
  | debugFile item =>
    refine hchecked _ _ fun w w' hwrite => ?_
    obtain ⟨debugFiles, hinsert, rfl⟩ := map_eq_some_iff.mp hwrite
    have hassoc (a b c d : List (RecordRef × String)) :
        a ++ (b ++ (c ++ d)) = (a ++ (b ++ c)) ++ (d ++ []) := by simp
    rw [hrecord]
    exact ⟨rfl, rfl, rfl, records_insertUnless hinsert
      (fun r => (⟨"debug_file", r.id⟩, r.objectKey)) _ [] (hassoc ..) (hassoc ..)
      (fun r hid => congrArg (RecordRef.mk "debug_file") (beq_iff_eq.mp hid)) fun _ => rfl⟩
  | span item | outcome item =>
    -- no object
    refine hchecked _ _ fun w w' hwrite => ?_
    obtain ⟨rows, -, rfl⟩ := map_eq_some_iff.mp hwrite
    rw [hrecord]
    exact ⟨rfl, rfl, rfl, fun o ho => ho, .inr fun hblank => absurd trimSpace_empty hblank⟩

/-- An update of an event that leaves its key alone, or gives a key to the record when it had
none. -/
theorem RowRestored.updateEvent (h : RowRestored w₀ archive w) (id : String)
    (f : EventRow → EventRow) (hf : ∀ s u, conflict (f s) u = conflict s u)
    (hid : ∀ r, (f r).id = r.id)
    (hkey : archive.record.ref = ⟨"event", id⟩ ∧ archive.record.objectKey = "" ∨
      ∀ r, (f r).payloadKey = r.payloadKey) :
    RowRestored w₀ archive { w with events := Urgentry.updateEvent id f hf w.events } := by
  refine ⟨⟨h.1.hasBlobs, h.1.archives, fun o ho hne => ?_, h.1.blobs, h.1.object⟩,
    fun body hbody => ?_⟩
  · refine World.mem_records_updateEvent id f hf (h.1.records o ho hne) hid (hkey.imp_left ?_)
    rintro ⟨href, hobject⟩ hsame
    exact hne ((hsafe.row o ho (hsame.trans href.symm)).trans hobject)
  · refine World.mem_records_updateEvent id f hf (h.2 body hbody) hid (hkey.imp_left ?_)
    rintro ⟨-, hobject⟩
    rw [World.archivedObject_eq_none hobject] at hbody
    cases hbody

/-- Indexing a replay sets columns of events that name no object. -/
theorem holds_reindexReplayEvent (projectId eventId : String) :
    Holds (RowRestored w₀ archive) (reindexReplayEvent lib oracle projectId eventId)
      (fun _ => RowRestored w₀ archive) (RowRestored w₀ archive) := by
  unfold reindexReplayEvent
  split
  · exact Holds.pure _ fun _ h => h
  · refine Holds.bind (Holds.get (R := fun _ => RowRestored w₀ archive) fun _ h => h) fun w => ?_
    split
    · exact holds_call_of RowRestored.tick _
    · exact Holds.bind (holds_call_of RowRestored.tick _) fun _ => Holds.throw _ fun _ h => h
    · refine Holds.bind (holds_call_of RowRestored.tick _) fun _ =>
        holds_exec_of RowRestored.tick _ fun w' h => ?_
      refine h.updateEvent hsafe _ _ _ ?_ (.inr ?_) <;> exact fun _ => rfl

/-- A profile without an object gets one under a key that nothing else uses. -/
theorem holds_rebuildProfileObject {item : ArchivedEvent}
    (hrecord : archive.record = .event item) (htype : item.eventType = "profile") :
    Holds (RowRestored w₀ archive) (rebuildProfileObject lib oracle item)
      (fun _ => RowRestored w₀ archive) (RowRestored w₀ archive) := by
  refine Holds.get_bind fun w h => ?_
  split_ifs with hcond
  · obtain ⟨hblobs, hkey, hpayload⟩ := hcond
    have hobject : archive.record.objectKey = "" := by
      rw [hrecord]
      exact hkey
    have hrebuilt : lib.rebuiltKey archive.record =
        some (profileRawBlobKey item.projectId (lib.profileId item)) := by
      rw [hrecord]
      exact if_pos ⟨htype, hkey, hpayload⟩
    have href : archive.record.ref = ⟨"event", item.id⟩ := by
      rw [hrecord]
      rfl
    refine Holds.bind (Q := fun _ => RowRestored w₀ archive) ?_ fun _ => ?_
    · rintro _ rfl
      have hunused := hsafe.rebuilt (h.1.hasBlobs.symm.trans hblobs) _ hrebuilt
      exact holds_exec_of RowRestored.tick _ (fun w' h => h.putUnused hunused hobject _) w h
    · refine holds_exec_of RowRestored.tick _ fun w' h => ?_
      refine h.updateEvent hsafe _ _ _ ?_ (.inl ⟨href, hobject⟩)
      exact fun _ => rfl
  · refine Holds.pure _ ?_
    rintro _ rfl
    exact h

/-- **The details** of the row keep all objects. -/
theorem holds_restoreDetails :
    Holds (RowRestored w₀ archive) (restoreDetails lib oracle archive.record)
      (fun _ => RowRestored w₀ archive) (RowRestored w₀ archive) := by
  cases hrecord : archive.record with
  | event item =>
    refine Holds.bind (holds_when fun htype => ?_) fun _ =>
      holds_when fun _ => holds_reindexReplayEvent hsafe _ _
    exact Holds.bind (holds_rebuildProfileObject hsafe hrecord (of_decide_eq_true htype)) fun _ =>
      holds_call_of RowRestored.tick _
  | attachment item => exact holds_reindexReplayEvent hsafe _ _
  | transaction item | span item | outcome item | debugFile item =>
    exact Holds.pure _ fun _ h => h

/-- The record can be reached through its row. -/
theorem ArchiveDropped.reaches (h : ArchiveDropped w₀ archive w) (hblobs : w₀.hasBlobs = true)
    (hkey : archive.record.objectKey ≠ "") (hpoint : archive.archiveKey = some archiveKey)
    (hat : w₀.blobs archiveKey = some body) :
    w.Reaches archive.record.ref archive.record.objectKey body := by
  have hnamed := (hsafe.object hblobs archiveKey hpoint body hat).named
  have hobject : w₀.archivedObject archive = some body := by
    rw [World.archivedObject, hpoint, getD_some, if_pos ⟨hblobs, hnamed, hkey⟩, hat]
  exact ⟨h.hasBlobs.trans hblobs, hkey, .inl ⟨h.back body hobject, h.object body hobject⟩⟩

/-- Once the row names the object, the archive record and its object can go. -/
theorem ArchiveDropped.preserves (h : ArchiveDropped w₀ archive w) : w₀.Preserves w := by
  rintro ref key body ⟨hblobs, hkey, ⟨hrow, hat⟩ | ⟨a, ha, rfl, rfl, at', hpoint, hat⟩⟩
  · refine ⟨h.hasBlobs.trans hblobs, hkey, .inl ⟨h.records _ hrow hkey,
      h.blobs key body (World.uses_of_record hrow) (fun hpoint => ?_) hat⟩⟩
    exact (hsafe.object hblobs key hpoint body hat).keys.rows _ hrow rfl
  · by_cases hown : archive.archiveKey = some at'
    · obtain ⟨href, hobject⟩ := (hsafe.object hblobs at' hown body hat).keys.archive a ha hpoint
      rw [hobject] at hkey
      rw [href, hobject]
      exact h.reaches hsafe hblobs hkey hown hat
    · have hother : a.id ≠ archive.id := fun hid => hown (hsafe.current a ha hid ▸ hpoint)
      exact ⟨h.hasBlobs.trans hblobs, hkey, .inr ⟨a, h.archives a ha hother, rfl, rfl, at', hpoint,
        h.blobs at' body (World.uses_of_archive ha hpoint) hown hat⟩⟩

/-- Deleting the archived object. -/
theorem ArchiveDropped.deleteObject (h : ArchiveDropped w₀ archive w)
    (hpoint : archive.archiveKey = some archiveKey) :
    ArchiveDropped w₀ archive { w with blobs := update w.blobs archiveKey none } := by
  refine ⟨h.hasBlobs, h.archives, h.records, fun key body huse hne hat => ?_,
    fun body hbody => ?_, h.back⟩
  · have hkey : key ≠ archiveKey := fun heq => hne (heq ▸ hpoint)
    exact (update_of_ne hkey ..).trans (h.blobs key body huse hne hat)
  · obtain ⟨-, key, hkey, hcopy⟩ := hsafe.copySafe hbody
    obtain rfl : key = archiveKey := some.inj (hkey.symm.trans hpoint)
    exact (update_of_ne hcopy.keys.distinct.symm ..).trans (h.object body hbody)

theorem holds_deleteObject :
    Holds (ArchiveDropped w₀ archive) (deleteObject oracle (archive.archiveKey.getD ""))
      (fun _ => ArchiveDropped w₀ archive) w₀.Preserves := by
  refine Holds.bind (Holds.get (R := fun _ => ArchiveDropped w₀ archive) fun _ h => h) fun w => ?_
  split_ifs with hcond
  · intro w' h
    obtain ⟨archiveKey, harchive⟩ := ArchiveRow.exists_archiveKey hcond.2
    rw [exec_blobDelete, harchive]
    cases oracle.fails w'.calls with
    | true => exact h.tick
    | false => exact (h.tick).deleteObject hsafe harchive
  · exact Holds.pure _ fun _ h => h

/-- **Restoring a record** keeps the objects in reach, however it ends. -/
theorem RestoreSafe.preserves :
    w₀.Preserves ((restoreArchiveRow lib oracle archive).exec w₀).2 := by
  have h : Holds (· = w₀) (restoreArchiveRow lib oracle archive) (fun _ => w₀.Preserves)
      w₀.Preserves := by
    refine Holds.bind (holds_restoreObject hsafe) fun _ => ?_
    refine Holds.bind (holds_restoreRow hsafe) fun _ => ?_
    refine Holds.bind ((holds_restoreDetails hsafe).conseq (fun _ h => h) (fun _ _ h => h)
      fun _ h => h.1.preserves) fun _ => ?_
    refine Holds.bind ((holds_exec_of RowRestored.tick _ fun _ h => h.drop).conseq (fun _ h => h)
      (fun _ _ h => h) fun _ h => h.1.preserves) fun _ => ?_
    exact (holds_deleteObject hsafe).conseq (fun _ h => h) (fun _ _ h => h.preserves hsafe)
      fun _ h => h
  exact h.exec_snd rfl

end Restoring

end Urgentry
