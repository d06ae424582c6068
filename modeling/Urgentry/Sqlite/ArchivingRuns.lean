import Urgentry.Internal.Run
import Urgentry.Sqlite.ArchivedObjects

/-!
# Passes of archiving and restoring

A pass works on one record after the other, and a failure ends the pass, not the history: the next
pass starts from whatever the last one left behind. So what a pass may rely on, and what must hold
of the objects, is stated for runs that mix the passes, each with its own failures.

## The stack

Archiving a record and deleting its row are two steps, and in between, the attachments of an event
are archived and deleted, so the records that wait for the deletion of their rows form a stack. A
row on the stack may go because the archive record is there to point to its object. Whoever stops
leaves the stack behind, and the rows stay.

## Main results

* `Archiving.run_preserves`: in every run in which no object is deleted without its archive record
  following, and no two records share a key, every object that could be reached at the start can be
  reached in every state.
-/

namespace Urgentry

open SqlTable Effect Trace List Table

/-! ## The machine -/

/-- The stores, and the records of the current pass whose rows are to be deleted. -/
structure Archiving where
  world : World
  pending : List ArchivedRecord

/-- The steps of the passes. -/
inductive ArchivingAction
  /-- A call that changes nothing: a query, or a statement that fails. -/
  | look
  | archive (oracle : Oracle) (now : Instant) (projectId : String) (surface : Surface)
    (record : ArchivedRecord)
  /-- The row of the record that was archived last is deleted. -/
  | remove
  /-- The row of the record that was archived last stays. -/
  | keep
  /-- The spans of a transaction are deleted. -/
  | deleteSpans (projectId eventId : String)
  | restore (oracle : Oracle) (archive : ArchiveRow)
  /-- The pass ends. -/
  | stop

/-- The deletion of the row of an archived record. -/
def removeRow (record : ArchivedRecord) (w : World) : World :=
  match record with
  | .event item => { w with events := w.events.deleteWhere (·.id == item.id) }
  | .attachment item => { w with attachments := w.attachments.deleteWhere (·.id == item.id) }
  | .transaction item => { w with transactions := w.transactions.deleteWhere (·.id == item.id) }
  | .outcome item => { w with outcomes := w.outcomes.deleteWhere (·.id == item.id) }
  | .span _ | .debugFile _ => w

namespace Archiving

/-- **One step.** -/
def step (lib : RestoreLib) (s : Archiving) : ArchivingAction → Option Archiving
  | .look => some { s with world := s.world.tick }
  | .archive oracle now projectId surface record =>
    match (archiveRecord oracle now projectId surface record).exec s.world with
    | (.ok _, world) => some ⟨world, record :: s.pending⟩
    | (.error _, world) => some ⟨world, []⟩
  | .remove =>
    match s.pending with
    | record :: pending => some ⟨removeRow record s.world.tick, pending⟩
    | [] => none
  | .keep => some { s with pending := s.pending.tail }
  | .deleteSpans projectId eventId => some { s with world := { s.world.tick with
      spans := s.world.spans.deleteWhere fun r => r.projectId == projectId
        && r.transactionEventId == eventId } }
  | .restore oracle archive =>
    if s.pending = [] then some ⟨((restoreArchiveRow lib oracle archive).exec s.world).2, []⟩
    else none
  | .stop => some { s with pending := [] }

/-- **The condition on a step.** -/
def Careful (lib : RestoreLib) (s : Archiving) : ArchivingAction → Prop
  | .archive oracle now projectId surface record =>
    ArchiveSafe oracle now projectId surface record s.world
  | .restore _ archive => RestoreSafe lib archive s.world
  | .look | .remove | .keep | .deleteSpans _ _ | .stop => True

end Archiving

/-! ## A row may go when its object is in the archive -/

/-- What holds of a record between its archiving and the deletion of its row. -/
structure RowSpare (w : World) (record : ArchivedRecord) : Prop where
  current : ∀ o ∈ w.records, o.1 = record.ref → o.2 = record.objectKey
  /-- An object that is still under its key is in the archive as well. -/
  archived : ∀ body, w.hasBlobs = true → record.objectKey ≠ "" →
    (record.ref, record.objectKey) ∈ w.records → w.blobs record.objectKey = some body →
    w.Archived record.ref record.objectKey body

section Spare

variable {oracle : Oracle} {now : Instant} {projectId : String} {surface : Surface}
  {record other : ArchivedRecord} {w w' : World} {res : Except String PUnit}

/-- Archiving touches no rows. -/
theorem ArchiveEnd.records_eq (h : ArchiveEnd oracle now projectId surface record w res w') :
    w'.records = w.records ∧ w'.hasBlobs = w.hasBlobs := by
  cases h <;> exact ⟨rfl, rfl⟩

variable {o : RecordRef × String}

section

variable (hsafe : ArchiveSafe oracle now projectId surface record w)

include hsafe

section

variable (h : ArchiveEnd oracle now projectId surface record w res w')

include h

/-- Archiving puts no object under a key that a row names. -/
theorem ArchiveSafe.blobs_of_row (ho : o ∈ w.records) {body : Body}
    (hat : w'.blobs o.2 = some body) : w.blobs o.2 = some body := by
  have hmoved {body' : Body} {deleted : Bool} (hblobs : w.hasBlobs = true)
      (hkey : record.objectKey ≠ "") (hbody : w.blobs record.objectKey = some body')
      (hat : movedBlobs w.blobs record.objectKey
        (telemetryArchiveBlobKey projectId surface record.recordType record.recordId) body' deleted
        o.2 = some body) : w.blobs o.2 = some body := by
    have hkeys := (hsafe.object hblobs hkey body' hbody).keys
    by_cases hsame : o.2 = record.objectKey
    · rw [hsame, movedBlobs_key hkeys.distinct] at hat
      rw [hsame]
      exact (Option.ite_none_left_eq_some.mp hat).2
    · rwa [movedBlobs_of_ne (hkeys.rows o ho) hsame] at hat
  cases h with
  | failed e n => exact hat
  | plain n id archives hobject hinsert => exact hat
  | stuck e n body' deleted hblobs hkey hbody hstuck => exact hmoved hblobs hkey hbody hat
  | moved n id archives body' deleted hblobs hkey hbody hinsert =>
    exact hmoved hblobs hkey hbody hat

/-- Archiving keeps what the archive records point to. -/
theorem ArchiveSafe.archived {ref : RecordRef} {key : String} {body : Body}
    (hat : w.Archived ref key body) : w'.Archived ref key body := by
  cases h with
  | failed e n => exact hat
  | plain n id archives hobject hinsert =>
    obtain ⟨a, ha, hrest⟩ := hat
    exact ⟨a, mem_of_insert hinsert ha, hrest⟩
  | stuck e n body' deleted hblobs hkey hbody hstuck =>
    exact (hsafe.object hblobs hkey body' hbody).archived (fun a ha => ha) n hat
  | moved n id archives body' deleted hblobs hkey hbody hinsert =>
    exact (hsafe.object hblobs hkey body' hbody).archived
      (fun a ha => mem_of_insert hinsert ha) n hat

/-- Archiving another record changes nothing for a record whose row may go. -/
theorem RowSpare.archive (hspare : RowSpare w other) : RowSpare w' other := by
  obtain ⟨hrecords, hblobs⟩ := h.records_eq
  refine ⟨fun o ho => hspare.current o (hrecords ▸ ho), fun body hhas hkey hrow hat => ?_⟩
  rw [hrecords] at hrow
  exact hsafe.archived h
    (hspare.archived body (hblobs ▸ hhas) hkey hrow (hsafe.blobs_of_row h hrow hat))

end

/-- The row of a record that was archived may go. -/
theorem ArchiveSafe.rowSpare (h : ArchiveEnd oracle now projectId surface record w (.ok ⟨⟩) w') :
    RowSpare w' record := by
  obtain ⟨hrecords, -⟩ := h.records_eq
  refine ⟨fun o ho => hsafe.current o (hrecords ▸ ho), fun body hhas hkey hrow hat => ?_⟩
  rw [hrecords] at hrow
  have hbefore := hsafe.blobs_of_row h hrow hat
  cases h with
  | plain n id archives hobject hinsert =>
    rw [hobject hhas hkey] at hbefore
    cases hbefore
  | moved n id archives body' deleted hblobs hkey hbody hinsert =>
    obtain rfl : body' = body := Option.some.inj (hbody.symm.trans hbefore)
    exact ⟨_, mem_of_insert_self hinsert, rfl, rfl, _, rfl,
      movedBlobs_archiveKey (hsafe.object hblobs hkey body' hbody).keys.distinct⟩

end

theorem mem_map_deleteWhere {ρ : Type} [Schema ρ] {t : Table ρ} {recordType id : String}
    {idOf keyOf : ρ → String} :
    o ∈ (t.deleteWhere fun r => idOf r == id).rows.map
        (fun r => ((⟨recordType, idOf r⟩, keyOf r) : RecordRef × String)) ↔
      o ∈ t.rows.map (fun r => ((⟨recordType, idOf r⟩, keyOf r) : RecordRef × String)) ∧
        o.1 ≠ ⟨recordType, id⟩ := by
  simp only [rows_deleteWhere, mem_map, mem_filter]
  constructor
  · rintro ⟨r, ⟨hr, hid⟩, rfl⟩
    exact ⟨⟨r, hr, rfl⟩, by simpa using hid⟩
  · rintro ⟨⟨r, hr, rfl⟩, hne⟩
    exact ⟨r, ⟨hr, by simpa using hne⟩, rfl⟩

/-- Deleting a row touches no other rows that name objects. -/
theorem mem_records_removeRow :
    (o ∈ (removeRow record w).records → o ∈ w.records) ∧
      (o ∈ w.records → o.1 ≠ record.ref → o ∈ (removeRow record w).records) := by
  simp only [World.records, mem_append]
  cases record with
  | event item =>
    dsimp only [removeRow]
    rw [mem_map_deleteWhere]
    exact ⟨Or.imp_left And.left, fun ho hne => ho.imp_left fun ho => ⟨ho, hne⟩⟩
  | attachment item =>
    dsimp only [removeRow]
    rw [mem_map_deleteWhere]
    exact ⟨Or.imp_right (Or.imp_left And.left),
      fun ho hne => ho.imp_right (Or.imp_left fun ho => ⟨ho, hne⟩)⟩
  | transaction item =>
    dsimp only [removeRow]
    rw [mem_map_deleteWhere]
    exact ⟨Or.imp_right (Or.imp_right (Or.imp_left And.left)),
      fun ho hne => ho.imp_right (Or.imp_right (Or.imp_left fun ho => ⟨ho, hne⟩))⟩
  | outcome item | span item | debugFile item => exact ⟨id, fun ho _ => ho⟩

theorem removeRow_rest (record : ArchivedRecord) (w : World) :
    (removeRow record w).hasBlobs = w.hasBlobs ∧ (removeRow record w).blobs = w.blobs ∧
      (removeRow record w).archives = w.archives := by
  cases record <;> exact ⟨rfl, rfl, rfl⟩

theorem RowSpare.tick (h : RowSpare w record) : RowSpare w.tick record := ⟨h.current, h.archived⟩

/-- Deleting another row changes nothing for a record whose row may go. -/
theorem RowSpare.removeRow (hspare : RowSpare w other) :
    RowSpare (Urgentry.removeRow record w) other := by
  obtain ⟨hhas, hblobs, harchives⟩ := removeRow_rest record w
  refine ⟨fun o ho => hspare.current o (mem_records_removeRow.1 ho), fun body h hkey hrow hat => ?_⟩
  rw [hhas] at h
  rw [hblobs] at hat
  obtain ⟨a, ha, href, hobject, archiveKey, hpoint, hbody⟩ :=
    hspare.archived body h hkey (mem_records_removeRow.1 hrow) hat
  exact ⟨a, harchives ▸ ha, href, hobject, archiveKey, hpoint, hblobs ▸ hbody⟩

/-- **Deleting a row that may go** keeps the objects in reach. -/
theorem RowSpare.preserves (hspare : RowSpare w record) :
    w.Preserves (Urgentry.removeRow record w) := by
  obtain ⟨hhas, hblobs, harchives⟩ := removeRow_rest record w
  have harchived {ref : RecordRef} {key : String} {body : Body} (h : w.Archived ref key body) :
      (Urgentry.removeRow record w).Archived ref key body := by
    obtain ⟨a, ha, href, hobject, archiveKey, hpoint, hbody⟩ := h
    exact ⟨a, harchives ▸ ha, href, hobject, archiveKey, hpoint, hblobs ▸ hbody⟩
  rintro ref key body ⟨h, hkey, ⟨hrow, hat⟩ | hat⟩
  · refine ⟨hhas.trans h, hkey, ?_⟩
    by_cases hsame : ref = record.ref
    · obtain rfl : key = record.objectKey := hspare.current _ hrow hsame
      subst hsame
      exact .inr (harchived (hspare.archived body h hkey hrow hat))
    · exact .inl ⟨mem_records_removeRow.2 hrow hsame, hblobs ▸ hat⟩
  · exact ⟨hhas.trans h, hkey, .inr (harchived hat)⟩

end Spare

/-! ## Runs -/

namespace Archiving

variable {lib : RestoreLib} {w₀ : World} {s t : Archiving} {a : ArchivingAction}

/-- **The invariant.** -/
structure Kept (w₀ : World) (s : Archiving) : Prop where
  preserves : w₀.Preserves s.world
  pending : ∀ record ∈ s.pending, RowSpare s.world record

theorem Kept.step (h : s.Kept w₀) (hcareful : s.Careful lib a) (hstep : s.step lib a = some t) :
    t.Kept w₀ := by
  cases a with
  | look =>
    cases hstep
    exact ⟨h.preserves, fun record hrecord => (h.pending record hrecord).tick⟩
  | archive oracle now projectId surface record =>
    have hend := @archiveRecord_end oracle now projectId surface record s.world
    have hpreserves := h.preserves.trans (ArchiveSafe.preserves hcareful hend)
    rcases hexec : (archiveRecord oracle now projectId surface record).exec s.world
      with ⟨_ | _, world⟩ <;> rw [hexec] at hend hpreserves
    · obtain rfl : Archiving.mk world [] = t := by simpa [step, hexec] using hstep
      exact ⟨hpreserves, fun record hrecord => absurd hrecord not_mem_nil⟩
    · obtain rfl : Archiving.mk world (record :: s.pending) = t := by
        simpa [step, hexec] using hstep
      refine ⟨hpreserves, forall_mem_cons.mpr ⟨ArchiveSafe.rowSpare hcareful hend, ?_⟩⟩
      exact fun other hother => (h.pending other hother).archive hcareful hend
  | remove =>
    obtain ⟨world, pending⟩ := s
    cases pending with
    | nil => cases hstep
    | cons record pending =>
      cases hstep
      have hspare := forall_mem_cons.mp h.pending
      refine ⟨h.preserves.trans hspare.1.tick.preserves, fun other hother => ?_⟩
      exact (hspare.2 other hother).tick.removeRow
  | keep =>
    cases hstep
    exact ⟨h.preserves, fun record hrecord => h.pending record (mem_of_mem_tail hrecord)⟩
  | deleteSpans projectId eventId =>
    -- spans name no objects
    cases hstep
    refine ⟨h.preserves, fun record hrecord => ?_⟩
    exact ⟨(h.pending record hrecord).current, (h.pending record hrecord).archived⟩
  | restore oracle archive =>
    obtain ⟨-, ⟨⟩⟩ := Option.ite_none_right_eq_some.mp hstep
    exact ⟨h.preserves.trans hcareful.preserves, fun record hrecord => absurd hrecord not_mem_nil⟩
  | stop =>
    cases hstep
    exact ⟨h.preserves, fun record hrecord => absurd hrecord not_mem_nil⟩

/-- **No object is lost**, in every state of every run whose steps are careful. -/
theorem run_preserves {trace : List (Archiving × ArchivingAction)}
    (run : Run (step lib) ⟨w₀, []⟩ trace t) (hcareful : ∀ p ∈ trace, p.1.Careful lib p.2) :
    ∀ u ∈ visited trace t, w₀.Preserves u.world := by
  have hstart : Kept w₀ ⟨w₀, []⟩ :=
    ⟨World.Preserves.refl w₀, fun record hrecord => absurd hrecord not_mem_nil⟩
  intro u hu
  exact (run.invariant hstart Kept.step hcareful u hu).preserves

/-! ## An event with an object -/

section Decide

variable {w : World} {lib : RestoreLib}

instance (record : ArchivedRecord) (archiveKey : String) :
    Decidable (KeysFree w record archiveKey) :=
  decidable_of_iff _ (keysFree_iff w record archiveKey).symm

instance (oracle : Oracle) (now : Instant) (projectId : String) (surface : Surface)
    (record : ArchivedRecord) (archiveKey : String) (body : Body) :
    Decidable (MoveSafe oracle now projectId surface record w archiveKey body) :=
  decidable_of_iff _
    (moveSafe_iff oracle now projectId surface record w archiveKey body).symm

instance (oracle : Oracle) (now : Instant) (projectId : String) (surface : Surface)
    (record : ArchivedRecord) : Decidable (ArchiveSafe oracle now projectId surface record w) :=
  decidable_of_iff _ (archiveSafe_iff oracle now projectId surface record w).symm

instance (record : ArchivedRecord) (archiveKey : String) (body : Body) :
    Decidable (CopySafe record w archiveKey body) :=
  decidable_of_iff _ (copySafe_iff record w archiveKey body).symm

instance (key : String) : Decidable (w.Uses key) :=
  inferInstanceAs (Decidable ((∃ o ∈ w.records, o.2 = key) ∨
    ∃ a ∈ w.archives.rows, a.archiveKey = some key))

instance (archive : ArchiveRow) : Decidable (RestoreSafe lib archive w) :=
  decidable_of_iff _ (restoreSafe_iff lib archive w).symm

instance (s : Archiving) (a : ArchivingAction) : Decidable (s.Careful lib a) :=
  match a with
  | .archive .. => inferInstanceAs (Decidable (ArchiveSafe ..))
  | .restore .. => inferInstanceAs (Decidable (RestoreSafe ..))
  | .look | .remove | .keep | .deleteSpans _ _ | .stop => .isTrue trivial

instance (ref : RecordRef) (key : String) (body : Body) : Decidable (w.Archived ref key body) :=
  decidable_of_iff (∃ a ∈ w.archives.rows, a.record.ref = ref ∧ a.record.objectKey = key ∧
    a.archiveKey.bind w.blobs = some body) (by simp only [Option.bind_eq_some_iff]; rfl)

instance (ref : RecordRef) (key : String) (body : Body) : Decidable (w.Reaches ref key body) :=
  inferInstanceAs (Decidable (w.hasBlobs = true ∧ key ≠ "" ∧
    ((ref, key) ∈ w.records ∧ w.blobs key = some body ∨ w.Archived ref key body)))

end Decide

/-- A database with one error event of project `p`, whose payload is stored under the key `k`. -/
def oneObject : World where
  events := (Table.empty.insert { (someEvent.row morning.toTime) with payloadKey := some "k" }).getD
    .empty
  attachments := .empty
  transactions := .empty
  spans := .empty
  outcomes := .empty
  debugFiles := .empty
  archives := .empty
  hasBlobs := true
  blobs := fun key => if key = "k" then some [1] else none
  calls := 0

/-- The record of that event. -/
def oneRecord : ArchivedRecord :=
  .event { (someEvent.row morning.toTime).archived with payloadKey := "k" }

/-- What restoring does for profiles and replays does not matter here. -/
def noLib : RestoreLib where
  profileId := fun _ => ""
  replayIndex := fun _ _ _ => none

/-- The archive record of the event, drawn at the call with this number. -/
def oneArchive (n : ℕ) (archiveKey : Option String) : ArchiveRow :=
  archiveRow nextNoon "p" .errors oneRecord (toString n) archiveKey

theorem archived_restored : ∃ trace t, Run (step noLib) ⟨oneObject, []⟩ trace t ∧
    oneObject.Reaches ⟨"event", "1"⟩ "k" [1] ∧
      ∀ u ∈ visited trace t, oneObject.Preserves u.world := by
  have hreaches : oneObject.Reaches ⟨"event", "1"⟩ "k" [1] := by decide +kernel
  obtain ⟨trace, t, hrun, hcareful⟩ : ∃ trace t, Run (step noLib) ⟨oneObject, []⟩ trace t ∧
      ∀ x ∈ trace, x.1.Careful noLib x.2 := by
    refine exists_run [.archive reliable (hourOf 36) "p" .errors oneRecord, .remove,
      .restore reliable (oneArchive 3 (some "archives/p/errors/event/1"))] ?_
    decide +kernel
  exact ⟨trace, t, hrun, hreaches, run_preserves hrun hcareful⟩

/-- **A lost object.** The insertion of the archive record fails after the object was deleted under
its key. From then on, the object cannot be reached. The next pass archives the event as one without
an object, and when it is restored the event is back and its object is not. -/
theorem insert_failed_lost : ∃ trace t, Run (step noLib) ⟨oneObject, []⟩ trace t ∧
    oneObject.Reaches ⟨"event", "1"⟩ "k" [1] ∧ t.world.records = oneObject.records ∧
      t.world.archives.rows = [] ∧ ∀ u ∈ visited trace t, u.world.calls ≠ 0 →
        ¬u.world.Reaches ⟨"event", "1"⟩ "k" [1] := by
  refine exists_run [.archive { reliable with fails := (· == 4) } (hourOf 36) "p" .errors oneRecord,
    .archive reliable (hourOf 36) "p" .errors oneRecord, .remove,
      .restore reliable (oneArchive 6 none)] ?_
  decide +kernel

end Archiving

end Urgentry
