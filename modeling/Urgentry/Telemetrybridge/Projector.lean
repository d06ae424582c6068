import Urgentry.Internal.Batches
import Urgentry.Internal.GoText
import Urgentry.Internal.Run
import Urgentry.Sqlite.EventStore

/-!
# The telemetry projector

The projector copies the events of SQLite to `telemetry.event_facts` in Postgres, a batch of rows at
a time. Its progress is one number for each scope: the rowid of the last event that it has copied,
kept in memory and in `telemetry.projector_cursors`. The next batch holds the events of the scope
with larger rowids, and `SyncFamilies` returns when a batch is not full.

## What the mark does not see

Reading in batches is complete for a table that only grows. The table of events does not only grow.
An event that is written again keeps its rowid, and the fact keeps what the event was. When the
event with the largest rowid is deleted, the next one gets that rowid again and is never looked at.
And where a fact is written again, its organization and project stay as they were.

So the condition on a write is about the marks: no event comes to stand at or below a mark of a
scope that contains it with columns that its fact does not have. `Passed` says when a rowid is at or
below such a mark.

## Main results

* `upsertAll_spec`: what a batch does to the facts.
* `Projecting.run_complete`: in every run whose steps meet the condition, `SyncFamilies` returns
  only when every event of the scope has its fact. -/

namespace Urgentry

open SqlTable Trace Batches List Option Function Table

/-! ## Events and facts -/

/-- A row of `events` with the number that SQLite gives to it. -/
structure SourceRow where
  rowId : ℤ
  event : EventRow
deriving DecidableEq

instance : Schema SourceRow where
  conflict r s := r.rowId == s.rowId || Schema.conflict r.event s.event
  conflict_comm r s := by rw [Bool.beq_comm, Schema.conflict_comm]

/-- A row of `telemetry.event_facts`. -/
structure EventFact where
  (id organizationId projectId : String)
  groupId : Option String
  (eventId eventType : String)
  (release environment platform level title culprit : Option String)
  (occurredAt ingestedAt : Time)
  searchText : Option String
  (tagsJson dimensionsJson : String)
  payloadObjectKey : Option String
deriving DecidableEq

/-- `PRIMARY KEY (id)` and the unique index on `(project_id, event_id)`. -/
instance : Schema EventFact where
  conflict r s := r.id == s.id || (r.projectId == s.projectId && r.eventId == s.eventId)
  conflict_comm r s := by simp only [Bool.beq_comm]

/-- What the projector takes from its surroundings. -/
structure BridgeLib where
  /-- The organization of a project. -/
  organizationOf : String → Option String
  /-- `mustTimestamp`, as a column of type `TIMESTAMPTZ` keeps it. -/
  timestamp : String → Time
  /-- `::jsonb`, which fails on a text that is not JSON. -/
  jsonb : String → Option String

/-- `NULLIF(COALESCE(column, ''), '')`. -/
def nonEmpty (column : Option String) : Option String := column.filter (· ≠ "")

variable (lib : BridgeLib)

/-- The columns of a fact that come from an event of an organization. -/
def EventRow.fact (e : EventRow) (organizationId tagsJson : String) : EventFact where
  id := e.id
  organizationId
  projectId := e.projectId
  groupId := nonEmpty e.groupId
  eventId := e.eventId
  eventType := e.eventType
  release := nonEmpty e.release
  environment := nonEmpty e.environment
  platform := nonEmpty e.platform
  level := nonEmpty e.level
  title := nonEmpty e.title
  culprit := nonEmpty e.culprit
  occurredAt := lib.timestamp (e.occurredAt.getD "")
  ingestedAt := lib.timestamp (e.ingestedAt.getD "")
  searchText := nonEmpty (some (GoText.trimSpace
    (e.title.getD "" ++ " " ++ e.message.getD "" ++ " " ++ e.culprit.getD "")))
  tagsJson
  dimensionsJson := "\x7b\x7d"
  payloadObjectKey := nonEmpty e.payloadKey

/-- **The projection** of an event. There is none when the project does not exist or the tags are
not JSON. -/
def EventRow.projection (e : EventRow) : Option EventFact := do
  let organizationId ← lib.organizationOf e.projectId
  let tagsJson ← lib.jsonb (e.tagsJson.getD "\x7b\x7d")
  return e.fact lib organizationId tagsJson

/-- The upsert of a fact. The organization, the project and the dimensions of a stored fact stay. -/
def upsertFact (facts : Table EventFact) (r : SourceRow) : Option (Table EventFact) := do
  let fact ← r.event.projection lib
  facts.upsert fact (fun f => f.id == fact.id) fun f => { fact with
    organizationId := f.organizationId
    projectId := f.projectId
    dimensionsJson := f.dimensionsJson }

/-- The upserts of a batch. -/
def upsertAll (rows : List SourceRow) (facts : Table EventFact) : Option (Table EventFact) :=
  rows.foldlM (upsertFact lib) facts

/-! ## Scopes and cursors -/

/-- `Scope`. -/
structure SyncScope where
  organizationId : String
  projectId : String := ""
deriving DecidableEq

variable (scope : SyncScope)

/-- The conditions of the query, other than on the rowid. -/
def SyncScope.contains (e : EventRow) : Bool :=
  lib.organizationOf e.projectId == some scope.organizationId
    && (scope.projectId == "" || e.projectId == scope.projectId)

/-- `cursorName`, for the family of events. -/
def SyncScope.cursorName : String :=
  if GoText.trimSpace scope.projectId ≠ "" then
    "events:project:" ++ GoText.trimSpace scope.projectId
  else "events:organization:" ++ GoText.trimSpace scope.organizationId

/-- The ids have no space around them. -/
def SyncScope.Trimmed : Prop :=
  GoText.trimSpace scope.organizationId = scope.organizationId ∧
    GoText.trimSpace scope.projectId = scope.projectId
deriving Decidable

/-- The scopes that contain an event, of those without space. -/
def EventRow.scopes (e : EventRow) : List SyncScope :=
  ((lib.organizationOf e.projectId).toList.flatMap fun organizationId =>
    [⟨organizationId, ""⟩, ⟨organizationId, e.projectId⟩]).filter fun scope => scope.Trimmed

theorem mem_scopes {lib : BridgeLib} {e : EventRow} {scope : SyncScope} :
    scope ∈ e.scopes lib ↔ scope.contains lib e = true ∧ scope.Trimmed := by
  obtain ⟨organizationId, projectId⟩ := scope
  rw [EventRow.scopes, mem_filter, decide_eq_true_eq]
  refine and_congr_left fun _ => ?_
  cases horg : lib.organizationOf e.projectId with
  | none => simp [SyncScope.contains, horg]
  | some org =>
    simp only [SyncScope.contains, toList_some, flatMap_singleton]
    grind

/-! ## The system -/

/-- The two databases, the cursors in Postgres and in the memory of the projector, and the scope of
the call of `SyncFamilies` that the last step ended without an error. -/
structure Projecting where
  source : Table SourceRow
  facts : Table EventFact
  (cursors cursorMap : String → Option ℤ)
  returned : Option SyncScope

/-- How a batch ends. -/
inductive BatchOutcome
  | succeeds
  /-- The cursor cannot be read. -/
  | cursorFails
  /-- The query fails, or a row after this many upserts. -/
  | rowsFail (upserted : ℕ)
  /-- The cursor cannot be stored, or it is and the answer is lost. -/
  | storeFails (stored : Bool)

/-- What can happen. -/
inductive ProjectorAction
  | insert (e : EventRow)
  /-- A statement that changes columns of an event, other than its id. -/
  | update (rowId : ℤ) (e : EventRow)
  | delete (rowId : ℤ)
  | batch (scope : SyncScope) (outcome : BatchOutcome)
  | restart

namespace Projecting

variable (lib : BridgeLib) (s : Projecting)

/-- The rowid of a new event. -/
def nextRowId : ℤ := ((s.source.rows.map (·.rowId)).max?).getD 0 + 1

/-- `batchSize`. -/
def batchSize : ℕ := 128

variable (scope : SyncScope)

/-- `cursor`: the mark of the scope. -/
def checkpoint : ℤ :=
  ((s.cursorMap scope.cursorName).or (s.cursors scope.cursorName)).getD 0

/-- `cursor`, which remembers what it has read. -/
def loadCursor : Projecting :=
  { s with
    cursorMap := Function.update s.cursorMap scope.cursorName
      ((s.cursorMap scope.cursorName).or (s.cursors scope.cursorName))
    returned := none }

/-- The facts after the upserts of a batch. -/
def setFacts (facts : Table EventFact) : Projecting := { s with facts }

/-- The rows of the next batch. -/
def batchRows : List SourceRow :=
  batch SourceRow.rowId (s.checkpoint scope) batchSize
    (s.source.rows.filter fun r => scope.contains lib r.event)

/-- `setCursorWithExec`. -/
def storeCursor (rows : List SourceRow) : Projecting :=
  match rows.getLast? with
  | none => s
  | some last => { s with cursors := Function.update s.cursors scope.cursorName (some last.rowId) }

/-- The end of `withBridgeBatch`. -/
def finish (rows : List SourceRow) : Projecting :=
  match rows.getLast? with
  | none => { s with returned := some scope }
  | some last => { s.storeCursor scope rows with
      cursorMap := Function.update s.cursorMap scope.cursorName (some last.rowId)
      returned := if rows.length < batchSize then some scope else none }

/-- One step. The connection to SQLite is one, so a batch is not interleaved with writes to it. -/
def step : ProjectorAction → Option Projecting
  | .insert e => (s.source.insert ⟨s.nextRowId, e⟩).map fun source =>
      { s with source, returned := none }
  | .update rowId e =>
    if ∃ r ∈ s.source.rows, r.rowId = rowId ∧ r.event.id = e.id then
      (s.source.update (·.rowId == rowId) fun r => { r with event := e }).map fun source =>
        { s with source, returned := none }
    else none
  | .delete rowId =>
    some { s with source := s.source.deleteWhere (·.rowId == rowId), returned := none }
  | .batch _ .cursorFails => some { s with returned := none }
  | .batch scope (.rowsFail upserted) =>
    (upsertAll lib ((s.batchRows lib scope).take upserted) s.facts).map
      (s.loadCursor scope).setFacts
  | .batch scope (.storeFails stored) =>
    (upsertAll lib (s.batchRows lib scope) s.facts).map fun facts =>
      if stored then ((s.loadCursor scope).setFacts facts).storeCursor scope (s.batchRows lib scope)
      else (s.loadCursor scope).setFacts facts
  | .batch scope .succeeds =>
    (upsertAll lib (s.batchRows lib scope) s.facts).map fun facts =>
      ((s.loadCursor scope).setFacts facts).finish scope (s.batchRows lib scope)
  | .restart => some { s with cursorMap := fun _ => none, returned := none }

/-- Nothing has happened yet. -/
def start : Projecting := ⟨.empty, .empty, fun _ => none, fun _ => none, none⟩

/-! ## The property and the condition -/

/-- The marks under a name. -/
def marks (name : String) : List ℤ :=
  (s.cursors name).toList ++ (s.cursorMap name).toList

/-- An event with this rowid is at or below a mark of a scope that contains it. -/
def Passed (rowId : ℤ) (e : EventRow) : Prop :=
  ∃ scope ∈ e.scopes lib, ∃ mark ∈ s.marks scope.cursorName, rowId ≤ mark
deriving Decidable

end Projecting

/-- The event has its fact. -/
def Projected (lib : BridgeLib) (facts : Table EventFact) (e : EventRow) : Prop :=
  ∃ f ∈ facts.rows, e.projection lib = some f
deriving Decidable

/-- A fact with the id of the event is of its organization and project. -/
def SameOwner (lib : BridgeLib) (facts : Table EventFact) (e : EventRow) : Prop :=
  ∀ organizationId ∈ lib.organizationOf e.projectId, ∀ f ∈ facts.rows, f.id = e.id →
    f.organizationId = organizationId ∧ f.projectId = e.projectId
deriving Decidable

namespace Projecting

/-- **The condition on a step.** -/
def Careful (lib : BridgeLib) (s : Projecting) : ProjectorAction → Prop
  | .insert e => ¬s.Passed lib s.nextRowId e ∧ SameOwner lib s.facts e
  | .update rowId e => SameOwner lib s.facts e ∧ (s.Passed lib rowId e →
      ∀ r ∈ s.source.rows, r.rowId = rowId →
        e.projectId = r.event.projectId ∧ e.projection lib = r.event.projection lib)
  | .batch scope _ => scope.Trimmed
  | .delete _ | .restart => True

/-- **Completeness.** When `SyncFamilies` returns, every event of the scope has its fact. -/
def Complete (lib : BridgeLib) (s : Projecting) : Prop :=
  ∀ scope ∈ s.returned, ∀ r ∈ s.source.rows, scope.contains lib r.event = true →
    Projected lib s.facts r.event
deriving Decidable

end Projecting

/-! ## The facts -/

section Facts

variable {lib : BridgeLib} {facts facts' : Table EventFact} {source : Table SourceRow}

/-- **What every step keeps of the facts.** -/
structure FactsFit (lib : BridgeLib) (source : Table SourceRow)
    (facts : Table EventFact) : Prop where
  sameOwner : ∀ r ∈ source.rows, SameOwner lib facts r.event
  dimensions : ∀ f ∈ facts.rows, f.dimensionsJson = "\x7b\x7d"

theorem projection_eq_some {e : EventRow} {f : EventFact} (h : e.projection lib = some f) :
    f.id = e.id ∧ f.projectId = e.projectId ∧
      lib.organizationOf e.projectId = some f.organizationId ∧
      f.dimensionsJson = "\x7b\x7d" := by
  obtain ⟨organizationId, horg, h⟩ := bind_eq_some_iff.mp h
  obtain ⟨tagsJson, -, h⟩ := bind_eq_some_iff.mp h
  cases h
  exact ⟨rfl, rfl, horg, rfl⟩

theorem eq_of_eventRow {r s : SourceRow} (hr : r ∈ source.rows) (hs : s ∈ source.rows)
    (h : r.event.id = s.event.id) : r = s :=
  eq_of_conflict hr hs (by simp [Schema.conflict, h])

/-- **One upsert** puts the projection of the event in the place of the fact with its id. -/
theorem mem_upsertFact (hfit : FactsFit lib source facts) {r : SourceRow} (hr : r ∈ source.rows)
    (h : upsertFact lib facts r = some facts') :
    ∃ fact, r.event.projection lib = some fact ∧
      ∀ f, f ∈ facts'.rows ↔ f ∈ facts.rows ∧ f.id ≠ fact.id ∨ f = fact := by
  obtain ⟨fact, hfact, h⟩ := bind_eq_some_iff.mp h
  obtain ⟨hid, hproject, horg, hdimensions⟩ := projection_eq_some hfact
  -- The columns that stay are those of the projection.
  have hsame : ∀ f ∈ facts.rows, f.id = fact.id → { fact with
      organizationId := f.organizationId, projectId := f.projectId,
      dimensionsJson := f.dimensionsJson } = fact := by
    intro f hf hfid
    obtain ⟨howner, howned⟩ := hfit.sameOwner r hr _ horg f hf (hfid.trans hid)
    rw [howner, howned, ← hproject, hfit.dimensions f hf, ← hdimensions]
  refine ⟨fact, hfact, fun f => ?_⟩
  rw [upsert] at h
  split at h
  · next hany =>
    obtain ⟨old, hold, hidOld⟩ := List.any_eq_true.mp hany
    have hidOld : old.id = fact.id := by simpa using hidOld
    rw [rows_of_ofRows? h, List.mem_map]
    constructor
    · rintro ⟨g, hg, rfl⟩
      by_cases hgid : g.id = fact.id
      · rw [if_pos (by simpa using hgid)]
        exact .inr (hsame g hg hgid)
      · rw [if_neg (by simpa using hgid)]
        exact .inl ⟨hg, hgid⟩
    · rintro (⟨hf, hfid⟩ | rfl)
      · exact ⟨f, hf, if_neg (by simpa using hfid)⟩
      · exact ⟨old, hold, (if_pos (by simpa using hidOld)).trans (hsame old hold hidOld)⟩
  · next hnone =>
    have hother : ∀ f ∈ facts.rows, f.id ≠ fact.id := by
      intro f hf hfid
      exact hnone (List.any_eq_true.mpr ⟨f, hf, by simpa using hfid⟩)
    rw [(insert_eq_some_iff.mp h).2, mem_append, mem_singleton]
    refine or_congr_left ?_
    exact ⟨fun hf => ⟨hf, hother f hf⟩, fun hf => hf.1⟩

/-- **The upserts of a batch.** The events of the batch have their facts, and so have those that had
them before. -/
theorem upsertAll_spec {rows : List SourceRow} (hrows : ∀ r ∈ rows, r ∈ source.rows)
    (hfit : FactsFit lib source facts) (h : upsertAll lib rows facts = some facts') :
    FactsFit lib source facts' ∧
      (∀ r ∈ source.rows, Projected lib facts r.event → Projected lib facts' r.event) ∧
      ∀ r ∈ rows, Projected lib facts' r.event := by
  induction rows generalizing facts with
  | nil =>
    cases h
    exact ⟨hfit, fun _ _ h => h, fun _ h => absurd h not_mem_nil⟩
  | cons r rows ih =>
    obtain ⟨facts₁, hfirst, hrest⟩ := bind_eq_some_iff.mp h
    have hr := hrows r mem_cons_self
    obtain ⟨fact, hfact, hmem⟩ := mem_upsertFact hfit hr hfirst
    obtain ⟨hid, hproject, horg, hdimensions⟩ := projection_eq_some hfact
    have hfit₁ : FactsFit lib source facts₁ := by
      constructor
      · intro s hs organizationId hsorg f hf hfid
        rcases (hmem f).mp hf with ⟨hf, -⟩ | rfl
        · exact hfit.sameOwner s hs organizationId hsorg f hf hfid
        · obtain rfl := eq_of_eventRow hr hs (hid.symm.trans hfid)
          exact ⟨some.inj (horg.symm.trans hsorg), hproject⟩
      · intro f hf
        rcases (hmem f).mp hf with ⟨hf, -⟩ | rfl
        · exact hfit.dimensions f hf
        · exact hdimensions
    have hkeep : ∀ s ∈ source.rows, Projected lib facts s.event → Projected lib facts₁ s.event := by
      rintro s hs ⟨f, hf, hproj⟩
      by_cases hsame : f.id = fact.id
      · have hsid := (projection_eq_some hproj).1
        obtain rfl := eq_of_eventRow hr hs (hid.symm.trans (hsame.symm.trans hsid))
        exact ⟨fact, (hmem fact).mpr (.inr rfl), hfact⟩
      · exact ⟨f, (hmem f).mpr (.inl ⟨hf, hsame⟩), hproj⟩
    obtain ⟨hfit', hkeep', hdone⟩ := ih (fun s hs => hrows s (mem_cons_of_mem _ hs)) hfit₁ hrest
    refine ⟨hfit', fun s hs hproj => hkeep' s hs (hkeep s hs hproj),
      forall_mem_cons.mpr ⟨?_, hdone⟩⟩
    exact hkeep' _ hr ⟨fact, (hmem fact).mpr (.inr rfl), hfact⟩

end Facts

namespace Projecting

variable {lib : BridgeLib} {s t : Projecting} {scope : SyncScope}

/-! ## The marks -/

variable {e : EventRow} {r : SourceRow} {rowId : ℤ} {source : Table SourceRow}

/-- A name stands for one scope, of those that contain an event. -/
theorem eq_of_cursorName {a b : SyncScope} {e' : EventRow} (ha : a ∈ e.scopes lib)
    (hb : b ∈ e'.scopes lib) (h : a.cursorName = b.cursorName) : a = b := by
  obtain ⟨hina, horgA, hprojectA⟩ := mem_scopes.mp ha
  obtain ⟨hinb, horgB, hprojectB⟩ := mem_scopes.mp hb
  obtain ⟨orgA, projectA⟩ := a
  obtain ⟨orgB, projectB⟩ := b
  simp only [SyncScope.contains, Bool.and_eq_true, Bool.or_eq_true, beq_iff_eq] at hina hinb
  simp only [SyncScope.cursorName, horgA, horgB, hprojectA, hprojectB] at h
  have hkinds : ∀ x y : String, "events:project:" ++ x ≠ "events:organization:" ++ y := by
    intro x y hxy
    have hchar := congrArg (fun s : String => s.toList[7]?) hxy
    simp at hchar
  split at h <;> split at h
  · next hA hB =>
    obtain rfl : projectA = projectB := by simpa using h
    have heA := hina.2.resolve_left hA
    have heB := hinb.2.resolve_left hA
    have horg : some orgA = some orgB := by rw [← hina.1, ← hinb.1, heA, heB]
    rw [some.inj horg]
  · exact absurd h (hkinds _ _)
  · exact absurd h.symm (hkinds _ _)
  · next hA hB =>
    obtain rfl : orgA = orgB := by simpa using h
    rw [not_not.mp hA, not_not.mp hB]

theorem Passed.mono (h : t.Passed lib rowId e) (hmarks : ∀ name, t.marks name ⊆ s.marks name) :
    s.Passed lib rowId e := by
  obtain ⟨scope, hscope, mark, hmark, hle⟩ := h
  exact ⟨scope, hscope, mark, hmarks _ hmark, hle⟩

theorem source_loadCursor (s : Projecting) (scope : SyncScope) (facts : Table EventFact) :
    ((s.loadCursor scope).setFacts facts).source = s.source := by
  simp only [setFacts, loadCursor]

theorem marks_loadCursor (s : Projecting) (scope : SyncScope) (facts : Table EventFact)
    (name : String) : ((s.loadCursor scope).setFacts facts).marks name ⊆ s.marks name := by
  intro mark hmark
  simp only [marks, setFacts, loadCursor, mem_append, mem_toList] at hmark ⊢
  rcases hmark with hmark | hmark
  · exact .inl hmark
  · rw [update_apply] at hmark
    split at hmark
    · next hname =>
      subst hname
      exact (or_eq_some_iff.mp hmark).symm.imp (fun h => h.2) fun h => h
    · exact .inr hmark

/-! ## The invariant -/

/-- **What every step keeps.** -/
structure Good (lib : BridgeLib) (s : Projecting) : Prop where
  positive : ∀ r ∈ s.source.rows, 0 < r.rowId
  fit : FactsFit lib s.source s.facts
  covered : ∀ r ∈ s.source.rows, s.Passed lib r.rowId r.event → Projected lib s.facts r.event

theorem nextRowId_pos (h : ∀ r ∈ s.source.rows, 0 < r.rowId) : 0 < s.nextRowId := by
  rw [nextRowId]
  cases htop : (s.source.rows.map (·.rowId)).max? with
  | none => simp
  | some top =>
    obtain ⟨r, hr, rfl⟩ := List.mem_map.mp (max?_mem htop)
    have hpos := h r hr
    simp only [getD_some]
    omega

theorem Good.insert (h : s.Good lib) (hinsert : s.source.insert ⟨s.nextRowId, e⟩ = some source)
    (hnew : ¬s.Passed lib s.nextRowId e) (howner : SameOwner lib s.facts e) :
    Good lib { s with source, returned := none } := by
  have hrows : ∀ r, r ∈ source.rows ↔ r ∈ s.source.rows ∨ r = ⟨s.nextRowId, e⟩ := by
    intro r
    rw [(insert_eq_some_iff.mp hinsert).2, mem_append, mem_singleton]
  refine ⟨fun r hr => ?_, ⟨fun r hr => ?_, h.fit.dimensions⟩, fun r hr hpassed => ?_⟩
  · rcases (hrows r).mp hr with hr | rfl
    · exact h.positive r hr
    · exact nextRowId_pos h.positive
  · rcases (hrows r).mp hr with hr | rfl
    · exact h.fit.sameOwner r hr
    · exact howner
  · rcases (hrows r).mp hr with hr | rfl
    · exact h.covered r hr hpassed
    · exact absurd hpassed hnew

theorem Good.update (h : s.Good lib)
    (hupdate : s.source.update (·.rowId == rowId) (fun r => { r with event := e }) = some source)
    (howner : SameOwner lib s.facts e) (hsame : s.Passed lib rowId e → ∀ r ∈ s.source.rows,
      r.rowId = rowId → e.projectId = r.event.projectId ∧
        e.projection lib = r.event.projection lib) :
    Good lib { s with source, returned := none } := by
  have hrows : ∀ r ∈ source.rows, r ∈ s.source.rows ∨
      ∃ old ∈ s.source.rows, old.rowId = rowId ∧ r = ⟨rowId, e⟩ := by
    intro r hr
    rw [rows_of_ofRows? hupdate, List.mem_map] at hr
    obtain ⟨old, hold, rfl⟩ := hr
    by_cases hid : old.rowId = rowId
    · rw [if_pos (by simpa using hid)]
      exact .inr ⟨old, hold, hid, congrArg (SourceRow.mk · e) hid⟩
    · rw [if_neg (by simpa using hid)]
      exact .inl hold
  refine ⟨fun r hr => ?_, ⟨fun r hr => ?_, h.fit.dimensions⟩, fun r hr hpassed => ?_⟩
  · rcases hrows r hr with hr | ⟨old, hold, rfl, rfl⟩
    · exact h.positive r hr
    · exact h.positive old hold
  · rcases hrows r hr with hr | ⟨old, hold, rfl, rfl⟩
    · exact h.fit.sameOwner r hr
    · exact howner
  · rcases hrows r hr with hr | ⟨old, hold, rfl, rfl⟩
    · exact h.covered r hr hpassed
    · -- The old columns were passed as well, and they are projected.
      obtain ⟨hproject, hprojection⟩ := hsame hpassed old hold rfl
      have hscopes : e.scopes lib = old.event.scopes lib := by
        rw [EventRow.scopes, EventRow.scopes, hproject]
      have hpassedOld : s.Passed lib old.rowId old.event := by
        rw [Passed, ← hscopes]
        exact hpassed
      obtain ⟨f, hf, hfact⟩ := h.covered old hold hpassedOld
      exact ⟨f, hf, hprojection.trans hfact⟩

theorem Good.delete (h : s.Good lib) (rowId : ℤ) : Good lib
    { s with source := s.source.deleteWhere (·.rowId == rowId), returned := none } := by
  have hrows : ∀ r ∈ (s.source.deleteWhere (·.rowId == rowId)).rows, r ∈ s.source.rows :=
    fun r hr => (mem_filter.mp hr).1
  exact ⟨fun r hr => h.positive r (hrows r hr),
    ⟨fun r hr => h.fit.sameOwner r (hrows r hr), h.fit.dimensions⟩,
    fun r hr hpassed => h.covered r (hrows r hr) hpassed⟩

/-- A step that leaves the events alone and sets no mark. -/
theorem Good.marks_subset (h : s.Good lib) (hsource : t.source = s.source)
    (hfit : FactsFit lib s.source t.facts)
    (hfacts : ∀ r ∈ s.source.rows, s.Passed lib r.rowId r.event → Projected lib t.facts r.event)
    (hmarks : ∀ name, t.marks name ⊆ s.marks name) : t.Good lib := by
  refine ⟨hsource ▸ h.positive, hsource ▸ hfit, fun r hr hpassed => ?_⟩
  exact hfacts r (hsource ▸ hr) (hpassed.mono hmarks)

/-! ## Batches -/

theorem mem_batchRows (h : r ∈ s.batchRows lib scope) :
    r ∈ s.source.rows ∧ scope.contains lib r.event = true :=
  mem_filter.mp (mem_of_mem_batch h).1

/-- What is at or below the checkpoint has been passed. -/
theorem passed_of_le_checkpoint (h : s.Good lib) (hr : r ∈ s.source.rows)
    (hin : scope.contains lib r.event = true) (htrimmed : scope.Trimmed)
    (hle : r.rowId ≤ s.checkpoint scope) : s.Passed lib r.rowId r.event := by
  refine ⟨scope, mem_scopes.mpr ⟨hin, htrimmed⟩, ?_⟩
  rw [checkpoint] at hle
  cases hmark : (s.cursorMap scope.cursorName).or (s.cursors scope.cursorName) with
  | none =>
    rw [hmark, getD_none] at hle
    have hpos := h.positive r hr
    omega
  | some mark =>
    rw [hmark] at hle
    refine ⟨mark, ?_, hle⟩
    simp only [marks, mem_append, mem_toList]
    exact (or_eq_some_iff.mp hmark).symm.imp (fun h => h.2) fun h => h

variable {facts : Table EventFact}

/-- **A batch of upserts**, of all or of the first rows. -/
theorem Good.upserts (h : s.Good lib) {rows : List SourceRow}
    (hrows : ∀ r ∈ rows, r ∈ s.batchRows lib scope)
    (hall : upsertAll lib rows s.facts = some facts) :
    FactsFit lib s.source facts ∧ ∀ r ∈ s.source.rows,
      (s.Passed lib r.rowId r.event ∨ r ∈ rows) → Projected lib facts r.event := by
  obtain ⟨hfit, hkeep, hdone⟩ :=
    upsertAll_spec (fun r hr => (mem_batchRows (hrows r hr)).1) h.fit hall
  refine ⟨hfit, fun r hr hcase => ?_⟩
  rcases hcase with hpassed | hr'
  · exact hkeep r hr (h.covered r hr hpassed)
  · exact hdone r hr'

/-- `t` is what `s` becomes by the upserts of a whole batch, whether or not its mark is stored. -/
structure Batched (lib : BridgeLib) (s t : Projecting) (scope : SyncScope) : Prop where
  source : t.source = s.source
  facts : upsertAll lib (s.batchRows lib scope) s.facts = some t.facts
  marks : ∀ name, ∀ mark ∈ t.marks name, mark ∈ s.marks name ∨ name = scope.cursorName ∧
    ∃ last, (s.batchRows lib scope).getLast? = some last ∧ mark = last.rowId

/-- **The new mark** has nothing below it that has no fact. -/
theorem Good.batched (h : s.Good lib) (htrimmed : scope.Trimmed)
    (hbatched : Batched lib s t scope) :
    t.Good lib := by
  obtain ⟨hfit, hprojected⟩ := h.upserts (fun r hr => hr) hbatched.facts
  refine ⟨hbatched.source ▸ h.positive, hbatched.source ▸ hfit, fun r hr hpassed => ?_⟩
  rw [hbatched.source] at hr
  obtain ⟨scope', hscope', mark, hmark, hle⟩ := hpassed
  rcases hbatched.marks _ mark hmark with hmark | ⟨hname, last, hlast, rfl⟩
  · exact hprojected r hr (.inl ⟨scope', hscope', mark, hmark, hle⟩)
  · have hin := (mem_batchRows (mem_of_getLast? hlast)).2
    obtain rfl := eq_of_cursorName hscope' (mem_scopes.mpr ⟨hin, htrimmed⟩) hname
    have hinr := (mem_scopes.mp hscope').1
    by_cases hmark : s.checkpoint scope' < r.rowId
    · refine hprojected r hr (.inr (mem_batch_of_le ?_ hlast (mem_filter.mpr ⟨hr, hinr⟩) hmark hle))
      intro a ha b hb hab
      exact eq_of_conflict (mem_filter.mp ha).1 (mem_filter.mp hb).1
        (by simp [Schema.conflict, hab])
    · exact hprojected r hr (.inl (passed_of_le_checkpoint h hr hinr htrimmed (not_lt.mp hmark)))

/-- **A batch that is not full** leaves no event of the scope without its fact. -/
theorem Good.projected_of_short (h : s.Good lib) (htrimmed : scope.Trimmed)
    (hbatched : Batched lib s t scope) (hshort : (s.batchRows lib scope).length < batchSize)
    (hr : r ∈ s.source.rows) (hin : scope.contains lib r.event = true) :
    Projected lib t.facts r.event := by
  obtain ⟨-, hprojected⟩ := h.upserts (fun r hr => hr) hbatched.facts
  by_cases hmark : s.checkpoint scope < r.rowId
  · exact hprojected r hr (.inr (mem_batch_of_length_lt hshort (mem_filter.mpr ⟨hr, hin⟩) hmark))
  · exact hprojected r hr (.inl (passed_of_le_checkpoint h hr hin htrimmed (not_lt.mp hmark)))

section

variable (hall : upsertAll lib (s.batchRows lib scope) s.facts = some facts)

include hall

theorem batched_loadCursor : Batched lib s ((s.loadCursor scope).setFacts facts) scope :=
  ⟨source_loadCursor s scope facts, hall,
    fun name _ hmark => .inl (marks_loadCursor s scope facts name hmark)⟩

theorem batched_storeCursor : Batched lib s
      (((s.loadCursor scope).setFacts facts).storeCursor scope (s.batchRows lib scope)) scope := by
  have hload := batched_loadCursor hall
  generalize (s.loadCursor scope).setFacts facts = t at hload ⊢
  rw [storeCursor]
  split
  · exact hload
  · next last hlast =>
    refine ⟨hload.source, hload.facts, fun name mark hmark => ?_⟩
    simp only [marks, mem_append, mem_toList, update_apply] at hmark
    rcases hmark with hmark | hmark
    · split at hmark
      · next hname => exact .inr ⟨hname, last, hlast, (some.inj hmark).symm⟩
      · exact hload.marks name mark (by simp [marks, hmark])
    · exact hload.marks name mark (by simp [marks, hmark])

theorem batched_finish : Batched lib s
      (((s.loadCursor scope).setFacts facts).finish scope (s.batchRows lib scope)) scope := by
  have hload := batched_loadCursor hall
  have hstore := batched_storeCursor hall
  generalize (s.loadCursor scope).setFacts facts = t at hload hstore ⊢
  rw [finish]
  split
  · exact ⟨hload.source, hload.facts, hload.marks⟩
  · next last hlast =>
    refine ⟨hstore.source, hstore.facts, fun name mark hmark => ?_⟩
    simp only [marks, mem_append, mem_toList, update_apply] at hmark
    rcases hmark with hmark | hmark
    · exact hstore.marks name mark (by simp [marks, hmark])
    · split at hmark
      · next hname => exact .inr ⟨hname, last, hlast, (some.inj hmark).symm⟩
      · exact hload.marks name mark (by simp [marks, hmark])

end

theorem returned_storeCursor (s : Projecting) (scope : SyncScope) (rows : List SourceRow) :
    (s.storeCursor scope rows).returned = s.returned := by
  rw [storeCursor]
  split <;> rfl

/-- The last batch of a call is not full. -/
theorem returned_finish {rows : List SourceRow} {scope' : SyncScope}
    (h : scope' ∈ (s.finish scope rows).returned) : scope' = scope ∧ rows.length < batchSize := by
  rw [finish] at h
  split at h
  · next hnone =>
    rw [getLast?_eq_none_iff.mp hnone]
    exact ⟨(some.inj h).symm, by decide⟩
  · split at h
    · next hshort => exact ⟨(some.inj h).symm, hshort⟩
    · cases h

/-! ## Runs -/

/-- **One step** keeps the invariant, and a call that it ends is complete. -/
theorem Good.step {a : ProjectorAction} (h : s.Good lib) (hcareful : s.Careful lib a)
    (hstep : s.step lib a = some t) : t.Good lib ∧ t.Complete lib := by
  have hquiet : t.returned = none → t.Complete lib := by
    intro hnone scope hscope
    rw [hnone] at hscope
    cases hscope
  cases a with
  | insert e =>
    obtain ⟨source, hinsert, rfl⟩ := map_eq_some_iff.mp hstep
    exact ⟨h.insert hinsert hcareful.1 hcareful.2, hquiet rfl⟩
  | update rowId e =>
    obtain ⟨-, hstep⟩ := ite_none_right_eq_some.mp hstep
    obtain ⟨source, hupdate, rfl⟩ := map_eq_some_iff.mp hstep
    exact ⟨h.update hupdate hcareful.1 hcareful.2, hquiet rfl⟩
  | delete rowId =>
    cases hstep
    exact ⟨h.delete rowId, hquiet rfl⟩
  | restart =>
    cases hstep
    exact ⟨h.marks_subset rfl h.fit h.covered fun name => by simp [marks], hquiet rfl⟩
  | batch scope outcome =>
    cases outcome with
    | cursorFails =>
      cases hstep
      exact ⟨h.marks_subset rfl h.fit h.covered fun name => Subset.refl _, hquiet rfl⟩
    | rowsFail upserted =>
      obtain ⟨facts, hall, rfl⟩ := map_eq_some_iff.mp hstep
      obtain ⟨hfit, hprojected⟩ := h.upserts (fun r hr => mem_of_mem_take hr) hall
      exact ⟨h.marks_subset (source_loadCursor s scope facts) hfit
        (fun r hr hpassed => hprojected r hr (.inl hpassed))
          (marks_loadCursor s scope facts), hquiet rfl⟩
    | storeFails stored =>
      obtain ⟨facts, hall, rfl⟩ := map_eq_some_iff.mp hstep
      cases stored with
      | true =>
        exact ⟨h.batched hcareful (batched_storeCursor hall), hquiet (returned_storeCursor _ _ _)⟩
      | false => exact ⟨h.batched hcareful (batched_loadCursor hall), hquiet rfl⟩
    | succeeds =>
      obtain ⟨facts, hall, rfl⟩ := map_eq_some_iff.mp hstep
      have hbatched := batched_finish hall
      refine ⟨h.batched hcareful hbatched, fun scope' hscope' r hr hin => ?_⟩
      obtain ⟨rfl, hshort⟩ := returned_finish hscope'
      exact h.projected_of_short hcareful hbatched hshort (hbatched.source ▸ hr) hin

theorem good_start (lib : BridgeLib) : start.Good lib where
  positive _ hr := absurd hr not_mem_nil
  fit := ⟨fun _ hr => absurd hr not_mem_nil, fun _ hf => absurd hf not_mem_nil⟩
  covered _ hr := absurd hr not_mem_nil

/-- The invariant of a run. -/
def Sound (lib : BridgeLib) (s : Projecting) : Prop := s.Good lib ∧ s.Complete lib

/-- **The projector is complete** in every run whose steps meet the condition. -/
theorem run_complete {trace : List (Projecting × ProjectorAction)}
    (run : Run (step lib) start trace t) (hcareful : ∀ p ∈ trace, p.1.Careful lib p.2) :
    ∀ u ∈ visited trace t, u.Complete lib := by
  have hstart : start.Sound lib := by
    refine ⟨good_start lib, fun scope hscope => ?_⟩
    cases hscope
  intro u hu
  exact (run.invariant hstart (fun h hcareful hstep => h.1.step hcareful hstep) hcareful u hu).2

/-! ### An event that is written again -/

instance (lib : BridgeLib) (s : Projecting) (a : ProjectorAction) : Decidable (s.Careful lib a) :=
  match a with
  | .insert _ => inferInstanceAs (Decidable (_ ∧ _))
  | .update .. => inferInstanceAs (Decidable (_ ∧ (_ → ∀ r ∈ _, _ → _ ∧ _)))
  | .batch scope _ => inferInstanceAs (Decidable scope.Trimmed)
  | .delete _ | .restart => .isTrue trivial

/-- The project `p` of the organization `a`. -/
def oneProjectLib : BridgeLib where
  organizationOf projectId := if projectId = "p" then some "a" else none
  timestamp _ := ⟨0⟩
  jsonb := some

/-- An event of the project with this title. -/
def titled (id title : String) : EventRow :=
  StoredEvent.row { id, projectId := "p", eventId := id, title } ⟨0⟩

/-- The organization `a`. -/
def organizationScope : SyncScope := { organizationId := "a" }

/-- A second event arrives after the first batch. -/
theorem complete_second_event : ∃ trace t, Run (step oneProjectLib) start trace t ∧
    t.returned = some organizationScope ∧ t.facts.rows.map (·.id) = ["x", "y"] ∧
      ∀ u ∈ visited trace t, u.Complete oneProjectLib := by
  obtain ⟨trace, t, hrun, hreturned, hids, hcareful⟩ : ∃ trace t,
      Run (step oneProjectLib) start trace t ∧ t.returned = some organizationScope ∧
      t.facts.rows.map (·.id) = ["x", "y"] ∧ ∀ q ∈ trace, q.1.Careful oneProjectLib q.2 :=
    exists_run [.insert (titled "x" "old"), .batch organizationScope .succeeds, .restart,
      .insert (titled "y" "old"), .batch organizationScope .succeeds] (by decide +kernel)
  exact ⟨trace, t, hrun, hreturned, hids, run_complete hrun hcareful⟩

/-- **A stale fact.** The event gets another title after its batch, and the next call returns with
the old one in the fact. -/
theorem stale_fact : ∃ trace t, Run (step oneProjectLib) start trace t ∧
    t.returned = some organizationScope ∧ t.source.rows.map (·.event.title) = [some "new"] ∧
      t.facts.rows.map (·.title) = [some "old"] ∧ ¬t.Complete oneProjectLib :=
  exists_run [.insert (titled "x" "old"), .batch organizationScope .succeeds,
    .update 1 (titled "x" "new"), .batch organizationScope .succeeds] (by decide +kernel)

end Projecting

end Urgentry
