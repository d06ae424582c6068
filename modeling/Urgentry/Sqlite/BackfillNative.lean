import Urgentry.Internal.Run
import Urgentry.Issue.Processor
import Mathlib.Data.List.Infix
import Mathlib.Data.List.MinMax
import Mathlib.Data.List.Sort

/-!
# Native reprocessing

When debug files arrive, the native events of a release are symbolicated again. A new stack trace
can mean a new grouping key, and then the event moves to another group. `ReprocessNativeEventBatch`
lists a batch of events, works through the list, moving each event in a transaction of its own, and
at the end copies the latest event of each touched group into the group's summary.

## What a move does to the counts

The target group counts one more event, whether or not the event is in it already. The group that
the event leaves is deleted when it is empty, and otherwise keeps its count. And the summary takes
the *row id* of the latest event for `last_event_id`, where every other writer stores the event id.
So a move is sound only under the conditions of `MoveFits`, and copying a summary only when the row
id of the latest event happens to be an event id of the group (`NamesLatest`).

## Runs

Any number of batches run at the same time. The list of a batch is read once, so an entry of it can
be out of date: after a lost lease, the next worker lists the same events while the first one is
still moving them. A batch can stop at any point, with an error or without a word.

## Main results

* `Issues.consistent_move_iff`: a move keeps the summaries consistent exactly under `MoveFits`.
* `Reprocessing.run_consistent_iff`: the summaries are consistent in every state of a run exactly
  when every step of it meets its condition. -/

namespace Urgentry

open SqlTable Trace GoText List Option Schema Table

/-! ## The batch -/

/-- `NativeReprocessFilter`. -/
structure NativeReprocessFilter where
  organizationId : String
  projectId : String := ""
  releaseVersion : String := ""
  startedAfter : Time := ⟨0⟩
  endedBefore : Time := ⟨0⟩
deriving DecidableEq

/-- `NativeReprocessBatch`. -/
structure NativeReprocessBatch where
  filter : NativeReprocessFilter
  afterRowId : ℤ := 0
  limit : ℤ := 0
deriving DecidableEq

/-- `NativeReprocessBatchResult`. -/
structure NativeReprocessBatchResult where
  nextRowId : ℤ := 0
  processed : ℕ := 0
  updated : ℕ := 0
  failed : ℕ := 0
  done : Bool := false
  lastError : String := ""
deriving DecidableEq

/-- `nativeReprocessCandidate`. -/
structure NativeReprocessCandidate where
  rowId : ℤ
  (eventRow project groupId payload occurredAt : String)
deriving DecidableEq

/-- What the query for candidates reads beside `events`: the organization of a project, and the
number that SQLite gives to a row. -/
structure NativeDb where
  organizationOf : String → Option String
  rowId : String → ℤ

/-- `COALESCE(occurred_at, ingested_at, '')`. -/
def EventRow.seenAt (r : EventRow) : String := (r.occurredAt.or r.ingestedAt).getD ""

/-- `instr(COALESCE(payload_json, ''), text) > 0`. -/
def EventRow.mentions (r : EventRow) (text : String) : Bool :=
  decide (text.toList <:+: (r.payloadJson.getD "").toList)

variable (db : NativeDb)

/-- The conditions of `nativeReprocessBaseQuery`. -/
def nativeReprocessBaseQuery (filter : NativeReprocessFilter) (r : EventRow) : Bool :=
  db.organizationOf r.projectId == some filter.organizationId
    && r.eventType == "error"
    && (r.mentions "\"debug_id\"" || r.mentions "\"code_id\"" || r.mentions "\"instruction_addr\"")
    && (filter.projectId == "" || r.projectId == filter.projectId)
    && (filter.releaseVersion == "" || r.release.getD "" == filter.releaseVersion)
    && (filter.startedAfter.ns == 0 || decide (filter.startedAfter.rfc3339 ≤ r.seenAt))
    && (filter.endedBefore.ns == 0 || decide (r.seenAt ≤ filter.endedBefore.rfc3339))

/-- `limit`, with its default. -/
def NativeReprocessBatch.size (batch : NativeReprocessBatch) : ℕ :=
  if batch.limit ≤ 0 then 25 else batch.limit.toNat

/-- The columns that the query selects. -/
def EventRow.candidate (r : EventRow) : NativeReprocessCandidate where
  rowId := db.rowId r.id
  eventRow := r.id
  project := r.projectId
  groupId := r.groupId.getD ""
  payload := r.payloadJson.getD ""
  occurredAt := r.seenAt

/-- The candidates of a batch. -/
def NativeReprocessBatch.candidates (batch : NativeReprocessBatch)
    (events : Table EventRow) : List NativeReprocessCandidate :=
  let selected := events.rows.filter fun r =>
    nativeReprocessBaseQuery db batch.filter r && decide (batch.afterRowId < db.rowId r.id)
  ((selected.map (EventRow.candidate db)).insertionSort
    fun a b => a.rowId ≤ b.rowId).take batch.size

/-- `encoding/json` and `sqlutil.ParseDBTime`. An event that is read carries its grouping. -/
structure NativeLib where
  unmarshal : String → Option NormalizedEvent
  parseDBTime : String → Time

/-- What becomes of a candidate. -/
inductive ItemOutcome
  | failed (message : String)
  | unchanged
  | updated (evt : NormalizedEvent)
  | moved (evt : NormalizedEvent)

/-- The part of the loop body before the tables are written. `resolve` is what
`ApplyEventResolvers` makes of the event with the debug files that are there: nothing, when it
changes nothing. -/
def reprocessItem (lib : NativeLib) (item : NativeReprocessCandidate)
    (resolve : NormalizedEvent → Option NormalizedEvent) : ItemOutcome :=
  if trimSpace item.payload = "" then .failed "skipped empty native event payload"
  else
    match lib.unmarshal item.payload with
    | none => .failed "skipped invalid native event payload"
    | some evt =>
      let evt := if evt.timestamp.ns = 0 then
        { evt with timestamp := lib.parseDBTime item.occurredAt } else evt
      match resolve evt with
      | none => .unchanged
      | some after =>
        if evt.groupingVersion ≠ after.groupingVersion ∨ evt.groupingKey ≠ after.groupingKey then
          .moved after
        else .updated after

/-! ## The tables -/

/-- The tables that reprocessing writes. -/
structure Issues where
  groups : Table GroupRow
  events : Table EventRow

variable (events : Table EventRow) (groupId : String)

/-- The latest event of a group: `ORDER BY COALESCE(occurred_at, ingested_at, '') DESC, id DESC
LIMIT 1`. -/
def latestEvent : Option EventRow :=
  (events.rows.filter (·.groupId == some groupId)).argmax fun r => toLex (r.seenAt, r.id)

/-- The summary of a group after its latest event. The event is named by its row id. -/
def GroupRow.summarize (g : GroupRow) (r : EventRow) : GroupRow :=
  { g with
    title := r.title.getD ""
    culprit := r.culprit.getD ""
    level := r.level.getD ""
    lastEventId := r.id
    lastSeen := r.seenAt }

@[simp]
theorem GroupRow.conflict_summarize (r : EventRow) (g u : GroupRow) :
    conflict (g.summarize r) u = conflict g u :=
  rfl

/-- The `UPDATE` of `syncGroupFromLatestEventRunner`, with the event that its `SELECT` found. -/
def copyLatest (latest : Option EventRow) (groups : Table GroupRow) : Table GroupRow :=
  match latest with
  | none => groups
  | some r => updateGroup groupId (·.summarize r) (GroupRow.conflict_summarize r) groups

/-- `syncGroupFromLatestEventRunner`, in a transaction. -/
def syncGroupFromLatestEvent (groups : Table GroupRow) : Table GroupRow :=
  copyLatest groupId (latestEvent events groupId) groups

/-- The columns that both `UPDATE` statements set. -/
def NormalizedEvent.rewrite (evt : NormalizedEvent) (r : EventRow) : EventRow :=
  { r with
    title := some evt.title
    culprit := some evt.culprit
    message := some evt.message
    level := some evt.level
    platform := some evt.platform
    release := some evt.release
    environment := some evt.environment
    tagsJson := some evt.tagsJson
    payloadJson := some evt.normalizedJson }

/-- The update of an event that stays in its group. -/
def rewriteEvent (id : String) (evt : NormalizedEvent) (events : Table EventRow) : Table EventRow :=
  updateEvent id evt.rewrite (fun _ _ => rfl) events

/-- The update of an event that moves. -/
def moveEvent (id : String) (evt : NormalizedEvent) (groupId : String) (events : Table EventRow) :
    Table EventRow :=
  updateEvent id (fun r => { evt.rewrite r with groupId := some groupId }) (fun _ _ => rfl) events

/-- The group that `ensureTargetGroup` inserts. -/
def NormalizedEvent.newGroup (evt : NormalizedEvent) (projectId newId : String) (eventTime : Time) :
    Group :=
  { evt.group projectId newId with firstSeen := eventTime, lastSeen := eventTime }

/-- `ensureTargetGroup`. A new group starts with one event. -/
def ensureTargetGroup (projectId : String) (evt : NormalizedEvent) (eventTime : Time)
    (newId : String) (groups : Table GroupRow) : Option (Table GroupRow × String) :=
  match getGroupByKey groups (evt.groupKey projectId) with
  | none =>
    (groups.insert ((evt.newGroup projectId newId eventTime).newRow groups)).map
      fun groups => (groups, newId)
  | some row =>
    let seen (r : GroupRow) := { r with timesSeen := r.timesSeen + 1 }
    some (updateGroup row.id seen (fun _ _ => rfl) groups, row.id)

/-- `SELECT COUNT(*) FROM events WHERE group_id = ?`. -/
def countGroupEvents : ℕ :=
  events.rows.countP (·.groupId == some groupId)

/-- The group that the candidate was in when it was listed: deleted when it is empty now, and
summarised again otherwise. -/
def leaveGroup (groupId targetGroupId : String) (events : Table EventRow)
    (groups : Table GroupRow) : Table GroupRow :=
  if trimSpace groupId ≠ "" ∧ groupId ≠ targetGroupId then
    if countGroupEvents events groupId = 0 then
      groups.deleteWhere (·.id == groupId)
    else syncGroupFromLatestEvent events groupId groups
  else groups

/-- The time of a moved event. -/
def NativeReprocessCandidate.eventTime (lib : NativeLib) (item : NativeReprocessCandidate)
    (evt : NormalizedEvent) (now : Time) : Time :=
  if evt.timestamp.ns ≠ 0 then evt.timestamp
  else if (lib.parseDBTime item.occurredAt).ns ≠ 0 then lib.parseDBTime item.occurredAt
  else now

/-- `moveReprocessedEventToGroup`: one transaction. -/
def moveReprocessedEventToGroup (lib : NativeLib) (item : NativeReprocessCandidate)
    (evt : NormalizedEvent) (newId : String) (now : Time) (s : Issues) : Option (Issues × String) :=
  (ensureTargetGroup item.project evt (item.eventTime lib evt now) newId s.groups).map
    fun (groups, targetGroupId) =>
      let events := moveEvent item.eventRow evt targetGroupId s.events
      let groups := leaveGroup item.groupId targetGroupId events groups
      (⟨syncGroupFromLatestEvent events targetGroupId groups, events⟩, targetGroupId)

/-! ## Summaries -/

/-- The summary of the group is right. -/
@[mk_iff]
structure GroupRow.Fits (g : GroupRow) : Prop where
  timesSeen : g.timesSeen = countGroupEvents events g.id
  lastEventId : ∃ r ∈ events, r.groupId = some g.id ∧ r.eventId = g.lastEventId

instance (events : Table EventRow) (g : GroupRow) : Decidable (g.Fits events) :=
  decidable_of_iff _ (GroupRow.fits_iff events g).symm

/-- **The property.** Each group counts its events and names one of them. -/
def Issues.Consistent (s : Issues) : Prop := ∀ g ∈ s.groups, g.Fits s.events
deriving Decidable

/-- The row id of the latest event of the group is the event id of an event of the group. -/
def NamesLatest : Prop :=
  ∃ l ∈ latestEvent events groupId, ∃ r ∈ events.rows, r.groupId = some groupId ∧ r.eventId = l.id
deriving Decidable

/-- The group that the event moves to. -/
def targetGroup (groups : Table GroupRow) (key : GroupKey) (newId : String) : String :=
  ((getGroupByKey groups key).map (·.id)).getD newId

/-- **The condition on a move** of the event `e`. -/
@[mk_iff]
structure MoveFits (s : Issues) (item : NativeReprocessCandidate) (evt : NormalizedEvent)
    (target : String) (e : EventRow) : Prop where
  /-- It is the event of the candidate. -/
  row : e.id = item.eventRow
  /-- It is not in the target group yet. -/
  enters : e.groupId ≠ some target
  /-- A group that it leaves is the one that the candidate names, and has no other event. -/
  leaves : ∀ g ∈ s.groups.rows, e.groupId = some g.id →
    g.id = item.groupId ∧ trimSpace g.id ≠ "" ∧ ∀ r ∈ s.events.rows, r.groupId = some g.id → r = e
  /-- Another group that the candidate names is summarised. -/
  listed : ∀ g ∈ s.groups.rows, g.id = item.groupId → trimSpace g.id ≠ "" → g.id ≠ target →
    e.groupId ≠ some g.id → NamesLatest (moveEvent item.eventRow evt target s.events) g.id
  /-- The target group is summarised, with the event in it. -/
  target : NamesLatest (moveEvent item.eventRow evt target s.events) target

variable {events : Table EventRow} {groups : Table GroupRow}

@[simp]
theorem countGroupEvents_eq_zero {groupId : String} :
    countGroupEvents events groupId = 0 ↔ ∀ r ∈ events, r.groupId ≠ some groupId := by
  simp [countGroupEvents, Table.mem_def]

@[simp]
theorem countGroupEvents_rewriteEvent (id : String) (evt : NormalizedEvent) (groupId : String) :
    countGroupEvents (rewriteEvent id evt events) groupId = countGroupEvents events groupId := by
  refine countP_map.trans (congrArg (countP · events.rows) ?_)
  funext r
  rw [Function.comp_apply]
  split <;> rfl

/-- Rewriting an event in place keeps what the summaries are about. -/
theorem GroupRow.Fits.rewriteEvent {g : GroupRow} (h : g.Fits events) (id : String)
    (evt : NormalizedEvent) : g.Fits (rewriteEvent id evt events) where
  timesSeen := by
    rw [h.timesSeen, countGroupEvents_rewriteEvent]
  lastEventId := by
    obtain ⟨r, hr, hgroup, hid⟩ := h.lastEventId
    refine ⟨_, mem_updateEvent.mpr ⟨r, hr, rfl⟩, ?_, ?_⟩
    · split <;> exact hgroup
    · split <;> exact hid

/-! ### Moving an event -/

section Move

variable {id target groupId : String} {evt : NormalizedEvent} {e : EventRow}

/-- A move takes the event out of the count of one group and into that of another. -/
theorem countGroupEvents_moveEvent (evt : NormalizedEvent) (target groupId : String)
    (he : e ∈ events) (hid : e.id = id) :
    countGroupEvents (moveEvent id evt target events) groupId +
        (if e.groupId = some groupId then 1 else 0) =
      countGroupEvents events groupId + if target = groupId then 1 else 0 := by
  have hcount := Table.countP_map_row (·.id == id) (·.groupId == some groupId)
    (fun r => { evt.rewrite r with groupId := some target }) he (by simpa using hid)
    (fun s hs => by simp_all [conflict])
  simpa [countGroupEvents, moveEvent, updateEvent, Table.map] using hcount

theorem moveEvent_of_not_mem (h : ∀ r ∈ events, r.id ≠ id) :
    moveEvent id evt target events = events := by
  refine ext ((map_congr_left fun r hr => ?_).trans (List.map_id _))
  exact if_neg (by simpa using h r hr)

/-- The count of the target is right after the move exactly when the event came to it. -/
theorem countGroupEvents_target_iff :
    countGroupEvents (moveEvent id evt target events) target = countGroupEvents events target + 1 ↔
      ∃ e ∈ events, e.id = id ∧ e.groupId ≠ some target := by
  constructor
  · intro hcount
    by_contra hno
    by_cases hmem : ∃ e ∈ events, e.id = id
    · obtain ⟨e, he, hid⟩ := hmem
      have hgroup : e.groupId = some target := by
        by_contra hne
        exact hno ⟨e, he, hid, hne⟩
      have hmove := countGroupEvents_moveEvent evt target target he hid
      rw [if_pos hgroup, if_pos rfl] at hmove
      omega
    · rw [moveEvent_of_not_mem fun r hr hid => hmem ⟨r, hr, hid⟩] at hcount
      omega
  · rintro ⟨e, he, hid, hgroup⟩
    have hmove := countGroupEvents_moveEvent evt target target he hid
    rwa [if_neg hgroup, if_pos rfl] at hmove

/-- The summary of another group stays right exactly when the event was not in it. -/
theorem GroupRow.Fits.moveEvent_iff {g : GroupRow} (h : g.Fits events) (evt : NormalizedEvent)
    (he : e ∈ events) (hid : e.id = id) (hne : g.id ≠ target) :
    g.Fits (moveEvent id evt target events) ↔ e.groupId ≠ some g.id := by
  have hmove := countGroupEvents_moveEvent evt target g.id he hid
  rw [if_neg hne.symm] at hmove
  have htimes := h.timesSeen
  constructor
  · intro hafter hgroup
    rw [if_pos hgroup] at hmove
    have htimes' := hafter.timesSeen
    omega
  · intro hgroup
    rw [if_neg hgroup] at hmove
    refine ⟨by omega, ?_⟩
    obtain ⟨r, hr, hrgroup, hrid⟩ := h.lastEventId
    refine ⟨r, mem_updateEvent.mpr ⟨r, hr, if_neg fun hmoved => ?_⟩, hrgroup, hrid⟩
    have heq : r = e := eq_of_conflict hr he (by simp [conflict, hmoved, hid])
    exact hgroup (heq ▸ hrgroup)

/-- A group is empty after a move to another one exactly when it had no other event. -/
theorem countGroupEvents_moveEvent_eq_zero (evt : NormalizedEvent) (he : e ∈ events)
    (hid : e.id = id) (hne : groupId ≠ target) :
    countGroupEvents (moveEvent id evt target events) groupId = 0 ↔
      ∀ r ∈ events, r.groupId = some groupId → r = e := by
  rw [countGroupEvents_eq_zero]
  constructor
  · intro hnone r hr hgroup
    by_contra hre
    refine hnone r (mem_updateEvent.mpr ⟨r, hr, if_neg ?_⟩) hgroup
    exact fun hrid => hre (eq_of_conflict hr he (by simp [conflict, hrid, hid]))
  · rintro hall r' hr' hgroup
    obtain ⟨r, hr, rfl⟩ := mem_updateEvent.mp hr'
    split_ifs at hgroup with hrid
    · exact hne (some.inj hgroup).symm
    · rw [hall r hr hgroup] at hrid
      exact hrid (by simpa using hid)

end Move

/-! ### Copying the latest event -/

/-- What copying the latest event of `groupId` makes of a row. -/
def GroupRow.synced (events : Table EventRow) (groupId : String) (g : GroupRow) : GroupRow :=
  if g.id = groupId then ((latestEvent events groupId).map g.summarize).getD g else g

variable {groupId : String} {s : Issues}

theorem mem_copyLatest {latest : Option EventRow} {g' : GroupRow} :
    g' ∈ copyLatest groupId latest groups ↔
      ∃ g ∈ groups, (if g.id = groupId then (latest.map g.summarize).getD g else g) = g' := by
  cases latest with
  | none => simp [copyLatest]
  | some r =>
    rw [copyLatest]
    exact mem_updateGroup

theorem mem_syncGroupFromLatestEvent {g' : GroupRow} :
    g' ∈ syncGroupFromLatestEvent events groupId groups ↔
      ∃ g ∈ groups, g.synced events groupId = g' :=
  mem_copyLatest

@[simp]
theorem GroupRow.synced_id (groupId : String) (g : GroupRow) :
    (g.synced events groupId).id = g.id := by
  unfold synced
  split
  · cases latestEvent events groupId <;> rfl
  · rfl

theorem GroupRow.synced_of_ne {g : GroupRow} (h : g.id ≠ groupId) : g.synced events groupId = g :=
  if_neg h

theorem latestEvent_eq_none (h : latestEvent events groupId = none) :
    ∀ r ∈ events, r.groupId ≠ some groupId := by
  intro r hr hgroup
  have hnil := argmax_eq_none.mp h
  refine ne_nil_of_mem (mem_filter.mpr ⟨hr, ?_⟩) hnil
  simpa using hgroup

/-- **The summary of a group after the copy** is right when the count is and the row id of the
latest event is an event id of the group. -/
theorem GroupRow.fits_synced {g : GroupRow} :
    (g.synced events g.id).Fits events ↔
      g.timesSeen = countGroupEvents events g.id ∧ NamesLatest events g.id := by
  rw [synced, if_pos rfl]
  cases hlatest : latestEvent events g.id with
  | none =>
    have hnone := latestEvent_eq_none hlatest
    refine ⟨fun h => ?_, ?_⟩
    · obtain ⟨r, hr, hgroup, -⟩ := h.lastEventId
      exact absurd hgroup (hnone r hr)
    · rintro ⟨-, l, hl, -⟩
      rw [hlatest] at hl
      cases hl
  | some l =>
    refine ⟨fun h => ⟨h.timesSeen, l, hlatest, h.lastEventId⟩, ?_⟩
    rintro ⟨htimes, l', hl', hnames⟩
    rw [hlatest] at hl'
    cases hl'
    exact ⟨htimes, hnames⟩

/-- **Copying a summary** keeps the summaries consistent exactly when the row id that is copied, if
there is one and the group is there, is an event id of the group. -/
theorem Issues.consistent_copy_iff (h : s.Consistent) (groupId : String)
    (latest : Option EventRow) :
    Issues.Consistent { s with groups := copyLatest groupId latest s.groups } ↔
      ∀ l ∈ latest, ∀ g ∈ s.groups.rows, g.id = groupId →
        ∃ r ∈ s.events.rows, r.groupId = some groupId ∧ r.eventId = l.id := by
  cases latest with
  | none => exact iff_of_true h (by simp)
  | some l =>
    simp only [mem_def, some.injEq, forall_eq']
    constructor
    · rintro hafter g hg rfl
      exact (hafter (g.summarize l) (mem_copyLatest.mpr ⟨g, hg, if_pos rfl⟩)).lastEventId
    · intro hnames g' hg'
      obtain ⟨g, hg, rfl⟩ := mem_copyLatest.mp hg'
      split
      · next hid =>
        subst hid
        exact ⟨(h g hg).timesSeen, hnames g hg rfl⟩
      · exact h g hg

/-! ### The transaction -/

/-- The group of the candidate is another one than the target, and its id is not blank. -/
def NativeReprocessCandidate.Leaves (item : NativeReprocessCandidate) (target : String)
    (g : GroupRow) : Prop :=
  g.id = item.groupId ∧ trimSpace g.id ≠ "" ∧ g.id ≠ target

variable {item : NativeReprocessCandidate} {evt : NormalizedEvent} {groups : Table GroupRow}

/-- What is left of a row: a group that the event leaves is deleted or summarised. -/
theorem mem_leaveGroup {target : String} {g' : GroupRow} :
    g' ∈ leaveGroup item.groupId target events groups ↔
      ∃ g ∈ groups, (item.Leaves target g ∧ countGroupEvents events g.id ≠ 0 ∧
        g' = g.synced events g.id) ∨ (¬item.Leaves target g ∧ g' = g) := by
  have hleaves (g : GroupRow) : item.Leaves target g ↔
      g.id = item.groupId ∧ trimSpace item.groupId ≠ "" ∧ item.groupId ≠ target := by
    refine and_congr_right fun hid => ?_
    rw [hid]
  simp only [hleaves]
  unfold leaveGroup
  split
  · next hother =>
    simp only [hother.1, hother.2, ne_eq, not_false_eq_true, and_true]
    split
    · next hzero =>
      refine mem_filter.trans ⟨fun ⟨hg, hid⟩ => ?_, ?_⟩
      · exact ⟨g', hg, .inr ⟨by simpa using hid, rfl⟩⟩
      · rintro ⟨g, hg, ⟨hid, hcount, -⟩ | ⟨hid, rfl⟩⟩
        · rw [hid] at hcount
          exact absurd hzero hcount
        · exact ⟨hg, by simpa using hid⟩
    · next hsome =>
      rw [mem_syncGroupFromLatestEvent]
      refine exists_congr fun g => and_congr_right fun _ => ⟨?_, ?_⟩
      · rintro rfl
        by_cases hid : g.id = item.groupId
        · exact .inl ⟨hid, hid ▸ hsome, by rw [hid]⟩
        · exact .inr ⟨hid, GroupRow.synced_of_ne hid⟩
      · rintro (⟨hid, -, rfl⟩ | ⟨hid, rfl⟩)
        · rw [hid]
        · exact GroupRow.synced_of_ne hid
  · next hsame =>
    simp [hsame]

/-- The groups once the target is there: one row of it counts one event more. -/
theorem mem_ensureTargetGroup (h : s.Consistent) {projectId newId target : String}
    {eventTime : Time} (hfresh : ∀ r ∈ s.events, r.groupId ≠ some newId)
    (hensure : ensureTargetGroup projectId evt eventTime newId s.groups = some (groups, target)) :
    target = targetGroup s.groups (evt.groupKey projectId) newId ∧
      ∃ row : GroupRow, row.id = target ∧ row.timesSeen = countGroupEvents s.events target + 1 ∧
        ∀ g, g ∈ groups ↔ (g ∈ s.groups ∧ g.id ≠ target) ∨ g = row := by
  unfold ensureTargetGroup at hensure
  unfold targetGroup
  cases hkey : getGroupByKey s.groups (evt.groupKey projectId) with
  | none =>
    rw [hkey] at hensure
    obtain ⟨table, hinsert, heq⟩ := map_eq_some_iff.mp hensure
    cases heq
    rw [Table.insert] at hinsert
    split at hinsert
    · next hclash =>
      cases hinsert
      have hno := Table.clashes_eq_false.mp hclash
      have hcount : countGroupEvents s.events newId = 0 := countGroupEvents_eq_zero.mpr hfresh
      refine ⟨rfl, (evt.newGroup projectId newId eventTime).newRow s.groups, rfl, ?_, fun g => ?_⟩
      · rw [hcount]
        rfl
      · refine mem_append.trans (or_congr ⟨fun hg => ⟨hg, fun hid => ?_⟩, And.left⟩ mem_singleton)
        have hconf := hno g hg
        simp [conflict, Group.newRow, NormalizedEvent.newGroup, NormalizedEvent.group, hid] at hconf
    · cases hinsert
  | some row =>
    rw [hkey] at hensure
    cases hensure
    have hrow := (getGroupByKey_eq_some hkey).1
    refine ⟨rfl, { row with timesSeen := row.timesSeen + 1 }, rfl, ?_, fun g => ?_⟩
    · exact congrArg (· + 1) (h row hrow).timesSeen
    · refine mem_updateGroup.trans ⟨?_, ?_⟩
      · rintro ⟨r, hr, rfl⟩
        split_ifs with hid
        · exact .inr (by rw [eq_of_groupId hr hrow hid])
        · exact .inl ⟨hr, hid⟩
      · rintro (⟨hg, hid⟩ | rfl)
        · exact ⟨g, hg, if_neg hid⟩
        · exact ⟨row, hrow, if_pos rfl⟩

/-- What the transaction has to get right, group by group. -/
theorem Issues.consistent_moved_iff {target : String} {events : Table EventRow} {row : GroupRow}
    (hid : row.id = target) (htimes : row.timesSeen = countGroupEvents s.events target + 1)
    (hgroups : ∀ g, g ∈ groups ↔ (g ∈ s.groups ∧ g.id ≠ target) ∨ g = row) :
    Issues.Consistent ⟨syncGroupFromLatestEvent events target
        (leaveGroup item.groupId target events groups), events⟩ ↔
      (countGroupEvents events target = countGroupEvents s.events target + 1 ∧
        NamesLatest events target) ∧
        ∀ g ∈ s.groups, g.id ≠ target → (item.Leaves target g → countGroupEvents events g.id ≠ 0 →
            g.timesSeen = countGroupEvents events g.id ∧ NamesLatest events g.id) ∧
          (¬item.Leaves target g → g.Fits events) := by
  constructor
  · intro h
    refine ⟨?_, fun g hg hne => ⟨fun hleaves hcount => ?_, fun hstays => ?_⟩⟩
    · have hfits := h _ (mem_syncGroupFromLatestEvent.mpr
        ⟨row, mem_leaveGroup.mpr ⟨row, (hgroups row).mpr (.inr rfl),
          .inr ⟨fun hleaves => hleaves.2.2 hid, rfl⟩⟩, rfl⟩)
      subst hid
      obtain ⟨hcount, hnames⟩ := GroupRow.fits_synced.mp hfits
      rw [htimes] at hcount
      exact ⟨by exact_mod_cast hcount.symm, hnames⟩
    · have hfits := h _ (mem_syncGroupFromLatestEvent.mpr
        ⟨_, mem_leaveGroup.mpr ⟨g, (hgroups g).mpr (.inl ⟨hg, hne⟩),
          .inl ⟨hleaves, hcount, rfl⟩⟩, GroupRow.synced_of_ne ?_⟩)
      · exact GroupRow.fits_synced.mp hfits
      · rwa [GroupRow.synced_id]
    · exact h _ (mem_syncGroupFromLatestEvent.mpr
        ⟨_, mem_leaveGroup.mpr ⟨g, (hgroups g).mpr (.inl ⟨hg, hne⟩), .inr ⟨hstays, rfl⟩⟩,
          GroupRow.synced_of_ne hne⟩)
  · rintro ⟨⟨hcount, hnames⟩, hothers⟩ g'' hg''
    obtain ⟨g', hg', rfl⟩ := mem_syncGroupFromLatestEvent.mp hg''
    obtain ⟨g, hg, hleft⟩ := mem_leaveGroup.mp hg'
    rcases (hgroups g).mp hg with ⟨hg, hne⟩ | rfl
    · obtain ⟨hleaving, hstaying⟩ := hothers g hg hne
      rcases hleft with ⟨hleaves, hcount', rfl⟩ | ⟨hstays, rfl⟩
      · rw [GroupRow.synced_of_ne (by rwa [GroupRow.synced_id])]
        exact GroupRow.fits_synced.mpr (hleaving hleaves hcount')
      · rw [GroupRow.synced_of_ne hne]
        exact hstaying hstays
    · rcases hleft with ⟨hleaves, -, -⟩ | ⟨-, rfl⟩
      · exact absurd hid hleaves.2.2
      · subst hid
        exact GroupRow.fits_synced.mpr ⟨by rw [htimes]; exact_mod_cast hcount.symm, hnames⟩

/-- **A move** keeps the summaries consistent exactly when it fits. -/
theorem Issues.consistent_move_iff {t : Issues} (h : s.Consistent) {lib : NativeLib}
    {newId target : String} {now : Time} (hfresh : ∀ r ∈ s.events, r.groupId ≠ some newId)
    (hmove : moveReprocessedEventToGroup lib item evt newId now s = some (t, target)) :
    t.Consistent ↔
      ∃ e ∈ s.events,
        MoveFits s item evt (targetGroup s.groups (evt.groupKey item.project) newId) e := by
  obtain ⟨⟨groups, target'⟩, hensure, heq⟩ := map_eq_some_iff.mp hmove
  cases heq
  obtain ⟨rfl, row, hid, htimes, hgroups⟩ := mem_ensureTargetGroup h hfresh hensure
  generalize targetGroup s.groups (evt.groupKey item.project) newId = target at *
  rw [Issues.consistent_moved_iff hid htimes hgroups, countGroupEvents_target_iff]
  constructor
  · rintro ⟨⟨⟨e, he, heid, henters⟩, hnames⟩, hothers⟩
    refine ⟨e, he, heid, henters, fun g hg hgroup => ?_,
      fun g hg hlisted hblank hne hgroup => ?_, hnames⟩
    · have hne : g.id ≠ target := fun hne => henters (hne ▸ hgroup)
      obtain ⟨hleaving, hstaying⟩ := hothers g hg hne
      have hmoved := (h g hg).moveEvent_iff evt he heid hne
      by_cases hleaves : item.Leaves target g
      · refine ⟨hleaves.1, hleaves.2.1, (countGroupEvents_moveEvent_eq_zero evt he heid hne).mp ?_⟩
        by_contra hcount
        have hafter := (hleaving hleaves hcount).1
        have hbefore := (h g hg).timesSeen
        have hmove := countGroupEvents_moveEvent evt target g.id he heid
        rw [if_pos hgroup, if_neg hne.symm] at hmove
        omega
      · exact absurd hgroup (hmoved.mp (hstaying hleaves))
    · obtain ⟨hleaving, -⟩ := hothers g hg hne
      refine (hleaving ⟨hlisted, hblank, hne⟩ fun hcount => ?_).2
      obtain ⟨r, hr, hrgroup, -⟩ := (h g hg).lastEventId
      have hre := (countGroupEvents_moveEvent_eq_zero evt he heid hne).mp hcount r hr hrgroup
      exact hgroup (hre ▸ hrgroup)
  · rintro ⟨e, he, hfits⟩
    refine ⟨⟨⟨e, he, hfits.row, hfits.enters⟩, hfits.target⟩, fun g hg hne => ⟨?_, ?_⟩⟩
    · intro hleaves hcount
      have hgroup : e.groupId ≠ some g.id := fun hgroup => hcount <|
        (countGroupEvents_moveEvent_eq_zero evt he hfits.row hne).mpr (hfits.leaves g hg hgroup).2.2
      refine ⟨?_, hfits.listed g hg hleaves.1 hleaves.2.1 hne hgroup⟩
      exact (((h g hg).moveEvent_iff evt he hfits.row hne).mpr hgroup).timesSeen
    · intro hstays
      refine ((h g hg).moveEvent_iff evt he hfits.row hne).mpr fun hgroup => hstays ?_
      obtain ⟨hlisted, hblank, -⟩ := hfits.leaves g hg hgroup
      exact ⟨hlisted, hblank, hne⟩

/-! ## Batches in progress -/

/-- A call of `ReprocessNativeEventBatch`: the candidates that it has not come to, the groups that
it touched and has not summarised, the group that it has selected the latest event of, and its
result so far. -/
structure ReprocessCall where
  batch : NativeReprocessBatch
  candidates : List NativeReprocessCandidate
  touched : List String
  selected : Option (String × Option EventRow)
  result : NativeReprocessBatchResult
deriving DecidableEq

/-- The tables, the calls in progress and the results of those that returned. -/
structure Reprocessing where
  issues : Issues
  calls : List ReprocessCall
  results : List NativeReprocessBatchResult

/-- What can happen. -/
inductive ReprocessAction
  /-- A call begins and lists its candidates. -/
  | list (batch : NativeReprocessBatch)
  /-- A call processes its next candidate. -/
  | item (c : ReprocessCall) (resolve : NormalizedEvent → Option NormalizedEvent) (newId : String)
    (now : Time)
  /-- A call that is through with its candidates selects the latest event of a group. -/
  | select (c : ReprocessCall) (groupId : String)
  /-- The call summarises the group. -/
  | sync (c : ReprocessCall)
  /-- A call returns its result. -/
  | finish (c : ReprocessCall)
  /-- A call ends with an error, or is given up. -/
  | stop (c : ReprocessCall)

/-- `touchedGroups[groupID] = struct{}{}`, unless the id is blank. -/
def touch (groupId : String) (touched : List String) : List String :=
  if trimSpace groupId = "" then touched else touched.insert groupId

namespace NativeReprocessBatchResult

variable (result : NativeReprocessBatchResult)

/-- The loop comes to a candidate. -/
def visit (item : NativeReprocessCandidate) : NativeReprocessBatchResult :=
  { result with nextRowId := item.rowId, processed := result.processed + 1 }

/-- The candidate cannot be read. -/
def fail (message : String) : NativeReprocessBatchResult :=
  { result with
    failed := result.failed + 1
    lastError := if result.lastError = "" then message else result.lastError }

/-- The candidate was written. -/
def update : NativeReprocessBatchResult :=
  { result with updated := result.updated + 1 }

end NativeReprocessBatchResult

/-- The move that processing the next candidate of a call comes to, if it does. -/
def ReprocessCall.move? (lib : NativeLib) (c : ReprocessCall)
    (resolve : NormalizedEvent → Option NormalizedEvent) :
    Option (NativeReprocessCandidate × NormalizedEvent) :=
  match c.candidates with
  | [] => none
  | item :: _ =>
    match reprocessItem lib item resolve with
    | .moved evt => some (item, evt)
    | _ => none

namespace Reprocessing

def start (issues : Issues) : Reprocessing := ⟨issues, [], []⟩

/-- The call goes on. -/
def goOn (s : Reprocessing) (c c' : ReprocessCall) (issues : Issues) : Reprocessing :=
  { s with issues, calls := c' :: s.calls.erase c }

/-- The call ends. -/
def drop (s : Reprocessing) (c : ReprocessCall) : Reprocessing :=
  { s with calls := s.calls.erase c }

variable (lib : NativeLib) (db : NativeDb) (s : Reprocessing)

/-- The next candidate of a call. -/
def stepItem (c : ReprocessCall) (item : NativeReprocessCandidate)
    (rest : List NativeReprocessCandidate) (resolve : NormalizedEvent → Option NormalizedEvent)
    (newId : String) (now : Time) : Option Reprocessing :=
  let result := c.result.visit item
  match reprocessItem lib item resolve with
  | .failed message =>
    some (s.goOn c { c with candidates := rest, result := result.fail message } s.issues)
  | .unchanged => some (s.goOn c { c with candidates := rest, result } s.issues)
  | .updated evt =>
    some (s.goOn c
      { c with
        candidates := rest
        touched := touch item.groupId c.touched
        result := result.update }
      { s.issues with events := rewriteEvent item.eventRow evt s.issues.events })
  | .moved evt =>
    -- ids are random: no event is in a group that does not exist yet
    if s.issues.events.rows.any (·.groupId == some newId) then none
    else (moveReprocessedEventToGroup lib item evt newId now s.issues).map
      fun (issues, targetGroupId) => s.goOn c
        { c with candidates := rest, touched := touch targetGroupId c.touched
                 result := result.update } issues

/-- One step. -/
def step : ReprocessAction → Option Reprocessing
  | .list batch => some { s with
      calls := ⟨batch, batch.candidates db s.issues.events, [], none, {}⟩ :: s.calls }
  | .item c resolve newId now =>
    if c ∈ s.calls then
      match c.candidates with
      | [] => none
      | item :: rest => s.stepItem lib c item rest resolve newId now
    else none
  | .select c groupId =>
    if c ∈ s.calls ∧ c.candidates = [] ∧ groupId ∈ c.touched ∧ c.selected = none then
      some (s.goOn c
        { c with
          touched := c.touched.erase groupId
          selected := some (groupId, latestEvent s.issues.events groupId) } s.issues)
    else none
  | .sync c =>
    if c ∈ s.calls then
      c.selected.map fun (groupId, latest) => s.goOn c { c with selected := none }
        { s.issues with groups := copyLatest groupId latest s.issues.groups }
    else none
  | .finish c =>
    if c ∈ s.calls ∧ c.candidates = [] ∧ c.touched = [] ∧ c.selected = none then
      some { s.drop c with
        results := { c.result with done := c.result.processed < c.batch.size } :: s.results }
    else none
  | .stop c => if c ∈ s.calls then some (s.drop c) else none

/-! ## Runs -/

/-- **The condition on a step.** -/
def Fits : ReprocessAction → Prop
  | .item c resolve newId _ =>
    ∀ m ∈ c.move? lib resolve, ∃ e ∈ s.issues.events.rows, MoveFits s.issues m.1 m.2
      (targetGroup s.issues.groups (m.2.groupKey m.1.project) newId) e
  | .sync c => ∀ p ∈ c.selected, ∀ l ∈ p.2, ∀ g ∈ s.issues.groups.rows, g.id = p.1 →
      ∃ r ∈ s.issues.events.rows, r.groupId = some p.1 ∧ r.eventId = l.id
  | _ => True

/-- What a step does to the issues. -/
def Writes (s t : Reprocessing) : ReprocessAction → Prop
  | .item c resolve newId now =>
    (c.move? lib resolve = none ∧ (t.issues = s.issues ∨ ∃ item evt, t.issues =
      { s.issues with events := rewriteEvent item evt s.issues.events })) ∨
    ∃ item evt target, c.move? lib resolve = some (item, evt) ∧
      (∀ r ∈ s.issues.events, r.groupId ≠ some newId) ∧
      moveReprocessedEventToGroup lib item evt newId now s.issues = some (t.issues, target)
  | .sync c => ∃ p ∈ c.selected,
    t.issues = { s.issues with groups := copyLatest p.1 p.2 s.issues.groups }
  | _ => t.issues = s.issues

variable {lib db} {s t : Reprocessing} {a : ReprocessAction}

theorem writes_step (hstep : s.step lib db a = some t) : Writes lib s t a := by
  cases a with
  | list batch =>
    cases hstep
    rfl
  | item c resolve newId now =>
    obtain ⟨-, hstep⟩ := ite_none_right_eq_some.mp hstep
    cases hcandidates : c.candidates with
    | nil =>
      rw [hcandidates] at hstep
      cases hstep
    | cons item rest =>
      rw [hcandidates] at hstep
      simp only [stepItem] at hstep
      cases houtcome : reprocessItem lib item resolve with
      | failed message | unchanged =>
        rw [houtcome] at hstep
        cases hstep
        exact .inl ⟨by simp [ReprocessCall.move?, hcandidates, houtcome], .inl rfl⟩
      | updated evt =>
        rw [houtcome] at hstep
        cases hstep
        exact .inl ⟨by simp [ReprocessCall.move?, hcandidates, houtcome], .inr ⟨_, evt, rfl⟩⟩
      | moved evt =>
        rw [houtcome] at hstep
        obtain ⟨hfresh, hstep⟩ := ite_none_left_eq_some.mp hstep
        obtain ⟨⟨issues, target⟩, hmove, rfl⟩ := map_eq_some_iff.mp hstep
        exact .inr ⟨item, evt, target, by simp [ReprocessCall.move?, hcandidates, houtcome],
          by simpa [Table.mem_def] using hfresh, hmove⟩
  | sync c =>
    obtain ⟨-, hstep⟩ := ite_none_right_eq_some.mp hstep
    obtain ⟨p, hp, rfl⟩ := map_eq_some_iff.mp hstep
    exact ⟨p, hp, rfl⟩
  | select c groupId | finish c | stop c =>
    obtain ⟨-, ⟨⟩⟩ := ite_none_right_eq_some.mp hstep
    rfl

/-- **A step** keeps the summaries consistent exactly when it meets its condition. -/
theorem consistent_step_iff (h : s.issues.Consistent) (hstep : s.step lib db a = some t) :
    t.issues.Consistent ↔ s.Fits lib a := by
  have hwrites := writes_step hstep
  cases a with
  | item c resolve newId now =>
    rcases hwrites with ⟨hnone, heq | ⟨item, evt, heq⟩⟩ | ⟨item, evt, target, hsome, hfresh, hmove⟩
    · exact iff_of_true (heq ▸ h) (by simp [Fits, hnone])
    · rw [heq]
      exact iff_of_true (fun g hg => (h g hg).rewriteEvent _ _) (by simp [Fits, hnone])
    · refine (Issues.consistent_move_iff h hfresh hmove).trans ?_
      simp [Fits, hsome, Table.mem_def]
  | sync c =>
    obtain ⟨⟨groupId, latest⟩, hselected, heq⟩ := hwrites
    rw [heq, Issues.consistent_copy_iff h]
    refine ⟨fun hnames p hp => ?_, fun hnames => hnames _ hselected⟩
    cases hp.symm.trans hselected
    exact hnames
  | list batch | select c groupId | finish c | stop c =>
    rw [show t.issues = s.issues from hwrites]
    exact iff_of_true h trivial

/-- **Consistent runs.** From consistent summaries, the summaries are consistent in every state of a
run exactly when every step of the run meets its condition. -/
theorem run_consistent_iff {issues : Issues} {trace : List (Reprocessing × ReprocessAction)}
    (hstart : issues.Consistent) (run : Run (step lib db) (start issues) trace t) :
    (∀ u ∈ visited trace t, u.issues.Consistent) ↔ ∀ p ∈ trace, p.1.Fits lib p.2 := by
  have hinit : (start issues).issues.Consistent := hstart
  refine run.safe_iff hinit (fun h hfits hstep => ?_) (fun h => h) fun h hno hstep hafter => ?_
  · exact (consistent_step_iff h hstep).mpr hfits
  · exact hno ((consistent_step_iff h hstep).mp hafter)

/-! ### A moved event -/

/-- Every payload is the event `e` with an old grouping key. -/
def oldLib : NativeLib where
  unmarshal _ := some { eventId := "e", groupingVersion := "v", groupingKey := "old" }
  parseDBTime _ := ⟨0⟩

/-- One organization, and rows numbered by the length of their ids. -/
def oneOrg : NativeDb where
  organizationOf _ := some "org"
  rowId id := id.length

/-- The debug files give the event a new grouping key. -/
def newKey (evt : NormalizedEvent) : Option NormalizedEvent :=
  some { evt with groupingKey := "new" }

/-- A native event in the group `g`. -/
def nativeEvent (id eventId : String) : StoredEvent where
  id
  projectId := "p"
  eventId
  groupId := "g"
  normalizedJson := "\x7b\"debug_id\":\"1\"\x7d"

/-- The group `g`. -/
def oldGroup (timesSeen : ℤ) : Group where
  id := "g"
  projectId := "p"
  groupingVersion := "v"
  groupingKey := "old"
  title := ""
  culprit := ""
  level := ""
  firstSeen := ⟨0⟩
  lastSeen := ⟨0⟩
  timesSeen
  lastEventId := "e"

/-- The group with its events. -/
def oldIssues (timesSeen : ℤ) (events : List StoredEvent) : Issues where
  groups := Table.empty.insertOrIgnore ((oldGroup timesSeen).newRow .empty)
  events := events.foldl (fun events evt => saveEvent events evt ⟨0⟩) .empty

/-- A batch of one event. -/
def oneBatch : NativeReprocessBatch where
  filter := ⟨"org", "", "", ⟨0⟩, ⟨0⟩⟩
  limit := 1

variable (issues : Issues)

/-- The call when it has listed its candidate. -/
def listed : ReprocessCall :=
  ⟨oneBatch, oneBatch.candidates oneOrg issues.events, [], none, {}⟩

/-- The call when it has moved its event to the group `h`. -/
def moved : ReprocessCall :=
  { listed issues with
    candidates := [], touched := ["h"], result := { nextRowId := 1, processed := 1, updated := 1 } }

/-- The event, once it is in the group `h`. -/
def movedEvent (rowId : String) : Option EventRow :=
  latestEvent (moveEvent rowId { eventId := "e", groupingVersion := "v", groupingKey := "new" } "h"
    issues.events) "h"

/-- The batch from beginning to end. -/
def batchSteps (rowId : String) : List ReprocessAction :=
  [.list oneBatch, .item (listed issues) newKey "h" ⟨0⟩, .select (moved issues) "h",
    .sync { moved issues with touched := [], selected := some ("h", movedEvent issues rowId) },
    .finish { moved issues with touched := [] }]

instance (s : Issues) (item : NativeReprocessCandidate) (evt : NormalizedEvent) (target : String)
    (e : EventRow) : Decidable (MoveFits s item evt target e) :=
  decidable_of_iff _ (moveFits_iff s item evt target e).symm

instance (lib : NativeLib) (s : Reprocessing) (a : ReprocessAction) : Decidable (s.Fits lib a) :=
  match a with
  | .item .. => inferInstanceAs (Decidable (∀ m ∈ _, ∃ e ∈ _, _))
  | .sync _ => inferInstanceAs (Decidable (∀ p ∈ _, ∀ l ∈ _, ∀ g ∈ _, _ → ∃ r ∈ _, _))
  | .list _ | .select .. | .finish _ | .stop _ => .isTrue trivial

/-- The only event of a group moves. Its row id is its event id. -/
theorem only_event_moved : ∃ trace t,
    Run (step oldLib oneOrg) (start (oldIssues 1 [nativeEvent "e" "e"])) trace t ∧
      t.issues.groups.rows.map (·.id) = ["h"] ∧ ∀ u ∈ visited trace t, u.issues.Consistent := by
  have hstart : (oldIssues 1 [nativeEvent "e" "e"]).Consistent := by decide +kernel
  exact exists_run_and (Fits oldLib) (batchSteps (oldIssues 1 [nativeEvent "e" "e"]) "e")
    (by decide +kernel) fun hrun hfits => (run_consistent_iff hstart hrun).mpr hfits

/-- **Two events, one of them moves.** The old group still counts two, and its last event is named
by a row id. -/
theorem one_of_two_moved : (oldIssues 2 [nativeEvent "r" "e", nativeEvent "rr" "ee"]).Consistent ∧
    ∃ trace t, Run (step oldLib oneOrg)
      (start (oldIssues 2 [nativeEvent "r" "e", nativeEvent "rr" "ee"])) trace t ∧ t.calls = [] ∧
      t.issues.groups.rows.map (fun g => (g.id, g.timesSeen, g.lastEventId)) =
        [("g", 2, "rr"), ("h", 1, "r")] ∧ ¬t.issues.Consistent := by
  refine ⟨by decide +kernel, ?_⟩
  exact exists_run (batchSteps (oldIssues 2 [nativeEvent "r" "e", nativeEvent "rr" "ee"]) "r")
    (by decide +kernel)

end Reprocessing

end Urgentry
