import Urgentry.Clock
import Urgentry.Internal.GoText
import Urgentry.Internal.SqlTable

/-!
# The group store

The `groups` table: an issue is a group of events with one grouping key. `UpsertGroup` runs in a
transaction, so creating a group or counting one more event for it is a single step.
-/

namespace Urgentry

open SqlTable List Schema Table

/-- A row of `groups`. A text column that is `NULL` is read as the empty text, except those of who
resolved or merged the group and when. -/
structure GroupRow where
  (id projectId groupingVersion groupingKey title culprit level assignee status resolutionSubstatus
    resolvedInRelease mergedIntoGroupId firstSeen lastSeen : String)
  timesSeen : ℤ
  lastEventId : String
  shortId : Option ℤ
  priority : ℤ := 2
  resolvedAt : Option String := none
  resolvedByUserId : Option String := none
  mergedAt : Option String := none
  mergedByUserId : Option String := none
deriving DecidableEq

/-- `nullIfEmpty`, which is `nullable`. -/
def nullable (s : String) : Option String := if GoText.trimSpace s = "" then none else some s

/-- The columns that name a group besides its id. -/
structure GroupKey where
  (projectId version key : String)
deriving DecidableEq

def GroupRow.groupKey (r : GroupRow) : GroupKey := ⟨r.projectId, r.groupingVersion, r.groupingKey⟩

/-- `PRIMARY KEY (id)` and `UNIQUE (project_id, grouping_version, grouping_key)`. -/
instance : Schema GroupRow where
  conflict r s := r.id == s.id || r.groupKey == s.groupKey
  conflict_comm r s := by simp only [Bool.beq_comm]

/-- `issue.Group`, with the fields that `UpsertGroup` writes. -/
structure Group where
  (id projectId groupingVersion groupingKey title culprit level : String)
  assignee : String := ""
  status : String := ""
  (firstSeen lastSeen : Time)
  timesSeen : ℤ := 0
  lastEventId : String
deriving DecidableEq

variable (g : Group)

def Group.groupKey : GroupKey := ⟨g.projectId, g.groupingVersion, g.groupingKey⟩

variable (groups : Table GroupRow)

/-- `GetGroupByKey`. -/
def getGroupByKey (k : GroupKey) : Option GroupRow :=
  groups.rows.find? fun r => r.groupKey = k

/-- `COALESCE(MAX(short_id), 0) + 1`. A sum beyond the integers of SQLite is the real `2 ^ 63`, and
adding one to that does not change it. -/
def nextShortId : ℤ :=
  min (((groups.rows.filterMap (·.shortId)).max?).getD 0 + 1) 9223372036854775808

/-- The row that `UpsertGroup` inserts, once it has its short id. -/
def Group.newRow : GroupRow where
  id := g.id
  projectId := g.projectId
  groupingVersion := g.groupingVersion
  groupingKey := g.groupingKey
  title := g.title
  culprit := g.culprit
  level := g.level
  assignee := g.assignee
  status := if g.status = "" then "unresolved" else g.status
  resolutionSubstatus := ""
  resolvedInRelease := ""
  mergedIntoGroupId := ""
  firstSeen := g.firstSeen.rfc3339
  lastSeen := g.lastSeen.rfc3339
  timesSeen := if g.timesSeen = 0 then 1 else g.timesSeen
  lastEventId := g.lastEventId
  shortId := some (nextShortId groups)

/-- The row of a group that was seen again. -/
def Group.seenAgain (r : GroupRow) : GroupRow :=
  { r with
    lastSeen := g.lastSeen.rfc3339
    timesSeen := r.timesSeen + 1
    lastEventId := g.lastEventId
    title := g.title
    culprit := g.culprit
    level := g.level }

/-- `UPDATE groups SET … WHERE id = ?`, for columns outside the unique keys. -/
def updateGroup (id : String) (f : GroupRow → GroupRow)
    (hf : ∀ s u, Schema.conflict (f s) u = Schema.conflict s u) (groups : Table GroupRow) :
    Table GroupRow :=
  groups.map (fun r => if r.id = id then f r else r) fun s u => by
    split
    · exact hf s u
    · rfl

/-- `UpsertGroup`, on a group that has an id: the table and the id of the row, or nothing when the
id is taken by another group. -/
def upsertGroup : Option (Table GroupRow × String) :=
  match getGroupByKey groups g.groupKey with
  | none => (groups.insert (g.newRow groups)).map fun groups => (groups, g.id)
  | some row => some (updateGroup row.id g.seenAgain (fun _ _ => rfl) groups, row.id)

/-- `UpdateStatus`. -/
def updateStatus (id status : String) (groups : Table GroupRow) : Table GroupRow :=
  updateGroup id (fun r => { r with
    status := GoText.trimSpace status
    resolutionSubstatus := ""
    resolvedInRelease := ""
    mergedIntoGroupId := "" }) (fun _ _ => rfl) groups

/-- `UpdateAssignee`. -/
def updateAssignee (id assignee : String) (groups : Table GroupRow) : Table GroupRow :=
  updateGroup id (fun r => { r with assignee := GoText.trimSpace assignee }) (fun _ _ => rfl) groups

/-! ## What the statements do -/

variable {groups groups' : Table GroupRow} {k : GroupKey} {id : String} {f : GroupRow → GroupRow}

theorem getGroupByKey_eq_none : getGroupByKey groups k = none ↔ ∀ r ∈ groups, r.groupKey ≠ k := by
  simp [getGroupByKey, mem_def]

variable {r r' : GroupRow} {g : Group} {gid : String}

theorem getGroupByKey_eq_some (h : getGroupByKey groups k = some r) : r ∈ groups ∧ r.groupKey = k :=
  ⟨mem_of_find?_eq_some h, by simpa using find?_some h⟩

theorem mem_updateGroup {hf : ∀ s u, conflict (f s) u = conflict s u} :
    r' ∈ updateGroup id f hf groups ↔ ∃ r ∈ groups, (if r.id = id then f r else r) = r' :=
  mem_map

/-- Two rows of one table with one id are one row. -/
theorem eq_of_groupId {s : GroupRow} (hr : r ∈ groups) (hs : s ∈ groups)
    (h : r.id = s.id) : r = s :=
  eq_of_conflict hr hs (by simp [conflict, h])

/-- The same group with the same count. -/
structure GroupRow.Matches (r r' : GroupRow) : Prop where
  id : r'.id = r.id
  groupKey : r'.groupKey = r.groupKey
  timesSeen : r'.timesSeen = r.timesSeen

/-- Two tables with the same groups and counts. -/
structure SameCounts (groups groups' : Table GroupRow) : Prop where
  back : ∀ r' ∈ groups', ∃ r ∈ groups, r.Matches r'
  forth : ∀ r ∈ groups, ∃ r' ∈ groups', r.Matches r'

theorem SameCounts.refl (groups : Table GroupRow) : SameCounts groups groups :=
  ⟨fun r hr => ⟨r, hr, rfl, rfl, rfl⟩, fun r hr => ⟨r, hr, rfl, rfl, rfl⟩⟩

theorem GroupRow.Matches.trans {r'' : GroupRow} (h : r.Matches r') (h' : r'.Matches r'') :
    r.Matches r'' :=
  ⟨h'.id.trans h.id, h'.groupKey.trans h.groupKey, h'.timesSeen.trans h.timesSeen⟩

theorem SameCounts.trans {groups'' : Table GroupRow} (h : SameCounts groups groups')
    (h' : SameCounts groups' groups'') : SameCounts groups groups'' where
  back := by
    intro r'' hr''
    obtain ⟨r', hr', hm'⟩ := h'.back r'' hr''
    obtain ⟨r, hr, hm⟩ := h.back r' hr'
    exact ⟨r, hr, hm.trans hm'⟩
  forth := by
    intro r hr
    obtain ⟨r', hr', hm⟩ := h.forth r hr
    obtain ⟨r'', hr'', hm'⟩ := h'.forth r' hr'
    exact ⟨r'', hr'', hm.trans hm'⟩

theorem sameCounts_updateGroup {hf : ∀ s u, conflict (f s) u = conflict s u}
    (hmatch : ∀ r : GroupRow, r.Matches (f r)) :
    SameCounts groups (updateGroup id f hf groups) := by
  have hrow (r : GroupRow) : r.Matches (if r.id = id then f r else r) := by
    split
    · exact hmatch r
    · exact ⟨rfl, rfl, rfl⟩
  refine ⟨fun r' hr' => ?_, fun r hr => ?_⟩
  · obtain ⟨r, hr, rfl⟩ := mem_updateGroup.mp hr'
    exact ⟨r, hr, hrow r⟩
  · exact ⟨_, mem_updateGroup.mpr ⟨r, hr, rfl⟩, hrow r⟩

variable (h : upsertGroup g groups = some (groups', gid))

include h

/-- The rows after an upsert. Either the group existed and was counted once more, or it is new and
was counted once. -/
theorem upsertGroup_cases :
    (∃ row ∈ groups, row.groupKey = g.groupKey ∧ row.id = gid ∧
      groups'.rows = groups.rows.map fun r => if r.id = gid then g.seenAgain r else r) ∨
    ((∀ r ∈ groups, r.groupKey ≠ g.groupKey) ∧ (∀ r ∈ groups, r.id ≠ gid) ∧ gid = g.id ∧
      groups'.rows = groups.rows ++ [g.newRow groups]) := by
  rw [upsertGroup] at h
  rcases hkey : getGroupByKey groups g.groupKey with _ | row
  · rw [hkey] at h
    obtain ⟨table, hinsert, heq⟩ := Option.map_eq_some_iff.mp h
    cases heq
    rw [Table.insert] at hinsert
    split at hinsert
    · next hclash =>
      cases hinsert
      have hno := Table.clashes_eq_false.mp hclash
      refine .inr ⟨getGroupByKey_eq_none.mp hkey, fun r hr hid => ?_, rfl, rfl⟩
      have hconf := hno r hr
      simp [conflict, Group.newRow, hid] at hconf
    · cases hinsert
  · rw [hkey] at h
    cases h
    obtain ⟨hrow, hk⟩ := getGroupByKey_eq_some hkey
    exact .inl ⟨row, hrow, hk, rfl, rfl⟩

/-- The counts after an upsert. -/
theorem timesSeen_upsertGroup (hg : g.timesSeen = 0) (hr' : r' ∈ groups') :
    (∃ r ∈ groups, r'.id = r.id ∧ r'.timesSeen = r.timesSeen + if r.id = gid then 1 else 0) ∨
      (r'.id = gid ∧ r'.timesSeen = 1 ∧ ∀ r ∈ groups, r.id ≠ gid) := by
  rcases upsertGroup_cases h with ⟨row, -, -, -, hrows⟩ | ⟨-, hfresh, hid, hrows⟩
  · rw [mem_def, hrows] at hr'
    obtain ⟨r, hr, rfl⟩ := mem_map.mp hr'
    refine .inl ⟨r, hr, ?_, ?_⟩
    · split <;> rfl
    · split
      · rfl
      · rw [add_zero]
  · rw [mem_def, hrows] at hr'
    rcases mem_append.mp hr' with hr' | hr'
    · refine .inl ⟨r', hr', rfl, ?_⟩
      rw [if_neg (hfresh r' hr'), add_zero]
    · rw [mem_singleton.mp hr']
      exact .inr ⟨hid.symm, if_pos hg, hfresh⟩

/-- The group of an upsert is in the table afterwards. -/
theorem exists_upsertGroup : ∃ r ∈ groups', r.id = gid ∧ r.groupKey = g.groupKey := by
  rcases upsertGroup_cases h with ⟨row, hrow, hkey, hid, hrows⟩ | ⟨-, -, hid, hrows⟩
  · refine ⟨g.seenAgain row, ?_, hid, hkey⟩
    rw [mem_def, hrows, mem_map]
    exact ⟨row, hrow, if_pos hid⟩
  · refine ⟨g.newRow groups, ?_, hid.symm, rfl⟩
    rw [mem_def, hrows]
    exact mem_append_right _ (mem_singleton_self _)

/-- No group disappears in an upsert. -/
theorem exists_of_mem_upsertGroup (hr : r ∈ groups) :
    ∃ r' ∈ groups', r'.id = r.id ∧ r'.groupKey = r.groupKey := by
  rcases upsertGroup_cases h with ⟨row, -, -, -, hrows⟩ | ⟨-, -, -, hrows⟩
  · refine ⟨if r.id = gid then g.seenAgain r else r, ?_, ?_, ?_⟩
    · rw [mem_def, hrows, mem_map]
      exact ⟨r, hr, rfl⟩
    · split <;> rfl
    · split <;> rfl
  · refine ⟨r, ?_, rfl, rfl⟩
    rw [mem_def, hrows]
    exact mem_append_left _ hr

end Urgentry
