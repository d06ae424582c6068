import Urgentry.Internal.Links
import Urgentry.Sqlite.BackfillNative

/-!
# The issue workflow

`MergeIssue` links an issue to another one of the project, `UnmergeIssue` takes the link away, and
`PatchIssue` sets the columns that a user can edit. The link is the column `merged_into_group_id`,
which no constraint of the schema knows about.

## What keeps the links in order

`MergeIssue` refuses a target that is merged itself, so no cycle comes about. But nothing looks at
the column when an issue is deleted: the issues that were merged into it keep pointing to an id that
nobody has. `DeleteGroup` deletes issues, and so does native reprocessing, when it moves the last
event of an issue to another one.

## Main results

* `Workflow.run_forest_iff`: the merged issues form a forest in every state of a run exactly when no
  step deletes an issue that another one is merged into.
-/

namespace Urgentry

open SqlTable Trace GoText List Option Function Table

/-! ## The calls -/

/-- `store.IssuePatch`. -/
structure IssuePatch where
  status : Option String := none
  assignee : Option String := none
  priority : Option ℤ := none
  resolutionSubstatus : Option String := none
  resolvedInRelease : Option String := none
  mergedIntoGroupId : Option String := none
deriving DecidableEq

/-- The assignments of `PatchIssue`. Texts are trimmed. -/
def IssuePatch.apply (patch : IssuePatch) (r : GroupRow) : GroupRow :=
  let text (value : Option String) (old : String) := (value.map trimSpace).getD old
  { r with
    status := text patch.status r.status
    assignee := text patch.assignee r.assignee
    priority := patch.priority.getD r.priority
    resolutionSubstatus := text patch.resolutionSubstatus r.resolutionSubstatus
    resolvedInRelease := text patch.resolvedInRelease r.resolvedInRelease
    mergedIntoGroupId := text patch.mergedIntoGroupId r.mergedIntoGroupId }

/-- `PatchIssue`. -/
def patchIssue (id : String) (patch : IssuePatch) (groups : Table GroupRow) : Table GroupRow :=
  updateGroup id patch.apply (fun _ _ => rfl) groups

theorem updateStatus_eq_patchIssue (id status : String) (groups : Table GroupRow) :
    updateStatus id status groups = patchIssue id
      { status := some status, resolutionSubstatus := some "", resolvedInRelease := some ""
        mergedIntoGroupId := some "" } groups := by
  refine ext (map_congr_left fun r _ => ?_)
  simp [IssuePatch.apply]

/-- A row of `issue_activity`. -/
structure ActivityRow where
  (id groupId projectId : String)
  userId : Option String
  (kind summary details : String)
deriving DecidableEq

/-- The rows that an activity may refer to. -/
structure References where
  (projects users : String → Bool)

variable (refs : References)

/-- The foreign keys of `issue_activity`, for an activity of an existing issue. -/
def References.allows (projectId : String) (userId : Option String) : Bool :=
  refs.projects projectId && userId.all refs.users

/-- Why a call is refused. -/
inductive WorkflowError
  /-- "source and target issue ids are required" -/
  | idsRequired
  /-- `store.ErrInvalidIssueWorkflow` -/
  | invalidIssueWorkflow
  /-- `store.ErrNotFound` -/
  | notFound
  /-- A statement fails. -/
  | database
deriving DecidableEq

/-- `SELECT … FROM groups WHERE id = ?`. -/
def getGroup (groups : Table GroupRow) (id : String) : Option GroupRow :=
  groups.rows.find? fun r => r.id = id

/-- The row of a merged issue. -/
def GroupRow.merge (target now userID : String) (r : GroupRow) : GroupRow :=
  { r with
    status := "ignored"
    mergedIntoGroupId := target
    mergedAt := some now
    mergedByUserId := nullable userID
    resolutionSubstatus := "merged"
    resolvedInRelease := "" }

/-- The row of an issue that is not merged any more. -/
def GroupRow.unmerge (r : GroupRow) : GroupRow :=
  { r with
    status := "unresolved"
    mergedIntoGroupId := ""
    mergedAt := none
    mergedByUserId := none
    resolutionSubstatus := ""
    resolvedInRelease := ""
    resolvedAt := none
    resolvedByUserId := none }

/-- `MergeIssue`: the table and the activity that is recorded. -/
def mergeIssue (now activityId source target userID : String)
    (groups : Table GroupRow) : Except WorkflowError (Table GroupRow × List ActivityRow) :=
  if source = "" ∨ target = "" then .error .idsRequired
  else if source = target then .error .invalidIssueWorkflow
  else
    match getGroup groups source, getGroup groups target with
    | none, _ => .error .notFound
    | some _, none => .error .notFound
    | some s, some t =>
      if s.projectId ≠ t.projectId ∨ t.mergedIntoGroupId ≠ "" then .error .invalidIssueWorkflow
      else if s.mergedIntoGroupId ≠ "" ∧ s.mergedIntoGroupId ≠ target then
        .error .invalidIssueWorkflow
      else if s.mergedIntoGroupId = target then .ok (groups, [])
      else if refs.allows s.projectId (nullable userID) then
        .ok (updateGroup source (·.merge target now userID) (fun _ _ => rfl) groups,
          [⟨activityId, source, s.projectId, nullable userID, "merge", "Merged issue",
            "Merged into " ++ target⟩])
      else .error .database

/-- `UnmergeIssue`. -/
def unmergeIssue (activityId source userID : String)
    (groups : Table GroupRow) : Except WorkflowError (Table GroupRow × List ActivityRow) :=
  match getGroup groups source with
  | none => .error .notFound
  | some s =>
    if s.mergedIntoGroupId = "" then .error .invalidIssueWorkflow
    else if refs.allows s.projectId (nullable userID) then
      .ok (updateGroup source GroupRow.unmerge (fun _ _ => rfl) groups,
        [⟨activityId, source, s.projectId, nullable userID, "unmerge", "Unmerged issue", ""⟩])
    else .error .database

/-- What `DeleteGroup` does to the issues and the events, for each of the ids in turn. -/
def Issues.deleteGroups (ids : List String) (s : Issues) : Issues :=
  ids.foldl (fun s id => {
    groups := s.groups.deleteWhere (·.id == id)
    events := s.events.deleteWhere (·.groupId == some id) }) s

variable {groups groups' : Table GroupRow} {id : String} {r : GroupRow}

theorem getGroup_eq_some (h : getGroup groups id = some r) : r ∈ groups ∧ r.id = id :=
  ⟨mem_of_find?_eq_some h, by simpa using find?_some h⟩

variable {activity : List ActivityRow} {refs : References}

/-- **What `MergeIssue` accepts**, and what it does then. -/
theorem mergeIssue_eq_ok {now activityId source target userID : String}
    (h : mergeIssue refs now activityId source target userID groups = .ok (groups', activity)) :
    ∃ s ∈ groups, ∃ t ∈ groups, s.id = source ∧ t.id = target ∧ source ≠ target ∧
      s.projectId = t.projectId ∧ target ≠ "" ∧ t.mergedIntoGroupId = "" ∧
        (s.mergedIntoGroupId = target ∧ groups' = groups ∨
          s.mergedIntoGroupId = "" ∧ refs.allows s.projectId (nullable userID) = true ∧
            groups' = updateGroup source (·.merge target now userID) (fun _ _ => rfl) groups) := by
  rw [mergeIssue] at h
  split at h
  · cases h
  · next hids =>
    rw [not_or] at hids
    split at h
    · cases h
    · next hne =>
      split at h
      · cases h
      · cases h
      · next s t hs ht =>
        obtain ⟨hs, hsid⟩ := getGroup_eq_some hs
        obtain ⟨ht, htid⟩ := getGroup_eq_some ht
        split at h
        · cases h
        · next hroot =>
          rw [not_or, not_not, not_not] at hroot
          refine ⟨s, hs, t, ht, hsid, htid, hne, hroot.1, hids.2, hroot.2, ?_⟩
          split at h
          · cases h
          · next hfree =>
            split at h
            · next hmerged =>
              cases h
              exact .inl ⟨hmerged, rfl⟩
            · next hnot =>
              split at h
              · next hallows =>
                cases h
                refine .inr ⟨?_, hallows, rfl⟩
                by_contra hmerged
                exact hfree ⟨hmerged, hnot⟩
              · cases h

@[simp]
theorem Issues.groups_deleteGroups (ids : List String) (s : Issues) :
    (s.deleteGroups ids).groups.rows = s.groups.rows.filter fun r => r.id ∉ ids := by
  induction ids generalizing s with
  | nil => simp [deleteGroups]
  | cons id ids ih =>
    rw [deleteGroups, foldl_cons, ← deleteGroups, ih]
    simp only [rows_deleteWhere, List.filter_filter]
    refine filter_congr fun r _ => ?_
    by_cases hid : r.id = id <;> simp [hid]

/-! ## The links -/

/-- The link of an issue. -/
def GroupRow.link (r : GroupRow) : Link String String where
  key := r.id
  place := r.projectId
  into := if r.mergedIntoGroupId = "" then none else some r.mergedIntoGroupId

/-- The links of all the issues. -/
def links (groups : Table GroupRow) : List (Link String String) := groups.rows.map GroupRow.link

/-- **The property.** The merged issues form a forest in their projects. -/
def MergeForest (groups : Table GroupRow) : Prop := Link.Forest (links groups)

theorem GroupRow.mem_into_link {b : String} :
    b ∈ r.link.into ↔ b ≠ "" ∧ r.mergedIntoGroupId = b := by
  unfold link
  split_ifs with h
  · simp [h]
  · simp only [mem_def, some.injEq]
    exact ⟨fun heq => ⟨heq ▸ h, heq⟩, And.right⟩

/-- Every merged issue has its target, in its project. -/
theorem MergeForest.exists_target (h : MergeForest groups) (hr : r ∈ groups)
    (hmerged : r.mergedIntoGroupId ≠ "") :
    ∃ s ∈ groups, s.id = r.mergedIntoGroupId ∧ s.projectId = r.projectId := by
  obtain ⟨l, hl, hkey, hplace⟩ := h.closed r.link (mem_map_of_mem hr) r.mergedIntoGroupId
    (GroupRow.mem_into_link.mpr ⟨hmerged, rfl⟩)
  obtain ⟨s, hs, rfl⟩ := mem_map.mp hl
  exact ⟨s, hs, hkey, hplace⟩

theorem nodup_links (groups : Table GroupRow) : ((links groups).map (·.key)).Nodup := by
  rw [links, List.map_map]
  exact groups.nodup_map_key fun r s (h : r.id = s.id) => by simp [Schema.conflict, h]

variable {f : GroupRow → GroupRow} {hf : ∀ s u, Schema.conflict (f s) u = Schema.conflict s u}

@[simp]
theorem links_updateGroup :
    links (updateGroup id f hf groups) =
      groups.rows.map fun r => if r.id = id then (f r).link else r.link := by
  rw [links, updateGroup, Table.map, List.map_map]
  refine map_congr_left fun r _ => ?_
  rw [comp_apply, apply_ite GroupRow.link]

/-- An update that does not change the link. -/
theorem links_updateGroup_eq (hlink : ∀ r : GroupRow, (f r).link = r.link) :
    links (updateGroup id f hf groups) = links groups := by
  rw [links_updateGroup]
  refine map_congr_left fun r _ => ?_
  rw [hlink, ite_self]

@[simp]
theorem links_copyLatest (groupId : String) (latest : Option EventRow) (groups : Table GroupRow) :
    links (copyLatest groupId latest groups) = links groups := by
  cases latest with
  | none => rfl
  | some r =>
    rw [copyLatest]
    exact links_updateGroup_eq fun _ => rfl

/-- No issue outside of `gone` is merged into one of them. -/
def NoneMergedInto (groups : Table GroupRow) (gone : List String) : Prop :=
  ∀ r ∈ groups.rows, r.id ∉ gone → r.mergedIntoGroupId ≠ "" → r.mergedIntoGroupId ∉ gone
deriving Decidable

theorem noneMergedInto_iff {gone : List String} : NoneMergedInto groups gone ↔
    ∀ l ∈ links groups, l.key ∉ gone → ∀ b ∈ l.into, b ∉ gone := by
  simp only [links, List.forall_mem_map, GroupRow.mem_into_link]
  constructor
  · rintro hall r hr hstays b ⟨hb, rfl⟩
    exact hall r hr hstays hb
  · exact fun hall r hr hstays hmerged => hall r hr hstays _ ⟨hmerged, rfl⟩

/-- **Deleting issues.** -/
theorem MergeForest.deleteGroups_iff {s : Issues} (h : MergeForest s.groups) (ids : List String) :
    MergeForest (s.deleteGroups ids).groups ↔ NoneMergedInto s.groups ids := by
  have hlinks : links (s.deleteGroups ids).groups = (links s.groups).filter (·.key ∉ ids) := by
    rw [links, Issues.groups_deleteGroups, links, List.filter_map]
    rfl
  rw [MergeForest, hlinks, Link.Forest.filter_iff h, noneMergedInto_iff]

section

variable (h : MergeForest groups)

include h

/-- A new issue is not merged. -/
theorem MergeForest.append_newRow (hroot : r.mergedIntoGroupId = "") :
    Link.Forest (links groups ++ [r.link]) :=
  Link.Forest.append_root h (if_pos hroot)

theorem MergeForest.upsertGroup {g : Group} (hupsert : upsertGroup g groups = some (groups', id)) :
    MergeForest groups' := by
  rw [MergeForest, links]
  rcases upsertGroup_cases hupsert with ⟨row, -, -, -, hrows⟩ | ⟨-, -, -, hrows⟩
  · rw [hrows, List.map_map]
    have hsame :
      (groups.rows.map (GroupRow.link ∘ fun r => if r.id = id then g.seenAgain r else r)) =
        links groups := by
      refine map_congr_left fun r _ => ?_
      rw [comp_apply]
      split <;> rfl
    exact hsame ▸ h
  · rw [hrows, map_append]
    exact h.append_newRow rfl

/-- An update that leaves the link or takes it away. -/
theorem MergeForest.updateGroup (hkeeps : ∀ r, (f r).id = r.id ∧ (f r).projectId = r.projectId)
    (hlink : ∀ r, (f r).mergedIntoGroupId = r.mergedIntoGroupId ∨ (f r).mergedIntoGroupId = "") :
    MergeForest (updateGroup id f hf groups) := by
  rw [MergeForest, links_updateGroup]
  refine Link.Forest.unlink h (fun r => ?_) (fun r => ?_) fun r => ?_
  · split
    · exact (hkeeps r).1
    · rfl
  · split
    · exact (hkeeps r).2
    · rfl
  · split
    · rcases hlink r with heq | hnone
      · exact .inl (by simp only [GroupRow.link, heq])
      · exact .inr (if_pos hnone)
    · exact .inl rfl

theorem MergeForest.mergeIssue {now activityId source target userID : String}
    (hmerge : mergeIssue refs now activityId source target userID groups =
      .ok (groups', activity)) : MergeForest groups' := by
  obtain ⟨s, hs, t, ht, rfl, rfl, hne, hproject, hnonempty, hroot, ⟨-, rfl⟩ | ⟨-, -, rfl⟩⟩ :=
    mergeIssue_eq_ok hmerge
  · exact h
  · have hrelink := Link.Forest.relink h (nodup_links groups) (List.mem_map_of_mem hs)
      (List.mem_map_of_mem ht) hne hproject (if_pos hroot)
    have hsame :
      links (Urgentry.updateGroup s.id (·.merge t.id now userID) (fun _ _ => rfl) groups) =
        (links groups).map (Link.relink s.link.key t.link.key) := by
      refine links_updateGroup.trans ?_
      rw [links, List.map_map]
      refine map_congr_left fun r _ => ?_
      refine if_congr Iff.rfl ?_ rfl
      simp [GroupRow.link, GroupRow.merge, hnonempty]
    rw [← hsame] at hrelink
    exact hrelink

theorem MergeForest.unmergeIssue {activityId source userID : String}
    (hunmerge : unmergeIssue refs activityId source userID groups = .ok (groups', activity)) :
    MergeForest groups' := by
  rw [Urgentry.unmergeIssue] at hunmerge
  split at hunmerge
  · cases hunmerge
  · split_ifs at hunmerge
    cases hunmerge
    exact h.updateGroup (fun _ => ⟨rfl, rfl⟩) fun _ => .inr rfl

theorem MergeForest.patchIssue {patch : IssuePatch}
    (hpatch : patch.mergedIntoGroupId.getD "" = "") : MergeForest (patchIssue id patch groups) := by
  refine h.updateGroup (fun _ => ⟨rfl, rfl⟩) fun r => ?_
  cases hinto : patch.mergedIntoGroupId with
  | none => exact .inl (by simp [IssuePatch.apply, hinto])
  | some into =>
    rw [hinto, getD_some] at hpatch
    exact .inr (by simp [IssuePatch.apply, hinto, hpatch])

end

/-! ### Moving an event -/

/-- The group that is left without events when the candidate moves to `target`. -/
def NativeReprocessCandidate.emptied (item : NativeReprocessCandidate) (target : String)
    (events : Table EventRow) : List String :=
  if trimSpace item.groupId ≠ "" ∧ item.groupId ≠ target ∧
    ∀ e ∈ events.rows, e.groupId = some item.groupId → e.id = item.eventRow
  then [item.groupId] else []

variable {evt : NormalizedEvent}

theorem countGroupEvents_moved_eq_zero {events : Table EventRow} {id target groupId : String}
    (hne : groupId ≠ target) :
    countGroupEvents (moveEvent id evt target events) groupId = 0 ↔
      ∀ e ∈ events.rows, e.groupId = some groupId → e.id = id := by
  rw [countGroupEvents_eq_zero]
  constructor
  · intro hnone e he hgroup
    by_contra hid
    exact hnone e (mem_updateEvent.mpr ⟨e, he, if_neg (by simpa using hid)⟩) hgroup
  · rintro hall r hr hgroup
    obtain ⟨e, he, rfl⟩ := mem_updateEvent.mp hr
    split at hgroup
    · exact hne (some.inj hgroup).symm
    · next hid => exact hid (by simpa using hall e he hgroup)

theorem links_leaveGroup (item : NativeReprocessCandidate) (evt : NormalizedEvent) (target : String)
    (events : Table EventRow) (groups : Table GroupRow) :
    links (leaveGroup item.groupId target (moveEvent item.eventRow evt target events) groups) =
      (links groups).filter fun l => l.key ∉ item.emptied target events := by
  have hkeep : links groups = (links groups).filter fun l => l.key ∉ ([] : List String) := by simp
  unfold leaveGroup
  split
  · next hother =>
    have hzero : countGroupEvents (moveEvent item.eventRow evt target events) item.groupId = 0 ↔
        ∀ e ∈ events.rows, e.groupId = some item.groupId → e.id = item.eventRow :=
      countGroupEvents_moved_eq_zero hother.2
    split_ifs with hcount
    · rw [NativeReprocessCandidate.emptied, if_pos ⟨hother.1, hother.2, hzero.mp hcount⟩,
        links, links,
        List.filter_map]
      refine congrArg (List.map _) (filter_congr fun r _ => ?_)
      by_cases hid : r.id = item.groupId <;> simp [GroupRow.link, hid]
    · rw [syncGroupFromLatestEvent, links_copyLatest, NativeReprocessCandidate.emptied,
        if_neg fun h => hcount (hzero.mpr h.2.2), ← hkeep]
  · next hsame =>
    rw [NativeReprocessCandidate.emptied, if_neg fun h => hsame ⟨h.1, h.2.1⟩, ← hkeep]

/-- The target group is there or new, and not merged when it is new. -/
theorem ensureTargetGroup_cases {projectId newId target : String} {eventTime : Time}
    (h : ensureTargetGroup projectId evt eventTime newId groups = some (groups', target)) :
    target = targetGroup groups (evt.groupKey projectId) newId ∧ (links groups' = links groups ∨
        ∃ r : GroupRow, r.mergedIntoGroupId = "" ∧ links groups' = links groups ++ [r.link]) := by
  unfold ensureTargetGroup at h
  unfold targetGroup
  cases hkey : getGroupByKey groups (evt.groupKey projectId) with
  | none =>
    rw [hkey] at h
    obtain ⟨table, hinsert, heq⟩ := map_eq_some_iff.mp h
    cases heq
    refine ⟨rfl, .inr ⟨(evt.newGroup projectId newId eventTime).newRow groups, rfl, ?_⟩⟩
    rw [links, (insert_eq_some_iff.mp hinsert).2, map_append]
    rfl
  | some row =>
    rw [hkey] at h
    cases h
    exact ⟨rfl, .inl (links_updateGroup_eq fun _ => rfl)⟩

/-- **Moving an event** keeps the forest exactly when no issue is merged into one that it
empties. -/
theorem MergeForest.move_iff {s t : Issues} (h : MergeForest s.groups) {lib : NativeLib}
    {item : NativeReprocessCandidate} {newId target : String} {now : Time}
    (hmove : moveReprocessedEventToGroup lib item evt newId now s = some (t, target)) :
    MergeForest t.groups ↔ NoneMergedInto s.groups
      (item.emptied (targetGroup s.groups (evt.groupKey item.project) newId) s.events) := by
  obtain ⟨⟨groups, target'⟩, hensure, heq⟩ := map_eq_some_iff.mp hmove
  cases heq
  obtain ⟨rfl, hlinks⟩ := ensureTargetGroup_cases hensure
  rw [MergeForest, syncGroupFromLatestEvent, links_copyLatest, links_leaveGroup]
  rcases hlinks with hlinks | ⟨r, hroot, hlinks⟩
  · rw [hlinks, Link.Forest.filter_iff h, noneMergedInto_iff]
  · have hnew : r.link.into = none := if_pos hroot
    rw [hlinks, Link.Forest.filter_iff (h.append_newRow hroot), forall_mem_append,
      noneMergedInto_iff]
    simp [hnew]

/-! ## Runs -/

/-- What can happen to the issues. -/
inductive WorkflowAction
  | upsertGroup (g : Group)
  | mergeIssue (refs : References) (now activityId source target userID : String)
  | unmergeIssue (refs : References) (activityId source userID : String)
  | updateStatus (id status : String)
  /-- The callers give an empty id of the issue to merge into, or none. -/
  | patchIssue (id : String) (patch : IssuePatch)
  /-- `DeleteGroup` and `BulkDeleteGroups`. -/
  | deleteGroups (ids : List String)
  /-- Whatever else is written to `events`. -/
  | writeEvents (events : Table EventRow)
  | reprocess (action : ReprocessAction)

namespace Workflow

variable (lib : NativeLib) (db : NativeDb) (s : Reprocessing)

/-- The tables with other groups. -/
def setGroups (groups : Table GroupRow) : Reprocessing :=
  { s with issues := { s.issues with groups } }

/-- One step. A call that is refused changes nothing. -/
def step : WorkflowAction → Option Reprocessing
  | .upsertGroup g =>
    some (((upsertGroup g s.issues.groups).map fun r => setGroups s r.1).getD s)
  | .mergeIssue refs now activityId source target userID =>
    match mergeIssue refs now activityId source target userID s.issues.groups with
    | .ok (groups, _) => some (setGroups s groups)
    | .error _ => some s
  | .unmergeIssue refs activityId source userID =>
    match unmergeIssue refs activityId source userID s.issues.groups with
    | .ok (groups, _) => some (setGroups s groups)
    | .error _ => some s
  | .updateStatus id status => some (setGroups s (updateStatus id status s.issues.groups))
  | .patchIssue id patch =>
    if patch.mergedIntoGroupId.getD "" = "" then
      some (setGroups s (patchIssue id patch s.issues.groups))
    else none
  | .deleteGroups ids => some { s with issues := s.issues.deleteGroups ids }
  | .writeEvents events => some { s with issues := { s.issues with events } }
  | .reprocess action => s.step lib db action

/-- **The condition on a step.** It does not delete an issue that another one is merged into. -/
def Careful : WorkflowAction → Prop
  | .deleteGroups ids => NoneMergedInto s.issues.groups ids
  | .reprocess (.item c resolve newId _) => ∀ m ∈ c.move? lib resolve,
    NoneMergedInto s.issues.groups
      (m.1.emptied (targetGroup s.issues.groups (m.2.groupKey m.1.project) newId) s.issues.events)
  | _ => True

variable {lib db} {s t : Reprocessing}

/-- Native reprocessing. -/
theorem forest_reprocess_iff (h : MergeForest s.issues.groups) {action : ReprocessAction}
    (hstep : s.step lib db action = some t) :
    MergeForest t.issues.groups ↔ Careful lib s (.reprocess action) := by
  have hwrites := Reprocessing.writes_step hstep
  cases action with
  | item c resolve newId now =>
    rcases hwrites with ⟨hnone, heq | ⟨_, _, heq⟩⟩ | ⟨item, evt, target, hsome, -, hmove⟩
    · exact iff_of_true (heq ▸ h) (by simp [Careful, hnone])
    · rw [heq]
      exact iff_of_true h (by simp [Careful, hnone])
    · refine (h.move_iff hmove).trans ?_
      simp [Careful, hsome]
  | sync c =>
    obtain ⟨p, -, heq⟩ := hwrites
    refine iff_of_true ?_ trivial
    rw [heq, MergeForest, links_copyLatest]
    exact h
  | list batch | select c groupId | finish c | stop c =>
    rw [show t.issues = s.issues from hwrites]
    exact iff_of_true h trivial

/-- **A step** keeps the forest exactly when it meets its condition. -/
theorem forest_step_iff (h : MergeForest s.issues.groups) {a : WorkflowAction}
    (hstep : step lib db s a = some t) : MergeForest t.issues.groups ↔ Careful lib s a := by
  cases a with
  | upsertGroup g =>
    cases hstep
    refine iff_of_true ?_ trivial
    cases hupsert : Urgentry.upsertGroup g s.issues.groups with
    | none => exact h
    | some r => exact h.upsertGroup hupsert
  | mergeIssue refs now activityId source target userID =>
    simp only [step] at hstep
    split at hstep
    · next hmerge =>
      cases hstep
      exact iff_of_true (h.mergeIssue hmerge) trivial
    · cases hstep
      exact iff_of_true h trivial
  | unmergeIssue refs activityId source userID =>
    simp only [step] at hstep
    split at hstep
    · next hunmerge =>
      cases hstep
      exact iff_of_true (h.unmergeIssue hunmerge) trivial
    · cases hstep
      exact iff_of_true h trivial
  | updateStatus id status =>
    cases hstep
    refine iff_of_true ?_ trivial
    change MergeForest (Urgentry.updateStatus id status s.issues.groups)
    rw [updateStatus_eq_patchIssue]
    exact h.patchIssue rfl
  | patchIssue id patch =>
    obtain ⟨hpatch, ⟨⟩⟩ := ite_none_right_eq_some.mp hstep
    exact iff_of_true (h.patchIssue hpatch) trivial
  | deleteGroups ids =>
    cases hstep
    exact h.deleteGroups_iff ids
  | writeEvents events =>
    cases hstep
    exact iff_of_true h trivial
  | reprocess action => exact forest_reprocess_iff h hstep

/-- An empty database. -/
def start : Reprocessing := .start ⟨.empty, .empty⟩

/-- **Forests.** From an empty database, the merged issues form a forest in every state of a run
exactly when every step of the run meets its condition. -/
theorem run_forest_iff {trace : List (Reprocessing × WorkflowAction)}
    (run : Run (step lib db) start trace t) :
    (∀ u ∈ visited trace t, MergeForest u.issues.groups) ↔ ∀ p ∈ trace, Careful lib p.1 p.2 := by
  have hinit : MergeForest start.issues.groups := Link.forest_nil
  refine run.safe_iff hinit (fun h hcareful hstep => ?_) (fun h => h) fun h hno hstep hafter => ?_
  · exact (forest_step_iff h hstep).mpr hcareful
  · exact hno ((forest_step_iff h hstep).mp hafter)

/-! ### A deleted issue -/

instance (lib : NativeLib) (s : Reprocessing) (a : WorkflowAction) : Decidable (Careful lib s a) :=
  match a with
  | .deleteGroups ids => inferInstanceAs (Decidable (NoneMergedInto s.issues.groups ids))
  | .reprocess (.item ..) => inferInstanceAs (Decidable (∀ m ∈ _, NoneMergedInto _ _))
  | .reprocess (.list _) | .reprocess (.select ..) | .reprocess (.sync _)
  | .reprocess (.finish _) | .reprocess (.stop _)
  | .upsertGroup _ | .mergeIssue .. | .unmergeIssue .. | .updateStatus .. | .patchIssue ..
  | .writeEvents _ => .isTrue trivial

/-- An issue of the project `p`. -/
def issue (id : String) : Group where
  id
  projectId := "p"
  groupingVersion := "v"
  groupingKey := id
  title := ""
  culprit := ""
  level := ""
  firstSeen := ⟨0⟩
  lastSeen := ⟨0⟩
  lastEventId := ""

/-- Every row that an activity may refer to is there. -/
def allReferences : References := ⟨fun _ => true, fun _ => true⟩

/-- The issue `a` is merged into `b`. -/
def mergeAB : List WorkflowAction :=
  [.upsertGroup (issue "a"), .upsertGroup (issue "b"), .mergeIssue allReferences "" "1" "a" "b" "u"]

/-- Both issues are deleted, with `a` merged into `b`. -/
theorem merged_deleted :
    ∃ trace t, Run (step Reprocessing.oldLib Reprocessing.oneOrg) start trace t ∧
    t.issues.groups.rows = [] ∧ ∀ u ∈ visited trace t, MergeForest u.issues.groups :=
  exists_run_and (Careful Reprocessing.oldLib) (mergeAB ++ [.deleteGroups ["b", "a"]])
    (by decide +kernel) fun hrun hcareful => (run_forest_iff hrun).mpr hcareful

/-- **A link to nothing.** The issue that `a` is merged into is deleted. -/
theorem target_deleted :
    ∃ trace t, Run (step Reprocessing.oldLib Reprocessing.oneOrg) start trace t ∧
    t.issues.groups.rows.map (fun r => (r.id, r.mergedIntoGroupId)) = [("a", "b")] ∧
      ¬MergeForest t.issues.groups := by
  obtain ⟨trace, t, hrun, hrows⟩ : ∃ trace t,
      Run (step Reprocessing.oldLib Reprocessing.oneOrg) start trace t ∧
      t.issues.groups.rows.map (fun r => (r.id, r.mergedIntoGroupId)) = [("a", "b")] :=
    exists_run (mergeAB ++ [.deleteGroups ["b"]]) (by decide +kernel)
  refine ⟨trace, t, hrun, hrows, fun h => ?_⟩
  obtain ⟨r, hone, heq⟩ := map_eq_singleton_iff.mp hrows
  obtain ⟨hid, hmerged⟩ := Prod.mk.inj heq
  have hr : r ∈ t.issues.groups := by rw [Table.mem_def, hone]; exact mem_singleton_self r
  obtain ⟨u, hu, huid, -⟩ := h.exists_target hr (by rw [hmerged]; decide)
  rw [Table.mem_def, hone] at hu
  rw [mem_singleton.mp hu, hid, hmerged] at huid
  exact absurd huid (by decide)

end Workflow

end Urgentry
