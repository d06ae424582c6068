import Urgentry.Sqlite.IssueWorkflow

/-!
# The issue workflow in Postgres

The control plane has a second implementation of the issue store, on Postgres. Its `MergeIssue`
checks that the two issues exist and nothing else: an issue can be merged into itself, into an issue
of another project, or into one that is merged into it. Its `UnmergeIssue` takes any issue. And the
two stores read their arguments differently: Postgres trims the id of the user before it looks it
up, and refuses blank ids of issues where SQLite refuses empty ones.

## Views

What the two stores are compared on is the id, the project, the status and the link of each issue.
Both calls are determined by that much of the table, so each of them is first shown to compute a
function on lists of views, and agreement is an equation between two such functions.

## Main results

* `mergeView_eq_iff`, `unmergeView_eq_iff`: when the two stores do the same.
* `MergeStores.run_agree_iff`: two stores that start equal stay equal, and accept the same calls,
  exactly when each call of the run is one that they take alike.
-/

namespace Urgentry

open SqlTable Trace GoText List Option Schema

/-! ## The Postgres store -/

/-- A row of `group_states`. -/
structure GroupStateRow where
  groupId : String
  (isResolved isIgnored isMuted : Bool)
  resolvedAt : Option String
  resolvedByUserId : String
deriving DecidableEq

/-- `UNIQUE (group_id)`. -/
instance : Schema GroupStateRow := .ofKey (·.groupId)

/-- The tables that the issue workflow writes. -/
structure PostgresIssues where
  groups : Table GroupRow
  states : Table GroupStateRow
  activity : List ActivityRow

namespace Postgres

/-- `upsertGroupStateTx`. -/
def upsertGroupStateTx (now groupID status userID : String) (states : Table GroupStateRow) :
    Table GroupStateRow :=
  let status := trimSpace status
  let isResolved := status == "resolved"
  let row : GroupStateRow := {
    groupId := groupID
    isResolved
    isIgnored := status == "ignored"
    isMuted := false
    resolvedAt := if isResolved then some now else none
    resolvedByUserId := if isResolved then (nullable (trimSpace userID)).getD "" else "" }
  states.insertOrReplace row

/-- The row of a merged issue. -/
def merged (target : String) (r : GroupRow) : GroupRow :=
  { r with
    status := "ignored"
    mergedIntoGroupId := target
    resolutionSubstatus := "merged"
    resolvedInRelease := "" }

/-- The row of an issue that is not merged any more. -/
def unmerged (r : GroupRow) : GroupRow :=
  { r with
    status := "unresolved"
    mergedIntoGroupId := ""
    resolutionSubstatus := ""
    resolvedInRelease := "" }

variable (refs : References)

/-- The foreign key of `issue_activity`, with `controlNullIfEmpty(strings.TrimSpace(userID))`. -/
def knows (userID : String) : Bool :=
  (nullable (trimSpace userID)).all refs.users

/-- `MergeIssue`. -/
def mergeIssue (now activityId source target userID : String)
    (s : PostgresIssues) : Except WorkflowError PostgresIssues :=
  if trimSpace source = "" ∨ trimSpace target = "" then .error .idsRequired
  else
    match getGroup s.groups source, getGroup s.groups target with
    | none, _ => .error .notFound
    | some _, none => .error .notFound
    | some g, some _ =>
      if knows refs userID then
        .ok {
          groups := updateGroup source (merged target) (fun _ _ => rfl) s.groups
          states := upsertGroupStateTx now source "ignored" (trimSpace userID) s.states
          activity := ⟨activityId, source, g.projectId, nullable (trimSpace userID), "merge",
            "Merged issue", trimSpace ("Merged into " ++ target)⟩ :: s.activity }
      else .error .database

/-- `UnmergeIssue`. -/
def unmergeIssue (now activityId source userID : String)
    (s : PostgresIssues) : Except WorkflowError PostgresIssues :=
  match getGroup s.groups source with
  | none => .error .notFound
  | some g =>
    if knows refs userID then
      .ok {
        groups := updateGroup source unmerged (fun _ _ => rfl) s.groups
        states := upsertGroupStateTx now source "unresolved" "" s.states
        activity := ⟨activityId, source, g.projectId, nullable (trimSpace userID), "unmerge",
          "Unmerged issue", ""⟩ :: s.activity }
    else .error .database

end Postgres

/-! ## Views -/

/-- What the stores are compared on. -/
structure IssueView where
  (id projectId status mergedInto : String)
deriving DecidableEq

def GroupRow.view (r : GroupRow) : IssueView := ⟨r.id, r.projectId, r.status, r.mergedIntoGroupId⟩

def views (groups : Table GroupRow) : List IssueView := groups.rows.map GroupRow.view

namespace IssueView

variable (vs : List IssueView)

def find (id : String) : Option IssueView := vs.find? (·.id = id)

/-- The issue gets a status and a link. -/
def assign (id status mergedInto : String) : List IssueView :=
  vs.map fun v => if v.id = id then { v with status, mergedInto } else v

variable (refs : References)

/-- SQLite's `MergeIssue`, with nothing for a call that is refused. -/
def sqliteMerge (source target userID : String) : Option (List IssueView) :=
  if source = "" ∨ target = "" then none
  else if source = target then none
  else
    match find vs source, find vs target with
    | some s, some t =>
      if s.projectId ≠ t.projectId ∨ t.mergedInto ≠ "" then none
      else if s.mergedInto ≠ "" ∧ s.mergedInto ≠ target then none
      else if s.mergedInto = target then some vs
      else if refs.allows s.projectId (nullable userID) then
        some (assign vs source "ignored" target)
      else none
    | _, _ => none

/-- Postgres' `MergeIssue`. -/
def postgresMerge (source target userID : String) : Option (List IssueView) :=
  if trimSpace source = "" ∨ trimSpace target = "" then none
  else
    match find vs source, find vs target with
    | some _, some _ =>
      if Postgres.knows refs userID then some (assign vs source "ignored" target) else none
    | _, _ => none

/-- SQLite's `UnmergeIssue`. -/
def sqliteUnmerge (source userID : String) : Option (List IssueView) :=
  match find vs source with
  | none => none
  | some s =>
    if s.mergedInto = "" then none
    else if refs.allows s.projectId (nullable userID) then some (assign vs source "unresolved" "")
    else none

/-- Postgres' `UnmergeIssue`. -/
def postgresUnmerge (source userID : String) : Option (List IssueView) :=
  match find vs source with
  | none => none
  | some _ =>
    if Postgres.knows refs userID then some (assign vs source "unresolved" "") else none

end IssueView

open IssueView

variable {refs : References} {now activityId source target userID : String}
  {groups : Table GroupRow}

@[simp]
theorem find_views (groups : Table GroupRow) (id : String) :
    find (views groups) id = (getGroup groups id).map GroupRow.view := by
  rw [find, views, find?_map]
  rfl

theorem views_updateGroup {f : GroupRow → GroupRow} {status mergedInto : String}
    {hf : ∀ s u, conflict (f s) u = conflict s u}
    (hview : ∀ r : GroupRow, (f r).view = { r.view with status, mergedInto }) :
    views (updateGroup source f hf groups) = assign (views groups) source status mergedInto := by
  rw [views, views, assign, updateGroup, Table.map, List.map_map, List.map_map]
  refine map_congr_left fun r _ => ?_
  rw [Function.comp_apply, apply_ite GroupRow.view, hview]
  rfl

/-! ### The calls on views -/

theorem sqliteMerge_views :
    (mergeIssue refs now activityId source target userID groups).toOption.map
    (fun r => views r.1) = sqliteMerge (views groups) refs source target userID := by
  have hset :
    views (updateGroup source (GroupRow.merge target now userID) (fun _ _ => rfl) groups) =
      assign (views groups) source "ignored" target := views_updateGroup fun _ => rfl
  rw [mergeIssue, sqliteMerge, find_views, find_views]
  cases getGroup groups source with
  | none => split_ifs <;> rfl
  | some s =>
    cases getGroup groups target with
    | none => split_ifs <;> rfl
    | some t =>
      simp only [map_some, GroupRow.view]
      split_ifs <;> first | rfl | exact congrArg some hset

theorem sqliteUnmerge_views : (unmergeIssue refs activityId source userID groups).toOption.map
    (fun r => views r.1) = sqliteUnmerge (views groups) refs source userID := by
  have hset : views (updateGroup source GroupRow.unmerge (fun _ _ => rfl) groups) =
      assign (views groups) source "unresolved" "" := views_updateGroup fun _ => rfl
  rw [unmergeIssue, sqliteUnmerge, find_views]
  cases getGroup groups source with
  | none => rfl
  | some s =>
    simp only [map_some, GroupRow.view]
    split_ifs <;> first | rfl | exact congrArg some hset

variable {s : PostgresIssues}

theorem postgresMerge_views :
    (Postgres.mergeIssue refs now activityId source target userID s).toOption.map
      (fun r => views r.groups) = postgresMerge (views s.groups) refs source target userID := by
  have hset : views (updateGroup source (Postgres.merged target) (fun _ _ => rfl) s.groups) =
      assign (views s.groups) source "ignored" target := views_updateGroup fun _ => rfl
  rw [Postgres.mergeIssue, postgresMerge, find_views, find_views]
  cases getGroup s.groups source with
  | none => split_ifs <;> rfl
  | some g =>
    cases getGroup s.groups target with
    | none => split_ifs <;> rfl
    | some t =>
      split_ifs <;> first | rfl | exact congrArg some hset

theorem postgresUnmerge_views :
    (Postgres.unmergeIssue refs now activityId source userID s).toOption.map
      (fun r => views r.groups) = postgresUnmerge (views s.groups) refs source userID := by
  have hset : views (updateGroup source Postgres.unmerged (fun _ _ => rfl) s.groups) =
      assign (views s.groups) source "unresolved" "" := views_updateGroup fun _ => rfl
  rw [Postgres.unmergeIssue, postgresUnmerge, find_views]
  cases getGroup s.groups source with
  | none => rfl
  | some g =>
    split_ifs <;> first | rfl | exact congrArg some hset

/-! ## When the stores do the same -/

/-- The condition on a merge of two issues that exist. Postgres takes the call when the ids are not
blank and the user is known. -/
def PairAlike (refs : References) (userID : String) (s t : IssueView) : Prop :=
  if trimSpace s.id ≠ "" ∧ trimSpace t.id ≠ "" ∧ Postgres.knows refs userID = true then
    s.id ≠ t.id ∧ s.projectId = t.projectId ∧ t.mergedInto = "" ∧
      (s.mergedInto = "" ∧ refs.allows s.projectId (nullable userID) = true ∨
        s.mergedInto = t.id ∧ s.status = "ignored")
  else
    s.id = "" ∨ t.id = "" ∨ s.id = t.id ∨ s.projectId ≠ t.projectId ∨ t.mergedInto ≠ "" ∨
      s.mergedInto ≠ t.id ∧ (s.mergedInto = "" → refs.allows s.projectId (nullable userID) = false)
deriving Decidable

/-- **The condition on a merge.** -/
def MergeAlike (refs : References) (vs : List IssueView) (source target userID : String) : Prop :=
  ∀ s ∈ find vs source, ∀ t ∈ find vs target, PairAlike refs userID s t
deriving Decidable

/-- **The condition on taking a merge back.** -/
def UnmergeAlike (refs : References) (vs : List IssueView) (source userID : String) : Prop :=
  ∀ s ∈ find vs source,
    (Postgres.knows refs userID = true ↔
      s.mergedInto ≠ "" ∧ refs.allows s.projectId (nullable userID) = true)
deriving Decidable

variable {vs : List IssueView}

theorem assign_eq_self_iff {v : IssueView} {status mergedInto : String}
    (hids : (vs.map (·.id)).Nodup) (hv : find vs source = some v) :
    assign vs source status mergedInto = vs ↔ v.status = status ∧ v.mergedInto = mergedInto := by
  have hmem := mem_of_find?_eq_some hv
  have hid : v.id = source := by simpa using find?_some hv
  rw [assign]
  conv_lhs => rhs; rw [← List.map_id vs]
  rw [map_inj_left]
  constructor
  · intro hall
    have hsame := hall v hmem
    rw [if_pos hid] at hsame
    exact ⟨(congrArg IssueView.status hsame).symm, (congrArg IssueView.mergedInto hsame).symm⟩
  · rintro ⟨rfl, rfl⟩ u hu
    split
    · next huid =>
      rw [inj_on_of_nodup_map hids hu hmem (huid.trans hid.symm)]
      rfl
    · rfl

/-- What SQLite does with two issues that exist. -/
theorem sqliteMerge_of_find {s t : IssueView} (hs : find vs source = some s)
    (ht : find vs target = some t) : sqliteMerge vs refs source target userID =
      if source ≠ "" ∧ target ≠ "" ∧ source ≠ target ∧ s.projectId = t.projectId ∧ t.mergedInto = ""
      then
        if s.mergedInto = target then some vs
        else if s.mergedInto = "" ∧ refs.allows s.projectId (nullable userID) = true then
          some (assign vs source "ignored" target)
        else none
      else none := by
  rw [sqliteMerge, hs, ht]
  grind

/-- What Postgres does with two issues that exist. -/
theorem postgresMerge_of_find {s t : IssueView} (hs : find vs source = some s)
    (ht : find vs target = some t) : postgresMerge vs refs source target userID =
      if trimSpace source ≠ "" ∧ trimSpace target ≠ "" ∧ Postgres.knows refs userID = true
      then some (assign vs source "ignored" target) else none := by
  rw [postgresMerge, hs]
  grind

theorem mergeView_eq_iff (hids : (vs.map (·.id)).Nodup) :
    sqliteMerge vs refs source target userID = postgresMerge vs refs source target userID ↔
      MergeAlike refs vs source target userID := by
  have hblank : trimSpace "" = "" := trimSpace_empty
  rw [MergeAlike]
  cases hs : find vs source with
  | none => simp [sqliteMerge, postgresMerge, hs]
  | some s =>
    cases ht : find vs target with
    | none => simp [sqliteMerge, postgresMerge, ht]
    | some t =>
      have hsid : s.id = source := by simpa using find?_some hs
      have htid : t.id = target := by simpa using find?_some ht
      simp only [mem_def, some.injEq, forall_eq', PairAlike, hsid]
      rw [sqliteMerge_of_find hs ht, postgresMerge_of_find hs ht]
      have hself : vs = assign vs source "ignored" target ↔ s.status = "ignored" ∧
          s.mergedInto = target := eq_comm.trans (assign_eq_self_iff hids hs)
      grind

theorem unmergeView_eq_iff :
    sqliteUnmerge vs refs source userID = postgresUnmerge vs refs source userID ↔
      UnmergeAlike refs vs source userID := by
  rw [sqliteUnmerge, postgresUnmerge, UnmergeAlike]
  cases find vs source with
  | none => simp
  | some s =>
    simp only [mem_def, some.injEq, forall_eq']
    grind

/-! ## Two stores -/

/-- A call of the workflow. -/
inductive MergeCall
  | merge (refs : References) (now activityId source target userID : String)
  | unmerge (refs : References) (now activityId source userID : String)

/-- The two stores, and whether each of them accepted the last call. -/
structure MergeStores where
  sqlite : Table GroupRow
  postgres : PostgresIssues
  accepted : Bool × Bool

namespace MergeStores

/-- The call on SQLite. -/
def callSqlite (groups : Table GroupRow) : MergeCall → Option (Table GroupRow)
  | .merge refs now activityId source target userID =>
    (mergeIssue refs now activityId source target userID groups).toOption.map Prod.fst
  | .unmerge refs _ activityId source userID =>
    (unmergeIssue refs activityId source userID groups).toOption.map Prod.fst

/-- The call on Postgres. -/
def callPostgres (s : PostgresIssues) : MergeCall → Option PostgresIssues
  | .merge refs now activityId source target userID =>
    (Postgres.mergeIssue refs now activityId source target userID s).toOption
  | .unmerge refs now activityId source userID =>
    (Postgres.unmergeIssue refs now activityId source userID s).toOption

variable (s : MergeStores)

/-- Both stores get the call. One that refuses it stays as it is. -/
def step (call : MergeCall) : Option MergeStores :=
  let sqlite := callSqlite s.sqlite call
  let postgres := callPostgres s.postgres call
  some ⟨sqlite.getD s.sqlite, postgres.getD s.postgres, sqlite.isSome, postgres.isSome⟩

/-- Stores with the same issues. -/
def start (groups : Table GroupRow) (states : Table GroupStateRow) (activity : List ActivityRow) :
    MergeStores :=
  ⟨groups, ⟨groups, states, activity⟩, true, true⟩

/-- **The property.** The stores took the last call alike, and have the same issues. -/
def Agree : Prop :=
  s.accepted.1 = s.accepted.2 ∧ views s.sqlite = views s.postgres.groups

/-- **The condition on a call.** -/
def Alike : MergeCall → Prop
  | .merge refs _ _ source target userID => MergeAlike refs (views s.sqlite) source target userID
  | .unmerge refs _ _ source userID => UnmergeAlike refs (views s.sqlite) source userID

variable {s t : MergeStores} {call : MergeCall} (groups : Table GroupRow)

/-- The call on the views of SQLite. -/
def viewSqlite (vs : List IssueView) : MergeCall → Option (List IssueView)
  | .merge refs _ _ source target userID => sqliteMerge vs refs source target userID
  | .unmerge refs _ _ source userID => sqliteUnmerge vs refs source userID

/-- The call on the views of Postgres. -/
def viewPostgres (vs : List IssueView) : MergeCall → Option (List IssueView)
  | .merge refs _ _ source target userID => postgresMerge vs refs source target userID
  | .unmerge refs _ _ source userID => postgresUnmerge vs refs source userID

theorem map_callSqlite (call : MergeCall) :
    (callSqlite groups call).map views = viewSqlite (views groups) call := by
  cases call with
  | merge refs now activityId source target userID =>
    rw [callSqlite, Option.map_map]
    exact sqliteMerge_views
  | unmerge refs now activityId source userID =>
    rw [callSqlite, Option.map_map]
    exact sqliteUnmerge_views

theorem map_callPostgres (s : PostgresIssues) (call : MergeCall) :
    (callPostgres s call).map (fun r => views r.groups) = viewPostgres (views s.groups) call := by
  cases call with
  | merge refs now activityId source target userID => exact postgresMerge_views
  | unmerge refs now activityId source userID => exact postgresUnmerge_views

theorem alike_iff (s : MergeStores) (call : MergeCall) :
    viewSqlite (views s.sqlite) call = viewPostgres (views s.sqlite) call ↔ s.Alike call := by
  cases call with
  | merge refs now activityId source target userID =>
    have hids : ((views s.sqlite).map (·.id)).Nodup := by
      rw [views, List.map_map]
      exact s.sqlite.nodup_map_key fun r u (h : r.id = u.id) => by simp [conflict, h]
    exact mergeView_eq_iff hids
  | unmerge refs now activityId source userID => exact unmergeView_eq_iff

/-- **A call** leaves the stores in agreement exactly when they take it alike. -/
theorem agree_step_iff (h : s.Agree) (hstep : s.step call = some t) : t.Agree ↔ s.Alike call := by
  have hsqlite := map_callSqlite s.sqlite call
  have hpostgres := map_callPostgres s.postgres call
  rw [← h.2] at hpostgres
  rw [← alike_iff, ← hsqlite, ← hpostgres]
  cases hstep
  rw [Agree]
  cases callSqlite s.sqlite call with
  | none =>
    cases callPostgres s.postgres call with
    | none => exact iff_of_true ⟨rfl, h.2⟩ rfl
    | some p => simp
  | some g =>
    cases callPostgres s.postgres call with
    | none => simp
    | some p => simp

/-- The links are part of the views. -/
theorem links_eq_views : links groups = (views groups).map fun v =>
    ⟨v.id, v.projectId, if v.mergedInto = "" then none else some v.mergedInto⟩ := by
  rw [views, List.map_map]
  rfl

theorem eq_ok_of_toOption {ε α : Type*} {x : Except ε α} {a : α} (h : x.toOption = some a) :
    x = .ok a := by
  cases x with
  | error e => cases h
  | ok b =>
    cases h
    rfl

/-- The stores agree, and SQLite has a forest. -/
def AgreeForest (s : MergeStores) : Prop := s.Agree ∧ MergeForest s.sqlite

/-- SQLite keeps the forest. -/
theorem mergeForest_step (h : MergeForest s.sqlite) (hstep : s.step call = some t) :
    MergeForest t.sqlite := by
  cases hstep
  change MergeForest ((callSqlite s.sqlite call).getD s.sqlite)
  cases hcall : callSqlite s.sqlite call with
  | none => exact h
  | some groups =>
    cases call with
    | merge refs now activityId source target userID =>
      obtain ⟨r, hr, rfl⟩ := map_eq_some_iff.mp hcall
      exact h.mergeIssue (eq_ok_of_toOption hr)
    | unmerge refs now activityId source userID =>
      obtain ⟨r, hr, rfl⟩ := map_eq_some_iff.mp hcall
      exact h.unmergeIssue (eq_ok_of_toOption hr)

/-- **Agreement.** Stores that start with the same issues accept the same calls and keep the same
issues exactly when they take every call alike. The issues of Postgres then form a forest whenever
they did so at the start. -/
theorem run_agree_iff {groups : Table GroupRow} {states : Table GroupStateRow}
    {activity : List ActivityRow} {trace : List (MergeStores × MergeCall)}
    (run : Run step (start groups states activity) trace t) :
    ((∀ u ∈ visited trace t, u.Agree) ↔ ∀ p ∈ trace, p.1.Alike p.2) ∧
      ((∀ p ∈ trace, p.1.Alike p.2) → MergeForest groups →
        ∀ u ∈ visited trace t, MergeForest u.postgres.groups) := by
  have hinit : (start groups states activity).Agree := ⟨rfl, rfl⟩
  refine ⟨run.safe_iff hinit (fun h halike hstep => (agree_step_iff h hstep).mpr halike)
    (fun h => h)
    fun h hno hstep hafter => hno ((agree_step_iff h hstep).mp hafter),
      fun halike hforest u hu => ?_⟩
  have hstart : (start groups states activity).AgreeForest := ⟨hinit, hforest⟩
  have hboth := run.invariant hstart
    (fun h halike hstep => ⟨(agree_step_iff h.1 hstep).mpr halike, mergeForest_step h.2 hstep⟩)
    halike u hu
  rw [MergeForest, links_eq_views, ← hboth.1.2, ← links_eq_views]
  exact hboth.2

/-! ### A cycle -/

instance (s : MergeStores) (call : MergeCall) : Decidable (s.Alike call) :=
  match call with
  | .merge .. => inferInstanceAs (Decidable (MergeAlike ..))
  | .unmerge .. => inferInstanceAs (Decidable (UnmergeAlike ..))

/-- Two issues of the project `p`. -/
def twoIssues : Table GroupRow :=
  (Table.empty.insertOrIgnore ((Workflow.issue "a").newRow .empty)).insertOrIgnore
    ((Workflow.issue "b").newRow .empty)

/-- A merge of the issues. -/
def mergeInto (source target : String) : MergeCall :=
  .merge Workflow.allReferences "" "1" source target "u"

/-- The issue `a` is merged into `b` and taken back. -/
theorem merged_unmerged : ∃ trace t, Run step (start twoIssues .empty []) trace t ∧
    ∀ u ∈ visited trace t, u.Agree := by
  obtain ⟨trace, t, hrun, halike⟩ : ∃ trace t, Run step (start twoIssues .empty []) trace t ∧
      ∀ x ∈ trace, x.1.Alike x.2 :=
    exists_run [mergeInto "a" "b", .unmerge Workflow.allReferences "" "2" "a" "u"]
      (by decide +kernel)
  exact ⟨trace, t, hrun, (run_agree_iff hrun).1.mpr halike⟩

/-- **A cycle.** Each of two issues is merged into the other one. SQLite refuses the second merge
and Postgres takes it. -/
theorem merged_into_each_other : ∃ trace t, Run step (start twoIssues .empty []) trace t ∧
    t.accepted = (false, true) ∧ views t.sqlite ≠ views t.postgres.groups ∧
      ¬MergeForest t.postgres.groups := by
  obtain ⟨trace, t, hrun, haccepted, hviews, hpostgres⟩ : ∃ trace t,
      Run step (start twoIssues .empty []) trace t ∧ t.accepted = (false, true) ∧
      views t.sqlite ≠ views t.postgres.groups ∧
      views t.postgres.groups = [⟨"a", "p", "ignored", "b"⟩, ⟨"b", "p", "ignored", "a"⟩] :=
    exists_run [mergeInto "a" "b", mergeInto "b" "a"] (by decide +kernel)
  refine ⟨trace, t, hrun, haccepted, hviews, fun h => ?_⟩
  have hlinks : links t.postgres.groups = [⟨"a", "p", some "b"⟩, ⟨"b", "p", some "a"⟩] := by
    rw [links_eq_views, hpostgres]
    rfl
  have hforest : Link.Forest (links t.postgres.groups) := h
  rw [hlinks] at hforest
  refine hforest.noCycle "a" (.tail (.single (b := "b") ?_) ?_)
  · exact ⟨_, mem_cons_self, rfl, rfl⟩
  · exact ⟨_, mem_cons_of_mem _ mem_cons_self, rfl, rfl⟩

end MergeStores

end Urgentry
