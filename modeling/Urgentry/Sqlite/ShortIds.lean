import Urgentry.Sqlite.ImportIsolation
import Urgentry.Sqlite.IssueWorkflow

/-!
# Short ids

An issue has a number by which people name it: `ResolveShortID` looks for the issue of an
organization that has it. No constraint of the table makes the numbers unique. Two writers give a
new issue the largest number in the whole table plus one, and an import writes the number of its
payload.

## Why new issues are safe and imported ones are not

The largest number plus one differs from every number there is, as long as it is an integer of
SQLite: beyond that the sum is a real that adding one does not change. So a new issue is safe unless
the organization has that real already. An import looks at no number at all. What it needs is that
the numbers in the payload are different, and that an issue of the organization that has one of them
is replaced by the import itself.

Which organization an issue belongs to is told by its project, and a project may come after the
issue: `groups` has no foreign key. An import that creates a project takes in the issues that name
it.

## The tags

None of this depends on more than three columns of an issue. `tags` keeps these, every statement is
described by what it does to the tags, and `UniqueShortIds` is antitone in them.

## Main results

* `UniqueShortIds.identify`: when the numbers are unique, `ResolveShortID` returns the issue with
  the number.
* `UniqueShortIds.importOrganization`: what an import keeps.
* `Tenants.run_unique`: the numbers are unique in every state of a run whose steps meet the
  condition.
-/

namespace Urgentry

open SqlTable Effect Trace List Option Schema Table

/-! ## The lookup -/

/-- The project is one of the organization. -/
def ImportDb.InOrg (db : ImportDb) (orgID projectId : String) : Prop :=
  ∃ p ∈ db.projects.rows, p.id = projectId ∧ p.organizationId = orgID
deriving Decidable

/-- The rows that the query of `ResolveShortID` selects, with the slug of the project. -/
def shortIdRows (orgs : Table OrganizationRow) (db : ImportDb) (orgSlug : String) (shortID : ℤ) :
    List (GroupRow × String) :=
  db.groups.rows.flatMap fun g => db.projects.rows.flatMap fun p =>
    (orgs.rows.filter fun o => p.id = g.projectId ∧ o.id = p.organizationId ∧ o.slug = orgSlug ∧
      g.shortId = some shortID).map fun _ => (g, p.slug)

/-- `ResolveShortID`, which reads one row. -/
def resolveShortID (orgs : Table OrganizationRow) (db : ImportDb) (orgSlug : String) (shortID : ℤ) :
    Option (GroupRow × String) :=
  (shortIdRows orgs db orgSlug shortID).head?

/-- **Short ids identify issues.** -/
def UniqueShortIds (db : ImportDb) : Prop :=
  ∀ g ∈ db.groups.rows, ∀ h ∈ db.groups.rows, ∀ orgID, db.InOrg orgID g.projectId →
    db.InOrg orgID h.projectId → g.shortId ≠ none → g.shortId = h.shortId → g = h

variable {db : ImportDb} {inOrg : String → String → Prop}

theorem mem_shortIdRows {orgs : Table OrganizationRow} {orgSlug : String} {shortID : ℤ}
    {g : GroupRow} {slug : String} :
    (g, slug) ∈ shortIdRows orgs db orgSlug shortID ↔
      g ∈ db.groups.rows ∧ g.shortId = some shortID ∧ ∃ p ∈ db.projects.rows, p.id = g.projectId ∧
        p.slug = slug ∧ ∃ o ∈ orgs.rows, o.id = p.organizationId ∧ o.slug = orgSlug := by
  simp only [shortIdRows, mem_flatMap, List.mem_map, mem_filter, decide_eq_true_eq, Prod.mk.injEq]
  constructor
  · rintro ⟨g', hg, p, hp, o, ⟨ho, hproject, horg, hslug, hshort⟩, rfl, rfl⟩
    exact ⟨hg, hshort, p, hp, hproject, rfl, o, ho, horg, hslug⟩
  · rintro ⟨hg, hshort, p, hp, hproject, rfl, o, ho, horg, hslug⟩
    exact ⟨g, hg, p, hp, o, ⟨ho, hproject, horg, hslug, hshort⟩, rfl, rfl⟩

theorem eq_of_projectId {projects : Table ProjectRow} {p q : ProjectRow} (hp : p ∈ projects)
    (hq : q ∈ projects) (h : p.id = q.id) : p = q :=
  eq_of_conflict hp hq (by simp [conflict, h])

/-- A project has one organization. -/
theorem ImportDb.InOrg.unique {orgID orgID' projectId : String} (h : db.InOrg orgID projectId)
    (h' : db.InOrg orgID' projectId) : orgID = orgID' := by
  obtain ⟨p, hp, hid, rfl⟩ := h
  obtain ⟨q, hq, hid', rfl⟩ := h'
  rw [eq_of_projectId hp hq (hid.trans hid'.symm)]

/-- **The lookup.** Every row that the query selects is the one that it returns. -/
theorem UniqueShortIds.identify (h : UniqueShortIds db) (orgs : Table OrganizationRow)
    (orgSlug : String) (shortID : ℤ) :
    ∀ r ∈ shortIdRows orgs db orgSlug shortID, resolveShortID orgs db orgSlug shortID = some r := by
  have hsame : ∀ r ∈ shortIdRows orgs db orgSlug shortID,
      ∀ r' ∈ shortIdRows orgs db orgSlug shortID, r = r' := by
    rintro ⟨g, slug⟩ hr ⟨g', slug'⟩ hr'
    obtain ⟨hg, hshort, p, hp, hproject, rfl, o, ho, horg, hslug⟩ := mem_shortIdRows.mp hr
    obtain ⟨hg', hshort', p', hp', hproject', rfl, o', ho', horg', hslug'⟩ := mem_shortIdRows.mp hr'
    -- The slug names one organization.
    obtain rfl : o = o' := eq_of_conflict ho ho' (by simp [conflict, hslug, hslug'])
    obtain rfl : g = g' := h g hg g' hg' o.id ⟨p, hp, hproject, horg.symm⟩
      ⟨p', hp', hproject', horg'.symm⟩ (by simp [hshort]) (hshort.trans hshort'.symm)
    rw [eq_of_projectId hp hp' (hproject.trans hproject'.symm)]
  intro r hr
  obtain ⟨first, hfirst⟩ := ne_none_iff_exists'.mp
    (mt head?_eq_none_iff.mp (ne_nil_of_mem hr))
  rw [resolveShortID, hfirst, hsame r hr first (mem_of_head? hfirst)]

/-! ## Tags -/

/-- The columns of an issue that matter here. -/
structure GroupTag where
  (id projectId : String)
  shortId : Option ℤ
deriving DecidableEq

def GroupRow.tag (r : GroupRow) : GroupTag := ⟨r.id, r.projectId, r.shortId⟩

def tags (groups : Table GroupRow) : List GroupTag := groups.rows.map GroupRow.tag

/-- Tags of one organization with one number are those of one issue. -/
def TagsUnique (inOrg : String → String → Prop) (ts : List GroupTag) : Prop :=
  ∀ x ∈ ts, ∀ y ∈ ts, ∀ orgID, inOrg orgID x.projectId → inOrg orgID y.projectId →
    x.shortId ≠ none → x.shortId = y.shortId → x.id = y.id

theorem uniqueShortIds_iff : UniqueShortIds db ↔ TagsUnique db.InOrg (tags db.groups) := by
  simp only [TagsUnique, tags, List.forall_mem_map]
  constructor
  · intro h g hg g' hg' orgID hin hin' hshort hsame
    rw [h g hg g' hg' orgID hin hin' hshort hsame]
  · intro h g hg g' hg' orgID hin hin' hshort hsame
    exact eq_of_groupId hg hg' (h g hg g' hg' orgID hin hin' hshort hsame)

theorem TagsUnique.mono {ts ts' : List GroupTag} (h : TagsUnique inOrg ts) (hsub : ts' ⊆ ts) :
    TagsUnique inOrg ts' :=
  fun x hx y hy => h x (hsub hx) y (hsub hy)

/-- A further tag, with a number that no other tag of its organizations has. -/
theorem TagsUnique.append {ts : List GroupTag} {new : GroupTag} (h : TagsUnique inOrg ts)
    (hnew : ∀ x ∈ ts, ∀ orgID, inOrg orgID new.projectId →
      inOrg orgID x.projectId → x.shortId ≠ new.shortId) : TagsUnique inOrg (ts ++ [new]) := by
  intro x hx y hy orgID hinx hiny hshort hsame
  rw [mem_append, mem_singleton] at hx hy
  rcases hx with hx | rfl
  · rcases hy with hy | rfl
    · exact h x hx y hy orgID hinx hiny hshort hsame
    · exact absurd hsame (hnew x hx orgID hiny hinx)
  · rcases hy with hy | rfl
    · exact absurd hsame.symm (hnew y hy orgID hinx hiny)
    · rfl

/-! ## New issues -/

section Groups

variable {groups groups' : Table GroupRow}

/-- **The next number** is that of no issue, unless it is the last one. -/
theorem shortId_ne_nextShortId {x : GroupTag} (hx : x ∈ tags groups)
    (hlast : x.shortId ≠ some 9223372036854775808) : x.shortId ≠ some (nextShortId groups) := by
  intro hnext
  obtain ⟨r, hr, rfl⟩ := mem_map.mp hx
  have hmem : nextShortId groups ∈ groups.rows.filterMap (·.shortId) :=
    mem_filterMap.mpr ⟨r, hr, hnext⟩
  obtain ⟨top, htop⟩ := ne_none_iff_exists'.mp
    (mt max?_eq_none_iff.mp (ne_nil_of_mem hmem))
  have hle : nextShortId groups ≤ top := (max?_eq_some_iff.mp htop).2 _ hmem
  have heq : nextShortId groups = min (top + 1) 9223372036854775808 := by
    rw [nextShortId, htop, getD_some]
  refine hlast (hnext.trans (congrArg some ?_))
  omega

variable {id newId : String} {f : GroupRow → GroupRow} {key : GroupKey} {evt : NormalizedEvent}

theorem tags_updateGroup {hf : ∀ s u, conflict (f s) u = conflict s u}
    (htag : ∀ r : GroupRow, (f r).tag = r.tag) :
    tags (updateGroup id f hf groups) = tags groups := by
  rw [tags, updateGroup, Table.map, List.map_map]
  refine map_congr_left fun r _ => ?_
  rw [Function.comp_apply, apply_ite GroupRow.tag, htag, ite_self]

@[simp]
theorem tags_copyLatest (groupId : String) (latest : Option EventRow) (groups : Table GroupRow) :
    tags (copyLatest groupId latest groups) = tags groups := by
  cases latest with
  | none => rfl
  | some r =>
    rw [copyLatest]
    exact tags_updateGroup fun _ => rfl

theorem tags_leaveGroup_subset (groupId target : String) (events : Table EventRow)
    (groups : Table GroupRow) : tags (leaveGroup groupId target events groups) ⊆ tags groups := by
  rw [leaveGroup]
  split
  · split
    · exact map_subset _ (filter_subset_self _)
    · rw [syncGroupFromLatestEvent, tags_copyLatest]
      exact Subset.refl _
  · exact Subset.refl _

/-- What a writer of one issue does: nothing to the tags, or a tag with the next number, for a key
that is not there. -/
def OneTag (groups groups' : Table GroupRow) (key : GroupKey) (id : String) : Prop :=
  tags groups' ⊆ tags groups ∨ getGroupByKey groups key = none ∧
    tags groups' ⊆ tags groups ++ [⟨id, key.projectId, some (nextShortId groups)⟩]

/-- An insert of the issue. -/
theorem oneTag_insert {g : Group} (hkey : getGroupByKey groups g.groupKey = none)
    (h : groups.insert (g.newRow groups) = some groups') :
    OneTag groups groups' g.groupKey g.id := by
  refine .inr ⟨hkey, ?_⟩
  rw [tags, (insert_eq_some_iff.mp h).2, map_append]
  exact Subset.refl _

/-- An update of another column. -/
theorem oneTag_updateGroup {hf : ∀ s u, conflict (f s) u = conflict s u}
    (htag : ∀ r : GroupRow, (f r).tag = r.tag) :
    OneTag groups (updateGroup id f hf groups) key newId := by
  rw [OneTag, tags_updateGroup htag]
  exact .inl (Subset.refl _)

theorem oneTag_upsertGroup {g : Group}
    (h : upsertGroup g groups = some (groups', id)) : OneTag groups groups' g.groupKey g.id := by
  rw [upsertGroup] at h
  cases hkey : getGroupByKey groups g.groupKey with
  | none =>
    rw [hkey] at h
    obtain ⟨table, hinsert, ⟨⟩⟩ := map_eq_some_iff.mp h
    exact oneTag_insert hkey hinsert
  | some row =>
    rw [hkey] at h
    cases h
    exact oneTag_updateGroup fun _ => rfl

theorem oneTag_ensureTargetGroup {projectId target : String} {eventTime : Time}
    (h : ensureTargetGroup projectId evt eventTime newId groups = some (groups', target)) :
    OneTag groups groups' (evt.groupKey projectId) newId := by
  rw [ensureTargetGroup] at h
  cases hkey : getGroupByKey groups (evt.groupKey projectId) with
  | none =>
    rw [hkey] at h
    obtain ⟨table, hinsert, ⟨⟩⟩ := map_eq_some_iff.mp h
    have hnew : getGroupByKey groups (evt.newGroup projectId newId eventTime).groupKey = none :=
      hkey
    exact oneTag_insert hnew hinsert
  | some row =>
    rw [hkey] at h
    cases h
    exact oneTag_updateGroup fun _ => rfl

theorem OneTag.trans_subset {groups'' : Table GroupRow} (h : OneTag groups groups' key id)
    (hsub : tags groups'' ⊆ tags groups') : OneTag groups groups'' key id :=
  h.imp (fun h => Subset.trans hsub h) fun h => ⟨h.1, Subset.trans hsub h.2⟩

theorem oneTag_move {s t : Issues} {lib : NativeLib} {item : NativeReprocessCandidate}
    {target : String} {now : Time}
    (h : moveReprocessedEventToGroup lib item evt newId now s = some (t, target)) :
    OneTag s.groups t.groups (evt.groupKey item.project) newId := by
  obtain ⟨⟨groups, target'⟩, hensure, ⟨⟩⟩ := map_eq_some_iff.mp h
  refine (oneTag_ensureTargetGroup hensure).trans_subset ?_
  rw [syncGroupFromLatestEvent, tags_copyLatest]
  exact tags_leaveGroup_subset _ _ _ _

end Groups

/-- There is a number left for a new issue of the project: no issue of its organization has the
last one. -/
def ImportDb.HasRoom (db : ImportDb) (projectId : String) : Prop :=
  ∀ g ∈ db.groups.rows, g.shortId = some 9223372036854775808 →
    ∀ p ∈ db.projects.rows, p.id = projectId → ¬db.InOrg p.organizationId g.projectId
deriving Decidable

/-- **A writer of one issue.** -/
theorem UniqueShortIds.oneTag {db db' : ImportDb} (h : UniqueShortIds db)
    (hprojects : db'.projects = db.projects) {key : GroupKey} {id : String}
    (htag : OneTag db.groups db'.groups key id)
    (hroom : getGroupByKey db.groups key = none → db.HasRoom key.projectId) :
    UniqueShortIds db' := by
  have hin : db'.InOrg = db.InOrg := by
    funext orgID projectId
    rw [ImportDb.InOrg, hprojects]
    rfl
  rw [uniqueShortIds_iff] at h ⊢
  rw [hin]
  rcases htag with hsub | ⟨hkey, hsub⟩
  · exact h.mono hsub
  · refine (h.append fun x hx orgID hnew hold =>
      shortId_ne_nextShortId hx fun hlast => ?_).mono hsub
    obtain ⟨g, hg, rfl⟩ := mem_map.mp hx
    obtain ⟨p, hp, hid, rfl⟩ := hnew
    exact hroom hkey g hg hlast p hp hid hold

/-! ## Imports -/

variable (env : ImportEnv)

/-- The ids that the projects of the payload have when they are new. -/
def ImportPayload.projectIds (payload : ImportPayload) : List String :=
  payload.projects.zipIdx.map fun x => env.itemId ⟨.projects, x.2⟩ x.1.id

/-- The ids and numbers of issues of a payload. -/
def issueNumbers (issues : List (IssueImport × ℕ)) : List (String × ℤ) :=
  issues.map fun x => (env.itemId ⟨.issues, x.2⟩ x.1.id, x.1.shortId)

/-- **The condition on an import.** -/
@[mk_iff]
structure ImportPayload.NumbersFit (orgID : String) (payload : ImportPayload)
    (db : ImportDb) : Prop where
  /-- Issues of the payload with one number are one issue. -/
  distinct : ∀ x ∈ issueNumbers env payload.issues.zipIdx,
    ∀ y ∈ issueNumbers env payload.issues.zipIdx, x.2 ≠ 0 → x.2 = y.2 → x.1 = y.1
  /-- An issue of the organization that has one of the numbers is replaced. -/
  replaced : ∀ g ∈ db.groups.rows, db.InOrg orgID g.projectId →
    ∀ x ∈ issueNumbers env payload.issues.zipIdx, x.2 ≠ 0 → g.shortId = some x.2 →
      g.id ∈ (issueNumbers env payload.issues.zipIdx).map Prod.fst
  /-- No issue waits for a project of the payload. -/
  projects : ∀ g ∈ db.groups.rows, g.projectId ∈ payload.projectIds env →
    ∃ p ∈ db.projects.rows, p.id = g.projectId

/-- **What holds during an import**, with `made` the projects that it may make and `done` the issues
that it has written. -/
structure Importing (start : ImportDb) (orgID : String) (made : List String)
    (done : List (String × ℤ)) (s : ImportState) : Prop where
  stays : ∀ org id, start.InOrg org id → s.db.InOrg org id
  comes : ∀ org id, s.db.InOrg org id → start.InOrg org id ∨ org = orgID ∧ id ∈ made
  resolved : ∀ entry ∈ s.projectIDs, s.db.InOrg orgID entry.2
  groups : ∀ g ∈ s.db.groups.rows,
    g ∈ start.groups.rows ∧ g.id ∉ done.map Prod.fst ∨
      s.db.InOrg orgID g.projectId ∧ ∃ d ∈ done, g.id = d.1 ∧ g.shortId = nullableInt d.2

section Importing

-- No argument below looks into a trimmed text.
attribute [local irreducible] GoText.trimSpace

variable {env : ImportEnv} {start : ImportDb} {orgID : String} {made : List String}
  {done : List (String × ℤ)} {s : ImportState} {payload : ImportPayload}

/-- Other tables may change. -/
theorem Importing.frame {db : ImportDb} (h : Importing start orgID made done s)
    (hprojects : db.projects = s.db.projects) (hgroups : db.groups = s.db.groups) :
    Importing start orgID made done { s with db } := by
  have hin : db.InOrg = s.db.InOrg := by
    funext org id
    rw [ImportDb.InOrg, hprojects]
    rfl
  refine ⟨?_, ?_, ?_, ?_⟩
  · simpa only [hin] using h.stays
  · simpa only [hin] using h.comes
  · simpa only [hin] using h.resolved
  · simpa only [hin, hgroups] using h.groups

/-- The action keeps what holds during the import. -/
abbrev Kept (start : ImportDb) (orgID : String) (made : List String)
    (done : List (String × ℤ)) {α : Type} (m : Import α) : Prop :=
  Holds (Importing start orgID made done) m (fun _ => Importing start orgID made done) fun _ => True

theorem importing_projects : ProjectInvariant orgID (Importing start orgID made done) fun db id =>
    db.InOrg orgID id where
  resolved _ hs := hs.resolved
  stored _ _ p hp horg := ⟨p, hp, rfl, horg⟩
  add _ _ _ hs hid := ⟨hs.stays, hs.comes, forall_mem_cons.mpr ⟨hid, hs.resolved⟩, hs.groups⟩

/-- **A project.** Its row is updated in place, or a new one has the id of the payload. -/
theorem inOrg_upsertProjectRow {db db' : ImportDb} {row : ProjectRow}
    (h : upsertProjectRow row db = some db') (org id : String) :
    (db.InOrg org id → db'.InOrg org id) ∧
      (db'.InOrg org id → db.InOrg org id ∨ org = row.organizationId ∧ id = row.id) := by
  obtain ⟨projects, hprojects, rfl⟩ := map_eq_some_iff.mp h
  rw [upsert] at hprojects
  split at hprojects
  · rw [update] at hprojects
    have hrows := rows_of_ofRows? hprojects
    have hmem : ∀ p, p ∈ projects.rows ↔ ∃ q ∈ db.projects.rows, (if row.sameSlug q then
        { q with name := row.name, platform := row.platform, teamId := row.teamId.or q.teamId }
        else q) = p := by
      intro p
      rw [hrows, List.mem_map]
    constructor
    · rintro ⟨q, hq, hid, horg⟩
      refine ⟨_, (hmem _).mpr ⟨q, hq, rfl⟩, ?_, ?_⟩ <;> split <;> assumption
    · rintro ⟨p, hp, hid, horg⟩
      obtain ⟨q, hq, rfl⟩ := (hmem p).mp hp
      refine .inl ⟨q, hq, ?_, ?_⟩
      · split at hid <;> exact hid
      · split at horg <;> exact horg
  · have hrows := (insert_eq_some_iff.mp hprojects).2
    constructor
    · rintro ⟨q, hq, hid, horg⟩
      exact ⟨q, by rw [hrows]; exact mem_append_left _ hq, hid, horg⟩
    · rintro ⟨p, hp, hid, horg⟩
      rw [hrows, mem_append, mem_singleton] at hp
      rcases hp with hp | rfl
      · exact .inl ⟨p, hp, hid, horg⟩
      · exact .inr ⟨horg.symm, hid.symm⟩

variable (item : ImportItem)

theorem importProject_importing (p : ProjectImport) (hmade : env.itemId item p.id ∈ made) :
    Kept start orgID made done (importProject env orgID item p) := by
  refine importing_projects.importProject item p fun row horg hid => statement_holds
    fun s db hs hdb => ?_
  have hin := inOrg_upsertProjectRow hdb
  have hgroups : db.groups = s.db.groups := by
    obtain ⟨projects, -, rfl⟩ := map_eq_some_iff.mp hdb
    rfl
  refine ⟨fun org id h => (hin org id).1 (hs.stays org id h), fun org id h => ?_,
    fun entry hentry => (hin _ _).1 (hs.resolved entry hentry), fun g hg => ?_⟩
  · rcases (hin org id).2 h with h | ⟨rfl, rfl⟩
    · exact hs.comes org id h
    · exact .inr ⟨horg, hid ▸ hmade⟩
  · rw [hgroups] at hg
    exact (hs.groups g hg).imp (fun h => h) fun h => ⟨(hin _ _).1 h.1, h.2⟩

/-- **An issue** replaces the one with its id, and is one of the organization. -/
theorem importIssue_importing (i : IssueImport) :
    Holds (Importing start orgID made done) (importIssue env orgID item i)
      (fun _ => Importing start orgID made (done ++ [(env.itemId item i.id, i.shortId)]))
      fun _ => True := by
  refine importItem_holds ((importing_projects.resolve _).bind fun projectID => ?_)
  refine statement_holds ?_
  rintro s _ ⟨hs, hown⟩ ⟨⟩
  refine ⟨hs.stays, hs.comes, hs.resolved, fun g hg => ?_⟩
  have hmem : g ∈ s.db.groups.rows ∧ conflict (issueRow env item projectID i) g = false ∨
      g = issueRow env item projectID i := by
    simpa [insertOrReplace, append] using hg
  rw [map_append, mem_append, not_or]
  rcases hmem with ⟨hg, hconf⟩ | rfl
  · rcases hs.groups g hg with ⟨hstart, hdone⟩ | ⟨hin, d, hd, hrest⟩
    · refine .inl ⟨hstart, hdone, fun hid => ?_⟩
      have hid : g.id = env.itemId item i.id := by simpa using hid
      have hsame : conflict (issueRow env item projectID i) g = true := by
        simp [conflict, issueRow, hid]
      rw [hsame] at hconf
      cases hconf
    · exact .inr ⟨hin, d, mem_append_left _ hd, hrest⟩
  · exact .inr ⟨hown, _, mem_append_right _ mem_cons_self, rfl, rfl⟩

/-! ### The other sections -/

/-- A statement on another table. -/
theorem frame_importing {τ : Type} {w : ImportDb → Option τ} {put : ImportDb → τ → ImportDb}
    (hprojects : ∀ db rows, (put db rows).projects = db.projects := by intros; rfl)
    (hgroups : ∀ db rows, (put db rows).groups = db.groups := by intros; rfl) :
    Kept start orgID made done (statement fun db => (w db).map (put db)) := by
  refine statement_holds fun s db hs hdb => ?_
  obtain ⟨rows, -, rfl⟩ := map_eq_some_iff.mp hdb
  exact hs.frame (hprojects _ _) (hgroups _ _)

theorem putArtifactBody_importing (key : String) (body : Body) :
    Kept start orgID made done (putArtifactBody env key body) := by
  rw [putArtifactBody]
  split
  · exact Holds.pure _ fun _ hs => hs
  · exact Holds.modify _ fun _ hs => ⟨hs.stays, hs.comes, hs.resolved, hs.groups⟩

theorem importRelease_importing (r : ReleaseImport) :
    Kept start orgID made done (importRelease env orgID item r) := by
  refine importItem_holds ?_
  rw [upsertReleaseImport]
  split
  · exact Holds.throw _ fun _ _ => trivial
  · exact frame_importing

theorem importArtifact_importing (a : ArtifactImport) :
    Kept start orgID made done (importArtifact env orgID item a) := by
  refine importItem_holds ((importing_projects.resolve _).bind fun projectID => ?_)
  cases hcheck : checkArtifact env a with
  | error e => exact Holds.throw _ fun _ _ => trivial
  | ok checked =>
    refine Holds.conseq (P := Importing start orgID made done) ?_ (fun _ hs => hs.1)
      (fun _ _ hs => hs) fun _ hs => hs
    obtain ⟨a, body⟩ := checked
    show Holds _ (importArtifactBody env item projectID a body) _ _
    rw [importArtifactBody]
    cases a.artifactKind with
    | profileRaw => exact putArtifactBody_importing _ _
    | attachment =>
      rw [upsertAttachmentArtifact]
      exact Holds.bind frame_importing fun _ => putArtifactBody_importing _ _
    | sourceMap =>
      rw [upsertSourceMapArtifact]
      exact Holds.bind frame_importing fun _ => putArtifactBody_importing _ _
    | proGuard =>
      rw [upsertProGuardArtifact]
      exact Holds.bind frame_importing fun _ => putArtifactBody_importing _ _
    | debugFile =>
      rw [upsertDebugFileArtifact]
      exact Holds.bind frame_importing fun _ => putArtifactBody_importing _ _

theorem materializeProfile_importing (row : EventRow) :
    Kept start orgID made done (materializeProfile env item row) := by
  rw [materializeProfile]
  split
  · exact Holds.pure _ fun _ hs => hs
  · have hput : ∀ key body, Kept start orgID made done (putObject key body) := fun key body =>
      Holds.modify _ fun _ hs => ⟨hs.stays, hs.comes, hs.resolved, hs.groups⟩
    refine (hput _ _).bind fun _ => ?_
    refine Holds.bind frame_importing fun _ => ?_
    split
    · exact Holds.throw _ fun _ _ => trivial
    · exact Holds.pure _ fun _ hs => hs

theorem importEvent_importing (e : EventImport) :
    Kept start orgID made done (importEvent env orgID item e) := by
  refine importItem_holds ((importing_projects.resolve _).bind fun projectID => ?_)
  refine Holds.bind (Q := fun _ => Importing start orgID made done) (statement_holds ?_) fun _ =>
    materializeProfile_importing _ _
  rintro s _ ⟨hs, -⟩ ⟨⟩
  exact hs.frame rfl rfl

theorem importProjectKey_importing (k : ProjectKeyImport) :
    Kept start orgID made done (importProjectKey env orgID item k) :=
  importItem_holds ((importing_projects.resolve _).bind fun _ =>
    Holds.conseq frame_importing (fun _ hs => hs.1) (fun _ _ hs => hs) fun _ hs => hs)

theorem importAlertRule_importing (a : AlertRuleImport) :
    Kept start orgID made done (importAlertRule env orgID item a) :=
  importItem_holds ((importing_projects.resolve _).bind fun _ =>
    Holds.conseq frame_importing (fun _ hs => hs.1) (fun _ _ hs => hs) fun _ hs => hs)

theorem importMember_importing (m : MemberImport) :
    Kept start orgID made done (importMember env orgID item m) := by
  refine importItem_holds ?_
  split
  · exact Holds.throw _ fun _ _ => trivial
  · exact Holds.bind frame_importing fun _ => frame_importing

/-- A section that writes no issue. -/
theorem importSection_importing {α : Type} (kind : ImportSection) (items : List α)
    {f : ImportItem → α → Import PUnit}
    (h : ∀ x ∈ items.zipIdx, Kept start orgID made done (f ⟨kind, x.2⟩ x.1)) :
    Kept start orgID made done (importSection kind items f) :=
  importSection_loop (I := fun _ => Importing start orgID made done) kind items
    fun before x after hitems => h x (by rw [hitems]; simp)

/-- **The whole import.** -/
theorem importOrganizationPayload_importing (payload : ImportPayload) :
    Holds (Importing start orgID (payload.projectIds env) [])
      (importOrganizationPayload env orgID payload)
      (fun _ => Importing start orgID (payload.projectIds env)
        (issueNumbers env payload.issues.zipIdx)) fun _ => True := by
  refine (importSection_importing _ _ fun x hx => importProject_importing _ _ ?_).bind fun _ => ?_
  · exact mem_map_of_mem (f := fun x => env.itemId ⟨.projects, x.2⟩ x.1.id) hx
  refine (importSection_importing _ _ fun x _ => importRelease_importing _ _).bind fun _ => ?_
  have hissues : Holds (Importing start orgID (payload.projectIds env) [])
      (importSection .issues payload.issues (importIssue env orgID))
      (fun _ => Importing start orgID (payload.projectIds env)
        (issueNumbers env payload.issues.zipIdx)) fun _ => True := by
    refine importSection_loop (I := fun before => Importing start orgID (payload.projectIds env)
      (issueNumbers env before)) _ _ fun before x after _ => ?_
    rw [issueNumbers, issueNumbers, map_append]
    exact importIssue_importing _ _
  refine hissues.bind fun _ => ?_
  refine (importSection_importing _ _ fun x _ => importArtifact_importing _ _).bind fun _ => ?_
  refine (importSection_importing _ _ fun x _ => importEvent_importing _ _).bind fun _ => ?_
  refine (importSection_importing _ _ fun x _ => importProjectKey_importing _ _).bind fun _ => ?_
  refine (importSection_importing _ _ fun x _ => importAlertRule_importing _ _).bind fun _ => ?_
  exact importSection_importing _ _ fun x _ => importMember_importing _ _

/-- An issue from before the import is in the organization that it was in. -/
theorem Importing.inOrg_stored (h : Importing start orgID (payload.projectIds env) done s)
    (hfit : payload.NumbersFit env orgID start) {g : GroupRow} (hg : g ∈ start.groups.rows)
    {org : String} (hin : s.db.InOrg org g.projectId) : start.InOrg org g.projectId := by
  rcases h.comes org _ hin with hin | ⟨-, hmade⟩
  · exact hin
  · obtain ⟨p, hp, hid⟩ := hfit.projects g hg hmade
    have hstart : start.InOrg p.organizationId g.projectId := ⟨p, hp, hid, rfl⟩
    rwa [hin.unique (h.stays _ _ hstart)]

/-- **After the import.** -/
theorem Importing.unique
    (h : Importing start orgID (payload.projectIds env) (issueNumbers env payload.issues.zipIdx) s)
    (hstart : UniqueShortIds start) (hfit : payload.NumbersFit env orgID start) :
    UniqueShortIds s.db := by
  -- A stored issue and an imported one with one number: the stored one would have been replaced.
  have hapart : ∀ g ∈ start.groups.rows,
      g.id ∉ (issueNumbers env payload.issues.zipIdx).map Prod.fst → s.db.InOrg orgID g.projectId →
        ∀ d ∈ issueNumbers env payload.issues.zipIdx,
        g.shortId ≠ none → g.shortId ≠ nullableInt d.2 := by
    intro g hg hkept hin d hd hshort hsame
    rw [nullableInt] at hsame
    split at hsame
    · exact hshort hsame
    · next hzero => exact hkept (hfit.replaced g hg (h.inOrg_stored hfit hg hin) d hd hzero hsame)
  intro g hg g' hg' org hin hin' hshort hsame
  rcases h.groups g hg with ⟨hold, hkept⟩ | ⟨hown, d, hd, hid, hnumber⟩
  · rcases h.groups g' hg' with ⟨hold', -⟩ | ⟨hown', d', hd', -, hnumber'⟩
    · exact hstart g hold g' hold' org (h.inOrg_stored hfit hold hin)
        (h.inOrg_stored hfit hold' hin') hshort hsame
    · obtain rfl := hin'.unique hown'
      exact absurd (hsame.trans hnumber') (hapart g hold hkept hin d' hd' hshort)
  · obtain rfl := hin.unique hown
    rcases h.groups g' hg' with ⟨hold', hkept'⟩ | ⟨-, d', hd', hid', hnumber'⟩
    · exact absurd (hsame.symm.trans hnumber) (hapart g' hold' hkept' hin' d hd (hsame ▸ hshort))
    · refine eq_of_groupId hg hg' ?_
      have hnumbers : nullableInt d.2 = nullableInt d'.2 :=
        hnumber.symm.trans (hsame.trans hnumber')
      have hzero : d.2 ≠ 0 := fun hzero => hshort (by rw [hnumber, nullableInt, if_pos hzero])
      have heq : d.2 = d'.2 := by
        rw [nullableInt, if_neg hzero, nullableInt] at hnumbers
        split at hnumbers
        · cases hnumbers
        · exact some.inj hnumbers
      rw [hid, hid', hfit.distinct d hd d' hd' hzero heq]

end Importing

/-- **An import** that meets its condition. -/
theorem UniqueShortIds.importOrganization {env : ImportEnv} {orgID : String}
    {payload : ImportPayload} {db : ImportDb} {blobs : String → Option Body} (h : UniqueShortIds db)
    (hfit : payload.NumbersFit env orgID db) :
    UniqueShortIds (importOrganization env orgID payload db blobs).2.1 := by
  have hstart : Importing db orgID (payload.projectIds env) [] { db, blobs } :=
    ⟨fun _ _ h => h, fun _ _ h => .inl h, fun _ h => absurd h not_mem_nil,
      fun g hg => .inl ⟨hg, not_mem_nil⟩⟩
  rw [Urgentry.importOrganization]
  cases env.beginFails with
  | some e => exact h
  | none =>
    rcases hend : (importOrganizationPayload env orgID payload).exec { db, blobs } with ⟨e | _, s⟩
    · exact h
    · cases env.commitFails with
      | some e => exact h
      | none =>
        have hdone := (importOrganizationPayload_importing payload).of_ok hstart hend
        exact hdone.unique h hfit

/-! ## Runs -/

/-- The database with the calls that are reprocessing events. -/
structure Tenants where
  db : ImportDb
  blobs : String → Option Body
  calls : List ReprocessCall
  results : List NativeReprocessBatchResult

/-- What can happen. -/
inductive TenantAction
  | upsertGroup (g : Group)
  | reprocess (native : NativeDb) (action : ReprocessAction)
  /-- `DeleteGroup` and `BulkDeleteGroups`. -/
  | deleteGroups (ids : List String)
  | importOrganization (env : ImportEnv) (orgID : String) (payload : ImportPayload)
  /-- Whatever else is written to tables other than `projects` and `groups`. -/
  | write (db : ImportDb)

namespace Tenants

variable (lib : NativeLib) (s : Tenants)

/-- What native reprocessing works on. -/
def reprocessing : Reprocessing := ⟨⟨s.db.groups, s.db.events⟩, s.calls, s.results⟩

def setIssues (issues : Issues) : Tenants :=
  { s with db := { s.db with groups := issues.groups, events := issues.events } }

/-- One step. A call that is refused changes nothing. -/
def step : TenantAction → Option Tenants
  | .upsertGroup g => some (((upsertGroup g s.db.groups).map fun r =>
      s.setIssues ⟨r.1, s.db.events⟩).getD s)
  | .reprocess native action => (s.reprocessing.step lib native action).map fun r =>
      { s.setIssues r.issues with calls := r.calls, results := r.results }
  | .deleteGroups ids => some (s.setIssues (s.reprocessing.issues.deleteGroups ids))
  | .importOrganization env orgID payload =>
    let r := importOrganization env orgID payload s.db s.blobs
    some { s with db := r.2.1, blobs := r.2.2 }
  | .write db => some { s with db := { db with projects := s.db.projects, groups := s.db.groups } }

/-- **The condition on a step.** -/
def NumbersFit : TenantAction → Prop
  | .upsertGroup g => getGroupByKey s.db.groups g.groupKey = none → s.db.HasRoom g.projectId
  | .reprocess _ (.item c resolve _ _) => ∀ m ∈ c.move? lib resolve,
    getGroupByKey s.db.groups (m.2.groupKey m.1.project) = none → s.db.HasRoom m.1.project
  | .importOrganization env orgID payload => payload.NumbersFit env orgID s.db
  | _ => True

variable {lib} {s t : Tenants}

/-- Native reprocessing makes at most one issue at a time. -/
theorem tags_reprocess {r r' : Reprocessing} {native : NativeDb} {action : ReprocessAction}
    (h : r.step lib native action = some r') :
    tags r'.issues.groups ⊆ tags r.issues.groups ∨
      ∃ c resolve newId now, action = .item c resolve newId now ∧ ∃ m ∈ c.move? lib resolve,
        OneTag r.issues.groups r'.issues.groups (m.2.groupKey m.1.project) newId := by
  have hwrites := Reprocessing.writes_step h
  cases action with
  | item c resolve newId now =>
    rcases hwrites with ⟨-, heq | ⟨_, _, heq⟩⟩ | ⟨item, evt, target, hsome, -, hmove⟩
    · exact .inl (heq ▸ Subset.refl _)
    · exact .inl (heq ▸ Subset.refl _)
    · exact .inr ⟨c, resolve, newId, now, rfl, (item, evt), hsome, oneTag_move hmove⟩
  | sync c =>
    obtain ⟨p, -, heq⟩ := hwrites
    refine .inl ?_
    rw [heq, tags_copyLatest]
    exact Subset.refl _
  | list batch | select c groupId | finish c | stop c =>
    rw [show r'.issues = r.issues from hwrites]
    exact .inl (Subset.refl _)

/-- The invariant of a run. -/
def Numbered (s : Tenants) : Prop := UniqueShortIds s.db

/-- **A step** that meets its condition. -/
theorem numbered_step (h : UniqueShortIds s.db) {a : TenantAction} (hfit : s.NumbersFit lib a)
    (hstep : s.step lib a = some t) : t.Numbered := by
  show UniqueShortIds t.db
  cases a with
  | upsertGroup g =>
    cases hstep
    cases hupsert : upsertGroup g s.db.groups with
    | none => exact h
    | some r => exact h.oneTag rfl (oneTag_upsertGroup hupsert) hfit
  | reprocess native action =>
    obtain ⟨r, hr, rfl⟩ := map_eq_some_iff.mp hstep
    rcases tags_reprocess hr with hsub | ⟨c, resolve, newId, now, rfl, m, hm, htag⟩
    · rw [uniqueShortIds_iff] at h ⊢
      exact h.mono hsub
    · exact h.oneTag rfl htag (hfit m hm)
  | deleteGroups ids =>
    cases hstep
    rw [uniqueShortIds_iff] at h ⊢
    refine h.mono ?_
    change map _ (s.reprocessing.issues.deleteGroups ids).groups.rows ⊆ _
    rw [Issues.groups_deleteGroups]
    exact map_subset _ (filter_subset_self _)
  | importOrganization env orgID payload =>
    cases hstep
    exact h.importOrganization hfit
  | write db =>
    cases hstep
    exact h

/-- **Short ids identify issues** in every state of a run whose steps meet the condition, and every
issue of an organization with a number is the one that `ResolveShortID` returns. -/
theorem run_unique {init : Tenants} {trace : List (Tenants × TenantAction)}
    (hinit : init.db.groups.rows = []) (run : Run (step lib) init trace t)
    (hfit : ∀ p ∈ trace, p.1.NumbersFit lib p.2) :
    ∀ u ∈ visited trace t, UniqueShortIds u.db ∧ ∀ orgs orgSlug shortID,
      ∀ r ∈ shortIdRows orgs u.db orgSlug shortID,
        resolveShortID orgs u.db orgSlug shortID = some r := by
  have hstart : init.Numbered := by
    intro g hg
    rw [hinit] at hg
    cases hg
  intro u hu
  have hunique : UniqueShortIds u.db :=
    run.invariant hstart (fun h hfit hstep => numbered_step h hfit hstep) hfit u hu
  exact ⟨hunique, hunique.identify⟩

/-! ### A number twice -/

instance (env : ImportEnv) (orgID : String) (payload : ImportPayload) (db : ImportDb) :
    Decidable (payload.NumbersFit env orgID db) :=
  decidable_of_iff _ (ImportPayload.numbersFit_iff env orgID payload db).symm

instance (lib : NativeLib) (s : Tenants) (a : TenantAction) : Decidable (s.NumbersFit lib a) :=
  match a with
  | .upsertGroup _ => inferInstanceAs (Decidable (_ → _))
  | .reprocess _ (.item ..) => inferInstanceAs (Decidable (∀ m ∈ _, _ → _))
  | .importOrganization env orgID payload =>
    inferInstanceAs (Decidable (payload.NumbersFit env orgID s.db))
  | .reprocess _ (.list _) | .reprocess _ (.select ..) | .reprocess _ (.sync _)
  | .reprocess _ (.finish _)
  | .reprocess _ (.stop _) | .deleteGroups _ | .write _ => .isTrue trivial

/-- The organization `a`, under the slug `acme`. -/
def acme : Table OrganizationRow := ⟨[{ id := "a", slug := "acme" }], by decide⟩

/-- Its project `p`, without issues. -/
def oneProject : Tenants where
  db := { twoOrganizations with
    projects := ⟨[{ id := "p", organizationId := "a", slug := "web" }], by decide⟩ }
  blobs := fun _ => none
  calls := []
  results := []

/-- A payload with one issue. -/
def oneIssue (id : String) (shortId : ℤ) : ImportPayload where
  issues := [{ id, projectSlug := "web", shortId }]

/-- A new issue, and the import of another one. -/
def createImport (shortId : ℤ) : List TenantAction :=
  [.upsertGroup (Workflow.issue "i"), .importOrganization quietEnv "a" (oneIssue "j" shortId)]

/-- The imported issue has a number of its own. -/
theorem imported_other_number : ∃ trace t, Run (step Reprocessing.oldLib) oneProject trace t ∧
    t.db.groups.rows.length = 2 ∧ ∀ u ∈ visited trace t, UniqueShortIds u.db :=
  exists_run_and (NumbersFit Reprocessing.oldLib) (createImport 2) (by decide +kernel)
    fun hrun hfit u hu => (run_unique rfl hrun hfit u hu).1

/-- **A number twice.** The imported issue has the number of the one that is there. -/
theorem imported_same_number : ∃ trace t, Run (step Reprocessing.oldLib) oneProject trace t ∧
    (shortIdRows acme t.db "acme" 1).map (·.1.id) = ["i", "j"] ∧ ¬UniqueShortIds t.db := by
  obtain ⟨trace, t, hrun, hrows, g, hg, h, hh, hin, hin', hshort, hsame, hne⟩ : ∃ trace t,
      Run (step Reprocessing.oldLib) oneProject trace t ∧
      (shortIdRows acme t.db "acme" 1).map (·.1.id) = ["i", "j"] ∧
      ∃ g ∈ t.db.groups.rows, ∃ h ∈ t.db.groups.rows, t.db.InOrg "a" g.projectId ∧
      t.db.InOrg "a" h.projectId ∧ g.shortId ≠ none ∧ g.shortId = h.shortId ∧ g ≠ h :=
    exists_run (createImport 1) (by decide +kernel)
  exact ⟨trace, t, hrun, hrows, fun hunique => hne (hunique g hg h hh "a" hin hin' hshort hsame)⟩

end Tenants

end Urgentry
