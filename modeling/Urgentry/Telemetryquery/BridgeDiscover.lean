import Urgentry.Discover.Sql
import Urgentry.Internal.Run
import Urgentry.Sqlite.AuthStore
import Mathlib.Data.List.AList
import Mathlib.Data.List.Infix

/-!
# Project slugs in bridge discover queries

The facts in Postgres carry project ids, while a discover query names projects by slug. The bridge
service therefore reads the ids and slugs of an organization from SQLite before it compiles a query,
uses them to turn a predicate on `project` into a list of ids, and labels the rows of the result
with them. It reads them once: `resolveBridgeDiscoverContext` keeps the context of an organization
for as long as the service lives, and nothing takes it out again.

## Exactness

The law is about every history of the table of projects. Here both directions hold. As long as no
project of an organization with a cached context is created, deleted or renamed, every context that
is returned is the current one. Once one is, the same query as before returns the old context, so
the condition cannot be weakened. One case more comes from the other cache, of the organization of a
project: a project that is created under the id of an earlier one belongs to the old organization.

## Main results

* `mem_projectsContext`: the context that is read is the id-slug mapping of the organization.
* `BridgeDiscoverContext.Current.holds_projectClause`: what a predicate on `project` selects.
* `BridgeState.run_current_iff`: the contexts are current in a run if and only if no step changes an
  organization with a cached context.
-/

namespace Urgentry

open SqlTable Trace Discover List Option Schema Table AList

/-! ## The context -/

/-- `bridgeDiscoverContext`. -/
structure BridgeDiscoverContext where
  organizationID : String
  projectSlugByID : AList fun _ : String => String := ∅
  projectIDsBySlug : AList fun _ : String => List String := ∅

/-- The project `id` of the organization has this slug. -/
def HasSlug (projects : Table ProjectRow) (organizationID id slug : String) : Prop :=
  ∃ p ∈ projects.rows, p.organizationId = organizationID ∧ p.id = id ∧ p.slug = slug
deriving Decidable

/-- A project has one slug. -/
theorem HasSlug.unique {projects : Table ProjectRow}
    {organizationID organizationID' id slug slug' : String}
    (h : HasSlug projects organizationID id slug) (h' : HasSlug projects organizationID' id slug') :
    organizationID = organizationID' ∧ slug = slug' := by
  obtain ⟨p, hp, rfl, hid, rfl⟩ := h
  obtain ⟨q, hq, rfl, hid', rfl⟩ := h'
  obtain rfl : p = q := eq_of_conflict hp hq (by simp [conflict, hid, hid'])
  exact ⟨rfl, rfl⟩

namespace BridgeDiscoverContext

variable (ctx : BridgeDiscoverContext)

/-- The ids under a slug; a missing key reads as none. -/
def idsOf (slug : String) : List String :=
  (ctx.projectIDsBySlug.lookup slug).getD []

/-- One round of the loop over the rows. -/
def addProject (p : ProjectRow) : BridgeDiscoverContext :=
  { ctx with
    projectSlugByID := ctx.projectSlugByID.insert p.id p.slug
    projectIDsBySlug := ctx.projectIDsBySlug.insert p.slug (ctx.idsOf p.slug ++ [p.id]) }

/-- **The context is current**: both maps are the mapping of the organization. -/
structure Current (projects : Table ProjectRow) : Prop where
  slugs : ∀ id slug, ctx.projectSlugByID.lookup id = some slug ↔
    HasSlug projects ctx.organizationID id slug
  ids : ∀ slug id, id ∈ ctx.idsOf slug ↔ HasSlug projects ctx.organizationID id slug

theorem idsOf_addProject (p : ProjectRow) (slug : String) :
    (ctx.addProject p).idsOf slug = ctx.idsOf slug ++ if slug = p.slug then [p.id] else [] := by
  rw [idsOf, addProject]
  by_cases hslug : slug = p.slug
  · subst hslug
    simp
  · rw [if_neg hslug, append_nil]
    simp only [lookup_insert_ne hslug]
    rfl

end BridgeDiscoverContext

/-- The context that the query of the projects gives. -/
def projectsContext (projects : Table ProjectRow) (organizationID : String) :
    BridgeDiscoverContext :=
  (projects.rows.filter fun p => p.organizationId = organizationID).foldl
    BridgeDiscoverContext.addProject { organizationID }

/-- What the loop leaves, over rows with distinct ids. -/
theorem mem_projectsContext {rows : List ProjectRow} (hids : (rows.map (·.id)).Nodup)
    (organizationID : String) :
    let ctx := rows.foldl BridgeDiscoverContext.addProject { organizationID }
    (∀ id slug, ctx.projectSlugByID.lookup id = some slug ↔ ∃ p ∈ rows, p.id = id ∧ p.slug = slug) ∧
      ∀ slug id, id ∈ ctx.idsOf slug ↔ ∃ p ∈ rows, p.id = id ∧ p.slug = slug := by
  induction rows using reverseRecOn with
  | nil => simp [BridgeDiscoverContext.idsOf]
  | append_singleton rows p ih =>
    rw [map_append, nodup_append] at hids
    obtain ⟨hrows, -, hnew⟩ := hids
    obtain ⟨hslugs, hmem⟩ := ih hrows
    simp only [foldl_append, foldl_cons, foldl_nil]
    refine ⟨fun id slug => ?_, fun slug id => ?_⟩
    · rw [BridgeDiscoverContext.addProject]
      by_cases hid : id = p.id
      · -- No earlier row has the id.
        have hother : ∀ q ∈ rows, q.id ≠ id := by
          intro q hq hqid
          exact hnew q.id (List.mem_map_of_mem hq) p.id (by simp) (hqid.trans hid)
        rw [← hid, lookup_insert]
        simp only [mem_append, mem_singleton, some.injEq]
        constructor
        · intro hslug
          exact ⟨p, .inr rfl, hid.symm, hslug⟩
        · rintro ⟨q, hq | rfl, hqid, hslug⟩
          · exact absurd hqid (hother q hq)
          · exact hslug
      · rw [lookup_insert_ne hid, hslugs]
        simp only [mem_append, mem_singleton]
        constructor
        · rintro ⟨q, hq, h⟩
          exact ⟨q, .inl hq, h⟩
        · rintro ⟨q, hq | rfl, hqid, hslug⟩
          · exact ⟨q, hq, hqid, hslug⟩
          · exact absurd hqid.symm hid
    · rw [BridgeDiscoverContext.idsOf_addProject, mem_append, hmem]
      simp only [mem_append, mem_singleton]
      constructor
      · rintro (⟨q, hq, h⟩ | h)
        · exact ⟨q, .inl hq, h⟩
        · split at h
          · next hslug => exact ⟨p, .inr rfl, (mem_singleton.mp h).symm, hslug.symm⟩
          · cases h
      · rintro ⟨q, hq | rfl, hqid, hslug⟩
        · exact .inl ⟨q, hq, hqid, hslug⟩
        · exact .inr (by simp [hqid, hslug])

variable (projects : Table ProjectRow)

@[simp]
theorem organizationID_projectsContext (organizationID : String) :
    (projectsContext projects organizationID).organizationID = organizationID := by
  rw [projectsContext]
  generalize projects.rows.filter _ = rows
  induction rows using reverseRecOn with
  | nil => rfl
  | append_singleton rows p ih =>
    rw [foldl_append]
    exact ih

/-- **What is read is current.** -/
theorem current_projectsContext (organizationID : String) :
    (projectsContext projects organizationID).Current projects := by
  have hids : (projects.rows.map (·.id)).Nodup :=
    projects.nodup_map_key fun r s h => by simp [conflict, h]
  have hfiltered := hids.sublist (List.Sublist.map _ (filter_sublist
    (p := fun p => p.organizationId = organizationID)))
  obtain ⟨hslugs, hmem⟩ := mem_projectsContext hfiltered organizationID
  have hiff : ∀ id slug, (∃ p ∈ projects.rows.filter (fun p => p.organizationId = organizationID),
      p.id = id ∧ p.slug = slug) ↔ HasSlug projects organizationID id slug := by
    intro id slug
    simp only [HasSlug, mem_filter, decide_eq_true_eq, and_assoc]
  constructor
  · intro id slug
    rw [organizationID_projectsContext, ← hiff]
    exact hslugs id slug
  · intro slug id
    rw [organizationID_projectsContext, ← hiff]
    exact hmem slug id

/-! ## Predicates on the project -/

/-- The clause that a predicate on `project` becomes. -/
inductive ProjectClause
  | oneOf (ids : List String)
  | noneOf (ids : List String)

namespace ProjectClause

/-- The text of the clause; an empty list is written as a constant. -/
def write (projectColumn : String) : ProjectClause → Build String
  | oneOf [] => return "1=0"
  | oneOf ids => do return projectColumn ++ " IN (" ++ (← postgresArgBuilder.addAll ids) ++ ")"
  | noneOf [] => return "1=1"
  | noneOf ids => do return projectColumn ++ " NOT IN (" ++ (← postgresArgBuilder.addAll ids) ++ ")"

/-- The clause is true of a row of the project. -/
def holds : ProjectClause → String → Bool
  | oneOf ids, projectID => ids.contains projectID
  | noneOf ids, projectID => !ids.contains projectID

end ProjectClause

section Predicates

variable (lib : GoLib)

namespace BridgeDiscoverContext

/-- `resolve`: the ids of the projects whose slugs match, sorted. -/
def resolve (ctx : BridgeDiscoverContext) (slugMatches : String → Bool) : List String :=
  ((ctx.projectIDsBySlug.entries.filter fun e => slugMatches e.1).flatMap (·.2)).mergeSort

/-- The clause of a predicate. -/
def projectClause (ctx : BridgeDiscoverContext) : Predicate → Except String ProjectClause
  | .mk op _ _ value _ =>
    match op with
    | "=" => .ok (.oneOf (ctx.idsOf value))
    | "!=" => .ok (.noneOf (ctx.idsOf value))
    | "contains" => .ok (.oneOf (ctx.resolve fun slug =>
        (lib.lower value).toList <:+: (lib.lower slug).toList))
    | "prefix" => .ok (.oneOf (ctx.resolve fun slug =>
        (lib.lower value).toList <+: (lib.lower slug).toList))
    | _ => .error ("unsupported project predicate " ++ op.quote)

end BridgeDiscoverContext

/-- `compileBridgeProjectPredicate`. -/
def compileBridgeProjectPredicate (pred : Predicate) (ctx : BridgeDiscoverContext)
    (projectColumn : String) : Build String := do
  let clause ← ctx.projectClause lib pred
  clause.write projectColumn

/-- `bridgeProjectOverride`. -/
def bridgeProjectOverride (ctx : BridgeDiscoverContext) (projectColumn : String)
    (pred : Predicate) : Build (Option String) :=
  if lib.equalFold (GoText.trimSpace pred.field) "project" then
    some <$> compileBridgeProjectPredicate lib pred ctx projectColumn
  else pure none

/-- What a predicate says of a slug. -/
def slugMatches : Predicate → String → Bool
  | .mk op _ _ value _, slug =>
    match op with
    | "=" => slug = value
    | "!=" => slug ≠ value
    | "contains" => (lib.lower value).toList <:+: (lib.lower slug).toList
    | "prefix" => (lib.lower value).toList <+: (lib.lower slug).toList
    | _ => false

end Predicates

namespace BridgeDiscoverContext

variable {lib : GoLib} {ctx : BridgeDiscoverContext} {projects : Table ProjectRow} {id : String}
  {pred : Predicate} {clause : ProjectClause}

theorem mem_resolve {m : String → Bool} :
    id ∈ ctx.resolve m ↔ ∃ slug, m slug = true ∧ id ∈ ctx.idsOf slug := by
  simp only [resolve, mem_mergeSort, mem_flatMap, mem_filter, idsOf]
  constructor
  · rintro ⟨⟨slug, ids⟩, ⟨hentry, hm⟩, hid⟩
    have hlookup : ctx.projectIDsBySlug.lookup slug = some ids := mem_lookup_iff.mpr hentry
    exact ⟨slug, hm, by rw [hlookup]; exact hid⟩
  · rintro ⟨slug, hm, hid⟩
    cases hlookup : ctx.projectIDsBySlug.lookup slug with
    | none =>
      rw [hlookup] at hid
      cases hid
    | some ids =>
      rw [hlookup] at hid
      exact ⟨⟨slug, ids⟩, ⟨mem_lookup_iff.mp hlookup, hm⟩, hid⟩

/-- **A predicate selects by the slug** that a project of the organization has. -/
theorem Current.holds_projectClause (h : ctx.Current projects)
    (hclause : ctx.projectClause lib pred = .ok clause) {slug : String}
    (hslug : HasSlug projects ctx.organizationID id slug) :
    clause.holds id = slugMatches lib pred slug := by
  have hof : ∀ value, id ∈ ctx.idsOf value ↔ slug = value := by
    intro value
    rw [h.ids]
    constructor
    · intro hvalue
      exact (hslug.unique hvalue).2
    · rintro rfl
      exact hslug
  have hresolve : ∀ m : String → Bool, id ∈ ctx.resolve m ↔ m slug = true := by
    intro m
    rw [mem_resolve]
    constructor
    · rintro ⟨slug', hm, hid⟩
      rwa [(hof slug').mp hid]
    · intro hm
      exact ⟨slug, hm, (hof slug).mpr rfl⟩
  obtain ⟨op, args, field, value, values⟩ := pred
  unfold projectClause at hclause
  dsimp only at hclause
  split at hclause <;> cases hclause <;> rw [Bool.eq_iff_iff]
  · simp [ProjectClause.holds, slugMatches, hof]
  · simp [ProjectClause.holds, slugMatches, hof]
  · simp [ProjectClause.holds, slugMatches, hresolve]
  · simp [ProjectClause.holds, slugMatches, hresolve]

/-- An equality selects rows of projects of the organization only. -/
theorem Current.hasSlug_of_holds (h : ctx.Current projects)
    (hclause : ctx.projectClause lib pred = .ok clause) (hop : pred.op = "=")
    (hid : clause.holds id = true) : ∃ slug, HasSlug projects ctx.organizationID id slug := by
  obtain ⟨op, args, field, value, values⟩ := pred
  obtain rfl : op = "=" := hop
  cases hclause
  exact ⟨value, (h.ids value id).mp (by simpa [ProjectClause.holds] using hid)⟩

end BridgeDiscoverContext

/-! ## The service -/

/-- The caches of the service that are used on the way to a context. -/
structure BridgeCaches where
  orgScopeCache : AList fun _ : String => String := ∅
  projectScopeCache : AList fun _ : String => String := ∅
  discoverCtxCache : AList fun _ : String => BridgeDiscoverContext := ∅

/-- The tables of SQLite and the service. -/
structure BridgeState where
  organizations : Table OrganizationRow
  projects : Table ProjectRow
  caches : BridgeCaches

inductive BridgeError
  /-- `store.ErrNotFound`. -/
  | notFound
  | failed (message : String)
deriving DecidableEq

/-- The errors of the database during a call. -/
structure BridgeFaults where
  scope : Option String := none
  list : Option String := none

/-- The lookup of `orgScope` and `projectScope`: `found` is what the database says when the cache
has nothing. -/
def cachedScope (cache : AList fun _ : String => String) (key : String) (found : Option String)
    (fault : Option String) : (AList fun _ : String => String) × Except BridgeError String :=
  match cache.lookup key, fault, found with
  | some organizationID, _, _ => (cache, .ok organizationID)
  | none, some message, _ => (cache, .error (.failed message))
  | none, none, none => (cache, .error .notFound)
  | none, none, some organizationID => (cache.insert key organizationID, .ok organizationID)

namespace BridgeState

variable (s : BridgeState)

/-- `orgScope`. -/
def orgScope (orgSlug : String) (fault : Option String) :
    BridgeCaches × Except BridgeError String :=
  let result := cachedScope s.caches.orgScopeCache orgSlug
    ((s.organizations.rows.find? fun o => o.slug == orgSlug).map (·.id))
    (fault.map ("resolve organization scope: " ++ ·))
  ({ s.caches with orgScopeCache := result.1 }, result.2)

/-- `projectScope`. -/
def projectScope (projectID : String) (fault : Option String) :
    BridgeCaches × Except BridgeError String :=
  let result := cachedScope s.caches.projectScopeCache projectID
    ((s.projects.rows.find? fun p => p.id == projectID).map (·.organizationId))
    (fault.map ("resolve project scope: " ++ ·))
  ({ s.caches with projectScopeCache := result.1 }, result.2)

/-- The organization of a scope. -/
def scopeOrganization (scope : Discover.Scope) (fault : Option String) :
    BridgeCaches × Except BridgeError String :=
  match scope.kind with
  | "organization" => s.orgScope scope.organization fault
  | "project" => s.projectScope scope.projectId fault
  | kind => (s.caches, .error (.failed ("unsupported discover scope " ++ kind.quote)))

/-- The context of an organization, from the cache or from the database. -/
def discoverContext (caches : BridgeCaches) (organizationID : String)
    (fault : Option String) : BridgeCaches × Except BridgeError BridgeDiscoverContext :=
  match caches.discoverCtxCache.lookup organizationID, fault with
  | some ctx, _ => (caches, .ok ctx)
  | none, some message => (caches, .error (.failed message))
  | none, none =>
    let ctx := projectsContext s.projects organizationID
    ({ caches with discoverCtxCache := caches.discoverCtxCache.insert organizationID ctx }, .ok ctx)

/-- `resolveBridgeDiscoverContext`. -/
def resolveBridgeDiscoverContext (scope : Discover.Scope)
    (faults : BridgeFaults) : BridgeCaches × Except BridgeError BridgeDiscoverContext :=
  match s.scopeOrganization scope faults.scope with
  | (caches, .error e) => (caches, .error e)
  | (caches, .ok organizationID) => s.discoverContext caches organizationID faults.list

end BridgeState

/-- What can happen. -/
inductive BridgeAction
  | createProject (p : ProjectRow)
  | deleteProject (id : String)
  | updateSlug (id slug : String)
  | query (scope : Discover.Scope) (faults : BridgeFaults)
  | restart

namespace BridgeState

variable (s : BridgeState)

/-- One step. -/
def step : BridgeAction → Option BridgeState
  | .createProject p => (s.projects.insert p).map fun projects => { s with projects }
  | .deleteProject id => some { s with projects := s.projects.deleteWhere (·.id == id) }
  | .updateSlug id slug =>
    (s.projects.update (·.id == id) fun p => { p with slug }).map fun projects =>
      { s with projects }
  | .query scope faults => some { s with caches := (s.resolveBridgeDiscoverContext scope faults).1 }
  | .restart => some { s with caches := {} }

/-- The organization is the one that the scope of a query names. A project that does not exist is of
no organization. -/
def Names (scope : Discover.Scope) (organizationID : String) : Prop :=
  (scope.kind = "organization" →
    ∀ o ∈ s.organizations.rows, o.slug = scope.organization → o.id = organizationID) ∧
  (scope.kind = "project" →
    ∀ p ∈ s.projects.rows, p.id = scope.projectId → p.organizationId = organizationID)

/-- **Queries use the current projects.** Whatever query is made now, the context that it gets is
the mapping of its organization, and a filter on a slug selects the rows of the project with that
slug. -/
def UsesCurrent (lib : GoLib) (s : BridgeState) : Prop :=
  ∀ scope faults ctx, (s.resolveBridgeDiscoverContext scope faults).2 = .ok ctx →
    s.Names scope ctx.organizationID ∧ ctx.Current s.projects ∧
      ∀ pred clause, ctx.projectClause lib pred = .ok clause →
        (∀ id slug, HasSlug s.projects ctx.organizationID id slug →
          clause.holds id = slugMatches lib pred slug) ∧
        (pred.op = "=" → ∀ id, clause.holds id = true →
          ∃ slug, HasSlug s.projects ctx.organizationID id slug)

/-- **The condition on a step**: it does not change the projects of an organization with a cached
context, and creates no project under an id that is cached for another organization. -/
def LeavesCached : BridgeAction → Prop
  | .createProject p => s.caches.discoverCtxCache.lookup p.organizationId = none ∧
      ∀ organizationID ∈ s.caches.projectScopeCache.lookup p.id, organizationID = p.organizationId
  | .deleteProject id => ∀ p ∈ s.projects.rows, p.id = id →
      s.caches.discoverCtxCache.lookup p.organizationId = none
  | .updateSlug id slug => ∀ p ∈ s.projects.rows, p.id = id → p.slug ≠ slug →
      s.caches.discoverCtxCache.lookup p.organizationId = none
  | .query .. | .restart => True

/-! ## The caches -/

end BridgeState

/-- **One lookup**: the new cache agrees with the old one, apart from what was found. -/
theorem cachedScope_spec (cache : AList fun _ : String => String) (key : String)
    (found fault : Option String) :
    (∀ k v, (cachedScope cache key found fault).1.lookup k = some v →
      cache.lookup k = some v ∨ k = key ∧ found = some v) ∧
    (∀ k v, cache.lookup k = some v → (cachedScope cache key found fault).1.lookup k = some v) ∧
    ∀ v, (cachedScope cache key found fault).2 = .ok v →
      (cachedScope cache key found fault).1.lookup key = some v := by
  unfold cachedScope
  split
  · next hkey =>
    refine ⟨fun _ _ h => .inl h, fun _ _ h => h, fun v hv => ?_⟩
    cases hv
    exact hkey
  · exact ⟨fun _ _ h => .inl h, fun _ _ h => h, nofun⟩
  · exact ⟨fun _ _ h => .inl h, fun _ _ h => h, nofun⟩
  · next organizationID hkey =>
    refine ⟨fun k v hv => ?_, fun k v hv => ?_, fun v hv => ?_⟩
    · by_cases hk : k = key
      · rw [hk, lookup_insert] at hv
        exact .inr ⟨hk, hv⟩
      · rw [lookup_insert_ne hk] at hv
        exact .inl hv
    · rw [lookup_insert_ne, hv]
      rintro rfl
      rw [hkey] at hv
      cases hv
    · cases hv
      exact lookup_insert _

/-- The organization that is cached for a scope. -/
def BridgeCaches.organizationOf (caches : BridgeCaches) (scope : Discover.Scope) : Option String :=
  match scope.kind with
  | "organization" => caches.orgScopeCache.lookup scope.organization
  | "project" => caches.projectScopeCache.lookup scope.projectId
  | _ => none

theorem BridgeCaches.organizationOf_eq_some {caches : BridgeCaches} {scope : Discover.Scope}
    {v : String} : caches.organizationOf scope = some v ↔
      scope.kind = "organization" ∧ caches.orgScopeCache.lookup scope.organization = some v ∨
      scope.kind = "project" ∧ caches.projectScopeCache.lookup scope.projectId = some v := by
  unfold organizationOf
  split
  · next hkind => simp [hkind]
  · next hkind => simp [hkind]
  · next horg hproject =>
    constructor
    · intro h
      cases h
    · rintro (⟨hkind, -⟩ | ⟨hkind, -⟩)
      · exact absurd hkind horg
      · exact absurd hkind hproject

namespace BridgeState

variable {lib : GoLib} {s t : BridgeState} {p : ProjectRow} {v : String} {a : BridgeAction}

/-- **The organization of a scope.** What is new in the caches is what the database says. -/
theorem scopeOrganization_spec (s : BridgeState) (scope : Discover.Scope) (fault : Option String) :
    (s.scopeOrganization scope fault).1.discoverCtxCache = s.caches.discoverCtxCache ∧
    (∀ scope' v, (s.scopeOrganization scope fault).1.organizationOf scope' = some v →
      s.caches.organizationOf scope' = some v ∨ s.Names scope' v) ∧
    (∀ scope' v, s.caches.organizationOf scope' = some v →
      (s.scopeOrganization scope fault).1.organizationOf scope' = some v) ∧
    ∀ v, (s.scopeOrganization scope fault).2 = .ok v →
      (s.scopeOrganization scope fault).1.organizationOf scope = some v := by
  simp only [BridgeCaches.organizationOf_eq_some]
  unfold scopeOrganization
  split
  · next hkind =>
    obtain ⟨hnew, hold, hok⟩ := cachedScope_spec s.caches.orgScopeCache scope.organization
      ((s.organizations.rows.find? fun o => o.slug == scope.organization).map (·.id))
      (fault.map ("resolve organization scope: " ++ ·))
    refine ⟨rfl, ?_, ?_, fun v hv => .inl ⟨hkind, hok v hv⟩⟩
    · rintro scope' v (⟨hkind', hv⟩ | hv)
      · rcases hnew _ v hv with hv | ⟨hkey, hfound⟩
        · exact .inl (.inl ⟨hkind', hv⟩)
        · refine .inr ⟨fun _ o ho hslug => ?_, fun hproject => ?_⟩
          · have hrow :
                s.organizations.rows.find? (fun r => r.slug == scope.organization) = some o :=
              find?_of_mem ho (by simp [hslug, hkey]) fun r hr => by
                simp_all [conflict]
            rw [hrow] at hfound
            exact some.inj hfound
          · rw [hkind'] at hproject
            exact absurd hproject (by decide)
      · exact .inl (.inr hv)
    · rintro scope' v (⟨hkind', hv⟩ | hv)
      · exact .inl ⟨hkind', hold _ v hv⟩
      · exact .inr hv
  · next hkind =>
    obtain ⟨hnew, hold, hok⟩ := cachedScope_spec s.caches.projectScopeCache scope.projectId
      ((s.projects.rows.find? fun p => p.id == scope.projectId).map (·.organizationId))
      (fault.map ("resolve project scope: " ++ ·))
    refine ⟨rfl, ?_, ?_, fun v hv => .inr ⟨hkind, hok v hv⟩⟩
    · rintro scope' v (hv | ⟨hkind', hv⟩)
      · exact .inl (.inl hv)
      · rcases hnew _ v hv with hv | ⟨hkey, hfound⟩
        · exact .inl (.inr ⟨hkind', hv⟩)
        · refine .inr ⟨fun horganization => ?_, fun _ p hp hid => ?_⟩
          · rw [hkind'] at horganization
            exact absurd horganization (by decide)
          · have hrow : s.projects.rows.find? (fun r => r.id == scope.projectId) = some p :=
              find?_of_mem hp (by simp [hid, hkey]) fun r hr => by
                simp_all [conflict]
            rw [hrow] at hfound
            exact some.inj hfound
    · rintro scope' v (hv | ⟨hkind', hv⟩)
      · exact .inl hv
      · exact .inr ⟨hkind', hold _ v hv⟩
  · exact ⟨rfl, fun _ _ h => .inl h, fun _ _ h => h, nofun⟩

/-! ## The invariant -/

/-- **What every step keeps.** -/
structure Inv (s : BridgeState) : Prop where
  contexts : ∀ v ctx, s.caches.discoverCtxCache.lookup v = some ctx →
    ctx.organizationID = v ∧ ctx.Current s.projects
  named : ∀ scope v, s.caches.organizationOf scope = some v → s.Names scope v
  /-- Each cached context was asked for by a scope whose organization is cached as well. -/
  reached : ∀ v ctx, s.caches.discoverCtxCache.lookup v = some ctx →
    ∃ scope, s.caches.organizationOf scope = some v

/-- A new service. -/
theorem inv_of_no_caches (h : s.caches = {}) : s.Inv := by
  refine ⟨fun v ctx hctx => ?_, fun scope v hv => ?_, fun v ctx hctx => ?_⟩
  · rw [h] at hctx
    cases hctx
  · rw [h] at hv
    rcases BridgeCaches.organizationOf_eq_some.mp hv with ⟨-, hlookup⟩
      | ⟨-, hlookup⟩ <;> cases hlookup
  · rw [h] at hctx
    cases hctx

theorem discoverContext_spec (s : BridgeState) (caches : BridgeCaches) (v : String)
    (fault : Option String) :
    (∀ scope,
      (s.discoverContext caches v fault).1.organizationOf scope = caches.organizationOf scope) ∧
    (∀ v' ctx, (s.discoverContext caches v fault).1.discoverCtxCache.lookup v' = some ctx →
      caches.discoverCtxCache.lookup v' = some ctx ∨ v' = v ∧ ctx = projectsContext s.projects v) ∧
    ∀ ctx, (s.discoverContext caches v fault).2 = .ok ctx →
      (s.discoverContext caches v fault).1.discoverCtxCache.lookup v = some ctx := by
  unfold discoverContext
  split
  · next hcached =>
    refine ⟨fun _ => rfl, fun _ _ h => .inl h, fun ctx hctx => ?_⟩
    cases hctx
    exact hcached
  · exact ⟨fun _ => rfl, fun _ _ h => .inl h, nofun⟩
  · refine ⟨fun _ => rfl, fun v' ctx hctx => ?_, fun ctx hctx => ?_⟩
    · by_cases hv : v' = v
      · subst hv
        rw [lookup_insert] at hctx
        exact .inr ⟨rfl, (some.inj hctx).symm⟩
      · rw [lookup_insert_ne hv] at hctx
        exact .inl hctx
    · cases hctx
      exact lookup_insert _

/-- **A query** keeps the invariant, and its context is in the cache afterwards. -/
theorem Inv.query (h : s.Inv) (scope : Discover.Scope) (faults : BridgeFaults) :
    Inv { s with caches := (s.resolveBridgeDiscoverContext scope faults).1 } ∧
      ∀ ctx, (s.resolveBridgeDiscoverContext scope faults).2 = .ok ctx → ∃ v,
        (s.resolveBridgeDiscoverContext scope faults).1.organizationOf scope = some v ∧
        (s.resolveBridgeDiscoverContext scope faults).1.discoverCtxCache.lookup v = some ctx := by
  obtain ⟨hcontexts, hnew, hold, hok⟩ := scopeOrganization_spec s scope faults.scope
  unfold resolveBridgeDiscoverContext
  split
  · next caches e hscope =>
    rw [hscope] at hcontexts hnew hold
    refine ⟨⟨fun v ctx hctx => ?_, fun scope' v hv => ?_, fun v ctx hctx => ?_⟩, nofun⟩
    · exact h.contexts v ctx (hcontexts ▸ hctx)
    · exact (hnew scope' v hv).elim (h.named scope' v) fun h => h
    · obtain ⟨scope', hscope'⟩ := h.reached v ctx (hcontexts ▸ hctx)
      exact ⟨scope', hold scope' v hscope'⟩
  · next caches v hscope =>
    rw [hscope] at hcontexts hnew hold hok
    obtain ⟨hsame, hadded, hctx⟩ := discoverContext_spec s caches v faults.list
    refine ⟨⟨fun v' ctx hlookup => ?_, fun scope' v' hv => ?_, fun v' ctx hlookup => ?_⟩,
      fun ctx hresult => ⟨v, (hsame scope).trans (hok v rfl), hctx ctx hresult⟩⟩
    · rcases hadded v' ctx hlookup with hlookup | ⟨rfl, rfl⟩
      · exact h.contexts v' ctx (hcontexts ▸ hlookup)
      · exact ⟨organizationID_projectsContext _ _, current_projectsContext _ _⟩
    · rw [hsame] at hv
      exact (hnew scope' v' hv).elim (h.named scope' v') fun h => h
    · rcases hadded v' ctx hlookup with hlookup | ⟨rfl, rfl⟩
      · obtain ⟨scope', hscope'⟩ := h.reached v' ctx (hcontexts ▸ hlookup)
        exact ⟨scope', (hsame scope').trans (hold scope' v' hscope')⟩
      · exact ⟨scope, (hsame scope).trans (hok v' rfl)⟩

theorem Inv.usesCurrent (h : s.Inv) : s.UsesCurrent lib := by
  intro scope faults ctx hresult
  obtain ⟨hquery, hcached⟩ := h.query scope faults
  obtain ⟨v, hscope, hlookup⟩ := hcached ctx hresult
  obtain ⟨rfl, hcurrent⟩ := hquery.contexts v ctx hlookup
  exact ⟨hquery.named scope _ hscope, hcurrent, fun pred clause hclause =>
    ⟨fun id slug => hcurrent.holds_projectClause hclause,
      fun hop id => hcurrent.hasSlug_of_holds hclause hop⟩⟩

/-! ## Writes -/

variable {projects projects' : Table ProjectRow}

theorem hasSlug_insert (h : projects.insert p = some projects') (v id slug : String) :
    HasSlug projects' v id slug ↔
      HasSlug projects v id slug ∨ p.organizationId = v ∧ p.id = id ∧ p.slug = slug := by
  simp only [HasSlug, (insert_eq_some_iff.mp h).2, mem_append, mem_singleton]
  constructor
  · rintro ⟨q, hq | rfl, hslug⟩
    · exact .inl ⟨q, hq, hslug⟩
    · exact .inr hslug
  · rintro (⟨q, hq, hslug⟩ | hslug)
    · exact ⟨q, .inl hq, hslug⟩
    · exact ⟨p, .inr rfl, hslug⟩

theorem hasSlug_delete (projects : Table ProjectRow) (gone v id slug : String) :
    HasSlug (projects.deleteWhere (·.id == gone)) v id slug ↔
      HasSlug projects v id slug ∧ id ≠ gone := by
  simp only [HasSlug, rows_deleteWhere, mem_filter, Bool.not_eq_true', beq_eq_false_iff_ne]
  constructor
  · rintro ⟨q, ⟨hq, hgone⟩, horg, rfl, hslug⟩
    exact ⟨⟨q, hq, horg, rfl, hslug⟩, hgone⟩
  · rintro ⟨⟨q, hq, horg, rfl, hslug⟩, hgone⟩
    exact ⟨q, ⟨hq, hgone⟩, horg, rfl, hslug⟩

theorem hasSlug_update {renamed slug' : String}
    (h : projects.update (·.id == renamed) (fun p => { p with slug := slug' }) = some projects')
    (v id slug : String) : HasSlug projects' v id slug ↔
      ∃ old, HasSlug projects v id old ∧ slug = if id = renamed then slug' else old := by
  simp only [HasSlug, rows_of_ofRows? h, List.mem_map]
  constructor
  · rintro ⟨q, ⟨p, hp, rfl⟩, rfl, rfl, rfl⟩
    refine ⟨p.slug, ⟨p, hp, ?_⟩, ?_⟩
    · split <;> exact ⟨rfl, rfl, rfl⟩
    · by_cases hid : p.id = renamed <;> simp [hid]
  · rintro ⟨old, ⟨p, hp, rfl, rfl, rfl⟩, rfl⟩
    refine ⟨_, ⟨p, hp, rfl⟩, ?_⟩
    by_cases hid : p.id = renamed <;> simp [hid]

variable {projects : Table ProjectRow}

/-- **A write** that leaves alone what is cached. -/
theorem Inv.write (h : s.Inv)
    (hsame : ∀ v ctx, s.caches.discoverCtxCache.lookup v = some ctx → ∀ id slug,
      HasSlug projects v id slug ↔ HasSlug s.projects v id slug)
    (hnamed : ∀ id v, s.caches.projectScopeCache.lookup id = some v → ∀ w slug,
      HasSlug projects w id slug → w = v) : Inv { s with projects } := by
  refine ⟨fun v ctx hctx => ?_, fun scope v hv => ?_, h.reached⟩
  · obtain ⟨rfl, hcurrent⟩ := h.contexts v ctx hctx
    refine ⟨rfl, fun id slug => ?_, fun slug id => ?_⟩
    · rw [hcurrent.slugs, hsame _ ctx hctx]
    · rw [hcurrent.ids, hsame _ ctx hctx]
  · refine ⟨(h.named scope v hv).1, fun hkind p hp hid => ?_⟩
    rcases BridgeCaches.organizationOf_eq_some.mp hv with ⟨hkind', -⟩ | ⟨-, hlookup⟩
    · rw [hkind] at hkind'
      exact absurd hkind' (by decide)
    · exact hnamed _ v hlookup _ _ ⟨p, hp, rfl, hid, rfl⟩

theorem Inv.organization_eq (h : s.Inv) {id w slug : String}
    (hlookup : s.caches.projectScopeCache.lookup id = some v)
    (hslug : HasSlug s.projects w id slug) : w = v := by
  obtain ⟨p, hp, rfl, hid, -⟩ := hslug
  have hv : s.caches.organizationOf { kind := "project", projectId := id } = some v := hlookup
  exact (h.named _ v hv).2 rfl p hp hid

/-! ### What a write that changes it does -/

theorem scopeOrganization_of_cached {scope : Discover.Scope}
    (hv : s.caches.organizationOf scope = some v) (fault : Option String) :
    s.scopeOrganization scope fault = (s.caches, .ok v) := by
  unfold scopeOrganization
  rcases BridgeCaches.organizationOf_eq_some.mp hv with ⟨hkind, hlookup⟩ | ⟨hkind, hlookup⟩
  · simp [hkind, orgScope, cachedScope, hlookup]
  · simp [hkind, projectScope, cachedScope, hlookup]

/-- **A stale context.** The query that filled the cache gets the old context. -/
theorem Inv.not_usesCurrent (h : s.Inv) {ctx : BridgeDiscoverContext}
    (hctx : s.caches.discoverCtxCache.lookup v = some ctx) (id slug : String)
    (hdiff : ¬(HasSlug projects v id slug ↔ HasSlug s.projects v id slug)) :
    ¬UsesCurrent lib { s with projects } := by
  intro huses
  obtain ⟨scope, hscope⟩ := h.reached v ctx hctx
  have hresult : (resolveBridgeDiscoverContext { s with projects } scope {}).2 = .ok ctx := by
    rw [resolveBridgeDiscoverContext, scopeOrganization_of_cached (s := { s with projects }) hscope]
    simp only [discoverContext, hctx]
  obtain ⟨-, hcurrent, -⟩ := huses scope {} ctx hresult
  obtain ⟨rfl, hcurrent'⟩ := h.contexts v ctx hctx
  exact hdiff ((hcurrent.slugs id slug).symm.trans (hcurrent'.slugs id slug))

/-- **A project under a cached id** of another organization. -/
theorem Inv.not_usesCurrent_of_id (h : s.Inv) (hp : p ∈ projects.rows)
    (hlookup : s.caches.projectScopeCache.lookup p.id = some v) (hv : v ≠ p.organizationId) :
    ¬UsesCurrent lib { s with projects } := by
  intro huses
  have hscope : s.caches.organizationOf { kind := "project", projectId := p.id } = some v := hlookup
  have hresult : ∃ ctx, ctx.organizationID = v ∧ (resolveBridgeDiscoverContext { s with projects }
      { kind := "project", projectId := p.id } {}).2 = .ok ctx := by
    rw [resolveBridgeDiscoverContext, scopeOrganization_of_cached (s := { s with projects }) hscope]
    cases hctx : s.caches.discoverCtxCache.lookup v with
    | none =>
      refine ⟨projectsContext projects v, organizationID_projectsContext _ _, ?_⟩
      simp only [discoverContext, hctx]
    | some ctx =>
      refine ⟨ctx, (h.contexts v ctx hctx).1, ?_⟩
      simp only [discoverContext, hctx]
  obtain ⟨ctx, rfl, hresult⟩ := hresult
  exact hv ((huses _ {} ctx hresult).1.2 rfl p hp rfl).symm

/-! ## Runs -/

/-- **One step** that meets the condition. -/
theorem Inv.step (h : s.Inv) (hok : s.LeavesCached a) (hstep : s.step a = some t) : t.Inv := by
  cases a with
  | createProject p =>
    obtain ⟨projects, hinsert, rfl⟩ := map_eq_some_iff.mp hstep
    refine h.write (fun v ctx hctx id slug => ?_) fun id v hlookup w slug hslug => ?_
    · rw [hasSlug_insert hinsert]
      refine or_iff_left ?_
      rintro ⟨rfl, -⟩
      rw [hok.1] at hctx
      cases hctx
    · rcases (hasSlug_insert hinsert w id slug).mp hslug with hslug | ⟨rfl, rfl, -⟩
      · exact h.organization_eq hlookup hslug
      · exact (hok.2 v hlookup).symm
  | deleteProject gone =>
    cases hstep
    refine h.write (fun v ctx hctx id slug => ?_) fun id v hlookup w slug hslug => ?_
    · rw [hasSlug_delete]
      refine and_iff_left_of_imp ?_
      rintro ⟨p, hp, rfl, rfl, -⟩ hgone
      rw [hok p hp hgone] at hctx
      cases hctx
    · exact h.organization_eq hlookup ((hasSlug_delete _ _ _ _ _).mp hslug).1
  | updateSlug renamed slug' =>
    obtain ⟨projects, hupdate, rfl⟩ := map_eq_some_iff.mp hstep
    refine h.write (fun v ctx hctx id slug => ?_) fun id v hlookup w slug hslug => ?_
    · -- The project has the slug already, or it is not one of the organization.
      have hkeep : ∀ old, HasSlug s.projects v id old →
          (if id = renamed then slug' else old) = old := by
        rintro old ⟨p, hp, rfl, rfl, rfl⟩
        split
        · next hid =>
          by_contra hne
          rw [hok p hp hid (Ne.symm hne)] at hctx
          cases hctx
        · rfl
      rw [hasSlug_update hupdate]
      constructor
      · rintro ⟨old, hold, rfl⟩
        rwa [hkeep old hold]
      · intro hslug
        exact ⟨slug, hslug, (hkeep slug hslug).symm⟩
    · obtain ⟨old, hold, -⟩ := (hasSlug_update hupdate w id slug).mp hslug
      exact h.organization_eq hlookup hold
  | query scope faults =>
    cases hstep
    exact (h.query scope faults).1
  | restart =>
    cases hstep
    exact inv_of_no_caches rfl

/-- **One step** that does not. -/
theorem Inv.step_stale (h : s.Inv) (hbad : ¬s.LeavesCached a) (hstep : s.step a = some t) :
    ¬t.UsesCurrent lib := by
  cases a with
  | createProject p =>
    obtain ⟨projects, hinsert, rfl⟩ := map_eq_some_iff.mp hstep
    cases hctx : s.caches.discoverCtxCache.lookup p.organizationId with
    | some ctx =>
      refine h.not_usesCurrent hctx p.id p.slug fun hsame => ?_
      obtain ⟨q, hq, -, hid, -⟩ :=
        hsame.mp ((hasSlug_insert hinsert _ _ _).mpr (.inr ⟨rfl, rfl, rfl⟩))
      have hclash := (insert_eq_some_iff.mp hinsert).1 q hq
      simp [conflict, hid] at hclash
    | none =>
      obtain ⟨v, hlookup, hv⟩ : ∃ v, s.caches.projectScopeCache.lookup p.id = some v ∧
          v ≠ p.organizationId := by
        by_contra! hnone
        exact hbad ⟨hctx, hnone⟩
      exact h.not_usesCurrent_of_id (mem_of_insert_self hinsert) hlookup hv
  | deleteProject gone =>
    cases hstep
    simp only [LeavesCached, not_forall] at hbad
    obtain ⟨p, hp, rfl, hctx⟩ := hbad
    obtain ⟨ctx, hctx⟩ := ne_none_iff_exists'.mp hctx
    refine h.not_usesCurrent hctx p.id p.slug fun hsame => ?_
    exact ((hasSlug_delete _ _ _ _ _).mp (hsame.mpr ⟨p, hp, rfl, rfl, rfl⟩)).2 rfl
  | updateSlug renamed slug' =>
    obtain ⟨projects, hupdate, rfl⟩ := map_eq_some_iff.mp hstep
    simp only [LeavesCached, not_forall] at hbad
    obtain ⟨p, hp, rfl, hne, hctx⟩ := hbad
    obtain ⟨ctx, hctx⟩ := ne_none_iff_exists'.mp hctx
    refine h.not_usesCurrent hctx p.id p.slug fun hsame => ?_
    obtain ⟨old, -, hslug⟩ := (hasSlug_update hupdate _ _ _).mp (hsame.mpr ⟨p, hp, rfl, rfl, rfl⟩)
    rw [if_pos rfl] at hslug
    exact hne hslug
  | query scope faults => exact absurd trivial hbad
  | restart => exact absurd trivial hbad

/-- **Bridge discover uses the current projects** in every state of a run of a new service if and
only if no step changes the projects of an organization with a cached context, or gives a cached
project id to another organization. -/
theorem run_current_iff {init : BridgeState} {trace : List (BridgeState × BridgeAction)}
    (hinit : init.caches = {}) (run : Run step init trace t) :
    (∀ u ∈ visited trace t, u.UsesCurrent lib) ↔ ∀ p ∈ trace, p.1.LeavesCached p.2 := by
  have hstart : init.Inv := inv_of_no_caches hinit
  exact run.safe_iff hstart (fun h hok hstep => h.step hok hstep) (fun h => h.usesCurrent)
    fun h hbad hstep => h.step_stale hbad hstep

/-! ### A project that is created between two queries -/

instance (s : BridgeState) (a : BridgeAction) : Decidable (s.LeavesCached a) :=
  match a with
  | .createProject _ => inferInstanceAs (Decidable (_ ∧ ∀ organizationID ∈ _, _))
  | .deleteProject _ => inferInstanceAs (Decidable (∀ p ∈ _, _ → _))
  | .updateSlug .. => inferInstanceAs (Decidable (∀ p ∈ _, _ → _ → _))
  | .query .. | .restart => .isTrue trivial

/-- Two organizations, with one project in `a`. -/
def twoSlugs : BridgeState where
  organizations := ⟨[{ id := "a", slug := "acme" }, { id := "b", slug := "beta" }], by decide⟩
  projects := ⟨[{ id := "p", organizationId := "a", slug := "shop" }], by decide⟩
  caches := {}

/-- The project `q` with the slug `api`. -/
def apiProject (organizationId : String) : ProjectRow :=
  { id := "q", organizationId, slug := "api" }

/-- A query of an organization. -/
def queryOf (organization : String) : BridgeAction :=
  .query { kind := "organization", organization } {}

/-- The project is created in the other organization. -/
theorem current_other_organization : ∃ trace t, Run step twoSlugs trace t ∧ trace.length = 3 ∧
    ∀ u ∈ visited trace t, u.UsesCurrent asciiLib :=
  exists_run_and LeavesCached [queryOf "acme", .createProject (apiProject "b"), queryOf "beta"]
    (by decide +kernel) fun hrun hok => (run_current_iff rfl hrun).mpr hok

/-- **A project that no query sees.** It is created in the organization whose context is cached: the
next query has no slug for it, and a filter on its slug selects nothing. -/
theorem created_project_unseen : ∃ trace t, Run step twoSlugs trace t ∧
    HasSlug t.projects "a" "q" "api" ∧
    (∃ ctx,
      (t.resolveBridgeDiscoverContext { kind := "organization", organization := "acme" } {}).2 =
      .ok ctx ∧ ctx.organizationID = "a" ∧ ctx.projectSlugByID.lookup "q" = none ∧
        ctx.idsOf "api" = []) ∧ ¬t.UsesCurrent asciiLib := by
  obtain ⟨trace, t, hrun, hslug, hresult⟩ : ∃ trace t, Run step twoSlugs trace t ∧
      HasSlug t.projects "a" "q" "api" ∧ ((t.resolveBridgeDiscoverContext
        { kind := "organization", organization := "acme" } {}).2.toOption.map fun ctx =>
          (ctx.organizationID, ctx.projectSlugByID.lookup "q", ctx.idsOf "api")) =
            some ("a", none, []) :=
    exists_run [queryOf "acme", .createProject (apiProject "a")] (by decide +kernel)
  obtain ⟨ctx, hctx, hfields⟩ := map_eq_some_iff.mp hresult
  obtain ⟨horg, hlookup, hids⟩ : ctx.organizationID = "a" ∧
      ctx.projectSlugByID.lookup "q" = none ∧ ctx.idsOf "api" = [] := by
    simpa using hfields
  have hok :
    (t.resolveBridgeDiscoverContext { kind := "organization", organization := "acme" } {}).2 =
      .ok ctx := by
    revert hctx
    generalize (t.resolveBridgeDiscoverContext _ _).2 = result
    cases result <;> simp [Except.toOption]
  refine ⟨trace, t, hrun, hslug, ⟨ctx, hok, horg, hlookup, hids⟩, fun huses => ?_⟩
  have hcurrent := (huses _ {} ctx hok).2.1
  rw [← horg, ← hcurrent.slugs, hlookup] at hslug
  cases hslug

end BridgeState

end Urgentry
