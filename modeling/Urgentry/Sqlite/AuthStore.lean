import Urgentry.Auth.Authorizer
import Urgentry.Sqlite.EventStore
import Urgentry.Sqlite.GroupStore

/-!
# The authorization store

The tables of organizations, projects and members, and the lookups of `auth_store.go` that the
authorizer makes. Tokens and sessions are not modelled: which principal a credential stands for is a
parameter, and so are the entries of the store's caches, which answer before the database does.

A query of one row reads the first row of its result. Event ids are unique within a project only, so
the query of `ResolveEventProject` may have several rows; SQLite returns them in the order of its
scan, which is the order of the table here.
-/

namespace Urgentry

open SqlTable

/-! ## Tables -/

/-- A row of `organizations`. -/
structure OrganizationRow where
  (id slug : String)
  name : String := ""
  createdAt : Option String := none
deriving DecidableEq

/-- `PRIMARY KEY (id)` and `UNIQUE (slug)`. -/
instance : Schema OrganizationRow where
  conflict r s := r.id == s.id || r.slug == s.slug
  conflict_comm r s := by simp only [Bool.beq_comm]

/-- A row of `teams`. -/
structure TeamRow where
  (id organizationId slug : String)
  name : String := ""
  createdAt : Option String := none
deriving DecidableEq

/-- `PRIMARY KEY (id)` and `UNIQUE (organization_id, slug)`. -/
instance : Schema TeamRow where
  conflict r s := r.id == s.id || (r.organizationId == s.organizationId && r.slug == s.slug)
  conflict_comm r s := by simp only [Bool.beq_comm]

/-- A row of `projects`; `columns` are the retention and quota settings. -/
structure ProjectRow where
  (id organizationId : String)
  teamId : Option String := none
  slug : String
  name : String := ""
  platform : Option String := none
  status : Option String := some "active"
  createdAt : Option String := none
  columns : List String := []
deriving DecidableEq

/-- `PRIMARY KEY (id)` and `UNIQUE (organization_id, slug)`. -/
instance : Schema ProjectRow where
  conflict r s := r.id == s.id || (r.organizationId == s.organizationId && r.slug == s.slug)
  conflict_comm r s := by simp only [Bool.beq_comm]

/-- A row of `users`; `columns` are the second-factor settings. -/
structure UserRow where
  (id email : String)
  displayName : String := ""
  isActive : ℤ := 1
  createdAt : Option String := none
  updatedAt : Option String := none
  columns : List String := []
deriving DecidableEq

/-- `PRIMARY KEY (id)` and `UNIQUE (email)`. -/
instance : Schema UserRow where
  conflict r s := r.id == s.id || r.email == s.email
  conflict_comm r s := by simp only [Bool.beq_comm]

/-- A row of `organization_members`. -/
structure MemberRow where
  (id organizationId userId role : String)
  createdAt : Option String := none
deriving DecidableEq

/-- `PRIMARY KEY (id)` and `UNIQUE (organization_id, user_id)`. -/
instance : Schema MemberRow where
  conflict r s := r.id == s.id || (r.organizationId == s.organizationId && r.userId == s.userId)
  conflict_comm r s := by simp only [Bool.beq_comm]

/-- A row of `project_memberships`. -/
structure ProjectMembershipRow where
  (id projectId userId role : String)
  createdAt : Option String := none
deriving DecidableEq

/-- `PRIMARY KEY (id)` and `UNIQUE (project_id, user_id)`. -/
instance : Schema ProjectMembershipRow where
  conflict r s := r.id == s.id || (r.projectId == s.projectId && r.userId == s.userId)
  conflict_comm r s := by simp only [Bool.beq_comm]

/-- The tables that authorization reads. -/
structure AuthDb where
  organizations : Table OrganizationRow
  projects : Table ProjectRow
  events : Table EventRow
  groups : Table GroupRow
  members : Table MemberRow
  projectMemberships : Table ProjectMembershipRow

/-! ## Lookups -/

namespace AuthDb

open Auth

variable (db : AuthDb)

/-- The organization of a project row, by the join on `organization_id`. -/
def joinOrganization (p : ProjectRow) : Option Project :=
  (db.organizations.rows.find? fun o => o.id = p.organizationId).map fun o =>
    ⟨p.id, p.slug, o.id, o.slug⟩

/-- The first row of a query of `projects` joined with `organizations`. -/
def firstProject (p : ProjectRow → Bool) : Option Project :=
  (db.projects.rows.filter p).findSome? db.joinOrganization

/-- The project with an id. -/
def projectById (projectId : String) : Option Project :=
  db.firstProject fun p => p.id = projectId

/-- The project of the first event with an id. -/
def eventProject (eventId : String) : Option Project :=
  (db.events.rows.filter fun e => e.eventId = eventId).findSome? fun e => db.projectById e.projectId

/-- The project of a group. -/
def issueProject (issueId : String) : Option Project :=
  (db.groups.rows.filter fun g => g.id = issueId).findSome? fun g => db.projectById g.projectId

/-- The role of a user in an organization, or the empty text. -/
def orgRole (userId organizationId : String) : String :=
  ((db.members.rows.find? fun m => m.userId = userId ∧ m.organizationId = organizationId).map
    (·.role)).getD ""

/-- The role of a user in a project, or the empty text. -/
def projectRole (userId projectId : String) : String :=
  ((db.projectMemberships.rows.find? fun m => m.userId = userId ∧ m.projectId = projectId).map
    (·.role)).getD ""

end AuthDb

/-- The queries of the store that a request may make; each of them is made at most once. -/
inductive AuthCall
  | resolveOrganization
  | resolveProject
  | resolveIssue
  | resolveEvent
  | lookupOrgRole
  | listOrgRoles
  | lookupProjectRole
deriving DecidableEq

/-- What the store has besides the tables: the principals of its credentials, and the entries of its
caches. -/
structure AuthContext where
  (session pat automationToken : String → Except String Auth.Principal)
  cachedOrganizationBySlug : String → Option Auth.Organization := fun _ => none
  cachedProjectByID : String → Option Auth.Project := fun _ => none
  cachedProjectBySlug : String → String → Option Auth.Project := fun _ _ => none

/-- A query, which may fail. -/
def authQuery {α : Type} (fails : AuthCall → Bool) (which : AuthCall) (message : String)
    (value : α) : Except String α :=
  if fails which then .error message else .ok value

/-- The `AuthStore` over the tables, with the queries that fail. -/
def AuthDb.store (ctx : AuthContext) (fails : AuthCall → Bool) (db : AuthDb) : Auth.Store where
  authenticateSession := ctx.session
  authenticatePAT := ctx.pat
  authenticateAutomationToken := ctx.automationToken
  resolveOrganizationBySlug slug :=
    match ctx.cachedOrganizationBySlug slug with
    | some org => .ok (some org)
    | none => authQuery fails .resolveOrganization "resolve organization"
        ((db.organizations.rows.find? fun o => o.slug = slug).map fun o => ⟨o.id, o.slug⟩)
  resolveProjectByID projectId :=
    match ctx.cachedProjectByID projectId with
    | some project => .ok (some project)
    | none => authQuery fails .resolveProject "resolve project" (db.projectById projectId)
  resolveProjectBySlug orgSlug projectSlug :=
    match ctx.cachedProjectBySlug orgSlug projectSlug with
    | some project => .ok (some project)
    | none => authQuery fails .resolveProject "resolve project"
        ((db.projects.rows.filter fun p => p.slug = projectSlug).findSome? fun p =>
          (db.joinOrganization p).filter fun project => project.organizationSlug = orgSlug)
  resolveIssueProject issueId :=
    authQuery fails .resolveIssue "resolve issue" (db.issueProject issueId)
  resolveEventProject eventId :=
    authQuery fails .resolveEvent "resolve event" (db.eventProject eventId)
  lookupUserOrgRole userId organizationId :=
    authQuery fails .lookupOrgRole "lookup organization role" (db.orgRole userId organizationId)
  listUserOrgRoles userId :=
    authQuery fails .listOrgRoles "list user org roles"
      ((db.members.rows.filter fun m => m.userId = userId).map fun m => (m.organizationId, m.role))
  lookupUserProjectRole userId projectId :=
    authQuery fails .lookupProjectRole "lookup project role" (db.projectRole userId projectId)

end Urgentry
