import Urgentry.Internal.GoText

/-!
# The request authorizer

`internal/auth/authorizer.go`. A request is authenticated, the resource that its path names is
looked up, and the principal is checked against the scope of the route. The lookups go through the
`Store` interface, which is a parameter here as it is there.

Roles and granted scopes are texts from the database, so any text can occur; a text that is no role
grants nothing. The scope that a route requires is one of the constants.
-/

namespace Urgentry

namespace Auth

/-! ## Scopes and roles -/

/-- The scope constants. -/
inductive Scope
  | orgRead
  | orgAdmin
  | orgQueryRead
  | orgQueryWrite
  | projectRead
  | projectWrite
  | projectKeysRead
  | projectKeysWrite
  | projectTokensRead
  | projectTokensWrite
  | projectArtifactsWrite
  | issueWrite
  | releaseRead
  | releaseWrite
deriving DecidableEq

/-- The text of a scope. -/
def Scope.text : Scope → String
  | orgRead => "org:read"
  | orgAdmin => "org:admin"
  | orgQueryRead => "org:query:read"
  | orgQueryWrite => "org:query:write"
  | projectRead => "project:read"
  | projectWrite => "project:write"
  | projectKeysRead => "project:keys:read"
  | projectKeysWrite => "project:keys:write"
  | projectTokensRead => "project:tokens:read"
  | projectTokensWrite => "project:tokens:write"
  | projectArtifactsWrite => "project:artifacts:write"
  | issueWrite => "issue:write"
  | releaseRead => "release:read"
  | releaseWrite => "release:write"

/-- `scopeImplies`. -/
def scopeImplies (granted : String) (required : Scope) : Bool :=
  if granted = required.text then true
  else if granted = Scope.orgAdmin.text then true
  else if granted = Scope.orgQueryWrite.text then required == .orgQueryRead
  else if granted = Scope.projectWrite.text then required == .projectRead
  else if granted = Scope.projectKeysWrite.text then required == .projectKeysRead
  else if granted = Scope.projectTokensWrite.text then required == .projectTokensRead
  else if granted = Scope.releaseWrite.text then required == .releaseRead
  else false

variable (role : String)

/-- The scopes that a role grants, in an organization and in a project alike. -/
def grantedScopes : List Scope :=
  if role = "owner" then [.orgAdmin]
  else if role = "admin" then
    [.orgRead, .orgQueryRead, .orgQueryWrite, .projectRead, .projectWrite, .projectKeysRead,
      .projectKeysWrite, .projectTokensRead, .projectTokensWrite, .projectArtifactsWrite,
      .issueWrite, .releaseRead, .releaseWrite]
  else if role = "member" then
    [.orgRead, .orgQueryRead, .orgQueryWrite, .projectRead, .issueWrite, .releaseRead]
  else if role = "viewer" then [.orgRead, .orgQueryRead, .projectRead, .releaseRead]
  else []

/-- `roleAllowsScope`. -/
def roleAllowsScope (required : Scope) : Bool :=
  (grantedScopes role).any fun scope => scopeImplies scope.text required

/-- `projectRoleAllowsScope`: its table is the same as that of organization roles. -/
def projectRoleAllowsScope (required : Scope) : Bool :=
  roleAllowsScope role required

/-! ## Principals, resources and the store -/

/-- `CredentialKind`. -/
inductive CredentialKind
  | projectKey
  | session
  | pat
  | automationToken
deriving DecidableEq

/-- `User`. -/
structure User where
  id : String
  email : String := ""
  displayName : String := ""
deriving DecidableEq

/-- `Principal`. -/
structure Principal where
  kind : CredentialKind
  credentialId : String := ""
  user : Option User := none
  projectId : String := ""
  scopes : List String := []
  csrfToken : String := ""
deriving DecidableEq

/-- `principalHasScope`. -/
def Principal.hasScope (principal : Principal) (required : Scope) : Bool :=
  principal.scopes.any fun scope => scopeImplies scope required

/-- `Organization`. -/
structure Organization where
  (id slug : String)
deriving DecidableEq

/-- `Project`. -/
structure Project where
  (id slug organizationId organizationSlug : String)
deriving DecidableEq

/-- `Store`, without the functions that only the login and logout pages call. A lookup that finds
nothing returns `none`. -/
structure Store where
  (authenticateSession authenticatePAT authenticateAutomationToken : String →
    Except String Principal)
  resolveOrganizationBySlug : String → Except String (Option Organization)
  resolveProjectByID : String → Except String (Option Project)
  resolveProjectBySlug : String → String → Except String (Option Project)
  (resolveIssueProject resolveEventProject : String → Except String (Option Project))
  lookupUserOrgRole : String → String → Except String String
  listUserOrgRoles : String → Except String (List (String × String))
  lookupUserProjectRole : String → String → Except String String

/-- `ResourceKind`. -/
inductive ResourceKind
  | none
  | anyMembership
  | organizationPath
  | projectPath
  | projectIDPath
  | issuePath
  | eventPath
deriving DecidableEq

/-- `Policy`. -/
structure Policy where
  scope : Scope
  resource : ResourceKind
  allowAutomation : Bool := false

/-- `resolvedResource`; an empty id is an absent one. -/
structure ResolvedResource where
  organizationId : String := ""
  projectId : String := ""
deriving DecidableEq

/-- What the authorizer reads of a request. -/
structure Request where
  /-- The `Authorization` header. -/
  authorization : String := ""
  /-- The session cookie. -/
  cookie : Option String := none
  /-- `r.PathValue`. -/
  pathValue : String → String

/-- Why a request is turned down. -/
inductive AuthError
  | invalidCredentials
  | forbidden
  | store (message : String)
deriving DecidableEq

/-! ## Authentication -/

variable (store : Store) (req : Request)

/-- `extractBearerToken`. -/
def extractBearerToken : String :=
  let header := (GoText.trimSpace req.authorization).toList
  if "Bearer ".toList.isPrefixOf header then
    GoText.trimSpace (String.ofList (header.drop 7)) else ""

/-- `authenticateSessionRequest`. -/
def authenticateSessionRequest : Except AuthError Principal :=
  match req.cookie with
  | none => .error .invalidCredentials
  | some value =>
    if GoText.trimSpace value = "" then .error .invalidCredentials
    else (store.authenticateSession value).mapError .store

/-- `authenticateAPIRequest`. -/
def authenticateAPIRequest (allowAutomation : Bool) : Except AuthError Principal :=
  let token := extractBearerToken req
  if token = "" then authenticateSessionRequest store req
  else match store.authenticatePAT token, allowAutomation with
    | .ok principal, _ => .ok principal
    | .error _, false => .error .invalidCredentials
    | .error _, true =>
      match store.authenticateAutomationToken token with
      | .ok principal => .ok principal
      | .error _ => .error .invalidCredentials

/-! ## Resources -/

/-- The resource of a project that a lookup found. -/
def projectResource : Except String (Option Project) → Except AuthError ResolvedResource
  | .ok (some project) => .ok ⟨project.organizationId, project.id⟩
  | _ => .error .forbidden

/-- `resolveResource`. -/
def resolveResource : ResourceKind → Except AuthError ResolvedResource
  | .none => .ok {}
  | .anyMembership => .ok {}
  | .organizationPath =>
    match store.resolveOrganizationBySlug (req.pathValue "org_slug") with
    | .ok (some org) => .ok { organizationId := org.id }
    | _ => .error .forbidden
  | .projectPath =>
    projectResource
      (store.resolveProjectBySlug (req.pathValue "org_slug") (req.pathValue "proj_slug"))
  | .projectIDPath => projectResource (store.resolveProjectByID (req.pathValue "project_id"))
  | .issuePath => projectResource (store.resolveIssueProject (req.pathValue "issue_id"))
  | .eventPath => projectResource (store.resolveEventProject (req.pathValue "event_id"))

/-! ## Authorization -/

/-- The check of a user against an organization and perhaps a project of it. -/
def authorizeUser (principal : Principal) (user : User) (scope : Scope)
    (resource : ResolvedResource) : Except AuthError Unit := do
  let role ← (store.lookupUserOrgRole user.id resource.organizationId).mapError .store
  if !roleAllowsScope role scope then .error .forbidden
  else if principal.kind = .pat ∧ !principal.hasScope scope then .error .forbidden
  else if resource.projectId = "" then .ok ()
  else
    let projectRole ← (store.lookupUserProjectRole user.id resource.projectId).mapError .store
    if projectRole ≠ "" ∧ !projectRoleAllowsScope projectRole scope then .error .forbidden
    else .ok ()

/-- The check of a user when no organization is named: any membership that allows the scope. -/
def authorizeAnyMembership (principal : Principal) (user : User) (scope : Scope) :
    Except AuthError Unit := do
  let roles ← (store.listUserOrgRoles user.id).mapError .store
  if roles.any fun role => roleAllowsScope role.2 scope &&
      (principal.kind ≠ .pat || principal.hasScope scope) then .ok ()
  else .error .forbidden

/-- `authorize`. -/
def authorize (principal : Option Principal) (scope : Scope) (resource : Option ResolvedResource) :
    Except AuthError Unit :=
  match principal with
  | none => .error .invalidCredentials
  | some principal =>
    if principal.kind = .automationToken then
      match resource with
      | none => .error .forbidden
      | some resource =>
        if resource.projectId = "" ∨ principal.projectId ≠ resource.projectId then .error .forbidden
        else if !principal.hasScope scope then .error .forbidden
        else .ok ()
    else match principal.user, resource with
      | none, _ => .error .invalidCredentials
      | some user, none => authorizeAnyMembership store principal user scope
      | some user, some resource =>
        if resource.organizationId = "" then authorizeAnyMembership store principal user scope
        else authorizeUser store principal user scope resource

/-- An error response: the status and the detail of its body. -/
structure ErrorResponse where
  status : ℕ
  detail : String
deriving DecidableEq

/-- `API`: the principal of a request that passes. -/
def api (policy : Policy) (req : Request) : Except ErrorResponse Principal :=
  match authenticateAPIRequest store req policy.allowAutomation with
  | .error _ => .error ⟨401, "Authentication credentials were not provided."⟩
  | .ok principal =>
    match resolveResource store req policy.resource with
    | .error _ => .error ⟨404, "Resource not found."⟩
    | .ok resource =>
      match authorize store (some principal) policy.scope (some resource) with
      | .error _ => .error ⟨403, "You do not have permission to perform this action."⟩
      | .ok _ => .ok principal

end Auth

end Urgentry
