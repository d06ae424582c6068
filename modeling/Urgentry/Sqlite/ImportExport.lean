import Urgentry.GoLib
import Urgentry.Sqlite.AuthStore
import Urgentry.Sqlite.World

/-!
# Importing an organization

`import_export_apply.go` and `import_export_artifacts.go`: a payload is applied to one organization,
section by section, in one transaction. Every row is written by an upsert. Projects, releases,
source maps and memberships are matched by a key inside the organization; issues, events,
attachments, debug files, alert rules and users are matched by an id that comes with the payload,
and project keys by their public key.

An error undoes the rows, and the artifacts' objects are deleted again. A dry run does both when
there was no error.

## Items

An item of the payload is named by its section and its position. All that an item takes from its
surroundings is given for its name: the id it draws when the payload has none, the clock, and the
error with which one of its calls fails. Such an error stands for a failing call to the database or
the blob store, for a broken foreign key, and for the tables of crash images, symbol sources and
profiles, which the import also fills and which are not modelled: whichever of them fails, the rows
are all undone. Only for the objects it matters *when* the call fails: before the item has put its
object, or after, which is possible for the profile of an event.
-/

namespace Urgentry

open SqlTable Effect GoText

/-! ## Tables -/

/-- A row of `releases`. -/
structure ReleaseRow where
  (id organizationId version : String)
  dateReleased : Option String := none
  createdAt : Option String := none
  ref : String := ""
  url : String := ""
deriving DecidableEq

/-- `PRIMARY KEY (id)` and `UNIQUE (organization_id, version)`. -/
instance : Schema ReleaseRow where
  conflict r s := r.id == s.id || (r.organizationId == s.organizationId && r.version == s.version)
  conflict_comm r s := by simp only [Bool.beq_comm]

/-- A row of `artifacts`. -/
structure ArtifactRow where
  (id projectId releaseVersion name objectKey : String)
  size : ℤ := 0
  checksum : Option String := none
  createdAt : Option String := none
  organizationId : Option String := none
deriving DecidableEq

/-- `PRIMARY KEY (id)` and `UNIQUE (project_id, release_version, name)`. -/
instance : Schema ArtifactRow where
  conflict r s := r.id == s.id ||
    (r.projectId == s.projectId && r.releaseVersion == s.releaseVersion && r.name == s.name)
  conflict_comm r s := by simp only [Bool.beq_comm]

/-- A row of `project_keys`. -/
structure ProjectKeyRow where
  (id projectId publicKey : String)
  secretKey : Option String := none
  status : Option String := some "active"
  label : Option String := some ""
  rateLimit : Option ℤ := none
  createdAt : Option String := none
  lastUsedAt : Option String := none
deriving DecidableEq

/-- `PRIMARY KEY (id)` and `UNIQUE (public_key)`. -/
instance : Schema ProjectKeyRow where
  conflict r s := r.id == s.id || r.publicKey == s.publicKey
  conflict_comm r s := by simp only [Bool.beq_comm]

/-- A row of `alert_rules`. -/
structure AlertRuleRow where
  (id projectId name : String)
  status : Option String := some "active"
  configJson : Option String := some ""
  createdAt : Option String := none
deriving DecidableEq

instance : Schema AlertRuleRow := .ofKey (·.id)

/-- The tables that an import reads and writes. -/
structure ImportDb where
  teams : Table TeamRow
  projects : Table ProjectRow
  releases : Table ReleaseRow
  groups : Table GroupRow
  attachments : Table AttachmentRow
  artifacts : Table ArtifactRow
  debugFiles : Table DebugFileRow
  events : Table EventRow
  projectKeys : Table ProjectKeyRow
  alertRules : Table AlertRuleRow
  users : Table UserRow
  members : Table MemberRow

/-! ## Payloads -/

/-- `migration.ProjectImport`, without the team list that nothing reads. -/
structure ProjectImport where
  id : String := ""
  name : String := ""
  slug : String := ""
  platform : String := ""
  teamSlug : String := ""

/-- `migration.ReleaseImport`, without the ref that nothing reads. -/
structure ReleaseImport where
  id : String := ""
  version : String
  dateReleased : String := ""

/-- `migration.IssueImport`. -/
structure IssueImport where
  id : String := ""
  projectSlug : String
  title : String := ""
  culprit : String := ""
  level : String := ""
  status : String := ""
  groupingVersion : String := ""
  groupingKey : String := ""
  firstSeen : String := ""
  lastSeen : String := ""
  timesSeen : ℤ := 0
  shortId : ℤ := 0
  assignee : String := ""
  priority : ℤ := 0

/-- `migration.EventImport`. -/
structure EventImport where
  id : String := ""
  (projectSlug eventId : String)
  groupId : String := ""
  eventType : String := ""
  release : String := ""
  environment : String := ""
  platform : String := ""
  level : String := ""
  title : String := ""
  message : String := ""
  culprit : String := ""
  occurredAt : String := ""
  tags : List (String × String) := []
  payloadJson : String := ""
  payloadKey : String := ""
  userIdentifier : String := ""

/-- `migration.ProjectKeyImport`. -/
structure ProjectKeyImport where
  id : String := ""
  (projectSlug publicKey : String)
  secretKey : String := ""
  status : String := ""
  label : String := ""
  rateLimit : ℤ := 0
  createdAt : String := ""

/-- `migration.AlertRuleImport`; the conditions and actions are given by their JSON. -/
structure AlertRuleImport where
  id : String := ""
  projectSlug : String
  name : String := ""
  status : String := ""
  ruleType : String := ""
  conditions : String := "null"
  actions : String := "null"
  createdAt : String := ""

/-- `migration.MemberImport`. -/
structure MemberImport where
  id : String := ""
  email : String
  displayName : String := ""
  role : String := ""
  isActive : Bool := false
  createdAt : String := ""

/-- `migration.ArtifactImport`, without what only the symbol sources use. -/
structure ArtifactImport where
  kind : String
  id : String := ""
  projectSlug : String
  releaseVersion : String := ""
  eventId : String := ""
  name : String := ""
  contentType : String := ""
  uuid : String := ""
  codeId : String := ""
  objectKey : String := ""
  checksum : String := ""
  size : ℤ := 0
  bodyBase64 : String := ""
  createdAt : String := ""

/-- `migration.ImportPayload`. -/
structure ImportPayload where
  projects : List ProjectImport := []
  releases : List ReleaseImport := []
  issues : List IssueImport := []
  events : List EventImport := []
  projectKeys : List ProjectKeyImport := []
  alertRules : List AlertRuleImport := []
  members : List MemberImport := []
  artifacts : List ArtifactImport := []

/-- The counts of `migration.ImportResult`, and whether it was a dry run. -/
structure ImportResult where
  dryRun : Bool := false
  (projectsImported releasesImported issuesImported artifactsImported artifactsVerified
    eventsImported
    projectKeysImported alertRulesImported membersImported : ℕ)
deriving DecidableEq

/-! ## Surroundings -/

/-- The sections of a payload. -/
inductive ImportSection
  | projects
  | releases
  | issues
  | artifacts
  | events
  | projectKeys
  | alertRules
  | members
deriving DecidableEq

/-- An item of a payload: its section and its position. -/
structure ImportItem where
  kind : ImportSection
  index : ℕ
deriving DecidableEq

/-- `alert.Rule`, with the fields that an import sets. -/
structure AlertRule where
  (id projectId name ruleType status conditions actions : String)
  createdAt : Time

/-- What an import takes from its surroundings. -/
structure ImportEnv where
  lib : GoLib
  /-- The id that the item draws when the payload gives none. -/
  newId : ImportItem → String
  /-- The id of the membership row of a member. -/
  newMembershipId : ℕ → String
  /-- The clock when the item is imported. -/
  now : ImportItem → Time
  /-- The error that the item returns when one of its calls fails before it puts an object. -/
  fails : ImportItem → Option String := fun _ => none
  /-- The error of a profile event when one of its calls fails after it put its object. -/
  profileFails : ImportItem → Option String := fun _ => none
  /-- The error of `BeginTx`, if it fails. -/
  beginFails : Option String := none
  /-- The error of the commit, if it fails. -/
  commitFails : Option String := none
  /-- The error of the rollback that ends a dry run, if it fails. -/
  rollbackFails : Option String := none
  /-- Whether a blob store is configured. -/
  hasBlobs : Bool := true
  /-- `base64.StdEncoding.DecodeString`. -/
  decodeBase64 : String → Option Body
  /-- `checksumSHA1`. -/
  checksumSHA1 : Body → String
  /-- `json.Marshal` of tags. -/
  tagsJson : List (String × String) → String
  /-- `json.Marshal` of a rule. -/
  ruleJson : AlertRule → String
  /-- `dbParseTime`. -/
  parseTime : String → Time
  /-- The bytes of a text. -/
  bytes : String → Body
  /-- `guessProfileID`, from the event id and the raw payload; it may draw an id. -/
  guessProfileID : ImportItem → String → Body → String

/-- What an import works on: the rows, the objects by key, `projectIDs`, and `blobKeys`. -/
structure ImportState where
  db : ImportDb
  blobs : String → Option Body
  projectIDs : List (String × String) := []
  blobKeys : List String := []

/-- A part of an import. -/
abbrev Import := Action ImportState String

/-! ## Small functions -/

/-- `nullOrDefault`. -/
def nullOrDefault (v default : String) : String := if trimSpace v = "" then default else v

/-- `NULLIF(v, '')`. -/
def nullIfEmpty (v : String) : Option String := if v = "" then none else some v

/-- `nullableInt`, and `NULLIF(v, 0)`. -/
def nullableInt (v : ℤ) : Option ℤ := if v = 0 then none else some v

/-- `nullableIntDefault`. -/
def nullableIntDefault (v default : ℤ) : ℤ := if v = 0 then default else v

/-- `sanitizeImportKeySegment`. -/
def sanitizeImportKeySegment (s : String) : String :=
  let s := trimSpace s
  if s = "" then "unknown"
  else String.ofList (s.toList.map fun c => if c = '/' ∨ c = '\\' ∨ c = ':' then '_' else c)

variable (env : ImportEnv)

/-- The id of an item: the one in the payload, trimmed, or a new one. -/
def ImportEnv.itemId (item : ImportItem) (given : String) : String :=
  if trimSpace given = "" then env.newId item else trimSpace given

/-- `parseOptionalTimeString`. -/
def ImportEnv.parseOptionalTime (v : String) : Time :=
  if trimSpace v = "" then ⟨0⟩ else env.parseTime v

/-! ## Statements -/

/-- Runs the import of an item. What the item itself finds wrong is returned under its name. -/
def importItem {α : Type} (item : ImportItem) (what : String) (m : Import α) : Import α :=
  match env.fails item with
  | some e => throw e
  | none => ExceptT.adapt (fun e => what ++ ": " ++ e) m

/-- A statement, which fails when it would break a uniqueness constraint. -/
def statement (write : ImportDb → Option ImportDb) : Import PUnit := do
  let s ← get
  match write s.db with
  | some db => set { s with db }
  | none => throw "constraint failed"

/-- `blobs.Put`, for an item without a failing call. -/
def putObject (key : String) (body : Body) : Import PUnit :=
  modify fun s => { s with blobs := Function.update s.blobs key (some body) }

/-- `blobs.Put` of an artifact's body, which is remembered for the clean-up. -/
def putArtifactBody (key : String) (body : Body) : Import PUnit :=
  if body.isEmpty || !env.hasBlobs then pure ⟨⟩
  else modify fun s => { s with
    blobs := Function.update s.blobs key (some body), blobKeys := s.blobKeys ++ [key] }

/-! ## Projects and releases -/

/-- The slug of an imported project, from its name if it has none. -/
def ImportEnv.projectSlug (p : ProjectImport) : String :=
  if trimSpace p.slug = "" then
    env.lib.lower (String.ofList ((trimSpace p.name).toList.map fun c =>
      if c = ' ' then '-' else c))
  else trimSpace p.slug

/-- The team of an imported project. -/
def ImportEnv.projectTeam (db : ImportDb) (orgID : String) (p : ProjectImport) :
    Except String (Option String) :=
  if p.teamSlug = "" then .ok none
  else match db.teams.rows.find? fun t => t.organizationId = orgID ∧ t.slug = p.teamSlug with
    | none => .error
      ("team \"" ++ p.teamSlug ++ "\" not found for project \"" ++ env.projectSlug p ++ "\"")
    | some team => .ok (nullIfEmpty team.id)

/-- The row that `upsertProjectImport` inserts. -/
def projectRow (db : ImportDb) (orgID : String) (item : ImportItem) (p : ProjectImport) :
    Except String ProjectRow :=
  if env.projectSlug p = "" then .error "project slug is required"
  else (env.projectTeam db orgID p).map fun teamId =>
    { id := env.itemId item p.id
      organizationId := orgID
      teamId := teamId
      slug := env.projectSlug p
      name := p.name
      platform := some p.platform
      createdAt := some (env.now item).rfc3339 }

/-- The row has the organization and slug of `row`. -/
def ProjectRow.sameSlug (row p : ProjectRow) : Bool :=
  p.organizationId = row.organizationId ∧ p.slug = row.slug

/-- The statement of `upsertProjectImport`. -/
def upsertProjectRow (row : ProjectRow) (db : ImportDb) : Option ImportDb :=
  (db.projects.upsert row row.sameSlug fun p =>
    { p with name := row.name, platform := row.platform, teamId := row.teamId.or p.teamId }).map
    fun projects => { db with projects }

variable (orgID : String) (item : ImportItem)

/-- `upsertProjectImport`; its statement returns the id of the row. -/
def upsertProjectImport (p : ProjectImport) :
    Import String := do
  let s ← get
  match projectRow env s.db orgID item p with
  | .error e => throw e
  | .ok row => do
    statement (upsertProjectRow row)
    let s ← get
    match s.db.projects.rows.find? row.sameSlug with
    | none => throw "sql: no rows in result set"
    | some p => return p.id

/-- The import of a project, which enters its id under the slug in the payload. -/
def importProject (p : ProjectImport) : Import PUnit := do
  let projectID ←
    importItem env item ("project " ++ p.slug) (upsertProjectImport env orgID item p)
  modify fun s => { s with projectIDs := (p.slug, projectID) :: s.projectIDs }

variable (r : ReleaseImport)

/-- The row of a release. -/
def releaseRow : ReleaseRow where
  id := env.itemId item r.id
  organizationId := orgID
  version := trimSpace r.version
  dateReleased := nullIfEmpty r.dateReleased
  createdAt := some (env.now item).rfc3339

/-- `upsertReleaseImport`. -/
def upsertReleaseImport : Import PUnit :=
  if trimSpace r.version = "" then throw "release version is required"
  else
    let row := releaseRow env orgID item r
    statement fun db => (db.releases.upsert row
      (fun s => s.organizationId = row.organizationId ∧ s.version = row.version)
      fun s => { s with dateReleased := row.dateReleased }).map fun releases =>
        { db with releases }

/-- The import of a release. -/
def importRelease : Import PUnit :=
  importItem env item ("release " ++ r.version) (upsertReleaseImport env orgID item r)

/-- `resolveImportedProjectID`. -/
def resolveImportedProjectID (orgID projectSlug : String) : Import String := do
  if projectSlug = "" then throw "project slug is required"
  else
    let s ← get
    match (s.projectIDs.lookup projectSlug).filter (· ≠ "") with
    | some id => return id
    | none =>
      match s.db.projects.rows.find? fun p => p.organizationId = orgID ∧ p.slug = projectSlug with
      | none => throw ("project " ++ projectSlug ++ " not found")
      | some p => do
        set { s with projectIDs := (projectSlug, p.id) :: s.projectIDs }
        return p.id

/-! ## Issues -/

variable (projectID : String)

/-- The row of an issue. -/
def issueRow (i : IssueImport) : GroupRow where
  id := env.itemId item i.id
  projectId := projectID
  groupingVersion := nullOrDefault i.groupingVersion "urgentry-v1"
  groupingKey := nullOrDefault i.groupingKey (env.itemId item i.id)
  title := i.title
  culprit := i.culprit
  level := i.level
  assignee := i.assignee
  status := nullOrDefault i.status "unresolved"
  resolutionSubstatus := ""
  resolvedInRelease := ""
  mergedIntoGroupId := ""
  firstSeen := i.firstSeen
  lastSeen := i.lastSeen
  timesSeen := i.timesSeen
  lastEventId := ""
  shortId := nullableInt i.shortId
  priority := nullableIntDefault i.priority 2

/-- The import of an issue: `upsertIssueImport` is an `INSERT OR REPLACE`. -/
def importIssue (i : IssueImport) : Import PUnit :=
  importItem env item ("issue " ++ i.id) do
    let projectID ← resolveImportedProjectID orgID i.projectSlug
    statement fun db =>
      some { db with groups := db.groups.insertOrReplace (issueRow env item projectID i) }

/-! ## Artifacts -/

/-- `decodeArtifactBody`. -/
def decodeArtifactBody (raw : String) : Except String Body :=
  if trimSpace raw = "" then .ok []
  else match env.decodeBase64 raw with
    | none => .error "decode artifact body"
    | some body => .ok body

variable (a : ArtifactImport)

/-- `normalizeImportedArtifact`, for an artifact whose kind is not empty: every such kind requires a
body. -/
def normalizeImportedArtifact (body : Body) : Except String ArtifactImport :=
  let checksum := trimSpace a.checksum
  if body.isEmpty then .error ("artifact " ++ a.name ++ " is missing bodyBase64")
  else if a.size ≠ 0 ∧ a.size ≠ body.length then
    .error ("artifact " ++ a.name ++ " size mismatch")
  else if checksum ≠ "" ∧ !env.lib.equalFold checksum (env.checksumSHA1 body) then
    .error ("artifact " ++ a.name ++ " checksum mismatch")
  else .ok { a with size := body.length, checksum := env.checksumSHA1 body }

/-- The key of an imported object: the one in the payload, or else built from these segments. -/
def importedObjectKey (root : String) (segments : List String) : String :=
  if trimSpace a.objectKey ≠ "" then trimSpace a.objectKey
  else "/".intercalate (root :: segments.map sanitizeImportKeySegment)

/-- `importedAttachmentObjectKey`. -/
def importedAttachmentObjectKey : String :=
  importedObjectKey a "attachments" [projectID, a.eventId, a.name]

/-- `importedSourceMapObjectKey`. -/
def importedSourceMapObjectKey : String :=
  importedObjectKey a "sourcemaps" [projectID, a.releaseVersion, a.name]

/-- `importedProGuardObjectKey`. -/
def importedProGuardObjectKey : String :=
  importedObjectKey a "proguard" [projectID, a.releaseVersion, a.uuid, a.name]

/-- `importedDebugFileObjectKey`. -/
def importedDebugFileObjectKey : String :=
  let fileID := if trimSpace a.id = "" then a.name else trimSpace a.id
  importedObjectKey a "debug"
    [nullOrDefault a.kind "native", projectID, a.releaseVersion, fileID, a.name]

/-- `importedProfileRawObjectKey`, whose last segment has an extension. -/
def importedProfileRawObjectKey : String :=
  let profileID := if trimSpace a.eventId = "" then a.name else trimSpace a.eventId
  if trimSpace a.objectKey ≠ "" then trimSpace a.objectKey
  else "profiles/" ++ sanitizeImportKeySegment projectID ++ "/" ++
    sanitizeImportKeySegment profileID ++ ".json"

/-- The row of an attachment. -/
def attachmentRow :
    AttachmentRow where
  id := env.itemId item a.id
  projectId := projectID
  eventId := a.eventId
  name := a.name
  contentType := some a.contentType
  sizeBytes := a.size
  objectKey := importedAttachmentObjectKey projectID a
  createdAt := nullIfEmpty a.createdAt

/-- `upsertAttachmentArtifact`: the creation time of a stored row stays. -/
def upsertAttachmentArtifact (row : AttachmentRow) : Import PUnit :=
  statement fun db => (db.attachments.upsert row (fun s => s.id = row.id)
    fun s => { row with createdAt := s.createdAt }).map fun attachments => { db with attachments }

/-- The row of a source map. -/
def sourceMapRow : ArtifactRow where
  id := env.itemId item a.id
  projectId := projectID
  releaseVersion := a.releaseVersion
  name := a.name
  objectKey := importedSourceMapObjectKey projectID a
  size := a.size
  checksum := nullIfEmpty a.checksum
  createdAt := nullIfEmpty a.createdAt

/-- `upsertSourceMapArtifact`. -/
def upsertSourceMapArtifact (row : ArtifactRow) : Import PUnit :=
  statement fun db => (db.artifacts.upsert row
    (fun s => s.projectId = row.projectId ∧ s.releaseVersion = row.releaseVersion ∧
      s.name = row.name)
    fun s => { s with objectKey := row.objectKey, size := row.size, checksum := row.checksum }).map
    fun artifacts => { db with artifacts }

/-- The row of a ProGuard mapping: its kind and content type are the table's defaults. -/
def proGuardRow : DebugFileRow where
  id := env.itemId item a.id
  projectId := projectID
  releaseVersion := a.releaseVersion
  uuid := a.uuid
  codeId := some a.codeId
  name := a.name
  objectKey := importedProGuardObjectKey projectID a
  sizeBytes := a.size
  checksum := nullIfEmpty a.checksum
  createdAt := nullIfEmpty a.createdAt
  kind := "proguard"
  contentType := none

/-- `upsertProGuardArtifact`: the creation time, kind and content type of a stored row stay. -/
def upsertProGuardArtifact (row : DebugFileRow) : Import PUnit :=
  statement fun db => (db.debugFiles.upsert row (fun s => s.id = row.id)
    fun s => { row with
      createdAt := s.createdAt, kind := s.kind, contentType := s.contentType }).map
    fun debugFiles => { db with debugFiles }

/-- The row of another debug file. -/
def debugFileRow : DebugFileRow where
  id := env.itemId item a.id
  projectId := projectID
  releaseVersion := a.releaseVersion
  uuid := a.uuid
  codeId := some a.codeId
  name := a.name
  objectKey := importedDebugFileObjectKey projectID a
  sizeBytes := a.size
  checksum := nullIfEmpty a.checksum
  createdAt := nullIfEmpty a.createdAt
  kind := nullOrDefault a.kind "native"
  contentType := nullIfEmpty a.contentType

/-- `upsertDebugFileArtifact`: the creation time of a stored row stays. -/
def upsertDebugFileArtifact (row : DebugFileRow) : Import PUnit :=
  statement fun db => (db.debugFiles.upsert row (fun s => s.id = row.id)
    fun s => { row with createdAt := s.createdAt }).map fun debugFiles => { db with debugFiles }

/-- The kinds that `upsertArtifactImport` tells apart. -/
inductive ArtifactKind
  | attachment
  | profileRaw
  | sourceMap
  | proGuard
  | debugFile
deriving DecidableEq

/-- The kind of an artifact. -/
def ArtifactImport.artifactKind : ArtifactKind :=
  let kind := trimSpace a.kind
  if kind = "attachment" then .attachment
  else if kind = "profile_raw" then .profileRaw
  else if kind = "source_map" then .sourceMap
  else if kind = "proguard" then .proGuard
  else .debugFile

/-- The switch of `upsertArtifactImport`, for a normalized artifact. -/
def importArtifactBody (body : Body) : Import PUnit :=
  match a.artifactKind with
  | .attachment => do
    upsertAttachmentArtifact (attachmentRow env item projectID a)
    putArtifactBody env (importedAttachmentObjectKey projectID a) body
  | .profileRaw => putArtifactBody env (importedProfileRawObjectKey projectID a) body
  | .sourceMap => do
    upsertSourceMapArtifact (sourceMapRow env item projectID a)
    putArtifactBody env (importedSourceMapObjectKey projectID a) body
  | .proGuard => do
    upsertProGuardArtifact (proGuardRow env item projectID a)
    putArtifactBody env (importedProGuardObjectKey projectID a) body
  | .debugFile => do
    upsertDebugFileArtifact (debugFileRow env item projectID a)
    putArtifactBody env (importedDebugFileObjectKey projectID a) body

/-- The checks of `upsertArtifactImport`. -/
def checkArtifact : Except String (ArtifactImport × Body) := do
  let body ← decodeArtifactBody env a.bodyBase64
  if trimSpace a.kind = "" then throw "artifact kind is required"
  else
    let a ← normalizeImportedArtifact env a body
    return (a, body)

/-- The import of an artifact. -/
def importArtifact : Import PUnit :=
  importItem env item ("artifact " ++ a.name) do
    let projectID ← resolveImportedProjectID orgID a.projectSlug
    match checkArtifact env a with
    | .error e => throw e
    | .ok (a, body) => importArtifactBody env item projectID a body

/-! ## Events -/

/-- The row of an event. -/
def eventRow (e : EventImport) : EventRow where
  id := env.itemId item e.id
  projectId := projectID
  eventId := e.eventId
  groupId := some e.groupId
  release := some e.release
  environment := some e.environment
  platform := some e.platform
  level := some e.level
  eventType := nullOrDefault e.eventType "error"
  title := some e.title
  culprit := some e.culprit
  message := some e.message
  tagsJson := some (if e.tags.isEmpty then "\x7b\x7d" else env.tagsJson e.tags)
  payloadJson := some (if e.payloadJson = "" then "\x7b\x7d" else e.payloadJson)
  summaryJson := ""
  occurredAt := some e.occurredAt
  ingestedAt := some (env.now item).datetime
  userIdentifier := some e.userIdentifier
  payloadKey := nullIfEmpty e.payloadKey
  processingStatus := .completed
  ingestError := ""

/-- What `materializeProfileEvent` does to the event: a profile without a payload key gets an object
and its key. -/
def materializeProfile (row : EventRow) : Import PUnit :=
  if row.eventType ≠ "profile" ∨ row.payloadKey ≠ none ∨ !env.hasBlobs then pure ⟨⟩
  else do
    let raw := env.bytes (row.payloadJson.getD "")
    let key := "profiles/" ++ sanitizeImportKeySegment row.projectId ++ "/" ++
      sanitizeImportKeySegment (env.guessProfileID item row.eventId raw) ++ ".json"
    putObject key raw
    statement fun db => (db.events.update (fun s => s.id = row.id)
      fun s => { s with payloadKey := some key }).map fun events => { db with events }
    match env.profileFails item with
    | some e => throw e
    | none => pure ⟨⟩

/-- The import of an event: `upsertEventImport` is an `INSERT OR REPLACE`. -/
def importEvent (e : EventImport) : Import PUnit :=
  importItem env item ("event " ++ e.eventId) do
    let projectID ← resolveImportedProjectID orgID e.projectSlug
    let row := eventRow env item projectID e
    statement fun db => some { db with events := db.events.insertOrReplace row }
    materializeProfile env item row

/-! ## Project keys, alert rules and members -/

/-- The row of a project key. -/
def projectKeyRow (k : ProjectKeyImport) :
    ProjectKeyRow where
  id := env.itemId item k.id
  projectId := projectID
  publicKey := k.publicKey
  secretKey := nullIfEmpty k.secretKey
  status := some (if trimSpace k.status = "" then "active" else trimSpace k.status)
  label := some k.label
  rateLimit := nullableInt k.rateLimit
  createdAt := nullIfEmpty k.createdAt

/-- The import of a project key, matched by its public key. -/
def importProjectKey (k : ProjectKeyImport) : Import PUnit :=
  importItem env item ("project key " ++ k.publicKey) do
    let projectID ← resolveImportedProjectID orgID k.projectSlug
    let row := projectKeyRow env item projectID k
    statement fun db => (db.projectKeys.upsert row (fun s => s.publicKey = row.publicKey)
      fun s => { row with id := s.id, createdAt := s.createdAt, lastUsedAt := s.lastUsedAt }).map
      fun projectKeys => { db with projectKeys }

/-- The rule of an alert rule in the payload. -/
def alertRule (a : AlertRuleImport) : AlertRule where
  id := env.itemId item a.id
  projectId := projectID
  name := trimSpace a.name
  ruleType := trimSpace a.ruleType
  status := nullOrDefault a.status "active"
  conditions := a.conditions
  actions := a.actions
  createdAt :=
    if env.parseOptionalTime a.createdAt = ⟨0⟩ then env.now item
    else env.parseOptionalTime a.createdAt

/-- The row of a rule. -/
def AlertRule.row (rule : AlertRule) : AlertRuleRow where
  id := rule.id
  projectId := rule.projectId
  name := rule.name
  status := some rule.status
  configJson := some (env.ruleJson rule)
  createdAt := some rule.createdAt.rfc3339

/-- The import of an alert rule: the creation time of a stored row stays. -/
def importAlertRule (a : AlertRuleImport) : Import PUnit :=
  importItem env item ("alert rule " ++ a.name) do
    let projectID ← resolveImportedProjectID orgID a.projectSlug
    let row := (alertRule env item projectID a).row env
    statement fun db => (db.alertRules.upsert row (fun s => s.id = row.id)
      fun s => { row with createdAt := s.createdAt }).map fun alertRules => { db with alertRules }

variable (m : MemberImport)

/-- The row of a user. -/
def userRow : UserRow where
  id := env.itemId item m.id
  email := env.lib.lower (trimSpace m.email)
  displayName := trimSpace m.displayName
  isActive := if m.isActive then 1 else 0
  createdAt := nullIfEmpty m.createdAt
  updatedAt := some (env.now item).rfc3339

/-- A stored user after an upsert of `row`. -/
def UserRow.overwrite (row stored : UserRow) : UserRow :=
  { stored with
    email := row.email
    displayName := row.displayName
    isActive := row.isActive
    updatedAt := row.updatedAt }

/-- The row of a membership. -/
def memberRow : MemberRow where
  id := env.newMembershipId item.index
  organizationId := orgID
  userId := env.itemId item m.id
  role := nullOrDefault m.role "member"
  createdAt := nullIfEmpty m.createdAt

/-- The import of a member: the user is matched by its id, the membership by organization and
user. -/
def importMember : Import PUnit :=
  importItem env item ("member " ++ m.email) <|
    if trimSpace m.email = "" then throw "email is required"
    else do
      let user := userRow env item m
      statement fun db => (db.users.upsert user (fun s => s.id = user.id) user.overwrite).map
        fun users => { db with users }
      let member := memberRow env orgID item m
      statement fun db => (db.members.upsert member
        (fun s => s.organizationId = member.organizationId ∧ s.userId = member.userId)
        fun s => { s with role := member.role }).map fun members => { db with members }

/-! ## The import -/

/-- One loop of the import. -/
def importSection {α : Type} (kind : ImportSection) (items : List α)
    (f : ImportItem → α → Import PUnit) : Import PUnit :=
  items.zipIdx.foldlM (fun _ x => f ⟨kind, x.2⟩ x.1) ⟨⟩

variable (payload : ImportPayload)

/-- `importOrganizationPayload`. -/
def importOrganizationPayload : Import PUnit := do
  importSection .projects payload.projects (importProject env orgID)
  importSection .releases payload.releases (importRelease env orgID)
  importSection .issues payload.issues (importIssue env orgID)
  importSection .artifacts payload.artifacts (importArtifact env orgID)
  importSection .events payload.events (importEvent env orgID)
  importSection .projectKeys payload.projectKeys (importProjectKey env orgID)
  importSection .alertRules payload.alertRules (importAlertRule env orgID)
  importSection .members payload.members (importMember env orgID)

/-- The counts of a successful import. -/
def ImportPayload.result : ImportResult where
  projectsImported := payload.projects.length
  releasesImported := payload.releases.length
  issuesImported := payload.issues.length
  artifactsImported := payload.artifacts.length
  artifactsVerified := payload.artifacts.length
  eventsImported := payload.events.length
  projectKeysImported := payload.projectKeys.length
  alertRulesImported := payload.alertRules.length
  membersImported := payload.members.length

/-- `cleanupImportedBlobs`. -/
def cleanupImportedBlobs (blobs : String → Option Body) (keys : List String) :
    String → Option Body :=
  keys.reverse.foldl (fun blobs key => Function.update blobs key none) blobs

/-- `ImportOrganizationPayload`: the result, and the rows and objects afterwards. -/
def importOrganization (db : ImportDb) (blobs : String → Option Body) :
    Except String ImportResult × ImportDb × (String → Option Body) :=
  match env.beginFails with
  | some e => (.error e, db, blobs)
  | none =>
    match (importOrganizationPayload env orgID payload).exec { db, blobs }, env.commitFails with
    | (.error e, s), _ => (.error e, db, cleanupImportedBlobs s.blobs s.blobKeys)
    | (.ok _, s), some e => (.error e, db, cleanupImportedBlobs s.blobs s.blobKeys)
    | (.ok _, s), none => (.ok payload.result, s.db, s.blobs)

/-- `ValidateOrganizationPayload`: an import that is undone however it ends. When there was no error
the rollback may fail; the rows are not kept then either. -/
def validateOrganization (db : ImportDb) (blobs : String → Option Body) :
    Except String ImportResult × ImportDb × (String → Option Body) :=
  match env.beginFails with
  | some e => (.error e, db, blobs)
  | none =>
    match (importOrganizationPayload env orgID payload).exec { db, blobs }, env.rollbackFails with
    | (.error e, s), _ => (.error e, db, cleanupImportedBlobs s.blobs s.blobKeys)
    | (.ok _, s), some e => (.error e, db, cleanupImportedBlobs s.blobs s.blobKeys)
    | (.ok _, s), none =>
      (.ok { payload.result with dryRun := true }, db, cleanupImportedBlobs s.blobs s.blobKeys)

end Urgentry
