import Urgentry.Discover.Sql

/-!
# The discover engine on SQLite

The three data sets that the engine reads, and the statement it sends for each of them: the columns
of the data set, the clauses of the scope, and the plan of the query. The statement of every data
set is built in the same way from a description of the data set (`Source`). -/

namespace Urgentry.Discover

/-- A data set of the engine: where its rows come from, the clause that all of them meet, and the
expressions of its fields. -/
structure Source where
  (base clause : String)
  fields : List (String × String)
  (timestampExpr defaultOrder : String)

namespace Source

/-- `issueFieldExpr`, `logsFieldExpr` and `transactionFieldExpr`, on the fields of the source. -/
def fieldExpr (src : Source) (lib : GoLib) (field : String) : Option String :=
  src.fields.lookup (lib.canonical field)

/-- The configuration that the engine passes to `planFilter`. -/
def config (src : Source) (lib : GoLib) : FilterPlanConfig where
  builder := sqliteArgBuilder
  fieldExpr := src.fieldExpr lib
  timestampExpr := src.timestampExpr
  defaultOrder := src.defaultOrder

/-- The source of `buildIssuesFetchSQL`. -/
def issues : Source where
  base := "SELECT g.id, p.id, p.slug, COALESCE(p.name, p.slug), COALESCE(p.platform, ''),\n\t\t"
    ++ "(SELECT COALESCE(MAX(e.release), '') FROM events e WHERE e.group_id = g.id),\n\t\t"
    ++ "(SELECT COALESCE(MAX(e.environment), '') FROM events e WHERE e.group_id = g.id),\n\t\t"
    ++ "g.title, g.culprit, g.level, g.status, g.first_seen, g.last_seen, g.times_seen,\n\t\t"
    ++ "COALESCE(g.short_id, 0), COALESCE(g.priority, 2), COALESCE(g.assignee, '')\n\t"
    ++ "FROM groups g\n\tJOIN projects p ON p.id = g.project_id\n\t"
    ++ "JOIN organizations o ON o.id = p.organization_id"
  clause := "1=1"
  fields := [("project", "p.slug"), ("project.id", "p.id"), ("issue.id", "g.id"),
    ("issue.short_id", "CAST(COALESCE(g.short_id, 0) AS TEXT)"), ("title", "g.title"),
    ("culprit", "g.culprit"), ("level", "LOWER(COALESCE(g.level, ''))"),
    ("status", "LOWER(COALESCE(g.status, ''))"), ("assignee", "COALESCE(g.assignee, '')"),
    ("first_seen", "g.first_seen"), ("last_seen", "g.last_seen"), ("timestamp", "g.last_seen"),
    ("count", "g.times_seen"),
    ("release", "(SELECT COALESCE(MAX(e.release), '') FROM events e WHERE e.group_id = g.id)"),
    ("environment",
      "(SELECT COALESCE(MAX(e.environment), '') FROM events e WHERE e.group_id = g.id)"),
    ("event.type",
      "(SELECT LOWER(COALESCE(MAX(e.event_type), 'error')) FROM events e WHERE e.group_id = g.id)")]
  timestampExpr := "g.last_seen"
  defaultOrder := "g.last_seen DESC"

/-- The source of `buildLogsFetchSQL`. -/
def logs : Source where
  base := "SELECT e.event_id, p.id, p.slug, COALESCE(e.title, ''), COALESCE(e.message, ''), "
    ++ "COALESCE(e.level, ''),\n\t\tCOALESCE(e.platform, ''), COALESCE(e.culprit, ''), "
    ++ "COALESCE(e.environment, ''), COALESCE(e.release, ''),\n\t\t"
    ++ "COALESCE(json_extract(e.payload_json, '$.logger'), ''),\n\t\t"
    ++ "COALESCE(json_extract(e.payload_json, '$.contexts.trace.trace_id'), ''),\n\t\t"
    ++ "COALESCE(json_extract(e.payload_json, '$.contexts.trace.span_id'), ''),\n\t\t"
    ++ "COALESCE(e.occurred_at, e.ingested_at, ''), COALESCE(e.tags_json, '\x7b\x7d')\n\t"
    ++ "FROM events e\n\tJOIN projects p ON p.id = e.project_id\n\t"
    ++ "JOIN organizations o ON o.id = p.organization_id"
  clause := "LOWER(COALESCE(e.event_type, 'error')) = 'log'"
  fields := [("project", "p.slug"), ("project.id", "p.id"), ("release", "COALESCE(e.release, '')"),
    ("environment", "COALESCE(e.environment, '')"), ("platform", "COALESCE(e.platform, '')"),
    ("event.type", "LOWER(COALESCE(e.event_type, 'error'))"),
    ("timestamp", "COALESCE(e.occurred_at, e.ingested_at, '')"), ("event.id", "e.event_id"),
    ("title", "COALESCE(e.title, '')"), ("message", "COALESCE(e.message, '')"),
    ("logger", "COALESCE(json_extract(e.payload_json, '$.logger'), '')"),
    ("level", "LOWER(COALESCE(e.level, ''))"), ("culprit", "COALESCE(e.culprit, '')"),
    ("trace.id", "COALESCE(json_extract(e.payload_json, '$.contexts.trace.trace_id'), '')"),
    ("span.id", "COALESCE(json_extract(e.payload_json, '$.contexts.trace.span_id'), '')"),
      ("count", "1")]
  timestampExpr := "COALESCE(e.occurred_at, e.ingested_at, '')"
  defaultOrder := "COALESCE(e.occurred_at, e.ingested_at, '') DESC"

/-- The source of `buildTransactionsFetchSQL`. -/
def transactions : Source where
  base := "SELECT t.event_id, p.id, p.slug, t.transaction_name, COALESCE(t.op, ''), "
    ++ "COALESCE(t.status, ''),\n\t\tCOALESCE(t.platform, ''), COALESCE(t.environment, ''), "
    ++ "COALESCE(t.release, ''), t.trace_id, t.span_id,\n\t\t"
    ++ "t.start_timestamp, t.end_timestamp, t.duration_ms, t.created_at\n\t"
    ++ "FROM transactions t\n\tJOIN projects p ON p.id = t.project_id\n\t"
    ++ "JOIN organizations o ON o.id = p.organization_id"
  clause := "1=1"
  fields := [("project", "p.slug"), ("project.id", "p.id"), ("release", "COALESCE(t.release, '')"),
    ("environment", "COALESCE(t.environment, '')"), ("platform", "COALESCE(t.platform, '')"),
    ("event.type", "'transaction'"), ("timestamp", "t.created_at"), ("event.id", "t.event_id"),
    ("transaction", "t.transaction_name"), ("op", "COALESCE(t.op, '')"),
    ("status", "COALESCE(t.status, '')"), ("trace.id", "COALESCE(t.trace_id, '')"),
    ("span.id", "COALESCE(t.span_id, '')"), ("duration.ms", "t.duration_ms"), ("count", "1")]
  timestampExpr := "t.created_at"
  defaultOrder := "t.created_at DESC"

end Source

/-- `applyScopeClauses`: the clauses that it appends. -/
def scopeClauses (scope : Scope) : Build (List String) :=
  match scope.kind with
  | "project" => do return ["p.id = " ++ (← sqliteArgBuilder.add (.text scope.projectId))]
  | "organization" => do
    let organization ← sqliteArgBuilder.add (.text scope.organization)
    if scope.projectIds = [] then return ["o.slug = " ++ organization]
    else
      let projects ← sqliteArgBuilder.addAll scope.projectIds
      return ["o.slug = " ++ organization, "p.id IN (" ++ projects ++ ")"]
  | _ => return []

/-- `buildIssuesFetchSQL`, `buildLogsFetchSQL` and `buildTransactionsFetchSQL`, on their source: the
statement and the limit. The arguments are those that the action collects. -/
def buildFetchSQL (src : Source) (lib : GoLib) (now : Instant) (q : Query) (limit : ℤ) :
    Build (String × ℤ) := do
  let scope ← scopeClauses q.scope
  let plan ← planFilter lib now (src.config lib) q limit
  return (assembleSQL src.base (src.clause :: scope) plan, plan.limit)

/-- `DefaultFetchLimit`. -/
def defaultFetchLimit (queryLimit scanLimit : ℤ) : ℤ :=
  let limit := if scanLimit ≤ 0 then queryLimit else scanLimit
  if limit ≤ 0 then 50 else limit

/-- The source of a data set that the engine reads. -/
def sourceOf : String → Option Source
  | "issues" => some .issues
  | "logs" => some .logs
  | "transactions" => some .transactions
  | _ => none

/-- `buildDiscoverFetchSQL`. -/
def buildDiscoverFetchSQL (lib : GoLib) (now : Instant) (q : Query) (limit : ℤ) :
    Build (String × ℤ) :=
  match sourceOf q.dataset with
  | none => throw ("unsupported discover dataset " ++ q.dataset.quote)
  | some src => buildFetchSQL src lib now q (defaultFetchLimit q.limit limit)

end Urgentry.Discover
