import Urgentry.GoLib
import Mathlib.Data.List.Dedup

/-!
# Discover queries

The query language of the discover surface: a data set, a scope, a selection, a tree of predicates
and a time range, as a client sends them. All names in it are texts that the client chose;
`normalizeQuery` trims and lower-cases them, and the validator decides afterwards which of them
exist.
-/

namespace Urgentry.Discover

/-- `discover.Scope`. -/
structure Scope where
  kind : String := ""
  organization : String := ""
  projectId : String := ""
  projectIds : List String := []
deriving DecidableEq

/-- `discover.Expression`: a field, a call or the name of a selected item. -/
inductive Expression
  | mk (field call : String) (args : List Expression) (aliasName : String)

namespace Expression

def field : Expression → String
  | mk field _ _ _ => field

def call : Expression → String
  | mk _ call _ _ => call

def args : Expression → List Expression
  | mk _ _ args _ => args

def aliasName : Expression → String
  | mk _ _ _ aliasName => aliasName

end Expression

/-- `discover.Predicate`: a connective over `args`, or a comparison of `field` with `value` or
`values`. -/
inductive Predicate
  | mk (op : String) (args : List Predicate) (field value : String) (values : List String)

namespace Predicate

def op : Predicate → String
  | mk op _ _ _ _ => op

def args : Predicate → List Predicate
  | mk _ args _ _ _ => args

def field : Predicate → String
  | mk _ _ field _ _ => field

end Predicate

/-- `discover.SelectItem`. -/
structure SelectItem where
  aliasName : String := ""
  expr : Expression

/-- `discover.OrderBy`. -/
structure OrderBy where
  expr : Expression
  direction : String := ""
  nulls : String := ""

/-- `discover.TimeRange`. -/
structure TimeRange where
  kind : String
  value : String := ""
  start : String := ""
  stop : String := ""
deriving DecidableEq

/-- `discover.Rollup`. -/
structure Rollup where
  interval : String
  buckets : ℤ := 0
deriving DecidableEq

/-- `discover.Query`. -/
structure Query where
  version : ℤ := 0
  dataset : String
  scope : Scope
  select : List SelectItem := []
  filter : Option Predicate := none
  groupBy : List Expression := []
  rollup : Option Rollup := none
  orderBy : List OrderBy := []
  timeRange : Option TimeRange := none
  limit : ℤ := 0
  cursor : String := ""

/-- `CurrentVersion`. -/
def currentVersion : ℤ := 1

section Normalize

variable (lib : GoLib)

open GoText (trimSpace)

mutual

/-- `normalizeExpr`. -/
def normalizeExpr : Expression → Expression
  | .mk field call args aliasName =>
    .mk (lib.canonical field) (lib.canonical call) (normalizeExprs args) (trimSpace aliasName)

/-- The arguments of an expression. -/
def normalizeExprs : List Expression → List Expression
  | [] => []
  | e :: es => normalizeExpr e :: normalizeExprs es

end

mutual

/-- `normalizePredicate`. -/
def normalizePredicate : Predicate → Predicate
  | .mk op args field value values =>
    .mk (lib.canonical op) (normalizePredicates args) (lib.canonical field) (trimSpace value)
      (values.map trimSpace)

/-- The arguments of a predicate. -/
def normalizePredicates : List Predicate → List Predicate
  | [] => []
  | p :: ps => normalizePredicate p :: normalizePredicates ps

end

/-- The project ids of a scope: trimmed, without empty ones, each once, in order. -/
def normalizeProjectIds (ids : List String) : List String :=
  (((ids.map trimSpace).filter (· ≠ "")).dedup).mergeSort (· ≤ ·)

/-- The default for an empty text. -/
def orDefault (s default : String) : String := if s = "" then default else s

/-- `normalizeQuery`. -/
def normalizeQuery (q : Query) : Query where
  version := currentVersion
  dataset := lib.canonical q.dataset
  scope :=
    { kind := lib.canonical q.scope.kind
      organization := trimSpace q.scope.organization
      projectId := trimSpace q.scope.projectId
      projectIds := normalizeProjectIds q.scope.projectIds }
  select := q.select.map fun item =>
    { aliasName := trimSpace item.aliasName, expr := normalizeExpr lib item.expr }
  filter := q.filter.map (normalizePredicate lib)
  groupBy := q.groupBy.map (normalizeExpr lib)
  rollup := q.rollup.map fun r => { r with interval := trimSpace r.interval }
  orderBy := q.orderBy.map fun o =>
    { expr := normalizeExpr lib o.expr
      direction := orDefault (lib.canonical o.direction) "asc"
      nulls := orDefault (lib.canonical o.nulls) "last" }
  timeRange := q.timeRange.map fun t =>
    { kind := lib.canonical t.kind, value := trimSpace t.value
      start := trimSpace t.start, stop := trimSpace t.stop }
  limit := if q.limit = 0 then 50 else q.limit
  cursor := trimSpace q.cursor

end Normalize

end Urgentry.Discover
