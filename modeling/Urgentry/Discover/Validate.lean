import Urgentry.Discover.Query

/-!
# Validation of discover queries

`validateQuery` normalises a query and checks it: the names against the catalogue of the data set,
the shape of expressions and predicates, and a cost estimate. It collects all the errors and accepts
a query without any.

What the compiler relies on is the shape of the predicate tree. `Predicate.Shaped` says it: a
connective has arguments, a negation exactly one, and everything else is a comparison. It is what
acceptance leaves of the predicate (`shaped_of_validateQuery`).
-/

namespace Urgentry.Discover

open List

/-- `valueType`. -/
inductive ValueType
  | string
  | enum
  | number
  | timestamp
deriving DecidableEq

/-- `fieldSpec`. -/
structure FieldSpec where
  type : ValueType
  measure : Bool
deriving DecidableEq

/-- Fields of one type that are not measures. -/
def fields (type : ValueType) (names : List String) : List (String × FieldSpec) :=
  names.map (·, ⟨type, false⟩)

/-- Numeric measures. -/
def measures (names : List String) : List (String × FieldSpec) :=
  names.map (·, ⟨.number, true⟩)

/-- `datasetCatalog`. -/
def datasetCatalog : String → Option (List (String × FieldSpec))
  | "issues" => some <|
    fields .string ["project", "project.id", "release", "environment", "issue.id",
      "issue.short_id", "title", "culprit", "assignee"]
      ++ fields .enum ["event.type", "level", "status"]
      ++ fields .timestamp ["timestamp", "first_seen", "last_seen"]
      ++ measures ["count"]
  | "logs" => some <|
    fields .string ["project", "project.id", "release", "environment", "platform", "event.id",
      "title", "message", "logger", "culprit", "trace.id", "span.id"]
      ++ fields .enum ["event.type", "level"]
      ++ fields .timestamp ["timestamp"]
      ++ measures ["count"]
  | "transactions" => some <|
    fields .string ["project", "project.id", "release", "environment", "platform", "event.id",
      "transaction", "op", "trace.id", "span.id"]
      ++ fields .enum ["event.type", "status"]
      ++ fields .timestamp ["timestamp"]
      ++ measures ["duration.ms", "count"]
  | "spans" => some <|
    fields .string ["project", "project.id", "trace.id", "span.id", "parent.span_id",
      "transaction", "op", "description"]
      ++ fields .enum ["status"]
      ++ fields .timestamp ["timestamp"]
      ++ measures ["duration.ms", "count"]
  | _ => none

/-- An entry of `aggregateCatalog`: the data sets, the number of arguments, and the field that the
argument has to be, or the empty text. -/
structure Aggregate where
  datasets : List String
  args : ℕ
  field : String

/-- The data sets with durations. -/
def timedDatasets : List String := ["transactions", "spans"]

/-- All the data sets. -/
def allDatasets : List String := ["issues", "logs", "transactions", "spans"]

/-- `aggregateCatalog`. -/
def aggregateCatalog : String → Option Aggregate
  | "count" => some ⟨allDatasets, 0, ""⟩
  | "avg" | "p50" | "p95" | "max" | "min" | "p75" | "p99" | "sum" | "apdex" =>
    some ⟨timedDatasets, 1, "duration.ms"⟩
  | "count_unique" => some ⟨allDatasets, 1, ""⟩
  | "failure_rate" => some ⟨timedDatasets, 0, ""⟩
  | _ => none

/-- `ValidationError`. -/
structure ValidationError where
  (code path message : String)
deriving DecidableEq

/-- `CostClass`. -/
inductive CostClass
  | cheap
  | interactive
  | reject
deriving DecidableEq

/-- `CostEstimate`. -/
structure CostEstimate where
  cls : CostClass
  score : ℤ
  reason : String := ""
deriving DecidableEq

/-- `fmt.Sprintf("%s[%d]", name, i)`. -/
def indexed (name : String) (i : ℕ) : String := name ++ "[" ++ toString i ++ "]"

section Validate

variable (lib : GoLib)

/-- `lookupField`. -/
def lookupField (dataset field : String) : Option FieldSpec :=
  (datasetCatalog dataset).bind fun specs => specs.lookup (lib.canonical field)

/-! ## Expressions -/

/-- What `validateExpression` returns: the type, whether the expression is an aggregate, the name of
the field, and the errors. -/
structure ExprCheck where
  type : Option ValueType
  aggregate : Bool
  field : String
  errs : List ValidationError

/-- `validateExpression`. -/
def validateExpression (dataset : String) (path : String) (allowAlias : Bool) :
    Expression → ExprCheck
  | .mk field call args aliasName =>
    let populated := [field, call, aliasName].countP (· ≠ "")
    if populated ≠ 1 then
      ⟨none, false, "", [⟨"invalid_expression", path,
        "expression must set exactly one of field, call, or alias"⟩]⟩
    else if aliasName ≠ "" then
      if allowAlias then ⟨some .string, false, "", []⟩
      else
        ⟨none, false, "",
        [⟨"alias_not_allowed", path, "alias references are only allowed in order_by"⟩]⟩
    else if field ≠ "" then
      match lookupField lib dataset field with
      | none => ⟨none, false, field, [⟨"unknown_field", path,
          "unknown field " ++ field.quote ++ " for dataset " ++ dataset.quote⟩]⟩
      | some spec => ⟨some spec.type, false, field, []⟩
    else
      match aggregateCatalog call with
      | none => ⟨none, true, "", [⟨"unknown_function", path, "unknown aggregate " ++ call.quote⟩]⟩
      | some def_ =>
        let unsupported : List ValidationError :=
          if def_.datasets.contains dataset then [] else [⟨"unsupported_function", path,
            "aggregate " ++ call.quote ++ " is not supported for dataset " ++ dataset.quote⟩]
        if args.length ≠ def_.args then
          ⟨some .number, true, "", unsupported ++ [⟨"invalid_argument_count", path,
            "aggregate " ++ call.quote ++ " expects " ++ toString def_.args ++ " args"⟩]⟩
        else
          match args with
          | [arg] =>
            let check := validateExpression dataset (path ++ ".args[0]") false arg
            let nested : List ValidationError :=
              if check.aggregate then [⟨"nested_aggregate", path,
                "aggregate arguments cannot contain aggregates"⟩] else []
            let measure : List ValidationError :=
              if def_.field ≠ "" ∧ check.field ≠ def_.field then [⟨"invalid_measure", path,
                "aggregate " ++ call.quote ++ " requires field " ++ def_.field.quote⟩] else []
            let numeric : List ValidationError :=
              if check.type ≠ some .number then [⟨"invalid_argument_type", path,
                "aggregate " ++ call.quote ++ " requires a numeric field"⟩] else []
            ⟨some .number, true, "", unsupported ++ check.errs ++ nested ++ measure ++ numeric⟩
          | _ => ⟨some .number, true, "", unsupported⟩

/-- `validateOrderExpression`; only the errors are used. -/
def validateOrderExpression (dataset : String) (expr : Expression) (path : String)
    (aliases : List String) : List ValidationError :=
  if expr.aliasName ≠ "" then
    if aliases.contains expr.aliasName then []
    else [⟨"unknown_alias", path, "unknown alias " ++ expr.aliasName.quote⟩]
  else (validateExpression lib dataset path true expr).errs

/-! ## Predicates -/

/-- The operators of a comparison. -/
def comparisons : List String :=
  ["=", "!=", "contains", "prefix", ">", ">=", "<", "<=", "is_null", "not_null", "in"]

/-- The checks of `validatePredicate` on a comparison. -/
def validateComparison (dataset path op field value : String) (values : List String) :
    List ValidationError :=
  match lookupField lib dataset field with
  | none =>
    [⟨"unknown_field", path, "unknown field " ++ field.quote ++ " for dataset " ++ dataset.quote⟩]
  | some spec =>
    if ¬ comparisons.contains op then
      [⟨"unsupported_operator", path, "unsupported operator " ++ op.quote⟩]
    else match op with
      | "contains" | "prefix" =>
        if spec.type ≠ .string ∧ spec.type ≠ .enum then
          [⟨"invalid_operator_type", path, op ++ " requires a string field"⟩]
        else if value = "" then [⟨"missing_value", path, op ++ " requires a value"⟩]
        else []
      | ">" | ">=" | "<" | "<=" =>
        match spec.type with
        | .number =>
          if lib.isFloat value then []
          else [⟨"invalid_number", path, "invalid numeric value " ++ value.quote⟩]
        | .timestamp =>
          if (lib.parseRFC3339 value).isSome then []
          else [⟨"invalid_timestamp", path, "invalid timestamp " ++ value.quote⟩]
        | _ =>
          [⟨"invalid_operator_type", path, op ++ " is not supported for field " ++ field.quote⟩]
      | "in" => if values = [] then [⟨"missing_value", path, "in requires values"⟩] else []
      | "is_null" | "not_null" => []
      | _ => if value = "" then [⟨"missing_value", path, op ++ " requires a value"⟩] else []

mutual

/-- `validatePredicate`. -/
def validatePredicate (dataset path : String) : Predicate → List ValidationError
  | .mk op args field value values =>
    if op = "and" ∨ op = "or" then
      if args = [] then [⟨"missing_args", path, op ++ " requires args"⟩]
      else validatePredicates dataset path 0 args
    else if op = "not" then
      if args.length ≠ 1 then
        [⟨"invalid_not", path, "not requires exactly one child predicate"⟩]
      else validatePredicates dataset path 0 args
    else validateComparison lib dataset path op field value values

/-- The arguments of a connective, from position `i` on. -/
def validatePredicates (dataset path : String) (i : ℕ) : List Predicate → List ValidationError
  | [] => []
  | p :: ps => validatePredicate dataset (path ++ "." ++ indexed "args" i) p
      ++ validatePredicates dataset path (i + 1) ps

end

/-! ## Time ranges, rollups, cost -/

/-- `validateTimeRange`. -/
def validateTimeRange (t : TimeRange) : List ValidationError :=
  match t.kind with
  | "relative" =>
    if GoText.trimSpace t.value = "" then
      [⟨"missing_time_range", "time_range.value", "relative time_range requires a value"⟩]
    else []
  | "absolute" =>
    if GoText.trimSpace t.start = "" ∨ GoText.trimSpace t.stop = "" then
      [⟨"missing_time_range", "time_range", "absolute time_range requires start and end"⟩]
    else if (lib.parseRFC3339 t.start).isNone then
      [⟨"invalid_timestamp", "time_range.start", "invalid timestamp " ++ t.start.quote⟩]
    else if (lib.parseRFC3339 t.stop).isNone then
      [⟨"invalid_timestamp", "time_range.end", "invalid timestamp " ++ t.stop.quote⟩]
    else []
  | kind =>
    [⟨"invalid_time_range", "time_range.kind", "unsupported time_range kind " ++ kind.quote⟩]

/-- `validateRollup`. -/
def validateRollup (r : Rollup) (hasTimeRange : Bool) : List ValidationError :=
  if ¬ hasTimeRange then
    [⟨"missing_time_range", "rollup", "rollup requires an explicit time_range"⟩]
  else if GoText.trimSpace r.interval = "" then
    [⟨"invalid_rollup", "rollup.interval", "rollup interval is required"⟩]
  else []

/-- The data sets whose rows are events or spans. -/
def wideDatasets : List String := ["logs", "transactions", "spans"]

/-- `estimateCost`. -/
def estimateCost (q : Query) : CostEstimate :=
  let base : ℤ := match q.dataset with
    | "issues" => 1
    | "logs" | "transactions" => 4
    | "spans" => 5
    | _ => 0
  let projectCount : ℤ :=
    if q.scope.kind = "organization" then
      if q.scope.projectIds ≠ [] then q.scope.projectIds.length
      else if wideDatasets.contains q.dataset then 3
      else 1
    else 1
  let score := base + projectCount
    + (if q.select.length > 1 then (q.select.length : ℤ) - 1 else 0)
    + q.groupBy.length
    + (if q.rollup.isSome then 2 else 0)
    + (if q.limit > 50 then q.limit / 25 else 0)
  if q.timeRange.isNone ∧ q.scope.kind = "organization" ∧ wideDatasets.contains q.dataset then
    ⟨.reject, score + 10, "organization-scoped logs, transactions, and spans queries require an "
      ++ "explicit bounded time range"⟩
  else if score ≥ 14 then
    ⟨.reject, score, "query exceeds the phase-1 interactive cost budget"⟩
  else if score ≥ 7 then ⟨.interactive, score, ""⟩
  else ⟨.cheap, score, ""⟩

/-! ## Queries -/

/-- The check of the scope. -/
def validateScope (scope : Scope) : List ValidationError :=
  match scope.kind with
  | "organization" =>
    if scope.organization = "" then [⟨"missing_scope", "scope.organization",
      "organization scope requires an organization slug"⟩] else []
  | "project" =>
    if scope.projectId = "" then [⟨"missing_scope", "scope.project_id",
      "project scope requires a project id"⟩] else []
  | kind => [⟨"invalid_scope", "scope.kind", "unsupported scope kind " ++ kind.quote⟩]

variable (dataset : String)

/-- The check of one `group_by` expression: the errors, and the field it groups by. -/
def validateGroupBy (i : ℕ) (expr : Expression) : List ValidationError × Option String :=
  let path := indexed "group_by" i
  let check := validateExpression lib dataset path false expr
  if check.aggregate then
    (check.errs ++
      [⟨"aggregate_not_allowed", path, "group_by cannot contain aggregate expressions"⟩], none)
  else
    let measure : List ValidationError :=
      if check.type = some .number ∧ (lookupField lib dataset check.field).any (·.measure) then
        [⟨"measure_not_groupable", path, "measures cannot be used in group_by"⟩]
      else []
    (check.errs ++ measure, some check.field)

/-- The check of one selected item, given the names selected before it and the fields of
`group_by`. -/
def validateSelectItem (groupedFields earlier : List String) (i : ℕ)
    (item : SelectItem) : List ValidationError :=
  let path := indexed "select" i
  let duplicate : List ValidationError :=
    if item.aliasName ≠ "" ∧ earlier.contains item.aliasName then
      [⟨"duplicate_alias", path ++ ".alias", "duplicate alias " ++ item.aliasName.quote⟩]
    else []
  let check := validateExpression lib dataset (path ++ ".expr") false item.expr
  let grouped : List ValidationError :=
    if ¬ check.aggregate ∧ groupedFields ≠ [] ∧ ¬ groupedFields.contains check.field then
      [⟨"missing_group_by", path, "field " ++ check.field.quote
        ++ " must appear in group_by when aggregates are selected"⟩]
    else []
  duplicate ++ check.errs ++ grouped

/-- The check of one `order_by` item. -/
def validateOrderBy (aliases : List String) (i : ℕ) (order : OrderBy) : List ValidationError :=
  let path := indexed "order_by" i
  let direction : List ValidationError :=
    if order.direction ≠ "asc" ∧ order.direction ≠ "desc" then
      [⟨"invalid_order_direction", path ++ ".direction", "direction must be asc or desc"⟩]
    else []
  let nulls : List ValidationError :=
    if order.nulls ≠ "first" ∧ order.nulls ≠ "last" then
      [⟨"invalid_nulls", path ++ ".nulls", "nulls must be first or last"⟩]
    else []
  validateOrderExpression lib dataset order.expr (path ++ ".expr") aliases ++ direction ++ nulls

variable (q : Query)

/-- The checks of `select`, `group_by` and `order_by`. -/
def validateSelection : List ValidationError :=
  let groupBy := q.groupBy.zipIdx.map fun (expr, i) => validateGroupBy lib q.dataset i expr
  let groupedFields := groupBy.filterMap (·.2)
  let aliases := (q.select.map (·.aliasName)).filter (· ≠ "")
  let select := q.select.zipIdx.flatMap fun (item, i) =>
    validateSelectItem lib q.dataset groupedFields ((q.select.take i).map (·.aliasName)) i item
  let isAggregate (item : SelectItem) : Bool :=
    (validateExpression lib q.dataset "" false item.expr).aggregate
  let mixed : List ValidationError :=
    if q.select.any isAggregate ∧ ¬ q.select.all isAggregate ∧ groupedFields = [] then
      [⟨"missing_group_by", "select", "mixed aggregate and field selection requires group_by"⟩]
    else []
  let missing : List ValidationError :=
    if q.select = [] ∧ (q.groupBy ≠ [] ∨ q.orderBy ≠ []) then
      [⟨"missing_select", "select", "select is required when group_by or order_by is present"⟩]
    else []
  let orderBy := q.orderBy.zipIdx.flatMap fun (order, i) =>
    validateOrderBy lib q.dataset aliases i order
  groupBy.flatMap (·.1) ++ select ++ mixed ++ missing ++ orderBy

/-- All the errors of a normalised query whose limit was filled in. -/
def validationErrors : List ValidationError :=
  let version : List ValidationError :=
    if q.version ≠ currentVersion then [⟨"invalid_version", "version",
      "unsupported version " ++ toString q.version⟩] else []
  let dataset : List ValidationError :=
    if (datasetCatalog q.dataset).isNone then [⟨"invalid_dataset", "dataset",
      "unsupported dataset " ++ q.dataset.quote⟩] else []
  let limit : List ValidationError :=
    if q.limit > 200 then [⟨"limit_too_large", "limit", "limit cannot exceed 200"⟩] else []
  let filter := q.filter.elim [] (validatePredicate lib q.dataset "where")
  let timeRange := q.timeRange.elim [] (validateTimeRange lib)
  let rollup := q.rollup.elim [] fun r => validateRollup r q.timeRange.isSome
    ++ if q.groupBy ≠ [] then [⟨"unsupported_group_by", "group_by",
      "phase-1 rollups support only the time bucket dimension"⟩] else []
  let cost := estimateCost q
  let reject : List ValidationError :=
    if cost.cls = .reject then [⟨"query_cost_reject", "query", cost.reason⟩] else []
  version ++ dataset ++ validateScope q.scope ++ limit ++ validateSelection lib q ++ filter
    ++ timeRange ++ rollup ++ reject

/-- The query that the checks are made on, and that is returned: normalised, with the limit filled
in. -/
def preparedQuery : Query :=
  let q := normalizeQuery lib q
  { q with limit := if q.limit ≤ 0 then 50 else q.limit }

/-- `ValidateQuery`: the prepared query with its cost, or the errors. -/
def validateQuery : Except (List ValidationError) (Query × CostEstimate) :=
  if validationErrors lib (preparedQuery lib q) = [] then
    .ok (preparedQuery lib q, estimateCost (preparedQuery lib q))
  else .error (validationErrors lib (preparedQuery lib q))

/-- What acceptance says: the result is the prepared query with its cost, and the checks found
nothing. -/
theorem validateQuery_eq_ok {q₀ q : Query} {cost : CostEstimate} :
    validateQuery lib q₀ = .ok (q, cost) ↔
      q = preparedQuery lib q₀ ∧ cost = estimateCost q ∧ validationErrors lib q = [] := by
  rw [validateQuery]
  split_ifs with herrs
  · rw [Except.ok.injEq, Prod.mk.injEq]
    constructor
    · rintro ⟨rfl, rfl⟩
      exact ⟨rfl, rfl, herrs⟩
    · rintro ⟨rfl, rfl, -⟩
      exact ⟨rfl, rfl⟩
  · refine iff_of_false (fun h => nomatch h) ?_
    rintro ⟨rfl, -, h⟩
    exact herrs h

/-! ## The names of the catalogue -/

/-- The names of the fields that the validator knows. -/
def catalogNames : List String := ((datasetCatalog dataset).getD []).map Prod.fst

theorem lookup_isSome_iff {β : Type} (table : List (String × β)) (name : String) :
    (table.lookup name).isSome = true ↔ name ∈ table.map Prod.fst := by
  simp

variable {lib} in
theorem canonical_mem_catalogNames {dataset field : String}
    (h : (lookupField lib dataset field).isSome = true) :
    lib.canonical field ∈ catalogNames dataset := by
  rw [lookupField] at h
  rw [catalogNames]
  rcases hcatalog : datasetCatalog dataset with _ | specs <;> rw [hcatalog] at h
  · exact absurd h Bool.false_ne_true
  · exact (lookup_isSome_iff specs _).mp h

end Validate

/-! ## The shape of an accepted predicate -/

/-- A predicate tree in which every connective has arguments and every negation exactly one. -/
inductive Predicate.Shaped : Predicate → Prop
  | connective {op : String} {args : List Predicate} {field value : String} {values : List String}
    (hop : op = "and" ∨ op = "or") (hne : args ≠ []) (hargs : ∀ p ∈ args, Shaped p) :
    Shaped (.mk op args field value values)
  | negation {arg : Predicate} {field value : String} {values : List String} (harg : Shaped arg) :
    Shaped (.mk "not" [arg] field value values)
  | comparison {op : String} {args : List Predicate} {field value : String} {values : List String}
    (hop : ¬ (op = "and" ∨ op = "or")) (hnot : op ≠ "not") :
    Shaped (.mk op args field value values)

section Shaped

variable {lib : GoLib} {dataset : String}

mutual

theorem shaped_of_validatePredicate :
    ∀ (p : Predicate) (path : String), validatePredicate lib dataset path p = [] → p.Shaped
  | .mk op args field value values, path, h => by
    rw [validatePredicate] at h
    split at h
    · next hop =>
      split at h
      · cases h
      · next hne => exact .connective hop hne (shaped_of_validatePredicates args path 0 h)
    · next hop =>
      split at h
      · next hnot =>
        split at h
        · cases h
        · next hlen =>
          have hargs := shaped_of_validatePredicates args path 0 h
          obtain ⟨arg, rfl⟩ := length_eq_one_iff.mp (not_not.mp hlen)
          subst hnot
          exact .negation (hargs arg mem_cons_self)
      · next hnot => exact .comparison hop hnot

theorem shaped_of_validatePredicates :
    ∀ (ps : List Predicate) (path : String) (i : ℕ),
      validatePredicates lib dataset path i ps = [] → ∀ p ∈ ps, p.Shaped
  | [], _, _, _ => by simp
  | p :: ps, path, i, h => by
    rw [validatePredicates, append_eq_nil_iff] at h
    rw [forall_mem_cons]
    exact ⟨shaped_of_validatePredicate p _ h.1, shaped_of_validatePredicates ps path (i + 1) h.2⟩

end

/-- **Accepted predicates are shaped.** -/
theorem shaped_of_validateQuery {q q' : Query} {cost : CostEstimate}
    (h : validateQuery lib q = .ok (q', cost)) {p : Predicate} (hp : q'.filter = some p) :
    p.Shaped := by
  unfold validateQuery at h
  split at h
  · next herrs =>
    cases h
    simp only [validationErrors, append_eq_nil_iff] at herrs
    obtain ⟨⟨⟨⟨-, hfilter⟩, -⟩, -⟩, -⟩ := herrs
    rw [hp] at hfilter
    exact shaped_of_validatePredicate p "where" hfilter
  · cases h

end Shaped

end Urgentry.Discover
