import Urgentry.Discover.Validate
import Urgentry.Sqlutil.EscapeLike

/-!
# Compiling discover queries to SQL

The shared half of the two discover backends: the predicate tree and the time range become clauses
of a `WHERE`, with the values bound as arguments, and `assembleSQL` joins them with the scope
clauses of the backend.

The arguments are collected in a list as they are bound, and the text of a placeholder may depend
on its position, so compiling is an action on that list.
-/

namespace Urgentry.Discover

/-- An argument bound to a placeholder. -/
inductive Arg
  | text (s : String)
  | time (t : Time)
  | int (n : ℤ)
deriving DecidableEq

/-- Building SQL text while collecting arguments. -/
abbrev Build := StateT (List Arg) (Except String)

namespace Build

variable {α β : Type} {s s' : List Arg} {m : Build α}

/-- A sequence that ends well is two actions that end well. -/
theorem run_bind_ok {f : α → Build β} {b : β} (h : (m >>= f).run s = .ok (b, s')) :
    ∃ a t, m.run s = .ok (a, t) ∧ (f a).run t = .ok (b, s') := by
  rw [StateT.run_bind] at h
  rcases hm : m.run s with e | ⟨a, t⟩
  · rw [hm] at h
    exact nomatch h
  · rw [hm] at h
    exact ⟨a, t, rfl, h⟩

theorem run_map_ok {f : α → β} {b : β} (h : (f <$> m).run s = .ok (b, s')) :
    ∃ a, m.run s = .ok (a, s') ∧ f a = b := by
  rw [← bind_pure_comp] at h
  obtain ⟨a, t, hm, hb⟩ := run_bind_ok h
  cases hb
  exact ⟨a, hm, rfl⟩

theorem run_bind_of_ok (f : α → Build β) {a : α} (h : m.run s = .ok (a, s')) :
    (m >>= f).run s = (f a).run s' := by
  rw [StateT.run_bind, h]
  rfl

end Build

/-- `ArgBuilder`. -/
structure ArgBuilder where
  /-- The placeholder of the argument at a position, counted from one. -/
  placeholder : ℕ → String
  /-- How an instant is bound. -/
  ofTime : Time → Arg

/-- `SQLiteArgBuilder`. -/
def sqliteArgBuilder : ArgBuilder := ⟨fun _ => "?", fun t => .text t.rfc3339⟩

/-- `PostgresArgBuilder`. -/
def postgresArgBuilder : ArgBuilder := ⟨fun n => "$" ++ toString n, .time⟩

namespace ArgBuilder

variable (b : ArgBuilder)

/-- `Add`. -/
def add (arg : Arg) : Build String := do
  modify (· ++ [arg])
  return b.placeholder (← get).length

/-- `AddAll`. -/
def addAll (values : List String) : Build String := do
  let items ← values.mapM fun value => b.add (.text value)
  return ", ".intercalate items

end ArgBuilder

/-! ## Predicates -/

/-- `PredicateDialect`. An absent override handles nothing. -/
structure Dialect where
  builder : ArgBuilder
  fieldExpr : String → Option String
  overriding : Predicate → Build (Option String) := fun _ => pure none
  caseInsensitiveLike : Bool := false

section Compile

variable (d : Dialect)

/-- The part of `CompilePredicate` that writes a comparison of a known expression. -/
def compileOperator (sqlExpr op value : String) (values : List String) : Build String :=
  let likeOp := if d.caseInsensitiveLike then "ILIKE" else "LIKE"
  let binary (symbol : String) : Build String := do
    return sqlExpr ++ " " ++ symbol ++ " " ++ (← d.builder.add (.text value))
  match op with
  | "=" => binary "="
  | "!=" => binary "!="
  | "contains" => do
    return sqlExpr ++ " " ++ likeOp ++ " "
      ++ (← d.builder.add (.text ("%" ++ Sqlutil.escapeLike value ++ "%"))) ++ " ESCAPE '\\'"
  | "prefix" => do
    return sqlExpr ++ " " ++ likeOp ++ " "
      ++ (← d.builder.add (.text (Sqlutil.escapeLike value ++ "%"))) ++ " ESCAPE '\\'"
  | ">" => binary ">"
  | ">=" => binary ">="
  | "<" => binary "<"
  | "<=" => binary "<="
  | "is_null" => return sqlExpr ++ " = ''"
  | "not_null" => return sqlExpr ++ " != ''"
  | "in" => do return sqlExpr ++ " IN (" ++ (← d.builder.addAll values) ++ ")"
  | _ => throw ("unsupported predicate op " ++ op.quote)

/-- `CompilePredicate` on a comparison. -/
def compileComparison : Predicate → Build String
  | .mk op args field value values => do
    match ← d.overriding (.mk op args field value values) with
    | some sqlText => return sqlText
    | none =>
      match d.fieldExpr field with
      | none => throw ("unsupported discover field " ++ field.quote)
      | some sqlExpr => compileOperator d sqlExpr op value values

mutual

/-- `CompilePredicate`. -/
def compilePredicate : Predicate → Build String
  | .mk op args field value values =>
    if op = "and" ∨ op = "or" then do
      let parts ← compileParts args
      return (if op = "and" then " AND " else " OR ").intercalate parts
    else if op = "not" then do
      let sqlText ← compileFirst args
      return "NOT (" ++ sqlText ++ ")"
    else compileComparison d (.mk op args field value values)

/-- `CompilePredicate(pred.Args[0], dialect)`. -/
def compileFirst : List Predicate → Build String
  | [] => throw "index out of range [0] with length 0"
  | p :: _ => compilePredicate p

/-- The parts of a connective, each in parentheses. -/
def compileParts : List Predicate → Build (List String)
  | [] => return []
  | p :: ps => do
    let sqlText ← compilePredicate p
    let parts ← compileParts ps
    return ("(" ++ sqlText ++ ")") :: parts

end

end Compile

/-! ## Time ranges -/

/-- `strconv.Atoi`. -/
def atoi (s : String) : Option Int64 := (GoText.parseInt s.toList).map Int64.ofInt

/-- The unit that the last character stands for, with the rest of the text. -/
def intervalUnit (raw : String) : Duration × String :=
  let init := String.ofList raw.toList.dropLast
  match raw.toList.getLast? with
  | some 'm' => (60000000000, init)
  | some 'h' => (3600000000000, init)
  | some 'd' => (86400000000000, init)
  | _ => (1000000000, raw)

/-- `ParseDiscoverInterval`. -/
def parseDiscoverInterval (raw : String) : Except String Duration :=
  let raw := GoText.trimSpace raw
  if raw = "" then .error "rollup interval is required"
  else
    let (multiplier, number) := intervalUnit raw
    match atoi number with
    | none => .error "invalid rollup interval"
    | some value =>
      if value ≤ 0 then .error "invalid rollup interval" else .ok (value * multiplier)

/-- `ParseRelativeRange`, when the clock shows `now`. -/
def parseRelativeRange (now : Instant) (raw : String) : Except String Time :=
  (parseDiscoverInterval raw).map fun dur => now.add (-dur)

variable (lib : GoLib)

/-- `TimeRangeClause`. -/
def timeRangeClause (now : Instant) (b : ArgBuilder) (expr : String) (t : TimeRange) :
    Build String :=
  if t.kind = "absolute" then
    match lib.parseRFC3339 t.start with
    | none => throw ("parsing time " ++ t.start.quote)
    | some start =>
      match lib.parseRFC3339 t.stop with
      | none => throw ("parsing time " ++ t.stop.quote)
      | some stop => do
        let lower ← b.add (b.ofTime start)
        let upper ← b.add (b.ofTime stop)
        return expr ++ " >= " ++ lower ++ " AND " ++ expr ++ " <= " ++ upper
  else if t.kind = "relative" then
    match parseRelativeRange now t.value with
    | .error e => throw e
    | .ok start => do
      let lower ← b.add (b.ofTime start)
      return expr ++ " >= " ++ lower
  else throw ("unsupported time range kind " ++ t.kind.quote)

/-! ## Plans -/

variable (q : Query)

/-- `UsesAggregate`. -/
def usesAggregate : Bool := q.select.any fun item => GoText.trimSpace item.expr.call ≠ ""

/-- `rawOrderExpr`; the empty text stands for nothing to order by. -/
def rawOrderExpr (order : OrderBy) (fieldExpr : String → Option String) : String :=
  let direct := lib.canonical order.expr.field
  let wanted := GoText.trimSpace order.expr.aliasName
  let field :=
    if direct = "" ∧ wanted ≠ "" then
      ((q.select.find? fun item => GoText.trimSpace item.aliasName = wanted
        ∧ GoText.trimSpace item.expr.field ≠ "").map fun item =>
          lib.canonical item.expr.field).getD direct
    else direct
  if field = "" then "" else (fieldExpr field).getD ""

/-- `RawOrderClause`. -/
def rawOrderClause (fallback : String) (fieldExpr : String → Option String) : String :=
  if usesAggregate q ∨ q.groupBy ≠ [] ∨ q.orderBy = [] then fallback
  else
    let parts := q.orderBy.filterMap fun item =>
      let sqlExpr := rawOrderExpr lib q item fieldExpr
      if sqlExpr = "" then none
      else some (sqlExpr ++ " " ++ if lib.equalFold item.direction "desc" then "DESC" else "ASC")
    if parts = [] then fallback else ", ".intercalate parts

/-- `FilterPlanConfig`. -/
structure FilterPlanConfig extends Dialect where
  (timestampExpr defaultOrder : String)

/-- `FilterPlan`. -/
structure FilterPlan where
  whereClauses : List String
  (orderClause limitPlaceholder : String)
  limit : ℤ
deriving DecidableEq

/-- `Clamp`. -/
def clamp (value minValue maxValue : ℤ) : ℤ :=
  if value < minValue then minValue else if value > maxValue then maxValue else value

/-- An optional clause. -/
def clauseOf {ι : Type} (compile : ι → Build String) : Option ι → Build (List String)
  | none => return []
  | some x => do return [← compile x]

/-- `PlanFilter`. -/
def planFilter (now : Instant) (cfg : FilterPlanConfig) (q : Query) (limit : ℤ) :
    Build FilterPlan := do
  let limit := clamp limit 1 5000
  let filter ← clauseOf (compilePredicate cfg.toDialect) q.filter
  let time ← clauseOf (timeRangeClause lib now cfg.builder cfg.timestampExpr) q.timeRange
  let limitPlaceholder ← cfg.builder.add (.int limit)
  return { whereClauses := filter ++ time
           orderClause := rawOrderClause lib q cfg.defaultOrder cfg.fieldExpr
           limitPlaceholder
           limit }

/-- The condition of the statement that `AssembleSQL` writes. -/
def whereText (baseClauses : List String) (plan : FilterPlan) : String :=
  " AND ".intercalate (baseClauses ++ plan.whereClauses)

/-- `AssembleSQL`. -/
def assembleSQL (base : String) (baseClauses : List String) (plan : FilterPlan) : String :=
  base ++ " WHERE " ++ whereText baseClauses plan ++ " ORDER BY " ++ plan.orderClause
    ++ " LIMIT " ++ plan.limitPlaceholder

end Urgentry.Discover
