import Urgentry.Internal.Grouped
import Urgentry.Discover.Sql
import Mathlib.Data.List.AList
import Mathlib.Data.List.Sort

/-!
# The results of discover queries

`result.go`. The rows that a backend fetched become the table or the series of the query. When the
query selects aggregates, the rows are grouped; each group has a row of values under construction,
in which the aggregates of the group are accumulated, and at the end the accumulators are replaced
by the values.

The accumulators are entries of the row itself, under the name of the selected item with a suffix
(`.__sum`, `.__count`, `.__values`, `.__agg`). The last pass finds them by their suffixes, in the
order in which Go ranges over the keys of a map, which is any order. So the passes take the order as
an argument (`MapOrder`).

Numbers are `float64` in the source. The operations on them are a parameter (`FloatLib`), as are the
text that `%v` writes and the number of seconds of an interval. -/

namespace Urgentry.Discover

/-! ## Values and rows -/

/-- What a row holds under a column. A Go `int` is not an `int64`: an issue's number is one, its
count the other. -/
inductive Value (F : Type)
  | nil
  | text (s : String)
  | int (n : ℤ)
  | int64 (n : ℤ)
  | float (x : F)
  | time (t : Time)
  | floats (xs : List F)
deriving DecidableEq

/-- The percentiles that are computed. -/
inductive Quantile
  | p50
  | p95
deriving DecidableEq

/-- The operations on `float64`, and what else is not defined here. -/
structure FloatLib (F : Type) where
  /-- `float64(n)`. -/
  ofInt : ℤ → F
  /-- `int64(x)`. -/
  toInt : F → ℤ
  /-- The value of `strconv.ParseFloat(s, 64)`, whatever the error is. -/
  parse : String → F
  (add div : F → F → F)
  lt : F → F → Bool
  /-- `sort.Float64s`. -/
  sort : List F → List F
  /-- `int(math.Ceil(float64(n) * q))`. -/
  rank : ℕ → Quantile → ℤ
  /-- `fmt.Sprintf("%v", value)`. -/
  sprint : Value F → String
  /-- `int64(d.Seconds())`. -/
  seconds : Duration → ℤ

/-- `discover.TableRow`. -/
abbrev TableRow (F : Type) := AList fun _ : String => Value F

section Values

variable {F : Type} (fl : FloatLib F)

/-- `row[key]`: a missing key reads as `nil`. -/
def get (row : TableRow F) (key : String) : Value F := (row.lookup key).getD .nil

/-- `ToFloat`. -/
def toFloat : Value F → F
  | .float x => x
  | .int n | .int64 n => fl.ofInt n
  | .text s => fl.parse s
  | _ => fl.ofInt 0

/-- `TargetCount`. -/
def targetCount : Value F → ℤ
  | .int64 n | .int n => n
  | .float x => fl.toInt x
  | _ => 0

/-- `CompareValues`. -/
def compareValues (left right : Value F) : Ordering :=
  let floats (l r : F) : Ordering := if fl.lt l r then .lt else if fl.lt r l then .gt else .eq
  match left with
  | .time l => match right with
    | .time r => compare l.ns r.ns
    | _ => compare l.ns 0
  | .int l | .int64 l => floats (fl.ofInt l) (toFloat fl right)
  | .float l => floats l (toFloat fl right)
  | _ => compare (fl.sprint left) (fl.sprint right)

/-- `Percentile`. -/
def percentile (values : List F) (q : Quantile) : F :=
  let index := fl.rank values.length q - 1
  let index := if index < 0 then 0 else index
  let index := if index ≥ values.length then (values.length : ℤ) - 1 else index
  (values[index.toNat]?).getD (fl.ofInt 0)

end Values

/-! ## Names -/

section Names

variable (lib : GoLib)

/-- `SelectName`. -/
def selectName (item : SelectItem) : String :=
  if GoText.trimSpace item.aliasName ≠ "" then GoText.trimSpace item.aliasName
  else if GoText.trimSpace item.expr.field ≠ "" then lib.canonical item.expr.field
  else lib.canonical item.expr.call

/-- `SelectColumns`. -/
def selectColumns (q : Query) : List String := q.select.map (selectName lib)

/-- `DefaultColumns`. -/
def defaultColumns : String → List String
  | "issues" =>
    ["issue.id", "project.id", "project", "title", "culprit", "level", "status", "first_seen",
      "last_seen", "count", "issue.short_id", "assignee"]
  | "logs" =>
    ["event.id", "project.id", "project", "title", "message", "level", "platform", "culprit",
      "environment", "release", "logger", "trace.id", "span.id", "timestamp"]
  | _ =>
    ["event.id", "project.id", "project", "transaction", "op", "status", "environment", "release",
      "trace.id", "span.id", "timestamp", "duration.ms"]

/-- The text before a suffix, if it is there. -/
def beforeSuffix (suffix key : String) : Option String :=
  if suffix.toList <:+ key.toList then
    some (String.ofList (key.toList.take (key.toList.length - suffix.toList.length)))
  else none

end Names

/-! ## Aggregates -/

section Aggregates

variable {F : Type} (fl : FloatLib F) (lib : GoLib)

/-- `item.Expr.Args[0].Field`. The index panics when there is no argument; the validator asks for
one. -/
def argField (item : SelectItem) : String := (item.expr.args.head?.map (·.field)).getD ""

/-- One round of the loop of `applyAggregates`. -/
def applyItem (row target : TableRow F) (item : SelectItem) : TableRow F :=
  let name := selectName lib item
  match item.expr.call with
  | "" => target.insert name (get row (lib.canonical item.expr.field))
  | "count" =>
    let current := match get target name with
      | .int64 n => n
      | _ => 0
    target.insert name (.int64 (current + 1))
  | "avg" =>
    let target := target.insert (name ++ ".__sum")
      (.float (fl.add (toFloat fl (get target (name ++ ".__sum")))
        (toFloat fl (get row (argField item)))))
    target.insert (name ++ ".__count")
      (.int64 (targetCount fl (get target (name ++ ".__count")) + 1))
  | "max" =>
    let value := toFloat fl (get row (argField item))
    match target.lookup name with
    | none => target.insert name (.float value)
    | some existing =>
      if fl.lt (toFloat fl existing) value then target.insert name (.float value) else target
  | "p50" | "p95" =>
    let values := match get target (name ++ ".__values") with
      | .floats xs => xs
      | _ => []
    let target := target.insert (name ++ ".__values")
      (.floats (values ++ [toFloat fl (get row (argField item))]))
    target.insert (name ++ ".__agg") (.text item.expr.call)
  | _ => target

/-- `applyAggregates`. -/
def applyAggregates (selects : List SelectItem) (target row : TableRow F) : TableRow F :=
  selects.foldl (applyItem fl lib row) target

/-- One round of the loop of `finalizeAggregates`. -/
def finalizeKey (values : TableRow F) (key : String) : TableRow F :=
  match beforeSuffix ".__sum" key with
  | some name =>
    let count := targetCount fl (get values (name ++ ".__count"))
    let values : TableRow F :=
      if count > 0 then
        values.insert name (.float (fl.div (toFloat fl (get values key)) (fl.ofInt count)))
      else values
    (values.erase key).erase (name ++ ".__count")
  | none =>
    match beforeSuffix ".__values" key with
    | some name =>
      let values : TableRow F :=
        match get values key with
        | .floats xs =>
          match get values (name ++ ".__agg") with
          | .text "p50" => values.insert name (.float (percentile fl (fl.sort xs) .p50))
          | .text "p95" => values.insert name (.float (percentile fl (fl.sort xs) .p95))
          | _ => values
        | _ => values.insert name (.float (fl.ofInt 0))
      (values.erase key).erase (name ++ ".__agg")
    | none => values

/-- The orders in which the keys of maps are ranged over: one for each map. -/
structure MapOrder where
  order : ℕ → List String → List String
  perm : ∀ i keys, (order i keys).Perm keys

/-- `finalizeAggregates`, on the keys in an order. -/
def finalizeAggregates (order : List String → List String) (values : TableRow F) : TableRow F :=
  (order values.keys).foldl (finalizeKey fl) values

/-! ## Tables -/

/-- `discover.TableResult`. -/
structure TableResult (F : Type) where
  columns : List String
  rows : List (TableRow F)
  resultSize : ℕ
  cost : CostEstimate

/-- `projectRow`. -/
def projectRow (row : TableRow F) (columns : List String) : TableRow F :=
  columns.foldl (fun item name => item.insert name (get row name)) ∅

/-- `defaultTable`. -/
def defaultTable (q : Query) (cost : CostEstimate) (rows : List (TableRow F)) : TableResult F :=
  let columns := if q.select ≠ [] then selectColumns lib q else defaultColumns q.dataset
  let items := (rows.take q.limit.toNat).map fun row => projectRow row columns
  ⟨columns, items, items.length, cost⟩

/-- `aggregateKey`. -/
def aggregateKey (groupBy : List Expression) (row : TableRow F) : String :=
  if groupBy = [] then "__all__"
  else "\x1f".intercalate (groupBy.map fun expr => fl.sprint (get row (lib.canonical expr.field)))

/-- The values of a group before its first row is added. -/
def groupRow (groupBy : List Expression) (row : TableRow F) : TableRow F :=
  groupBy.foldl (fun values expr =>
    values.insert (lib.canonical expr.field) (get row (lib.canonical expr.field))) ∅

/-- `orderValue`. -/
def orderValue (row : TableRow F) (expr : Expression) : Value F :=
  if expr.aliasName ≠ "" then get row expr.aliasName else get row (lib.canonical expr.field)

/-- The comparison of `sortAggregatedRows`. -/
def rowLess (orderBy : List OrderBy) (a b : TableRow F) : Bool :=
  match orderBy with
  | [] => false
  | item :: rest =>
    match compareValues fl (orderValue lib a item.expr) (orderValue lib b item.expr) with
    | .eq => rowLess rest a b
    | .gt => item.direction = "desc"
    | .lt => item.direction ≠ "desc"

/-- `sortAggregatedRows`. -/
def sortAggregatedRows (orderBy : List OrderBy) (rows : List (TableRow F)) : List (TableRow F) :=
  if orderBy = [] then rows else rows.mergeSort fun a b => !rowLess fl lib orderBy b a

variable (order : MapOrder) (q : Query) (cost : CostEstimate) (rows : List (TableRow F))

/-- `aggregateTable`. -/
def aggregateTable : TableResult F :=
  let groups := Grouped.groups (aggregateKey fl lib q.groupBy) (groupRow lib q.groupBy)
    (applyAggregates fl lib q.select) rows
  let items := groups.zipIdx.map fun (group, i) => finalizeAggregates fl (order.order i) group.2
  let items := (sortAggregatedRows fl lib q.orderBy items).take q.limit.toNat
  ⟨selectColumns lib q, items, items.length, cost⟩

/-- `BuildTableResult`. -/
def buildTableResult : TableResult F :=
  if usesAggregate q ∨ q.groupBy ≠ [] then aggregateTable fl lib order q cost rows
  else defaultTable lib q cost rows

/-! ## Series -/

/-- `discover.SeriesPoint`, with the bucket in Unix seconds. -/
structure SeriesPoint (F : Type) where
  bucket : ℤ
  values : TableRow F

/-- `discover.SeriesResult`. -/
structure SeriesResult (F : Type) where
  columns : List String
  points : List (SeriesPoint F)
  cost : CostEstimate

/-- How `BuildSeriesResult` can fail: an interval that overflows to less than a second divides by
zero. -/
inductive SeriesFailure
  | invalid (errs : List ValidationError)
  | divideByZero

/-- The rows with a timestamp, each with its Unix time. -/
def timedRows : List (ℤ × TableRow F) :=
  rows.filterMap fun row =>
    match get row "timestamp" with
    | .time t => if t.ns = 0 then none else some (t.unix, row)
    | _ => none

/-- `BuildSeriesResult`. -/
def buildSeriesResult : Except SeriesFailure (SeriesResult F) :=
  match q.rollup with
  | none => .error (.invalid [⟨"missing_rollup", "rollup", "series execution requires a rollup"⟩])
  | some rollup =>
    match parseDiscoverInterval rollup.interval with
    | .error e => .error (.invalid [⟨"invalid_rollup", "rollup.interval", e⟩])
    | .ok interval =>
      let seconds := fl.seconds interval
      if seconds = 0 ∧ timedRows rows ≠ [] then .error .divideByZero
      else
        let buckets := Grouped.groups (fun r => r.1.tdiv seconds * seconds) (fun _ => ∅)
          (fun values r => applyAggregates fl lib q.select values r.2) (timedRows rows)
        let sorted := buckets.insertionSort fun a b => a.1 ≤ b.1
        let points := sorted.zipIdx.map fun (bucket, i) =>
          ⟨bucket.1, finalizeAggregates fl (order.order i) bucket.2⟩
        .ok ⟨selectColumns lib q, points, cost⟩

end Aggregates

end Urgentry.Discover
