import Urgentry.Internal.Decision
import Urgentry.Discover.Scope
import Urgentry.Telemetryquery.BridgeDiscover

/-!
# Which accepted queries can be executed

A query on logs or transactions that the validator accepts is compiled by one of two backends, the
engine on SQLite or the bridge to Postgres. Both compile the tree of predicates with the same
function, but each with its own table of fields, and the bridge takes predicates on `project` out of
it. What the validator accepts is a third table.

Compiling only collects arguments, so whether it succeeds is a property of the query. It is computed
here for each backend along the recursion of the compiler, under the hypothesis that the validator
found nothing.

## Where the tables differ

The fields of SQLite are those of the validator. The bridge has no expression for `project.id` and
`event.type`, and its clause for `project` knows four operators of the eleven. And neither backend
is sure to read a relative time range, of which the validator only asks that it is not blank.

## Main results

* `fetchSQL_builds_iff`: an accepted query can be executed by both backends exactly when it has none
  of these. -/

namespace Urgentry

open Discover Decision List

/-! ## The bridge -/

/-- A data set of the bridge. -/
structure BridgeSource where
  (base organizationColumn projectColumn : String)
  fields : List (String × String)
  (timestampExpr defaultOrder : String)

namespace BridgeSource

/-- The source of `buildBridgeLogsFetchSQL`. -/
def logs : BridgeSource where
  base :=
    "SELECT l.event_id, l.project_id, COALESCE(e.title, l.message, ''), COALESCE(l.message, ''), "
    ++ "COALESCE(l.level, ''),\n\t\tCOALESCE(l.platform, ''), COALESCE(e.culprit, ''), "
    ++ "COALESCE(l.environment, ''), COALESCE(l.release, ''),\n\t\tCOALESCE(l.logger, ''), "
    ++ "COALESCE(l.trace_id, ''), COALESCE(l.span_id, ''), l.timestamp\n\t"
    ++ "FROM telemetry.log_facts l\n\tLEFT JOIN telemetry.event_facts e ON e.id = l.id"
  organizationColumn := "l.organization_id"
  projectColumn := "l.project_id"
  fields := [("event.id", "l.event_id"), ("project", "l.project_id"),
    ("title", "COALESCE(e.title, l.message, '')"), ("message", "COALESCE(l.message, '')"),
    ("level", "COALESCE(l.level, '')"), ("platform", "COALESCE(l.platform, '')"),
    ("culprit", "COALESCE(e.culprit, '')"), ("environment", "COALESCE(l.environment, '')"),
    ("release", "COALESCE(l.release, '')"), ("logger", "COALESCE(l.logger, '')"),
    ("trace", "COALESCE(l.trace_id, '')"), ("trace.id", "COALESCE(l.trace_id, '')"),
    ("span", "COALESCE(l.span_id, '')"), ("span.id", "COALESCE(l.span_id, '')"),
    ("timestamp", "l.timestamp"), ("count", "1")]
  timestampExpr := "l.timestamp"
  defaultOrder := "l.timestamp DESC"

/-- The source of `buildBridgeTransactionsFetchSQL`. -/
def transactions : BridgeSource where
  base := "SELECT t.event_id, t.project_id, COALESCE(t.transaction_name, ''), COALESCE(t.op, ''), "
    ++ "COALESCE(t.status, ''),\n\t\tCOALESCE(t.environment, ''), COALESCE(t.release, ''), "
    ++ "COALESCE(t.trace_id, ''), COALESCE(t.span_id, ''),\n\t\tt.started_at, t.duration_ms, "
    ++ "COALESCE(e.platform, '')\n\tFROM telemetry.transaction_facts t\n\tLEFT JOIN "
    ++ "telemetry.event_facts e ON e.project_id = t.project_id AND e.event_id = t.event_id"
  organizationColumn := "t.organization_id"
  projectColumn := "t.project_id"
  fields := [("event.id", "t.event_id"), ("project", "t.project_id"),
    ("transaction", "COALESCE(t.transaction_name, '')"), ("op", "COALESCE(t.op, '')"),
    ("status", "COALESCE(t.status, '')"), ("environment", "COALESCE(t.environment, '')"),
    ("release", "COALESCE(t.release, '')"), ("trace", "COALESCE(t.trace_id, '')"),
    ("trace.id", "COALESCE(t.trace_id, '')"), ("span", "COALESCE(t.span_id, '')"),
    ("span.id", "COALESCE(t.span_id, '')"), ("timestamp", "t.started_at"),
    ("started_at", "t.started_at"), ("duration", "t.duration_ms"), ("duration.ms", "t.duration_ms"),
    ("platform", "COALESCE(e.platform, '')"), ("count", "1")]
  timestampExpr := "t.started_at"
  defaultOrder := "t.started_at DESC"

/-- `bridgeLogsFieldExpr` and `bridgeTransactionFieldExpr`, on the fields of the source. -/
def fieldExpr (src : BridgeSource) (lib : GoLib) (field : String) : Option String :=
  src.fields.lookup (lib.canonical field)

/-- The configuration that the bridge passes to `planFilter`. -/
def config (src : BridgeSource) (lib : GoLib) (ctx : BridgeDiscoverContext) : FilterPlanConfig where
  builder := postgresArgBuilder
  fieldExpr := src.fieldExpr lib
  overriding := bridgeProjectOverride lib ctx src.projectColumn
  caseInsensitiveLike := true
  timestampExpr := src.timestampExpr
  defaultOrder := src.defaultOrder

end BridgeSource

/-- `applyBridgeScopeClauses`: the clauses that it appends. -/
def bridgeScopeClauses (scope : Discover.Scope) (projectColumn : String) : Build (List String) :=
  match scope.kind with
  | "project" => do
    return [projectColumn ++ " = " ++ (← postgresArgBuilder.add (.text scope.projectId))]
  | "organization" =>
    if scope.projectIds = [] then return []
    else do
      return [projectColumn ++ " IN (" ++ (← postgresArgBuilder.addAll scope.projectIds) ++ ")"]
  | _ => return []

/-- `buildBridgeLogsFetchSQL` and `buildBridgeTransactionsFetchSQL`, on their source. -/
def buildBridgeFetchSQL (src : BridgeSource) (lib : GoLib) (now : Instant) (q : Query)
    (ctx : BridgeDiscoverContext) (limit : ℤ) : Build (String × ℤ) := do
  let organization ← postgresArgBuilder.add (.text ctx.organizationID)
  let scope ← bridgeScopeClauses q.scope src.projectColumn
  let plan ← planFilter lib now (src.config lib ctx) q limit
  return (assembleSQL src.base ((src.organizationColumn ++ " = " ++ organization) :: scope) plan,
    plan.limit)

/-- The source of a data set that the bridge reads. -/
def bridgeSourceOf : String → Option BridgeSource
  | "logs" => some .logs
  | "transactions" => some .transactions
  | _ => none

/-- `buildBridgeDiscoverFetchSQL`. -/
def buildBridgeDiscoverFetchSQL (lib : GoLib) (now : Instant) (q : Query)
    (ctx : BridgeDiscoverContext) (limit : ℤ) : Build (String × ℤ) :=
  match bridgeSourceOf q.dataset with
  | none => throw ("unsupported bridge discover dataset " ++ q.dataset.quote)
  | some src => buildBridgeFetchSQL src lib now q ctx (defaultFetchLimit q.limit limit)

/-! ## The shared compiler -/

namespace Discover

theorem decided_add (b : ArgBuilder) (arg : Arg) : DecidedBy (b.add arg) True :=
  fun _ => iff_of_true ⟨_, rfl⟩ trivial

theorem decided_addAll (b : ArgBuilder) (values : List String) : DecidedBy (b.addAll values) True :=
  (decided_mapM (fun value => decided_add b (.text value)) values).bind_pure _

variable {op : String} {args : List Predicate} {values : List String} (d : Dialect)

/-- Every operator that the validator knows can be written. -/
theorem decided_compileOperator (hop : op ∈ comparisons) (sqlExpr value : String)
    (values : List String) : DecidedBy (compileOperator d sqlExpr op value values) True := by
  simp only [comparisons, mem_cons, not_mem_nil, or_false] at hop
  rcases hop with rfl | rfl | rfl | rfl | rfl | rfl | rfl | rfl | rfl | rfl | rfl
  case inr.inr.inr.inr.inr.inr.inr.inr.inl => exact decided_pure _
  case inr.inr.inr.inr.inr.inr.inr.inr.inr.inl => exact decided_pure _
  case inr.inr.inr.inr.inr.inr.inr.inr.inr.inr =>
    exact (decided_addAll d.builder values).bind_pure _
  all_goals exact (decided_add d.builder _).bind_pure _

/-- A comparison that no override handles is compiled when its field has an expression. -/
theorem decided_compileComparison (hop : op ∈ comparisons) {field value : String}
    (hoverride : d.overriding (.mk op args field value values) = pure none) :
    DecidedBy (compileComparison d (.mk op args field value values))
      ((d.fieldExpr field).isSome = true) := by
  rw [compileComparison, hoverride, pure_bind]
  rcases d.fieldExpr field with _ | sqlExpr
  · exact (decided_throw _).congr (by simp)
  · exact (decided_compileOperator d hop sqlExpr value values).congr (by simp)

mutual

/-- All the comparisons of a tree are of a kind. -/
def Predicate.allLeaves (P : Predicate → Bool) : Predicate → Bool
  | .mk op args field value values =>
    if op = "and" ∨ op = "or" ∨ op = "not" then allLeavesOf P args
    else P (.mk op args field value values)

/-- All the comparisons of some trees are of a kind. -/
def allLeavesOf (P : Predicate → Bool) : List Predicate → Bool
  | [] => true
  | p :: ps => p.allLeaves P && allLeavesOf P ps

end

/-- The checks of a comparison found nothing. -/
def Comparison (lib : GoLib) (dataset : String) : Predicate → Prop
  | .mk op _ field value values => ∃ path,
    validateComparison lib dataset path op field value values = []

theorem Comparison.field_isSome {lib : GoLib} {dataset op field value : String}
    {args : List Predicate} {values : List String}
    (h : Comparison lib dataset (.mk op args field value values)) :
    (lookupField lib dataset field).isSome = true ∧ op ∈ comparisons := by
  obtain ⟨path, h⟩ := h
  unfold validateComparison at h
  split at h
  · exact absurd h (cons_ne_nil _ _)
  next spec hspec =>
    split at h
    · exact absurd h (cons_ne_nil _ _)
    next hop => exact ⟨by rw [hspec]; rfl, contains_iff_mem.mp (not_not.mp hop)⟩

/-- A backend compiles the comparisons of a kind, of those that the validator accepts. -/
def CompilesLeaves (lib : GoLib) (dataset : String) (d : Dialect) (P : Predicate → Bool) : Prop :=
  ∀ p, Comparison lib dataset p → DecidedBy (compileComparison d p) (P p = true)

section Tree

variable {lib : GoLib} {dataset : String} {d : Dialect} {P : Predicate → Bool}

mutual

/-- **A tree is compiled when its comparisons are.** -/
theorem decided_compilePredicate (hleaf : CompilesLeaves lib dataset d P) :
    ∀ (p : Predicate) (path : String), validatePredicate lib dataset path p = [] →
      DecidedBy (compilePredicate d p) (p.allLeaves P = true)
  | .mk op args field value values, path, h => by
    rw [validatePredicate] at h
    rw [compilePredicate, Predicate.allLeaves]
    split at h
    next hop =>
      have hand : op = "and" ∨ op = "or" ∨ op = "not" := hop.imp_right .inl
      rw [if_pos hop, if_pos hand]
      split at h
      · exact absurd h (cons_ne_nil _ _)
      · exact (decided_compileParts hleaf args path 0 h).bind_pure _
    next hop =>
      rw [if_neg hop]
      split at h
      next hnot =>
        rw [if_pos hnot, if_pos (.inr (.inr hnot))]
        split at h
        · exact absurd h (cons_ne_nil _ _)
        next hlen => exact (decided_compileFirst hleaf args path h (not_not.mp hlen)).bind_pure _
      next hnot =>
        have hcmp : ¬ (op = "and" ∨ op = "or" ∨ op = "not") := by
          rw [← or_assoc]
          exact fun h => h.elim hop hnot
        rw [if_neg hnot, if_neg hcmp]
        exact hleaf _ ⟨path, h⟩

theorem decided_compileFirst (hleaf : CompilesLeaves lib dataset d P) :
    ∀ (ps : List Predicate) (path : String), validatePredicates lib dataset path 0 ps = [] →
      ps.length = 1 → DecidedBy (compileFirst d ps) (allLeavesOf P ps = true)
  | [], _, _, hlen => absurd hlen (by decide)
  | p :: ps, path, h, hlen => by
    obtain rfl : ps = [] := length_eq_zero_iff.mp (Nat.succ.inj hlen)
    rw [validatePredicates, append_eq_nil_iff] at h
    rw [allLeavesOf, allLeavesOf, Bool.and_true]
    exact decided_compilePredicate hleaf p _ h.1

theorem decided_compileParts (hleaf : CompilesLeaves lib dataset d P) :
    ∀ (ps : List Predicate) (path : String) (i : ℕ), validatePredicates lib dataset path i ps = [] →
      DecidedBy (compileParts d ps) (allLeavesOf P ps = true)
  | [], _, _, _ => by
    rw [allLeavesOf]
    exact (decided_pure _).congr (by simp)
  | p :: ps, path, i, h => by
    rw [validatePredicates, append_eq_nil_iff] at h
    rw [allLeavesOf, Bool.and_eq_true]
    exact (decided_compilePredicate hleaf p _ h.1).bind fun _ =>
      (decided_compileParts hleaf ps path (i + 1) h.2).bind_pure _

end

end Tree

/-! ## Time ranges -/

/-- A relative time range is an interval that the compiler reads. -/
def TimeRange.readable (t : TimeRange) : Bool :=
  t.kind ≠ "relative" || (parseDiscoverInterval t.value).isOk

variable {lib : GoLib} {cost : CostEstimate}

theorem decided_timeRangeClause (now : Instant) (b : ArgBuilder) (expr : String) {t : TimeRange}
    (h : validateTimeRange lib t = []) :
    DecidedBy (timeRangeClause lib now b expr t) (t.readable = true) := by
  rw [validateTimeRange] at h
  rw [timeRangeClause, TimeRange.readable]
  split at h
  next hkind =>
    have hrel : t.kind ≠ "absolute" := by rw [hkind]; decide
    rw [if_neg hrel, parseRelativeRange, hkind]
    rcases parseDiscoverInterval t.value with e | dur
    · exact (decided_throw e).congr (by simp [Except.toBool])
    · exact ((decided_add b _).bind_pure _).congr (by simp [Except.toBool])
  next hkind =>
    rw [if_pos hkind, hkind]
    split at h
    · exact absurd h (cons_ne_nil _ _)
    · split at h
      · exact absurd h (cons_ne_nil _ _)
      next hstart =>
        split at h
        · exact absurd h (cons_ne_nil _ _)
        next hstop =>
          rw [Option.isNone_iff_eq_none] at hstart hstop
          obtain ⟨start, hstart⟩ := Option.ne_none_iff_exists'.mp hstart
          obtain ⟨stop, hstop⟩ := Option.ne_none_iff_exists'.mp hstop
          rw [hstart, hstop]
          exact ((decided_add b _).bind fun _ => (decided_add b _).bind_pure _).congr (by simp)
  · exact absurd h (cons_ne_nil _ _)

/-! ## Plans -/

theorem decided_clauseOf {ι : Type} {compile : ι → Build String} {x : Option ι} {P : ι → Bool}
    (h : ∀ y, x = some y → DecidedBy (compile y) (P y = true)) :
    DecidedBy (clauseOf compile x) (x.all P = true) := by
  rcases x with _ | y
  · exact (decided_pure _).congr (by simp)
  · exact ((h y rfl).bind_pure _).congr (by simp)

/-- The condition under which a plan is made: the comparisons are compiled and the time range is
read. -/
theorem decided_planFilter {q₀ q : Query} (h : validateQuery lib q₀ = .ok (q, cost)) (now : Instant)
    {cfg : FilterPlanConfig} {P : Predicate → Bool}
    (hleaf : CompilesLeaves lib q.dataset cfg.toDialect P) (limit : ℤ) :
    DecidedBy (planFilter lib now cfg q limit)
      (q.filter.all (Predicate.allLeaves P) = true ∧
        q.timeRange.all TimeRange.readable = true) := by
  obtain ⟨-, -, herrs⟩ := (validateQuery_eq_ok lib).mp h
  simp only [validationErrors, append_eq_nil_iff] at herrs
  have hfilter := herrs.1.1.1.2
  have htime := herrs.1.1.2
  rw [planFilter]
  refine ((decided_clauseOf fun p hp => ?_).bind fun _ =>
    ((decided_clauseOf fun t ht => ?_).bind fun _ => (decided_add _ _).bind_pure _)).congr
      (and_congr_right' (and_iff_left trivial))
  · rw [hp] at hfilter
    exact decided_compilePredicate hleaf p "where" hfilter
  · rw [ht] at htime
    exact decided_timeRangeClause now _ _ htime

end Discover

/-! ## The comparisons of the backends -/

section Backends

variable {lib : GoLib} {dataset : String} (ctx : BridgeDiscoverContext)

/-- SQLite compiles every comparison, if its table has all the names of the catalogue. -/
theorem compilesLeaves_sqlite {src : Source}
    (hnames : ∀ name ∈ catalogNames dataset, name ∈ src.fields.map Prod.fst) :
    CompilesLeaves lib dataset (src.config lib).toDialect fun _ => true := by
  rintro ⟨op, args, field, value, values⟩ hcmp
  obtain ⟨hfield, hop⟩ := hcmp.field_isSome
  refine (decided_compileComparison (src.config lib).toDialect hop rfl).congr ?_
  exact iff_of_true
    ((lookup_isSome_iff _ _).mpr (hnames _ (canonical_mem_catalogNames hfield))) rfl

/-- The fields of the catalogue that the bridge has no expression for. -/
def unmappedFields : List String := ["project.id", "event.type"]

/-- The operators of `compileBridgeProjectPredicate`. -/
def projectOperators : List String := ["=", "!=", "contains", "prefix"]

/-- The comparisons that the bridge compiles. -/
def bridgeCompiles (lib : GoLib) : Predicate → Bool
  | .mk op _ field _ _ =>
    if lib.equalFold (GoText.trimSpace field) "project" then projectOperators.contains op
    else !unmappedFields.contains (lib.canonical field)

theorem decided_write (projectColumn : String) (clause : ProjectClause) :
    DecidedBy (clause.write projectColumn) True := by
  rcases clause with (_ | ⟨id, ids⟩) | (_ | ⟨id, ids⟩)
  · exact decided_pure _
  · exact (decided_addAll _ _).bind_pure _
  · exact decided_pure _
  · exact (decided_addAll _ _).bind_pure _

/-- A predicate on `project` is compiled when its operator is one of the four. -/
theorem decided_compileBridgeProjectPredicate (projectColumn op : String) (args : List Predicate)
    (field value : String) (values : List String) :
    DecidedBy (compileBridgeProjectPredicate lib (.mk op args field value values) ctx projectColumn)
      (op ∈ projectOperators) := by
  have hclause : (ctx.projectClause lib (.mk op args field value values)).isOk = true ↔
      op ∈ projectOperators := by
    unfold BridgeDiscoverContext.projectClause
    dsimp only
    split
    next => exact iff_of_true rfl (by decide)
    next => exact iff_of_true rfl (by decide)
    next => exact iff_of_true rfl (by decide)
    next => exact iff_of_true rfl (by decide)
    next h₁ h₂ h₃ h₄ => exact iff_of_false Bool.false_ne_true (by
      simpa [projectOperators] using ⟨h₁, h₂, h₃, h₄⟩)
  exact ((decided_lift _).bind fun clause => decided_write projectColumn clause).congr
    (by rw [hclause, and_iff_left trivial])

/-- The bridge compiles the comparisons that are not on a field without an expression, if its table
has the other names of the catalogue. -/
theorem compilesLeaves_bridge {src : BridgeSource} (hnames : ∀ name ∈ catalogNames dataset,
      name ∈ src.fields.map Prod.fst ↔ name ∉ unmappedFields) :
    CompilesLeaves lib dataset (src.config lib ctx).toDialect (bridgeCompiles lib) := by
  rintro ⟨op, args, field, value, values⟩ hcmp
  obtain ⟨hfield, hop⟩ := hcmp.field_isSome
  rw [bridgeCompiles]
  split_ifs with hproject
  · have hoverride :
        (src.config lib ctx).toDialect.overriding (.mk op args field value values) = _ :=
      if_pos hproject
    rw [compileComparison, hoverride, bind_map_left, bind_pure]
    exact (decided_compileBridgeProjectPredicate ctx _ op args field value values).congr
      contains_iff_mem.symm
  · refine (decided_compileComparison (src.config lib ctx).toDialect hop (if_neg hproject)).congr ?_
    rw [Bool.not_eq_true', contains_eq_mem, decide_eq_false_iff_not,
      ← hnames _ (canonical_mem_catalogNames hfield)]
    exact lookup_isSome_iff _ _

/-! ## Both backends -/

/-- **The condition**: the bridge compiles all the comparisons, and a relative time range is an
interval. -/
def Executable (lib : GoLib) (q : Query) : Prop :=
  q.filter.all (Predicate.allLeaves (bridgeCompiles lib)) = true ∧
    q.timeRange.all TimeRange.readable = true

mutual

theorem allLeaves_true : ∀ p : Predicate, p.allLeaves (fun _ => true) = true
  | .mk op args field value values => by
    rw [Predicate.allLeaves, allLeavesOf_true args]
    simp

theorem allLeavesOf_true : ∀ ps : List Predicate, allLeavesOf (fun _ => true) ps = true
  | [] => by rw [allLeavesOf]
  | p :: ps => by rw [allLeavesOf, allLeaves_true p, allLeavesOf_true ps, Bool.and_self]

end

theorem decided_scopeClauses (scope : Discover.Scope) : DecidedBy (scopeClauses scope) True := by
  unfold scopeClauses
  split
  · exact (decided_add _ _).bind_pure _
  · refine ((decided_add _ _).bind fun _ => ?_).congr (and_self_iff)
    split
    · exact decided_pure _
    · exact (decided_addAll _ _).bind_pure _
  · exact decided_pure _

theorem decided_bridgeScopeClauses (scope : Discover.Scope) (projectColumn : String) :
    DecidedBy (bridgeScopeClauses scope projectColumn) True := by
  unfold bridgeScopeClauses
  split
  · exact (decided_add _ _).bind_pure _
  · split
    · exact decided_pure _
    · exact (decided_addAll _ _).bind_pure _
  · exact decided_pure _

variable {cost : CostEstimate} {q₀ q : Query}

/-- SQLite compiles an accepted query when its time range is an interval. -/
theorem decided_buildFetchSQL (h : validateQuery lib q₀ = .ok (q, cost))
    (src : Source) (hnames : ∀ name ∈ catalogNames q.dataset, name ∈ src.fields.map Prod.fst)
    (now : Instant) (limit : ℤ) :
    DecidedBy (buildFetchSQL src lib now q limit) (q.timeRange.all TimeRange.readable = true) := by
  have hplan := decided_planFilter h now (compilesLeaves_sqlite hnames) limit
  refine ((decided_scopeClauses q.scope).bind fun _ => hplan.bind_pure _).congr ?_
  have hall : q.filter.all (Predicate.allLeaves fun _ => true) = true := by
    rcases q.filter with _ | p
    · rfl
    · exact allLeaves_true p
  rw [true_and, and_iff_right hall]

/-- The bridge compiles an accepted query when it is executable. -/
theorem decided_buildBridgeFetchSQL (h : validateQuery lib q₀ = .ok (q, cost))
    (src : BridgeSource) (ctx : BridgeDiscoverContext) (hnames : ∀ name ∈ catalogNames q.dataset,
      name ∈ src.fields.map Prod.fst ↔ name ∉ unmappedFields) (now : Instant) (limit : ℤ) :
    DecidedBy (buildBridgeFetchSQL src lib now q ctx limit) (Executable lib q) := by
  have hplan := decided_planFilter h now (compilesLeaves_bridge ctx hnames) limit
  refine ((decided_add _ _).bind fun _ => (decided_bridgeScopeClauses q.scope _).bind fun _ =>
    hplan.bind_pure _).congr ?_
  rw [true_and, true_and, Executable]

/-- **Which accepted queries can be executed.** An accepted query on logs or transactions is
compiled by both backends, whatever the projects of its organization are, exactly when no comparison
is on `project.id` or `event.type`, those on `project` have one of four operators, and a relative
time range is an interval. -/
theorem fetchSQL_builds_iff {cost : CostEstimate} (h : validateQuery lib q₀ = .ok (q, cost))
    (hdataset : q.dataset = "logs" ∨ q.dataset = "transactions") (now : Instant)
    (ctx : BridgeDiscoverContext) (limit bridgeLimit : ℤ) :
    ((∃ r, (buildDiscoverFetchSQL lib now q limit).run [] = .ok r) ∧
      ∃ r, (buildBridgeDiscoverFetchSQL lib now q ctx bridgeLimit).run [] = .ok r) ↔
    Executable lib q := by
  have hboth : ∀ {m m' : Build (String × ℤ)},
    DecidedBy m (q.timeRange.all TimeRange.readable = true) →
      DecidedBy m' (Executable lib q) →
      (((∃ r, m.run [] = .ok r) ∧ ∃ r, m'.run [] = .ok r) ↔ Executable lib q) := by
    intro m m' hm hm'
    rw [hm [], hm' []]
    exact and_iff_right_of_imp And.right
  rw [buildDiscoverFetchSQL, buildBridgeDiscoverFetchSQL]
  rcases hdataset with hdataset | hdataset <;> rw [hdataset]
  · exact hboth (decided_buildFetchSQL h .logs (by rw [hdataset]; decide) now _)
      (decided_buildBridgeFetchSQL h .logs ctx (by rw [hdataset]; decide) now _)
  · exact hboth (decided_buildFetchSQL h .transactions (by rw [hdataset]; decide) now _)
      (decided_buildBridgeFetchSQL h .transactions ctx (by rw [hdataset]; decide) now _)

end Backends

/-- A search in the logs of one project. -/
def logSearch (filter : Predicate) : Query where
  version := 1
  dataset := "logs"
  scope := { kind := "project", projectId := "p1" }
  filter := some filter

/-- A search for a message is executed by both. -/
theorem message_search_builds :
    (∃ r, (buildDiscoverFetchSQL asciiLib .midnight
      (preparedQuery asciiLib (logSearch (.mk "contains" [] "message" "timeout" []))) 50).run
        [] = .ok r) ∧
    ∃ r, (buildBridgeDiscoverFetchSQL asciiLib .midnight
      (preparedQuery asciiLib (logSearch (.mk "contains" [] "message" "timeout" [])))
        { organizationID := "o1" } 50).run [] = .ok r :=
  (fetchSQL_builds_iff (validateQuery_of_errors (by decide +kernel)) (.inl (by decide +kernel))
    .midnight _ 50 50).mpr ⟨by decide +kernel, by decide +kernel⟩

/-- **A search for the id of a project is accepted, and the bridge cannot execute it.** -/
theorem projectId_search_fails :
    ∃ q cost, validateQuery asciiLib (logSearch (.mk "=" [] "project.id" "p1" [])) = .ok (q, cost) ∧
      q.dataset = "logs" ∧
      (buildBridgeDiscoverFetchSQL asciiLib .midnight q { organizationID := "o1" } 50).run [] =
        .error ("unsupported discover field " ++ "project.id".quote) := by
  refine ⟨_, _, validateQuery_of_errors (by decide +kernel), by decide +kernel, ?_⟩
  rfl

end Urgentry
