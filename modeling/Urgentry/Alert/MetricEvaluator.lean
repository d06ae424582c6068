import Urgentry.GoLib
import Mathlib.Data.Rat.Init
import Mathlib.Order.Defs.LinearOrder

/-!
# Metric alerts

`evaluateMetricRule`, the pass that persists its transitions, the store, and the two handlers that
write rules. A rule is triggered by one threshold and resolved by another, and the handlers accept
any two numbers. Where a value is beyond the first and already good enough for the second, the rule
is triggered and resolved in turn for as long as the value stays, with a notification each time.

So a steady value makes at most one transition exactly when no resolve threshold is set, or the one
that is set is not on the wrong side of the threshold (`transitions_le_one_iff`). Values are taken
from any linear order with a zero; a zero or negative resolve threshold counts as not set. -/

namespace Urgentry.MetricAlerts

open GoText

/-- `MetricAlertRule`, as far as evaluation depends on it. The state stands beside it; the other
fields are those of `metricAlertRuleRequest`. -/
structure Rule (F : Type*) where
  (name metric : String)
  customMetricName : String := ""
  threshold : F
  thresholdType : String := ""
  timeWindowSecs : ℤ := 0
  resolveThreshold : F
  environment : String := ""
  status : String := ""

variable {F : Type*} [LinearOrder F] [Zero F] (go : GoLib)

/-! ## The handlers -/

def validMetrics : List String :=
  ["error_count", "transaction_count", "p95_latency", "failure_rate", "apdex", "custom_metric"]

def validTimeWindows : List ℤ := [60, 300, 600, 900, 1800, 3600]

def normalizeThresholdType (t : String) : String :=
  if go.canonical t = "below" then "below" else "above"

def normalizeAlertStatus (status : String) : String :=
  if go.canonical status = "disabled" ∨ go.canonical status = "inactive" then "disabled"
    else "active"

/-- The checks of both handlers; an update may leave the metric out. -/
def refusal (body : Rule F) (optional : Bool) : Option String :=
  if trimSpace body.name = "" then some "Name is required."
  else if body.metric ∉ validMetrics ∧ ¬(optional = true ∧ body.metric = "") then
    some ("Invalid metric. Must be one of: error_count, transaction_count, p95_latency, " ++
      "failure_rate, apdex, custom_metric.")
  else if body.metric = "custom_metric" ∧ trimSpace body.customMetricName = "" then
    some "customMetricName is required when metric is custom_metric."
  else none

/-- `handleCreateMetricAlertRule`: the rule and its state. -/
def create (body : Rule F) : Except String (Rule F × String) :=
  (refusal body false).elim (.ok (
    { body with
      name := trimSpace body.name
      customMetricName := trimSpace body.customMetricName
      thresholdType := normalizeThresholdType go body.thresholdType
      timeWindowSecs := if body.timeWindowSecs ∈ validTimeWindows then body.timeWindowSecs else 300
      environment := trimSpace body.environment
      status := normalizeAlertStatus go body.status }, "ok")) .error

/-- `handleUpdateMetricAlertRule`, which leaves the state alone. -/
def update (existing body : Rule F) : Except String (Rule F) :=
  (refusal body true).elim (.ok
    { body with
      name := trimSpace body.name
      metric := if body.metric ≠ "" then body.metric else existing.metric
      customMetricName :=
        if body.metric = "custom_metric" ∨ body.customMetricName ≠ "" then
          trimSpace body.customMetricName
        else existing.customMetricName
      thresholdType :=
        if body.thresholdType ≠ "" then normalizeThresholdType go body.thresholdType
        else existing.thresholdType
      timeWindowSecs :=
        if body.timeWindowSecs ∈ validTimeWindows then body.timeWindowSecs
        else existing.timeWindowSecs
      environment := trimSpace body.environment
      status := normalizeAlertStatus go body.status }) .error

/-! ## Evaluation -/

/-- A rule that was written, as it is listed: the table has no column for the name of a custom
metric. -/
def Rule.stored (rule : Rule F) : Rule F := { rule with customMetricName := "" }

/-- `queryMetric` has an answer of the engine to return: it does not know `apdex`. -/
def Rule.Measured (rule : Rule F) : Prop :=
  rule.metric ∈ ["error_count", "transaction_count", "p95_latency", "failure_rate"] ∨
    rule.metric = "custom_metric" ∧ trimSpace rule.customMetricName ≠ ""
deriving Decidable

def thresholdBreached (value threshold : F) (thresholdType : String) : Bool :=
  if go.canonical thresholdType = "below" then value < threshold else threshold < value

def shouldResolve (rule : Rule F) (value : F) (stillBreached : Bool) : Bool :=
  if 0 < rule.resolveThreshold then
    if go.canonical rule.thresholdType = "below" then rule.resolveThreshold ≤ value
    else value ≤ rule.resolveThreshold
  else !stillBreached

/-- `evaluateMetricRule`: the state to go to. -/
def evaluateMetricRule (rule : Rule F) (state : String) (value : F) : Option String :=
  let breached := thresholdBreached go value rule.threshold rule.thresholdType
  if state = "ok" ∨ state = "resolved" then if breached then some "triggered" else none
  else if state = "triggered" then
    if shouldResolve go rule value breached then some "resolved" else none
  else none

@[simp] theorem evaluateMetricRule_stored (rule : Rule F) :
    evaluateMetricRule go rule.stored = evaluateMetricRule go rule := rfl

/-- What a pass makes of a rule that was written: only active ones are listed, and a failed query is
skipped. -/
def pass (rule : Rule F) (value : F) (state : String) : Option String :=
  if rule.status = "active" ∧ rule.stored.Measured then
    evaluateMetricRule go rule.stored state value
  else none

/-- The number of transitions in a number of passes, each of them persisted. -/
def transitions (rule : Rule F) (value : F) : ℕ → String → ℕ
  | 0, _ => 0
  | n + 1, state =>
    match pass go rule value state with
    | some state' => transitions rule value n state' + 1
    | none => transitions rule value n state

/-! ## Steady values -/

/-- **The condition.** If passes evaluate the rule and a resolve threshold is set, it is not on the
triggering side of the threshold. -/
def Rule.Separated (rule : Rule F) : Prop :=
  rule.status = "active" ∧ rule.stored.Measured → 0 < rule.resolveThreshold →
    go.canonical rule.thresholdType = "below" ∧ rule.threshold ≤ rule.resolveThreshold ∨
      go.canonical rule.thresholdType ≠ "below" ∧ rule.resolveThreshold ≤ rule.threshold

variable {go} {rule : Rule F} {value : F} {state state' : String}

/-- Otherwise the resolve threshold itself is a value that both triggers and resolves. -/
theorem separated_iff : rule.Separated go ↔ (rule.status = "active" ∧ rule.stored.Measured →
    ∀ value, thresholdBreached go value rule.threshold rule.thresholdType →
      ¬shouldResolve go rule value true) := by
  unfold Rule.Separated thresholdBreached shouldResolve
  refine imp_congr_right fun _ => ⟨fun h value => by grind, fun h hpos => ?_⟩
  have hvalue := h rule.resolveThreshold
  grind

/-- With separated thresholds a second pass over the same value finds nothing to do. -/
theorem pass_of_pass (hsep : rule.Separated go) (h : pass go rule value state = some state') :
    pass go rule value state' = none := by
  rw [separated_iff] at hsep
  simp only [pass, evaluateMetricRule_stored] at h ⊢
  simp only [evaluateMetricRule] at h ⊢
  grind

theorem transitions_of_pass (h : pass go rule value state = none) (n : ℕ) :
    transitions go rule value n state = 0 := by
  induction n with
  | zero => rfl
  | succ n ih => simp [transitions, h, ih]

/-- **Metric alerts do not flap** exactly when the thresholds are separated. -/
theorem transitions_le_one_iff (go : GoLib) (rule : Rule F) :
    (∀ state value n, transitions go rule value n state ≤ 1) ↔ rule.Separated go := by
  constructor
  · intro h
    rw [separated_iff]
    intro heval value hbreached hresolve
    have htwo := h "ok" value 2
    simp only [transitions, pass, evaluateMetricRule_stored] at htwo
    simp [heval, evaluateMetricRule, hbreached, hresolve] at htwo
  · intro hsep state value n
    cases n with
    | zero => exact Nat.zero_le 1
    | succ n =>
      rw [transitions]
      cases h : pass go rule value state with
      | none => simp [transitions_of_pass h]
      | some state' => simp [transitions_of_pass (pass_of_pass hsep h)]

/-- A rule that the API accepts alternates at a steady 150. -/
theorem accepted_rule_flaps : ∃ rule : Rule ℚ, create asciiLib
    { name := "a", metric := "p95_latency", threshold := (100 : ℚ), resolveThreshold := 200 } =
      .ok (rule, "ok") ∧ transitions asciiLib rule 150 4 "ok" = 4 :=
  ⟨_, rfl, by decide +kernel⟩

end Urgentry.MetricAlerts
