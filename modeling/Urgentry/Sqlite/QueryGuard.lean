import Urgentry.Auth.Authorizer
import Urgentry.Clock
import Urgentry.Internal.LuaNumber
import Urgentry.Internal.Quota

/-!
# The two query guards

`query_guard_store.go` and `query_guard_valkey.go`: a query has an estimated cost, and an actor of
an organization may run so many queries of a workload in a window of time, at so much cost
altogether. One guard counts in a table of the database, with an upsert that does nothing when a
limit would be exceeded. The other counts in a hash of the Valkey server, with a script.

A call reads the policy, which is fixed, and then runs one statement or one script. So the calls
that overlap are a sequence of these, in the order in which they reach the store and with the times
that they have read before, in any order.

## Refinement

Both guards are to follow the rule of `Quota`: the requests of a key, an actor and a window of the
policy, are admitted as long as both limits allow. The counters of the table are named by columns,
the hashes by a text, and in both the window stands as the second at which it starts. The names tell
the keys apart, and so the counters of each guard back a lawful log. That they agree, that they
enforce the policy and that they deny nothing else are then facts about lawful logs.

## Three limits of the arithmetic

* The window is `time.Duration(WindowSeconds) * time.Second`, which wraps around above `9223372036`
  seconds. A window of `18446744074` seconds is one of 0.29 seconds.
* The costs are machine integers. The estimate for a limit of `2 ^ 62` rows is negative.
* The script computes with doubles, the table with integers.

`Moderate` keeps clear of the three, and under it the guards do what they are for.

## Main results

* `QueryGuards.agree_and_enforce`: for moderate calls the guards return the same decisions, keep
  within the policy, and deny only what would exceed it.
* `QueryGuards.wrapped_window`: a policy of one request in 18446744074 seconds, and two requests
  that are admitted ten seconds apart. -/

namespace Urgentry

open GoText LuaNumber Auth Quota List

/-! ## Requests -/

/-- `QueryWorkload`: its constants, and the zero value. -/
inductive QueryWorkload
  | unset
  | orgIssues
  | discover
  | logs
  | transactions
  | replays
  | profiles
deriving DecidableEq

/-- The text of a workload. -/
def QueryWorkload.text : QueryWorkload → String
  | .unset => ""
  | .orgIssues => "org_issues"
  | .discover => "discover"
  | .logs => "logs"
  | .transactions => "transactions"
  | .replays => "replays"
  | .profiles => "profiles"

/-- `QueryEstimate`. -/
structure QueryEstimate where
  workload : QueryWorkload
  limit : Int64
  (query scope : String)
  detail : Bool
deriving DecidableEq

/-- `QueryGuardPolicy`. -/
structure QueryGuardPolicy where
  (maxCostPerRequest maxRequestsPerWindow maxCostPerWindow windowSeconds : Int64)
deriving DecidableEq

/-- The part of `QueryGuardRequest` that the decision depends on. -/
structure QueryGuardRequest where
  principal : Option Principal
  organizationId : String
  estimate : QueryEstimate
deriving DecidableEq

/-- `QueryGuardDecision`; the wait is in nanoseconds. -/
structure QueryGuardDecision where
  allowed : Bool
  statusCode : ℕ
  reason : String
  retryAfter : ℤ
  cost : Int64
  degraded : Bool
deriving DecidableEq

/-- The part of `IssueSearchQuery` that counts. -/
structure IssueSearchQuery where
  (status release environment level eventType : String)

/-- `defaultQueryGuardPolicy`. -/
def defaultQueryGuardPolicy : QueryWorkload → QueryGuardPolicy
  | .discover | .logs | .transactions | .orgIssues => ⟨350, 60, 2400, 300⟩
  | .replays => ⟨220, 90, 7200, 300⟩
  | .profiles => ⟨220, 90, 1800, 300⟩
  | .unset => ⟨250, 60, 1800, 300⟩

/-- The text of a kind of credential. -/
def credentialText : CredentialKind → String
  | .projectKey => "project_key"
  | .session => "session"
  | .pat => "personal_access_token"
  | .automationToken => "project_automation_token"

/-- `queryGuardActorKey`. -/
def queryGuardActorKey : Option Principal → String
  | none => "anonymous"
  | some principal =>
    match principal.user with
    | some user =>
      if user.id ≠ "" then "user:" ++ user.id else principalKey principal
    | none => principalKey principal
where
  /-- Without a user. -/
  principalKey (principal : Principal) : String :=
    if principal.credentialId ≠ "" then
      credentialText principal.kind ++ ":" ++ principal.credentialId
    else if principal.projectId ≠ "" then "project:" ++ principal.projectId
    else credentialText principal.kind

/-! ## Costs -/

/-- `strings.EqualFold(s, "all")`. No other letter folds to one of these. -/
def equalFoldAll (s : String) : Bool :=
  s.toList.map Char.toLower = ['a', 'l', 'l']

/-- The number of rows that an estimate is about. -/
def estimateLimit (estimate : QueryEstimate) : ℤ :=
  if estimate.limit.toInt ≤ 0 then 25 else estimate.limit.toInt

/-- The part of the cost that depends on the workload. -/
def workloadCost (estimate : QueryEstimate) : ℤ :=
  let limit := estimateLimit estimate
  match estimate.workload with
  | .discover =>
    if trimSpace estimate.scope = "" ∨ equalFoldAll (trimSpace estimate.scope) then
      limit * 3 + limit * 2
    else limit * 3
  | .logs | .transactions | .orgIssues => limit * 2
  | .replays | .profiles => if estimate.detail then 80 else limit * 2
  | .unset => limit

/-- The filters of a search that are set. -/
def filterCount (parsed : IssueSearchQuery) : ℕ :=
  ([parsed.status, parsed.release, parsed.environment, parsed.level, parsed.eventType].filter
    fun value => trimSpace value ≠ "").length

variable (search : String → IssueSearchQuery)

/-- The cost of a query as a number. -/
def exactCost (estimate : QueryEstimate) : ℤ :=
  let query := trimSpace estimate.query
  workloadCost estimate + (fields query).length * 20 + filterCount (search query) * 15 +
    (if query ≠ "" then 10 + (query.utf8ByteSize / 16 : ℕ) else 0) + if estimate.detail
      then 10 else 0

/-- `estimateQueryCost`. The machine wraps the sums and products around, and so does this, once at
the end. -/
def estimateQueryCost (estimate : QueryEstimate) : Except String Int64 :=
  if 512 < (trimSpace estimate.query).utf8ByteSize then
    .error "query exceeds the 512-character guardrail"
  else .ok (Int64.ofInt (exactCost search estimate))

/-! ## Both guards -/

/-- A request, with the time that the guard reads. -/
structure GuardCall where
  request : QueryGuardRequest
  now : Instant
deriving DecidableEq

/-- What the guards read: the table of policies and the parser of searches. -/
structure GuardEnv where
  /-- `query_guard_policies`, by its primary key. -/
  policies : String → QueryWorkload → Option QueryGuardPolicy
  /-- `ParseIssueSearch`. -/
  search : String → IssueSearchQuery

namespace GuardEnv

variable (env : GuardEnv) (c : GuardCall)

/-- The policy of an organization for a workload. -/
def policy (organizationId : String) (workload : QueryWorkload) : QueryGuardPolicy :=
  (env.policies organizationId workload).getD (defaultQueryGuardPolicy workload)

/-- `loadPolicy`. -/
def loadPolicy : QueryGuardPolicy :=
  env.policy c.request.organizationId c.request.estimate.workload

/-- `time.Duration(policy.WindowSeconds) * time.Second`. -/
def window : Duration := (env.loadPolicy c).windowSeconds * 1000000000

/-- `now.Truncate(window)`. -/
def windowStart : Time := c.now.toTime.truncate (env.window c)

/-- `window - now.Sub(windowStart)`. -/
def remaining : ℤ := (env.window c).toInt - (c.now.ns - (env.windowStart c).ns)

/-- The first part of both guards: the decision about a request that is not counted, or the cost. -/
def screen : Except QueryGuardDecision Int64 :=
  if c.request.principal = none ∨ c.request.organizationId = "" then
    .error ⟨false, 403, "Query guard requires an authenticated organization-scoped principal.",
      0, 0, false⟩
  else
    match estimateQueryCost env.search c.request.estimate with
    | .error err => .error ⟨false, 400, err, 0, 0, false⟩
    | .ok cost =>
      if (env.loadPolicy c).maxCostPerRequest < cost then
        .error ⟨false, 429, "Query cost exceeds the configured per-request limit.", 0, cost, false⟩
      else .ok cost

/-- The request cannot be admitted in any window. -/
def Hopeless (cost : Int64) : Prop :=
  (env.loadPolicy c).maxRequestsPerWindow < 1 ∨ (env.loadPolicy c).maxCostPerWindow < cost
deriving Decidable

end GuardEnv

/-- The quota is used up. -/
def QueryGuardDecision.exhausted (retryAfter : ℤ) (cost : Int64) : QueryGuardDecision :=
  ⟨false, 429, "Query quota exhausted for the current window.", retryAfter, cost, false⟩

/-- The request is admitted. -/
def QueryGuardDecision.admitted (cost : Int64) : QueryGuardDecision :=
  ⟨true, 200, "", 0, cost, false⟩

/-! ## The guard of the database -/

/-- The primary key of `query_guard_usage`. -/
structure UsageKey where
  (organizationId workload actorKey windowStart : String)
deriving DecidableEq

/-- `query_guard_usage`: the counts of requests and of cost units, by the primary key. -/
abbrev UsageTable := UsageKey → Option Usage

variable (env : GuardEnv)

/-- The key of a call. -/
def usageKey (c : GuardCall) : UsageKey :=
  ⟨c.request.organizationId, c.request.estimate.workload.text,
    queryGuardActorKey c.request.principal,
    (env.windowStart c).rfc3339⟩

/-- The upsert: the number of rows it affects, and the table. A row that is not there is inserted
whatever the limits are. -/
def upsertUsage (key : UsageKey) (cost maxRequests maxCost : ℤ) (table : UsageTable) :
    ℕ × UsageTable :=
  match table key with
  | none => (1, Function.update table key (some ⟨1, cost⟩))
  | some usage =>
    if usage.count + 1 ≤ maxRequests ∧ usage.cost + cost ≤ maxCost then
      (1, Function.update table key (some ⟨usage.count + 1, usage.cost + cost⟩))
    else (0, table)

/-- `QueryGuardStore.CheckAndRecord`. -/
def QueryGuardStore.checkAndRecord (table : UsageTable) (c : GuardCall) :
    QueryGuardDecision × UsageTable :=
  match env.screen c with
  | .error decision => (decision, table)
  | .ok cost =>
    if env.Hopeless c cost then (.exhausted (env.remaining c) cost, table)
    else
      let result := upsertUsage (usageKey env c) cost.toInt
        (env.loadPolicy c).maxRequestsPerWindow.toInt
          (env.loadPolicy c).maxCostPerWindow.toInt table
      if result.1 = 0 then (.exhausted (env.remaining c) cost, result.2)
      else (.admitted cost, result.2)

/-! ## The guard of the Valkey server -/

/-- The hashes, by their names. -/
abbrev UsageHashes := String → Option Usage

/-- `fmt.Sprintf("urgentry:quota:org:%s:%s:%s:%d", ...)`. -/
def quotaName (organizationId workload actorKey : String) (start : ℤ) : String :=
  "urgentry:quota:org:" ++ (organizationId ++ ":" ++ (workload ++ ":" ++ (actorKey ++ ":" ++
    toString start)))

/-- The name of the hash of a call. -/
def hashName (c : GuardCall) : String :=
  quotaName c.request.organizationId c.request.estimate.workload.text
    (queryGuardActorKey c.request.principal) (env.windowStart c).unix

/-- The script: its first result, and the hash. -/
def quotaScript (cost maxRequests maxCost : ℤ) (hash : Option Usage) : Bool × Option Usage :=
  let usage := hash.getD ⟨0, 0⟩
  let nextCount := toDouble (usage.count + 1)
  let nextCost := toDouble (usage.cost + toDouble cost)
  if toDouble maxRequests < nextCount ∨ toDouble maxCost < nextCost then (false, hash)
  else (true, some ⟨nextCount, nextCost⟩)

/-- `ValkeyQueryGuardStore.CheckAndRecord`, without outages. -/
def ValkeyQueryGuardStore.checkAndRecord (hashes : UsageHashes) (c : GuardCall) :
    QueryGuardDecision × UsageHashes :=
  match env.screen c with
  | .error decision => (decision, hashes)
  | .ok cost =>
    let retryAfter := max (env.remaining c) (10 ^ 9)
    if env.Hopeless c cost then (.exhausted retryAfter cost, hashes)
    else
      let result := quotaScript cost.toInt (env.loadPolicy c).maxRequestsPerWindow.toInt
        (env.loadPolicy c).maxCostPerWindow.toInt (hashes (hashName env c))
      if result.1 then (.admitted cost, Function.update hashes (hashName env c) result.2)
      else (.exhausted retryAfter cost, Function.update hashes (hashName env c) result.2)

/-! ## Runs -/

/-- The decisions about these calls, which stand with the last one first, and the store
afterwards. -/
def runGuard {σ : Type} (check : σ → GuardCall → QueryGuardDecision × σ) (init : σ) :
    List GuardCall → List (GuardCall × QueryGuardDecision) × σ
  | [] => ([], init)
  | c :: earlier =>
    let before := runGuard check init earlier
    ((c, (check before.2 c).1) :: before.1, (check before.2 c).2)

/-- An actor of an organization with a workload, in a window of the policy. -/
structure QuotaKey where
  organizationId : String
  workload : QueryWorkload
  actorKey : String
  window : ℕ
deriving DecidableEq

namespace GuardEnv

variable (env : GuardEnv) (c : GuardCall)

/-- The key of a call. Its window is counted in windows of `WindowSeconds` since the zero time. -/
def quotaKey : QuotaKey :=
  ⟨c.request.organizationId, c.request.estimate.workload, queryGuardActorKey c.request.principal,
    c.now.ns / ((env.loadPolicy c).windowSeconds.toInt.toNat * 10 ^ 9)⟩

/-- The limits of a key. -/
def limits (k : QuotaKey) : Limits :=
  ⟨(env.policy k.organizationId k.workload).maxRequestsPerWindow.toInt,
    (env.policy k.organizationId k.workload).maxCostPerWindow.toInt⟩

variable (outcomes : List (GuardCall × QueryGuardDecision))

/-- The requests within the limits of one request, with the decisions about them. -/
def quotaLog : List (Entry QuotaKey) :=
  outcomes.filterMap fun p =>
    match env.screen p.1 with
    | .error _ => none
    | .ok cost => some ⟨env.quotaKey p.1, cost.toInt, p.2.allowed⟩

/-- **The policy is enforced**: the admitted requests of an actor in a window keep within both
limits, where a limit below zero admits none, and a request within the limits of one request is
denied only if it would exceed one of the two. -/
structure Enforced : Prop where
  within : ∀ k, (usage (env.quotaLog outcomes) k).count ≠ 0 →
    (usage (env.quotaLog outcomes) k).count ≤ (env.limits k).requests ∧
      (usage (env.quotaLog outcomes) k).cost ≤ (env.limits k).cost
  denied : ∀ later p earlier cost, outcomes = later ++ p :: earlier → env.screen p.1 = .ok cost →
    p.2.allowed = false →
    (env.limits (env.quotaKey p.1)).requests <
        (usage (env.quotaLog earlier) (env.quotaKey p.1)).count + 1 ∨
      (env.limits (env.quotaKey p.1)).cost <
        (usage (env.quotaLog earlier) (env.quotaKey p.1)).cost + cost.toInt

/-- The window of the policy is at least a second, and the id of the organization has no colon. -/
def Proper : Prop :=
  1 ≤ (env.loadPolicy c).windowSeconds.toInt ∧ ':' ∉ c.request.organizationId.toList

/-- **Numbers that the machine can compute with**: the window is a duration, the limits are doubles
with room for one more request, and the estimate of a query that is short enough does not
overflow. -/
structure Moderate : Prop where
  window : (env.loadPolicy c).windowSeconds.toInt ≤ 9223372036
  requests : (env.loadPolicy c).maxRequestsPerWindow.toInt < 2 ^ 53
  cost : (env.loadPolicy c).maxCostPerWindow.toInt ≤ 2 ^ 52
  estimate : (trimSpace c.request.estimate.query).utf8ByteSize ≤ 512 →
    exactCost env.search c.request.estimate < 2 ^ 63

/-! ## The names of the counters -/

section Names

variable {env : GuardEnv} {c d : GuardCall}

/-- The calls of which the theorem speaks. -/
def Counted (env : GuardEnv) (c : GuardCall) : Prop := env.Proper c ∧ env.Moderate c

theorem toInt_window (h : env.Counted c) :
    (env.window c).toInt = (env.loadPolicy c).windowSeconds.toInt * 10 ^ 9 := by
  have hlo := h.1.1
  have hhi := h.2.window
  have hsecond : (1000000000 : Int64).toInt = 10 ^ 9 := by decide
  rw [window, Int64.toInt_mul, hsecond]
  exact Int.bmod_eq_of_le (by omega) (by omega)

/-- A window starts at a whole number of windows. -/
theorem ns_windowStart (h : env.Counted c) : (env.windowStart c).ns =
    (env.quotaKey c).window * ((env.loadPolicy c).windowSeconds.toInt.toNat * 10 ^ 9) := by
  have hwindow := toInt_window h
  have hlo := h.1.1
  have hpos : ¬env.window c ≤ 0 := by
    rw [Int64.le_iff_toInt_le]
    have hzero : (0 : Int64).toInt = 0 := by decide
    omega
  have hnat :
      (env.window c).toInt.toNat = (env.loadPolicy c).windowSeconds.toInt.toNat * 10 ^ 9 := by
    omega
  rw [windowStart, Time.truncate, if_neg hpos, hnat]
  exact (Nat.div_mul_self_eq_mod_sub_self ..).symm

theorem secs_windowStart (h : env.Counted c) : (env.windowStart c).secs =
    (env.quotaKey c).window * (env.loadPolicy c).windowSeconds.toInt.toNat := by
  rw [Time.secs, ns_windowStart h, ← mul_assoc, Nat.mul_div_cancel _ (by decide)]

/-- The windows of one policy are told apart by the seconds at which they start. -/
theorem quotaKey_eq_iff (hc : env.Counted c) (hd : env.Counted d) :
    env.quotaKey c = env.quotaKey d ↔
      c.request.organizationId = d.request.organizationId ∧
      c.request.estimate.workload = d.request.estimate.workload ∧
      queryGuardActorKey c.request.principal = queryGuardActorKey d.request.principal ∧
      (env.windowStart c).secs = (env.windowStart d).secs := by
  have hlo := hc.1.1
  have hpos : 0 < (env.loadPolicy c).windowSeconds.toInt.toNat := by omega
  rw [secs_windowStart hc, secs_windowStart hd]
  constructor
  · intro h
    have hwindow : (env.quotaKey c).window = (env.quotaKey d).window := by rw [h]
    simp only [quotaKey, QuotaKey.mk.injEq] at h
    obtain ⟨horg, hwork, hactor, -⟩ := h
    have hpolicy : env.loadPolicy c = env.loadPolicy d := by
      rw [loadPolicy, loadPolicy, horg, hwork]
    exact ⟨horg, hwork, hactor, by rw [hwindow, hpolicy]⟩
  · rintro ⟨horg, hwork, hactor, hsecs⟩
    have hpolicy : env.loadPolicy c = env.loadPolicy d := by
      rw [loadPolicy, loadPolicy, horg, hwork]
    rw [← hpolicy] at hsecs
    have hwindow := Nat.eq_of_mul_eq_mul_right hpos hsecs
    simp only [quotaKey] at hwindow ⊢
    rw [horg, hwork, hactor, hwindow]

theorem QueryWorkload.text_inj {v w : QueryWorkload} : v.text = w.text ↔ v = w := by
  cases v <;> cases w <;> decide

/-- The name of a hash can be taken apart: the organization and the workload from the left, the
number from the right, and the actor is what is left. -/
theorem quotaName_inj {org org' work work' actor actor' : String} {start start' : ℤ}
    (horg : ':' ∉ org.toList) (horg' : ':' ∉ org'.toList)
    (hwork : ':' ∉ work.toList) (hwork' : ':' ∉ work'.toList)
    (h : quotaName org work actor start = quotaName org' work' actor' start') :
    org = org' ∧ work = work' ∧ actor = actor' ∧ start = start' := by
  have hnumber : ∀ n : ℤ, ':' ∉ (toString n).toList := by
    intro n hmem
    rcases mem_toString_int hmem with h | h <;> revert h <;> decide
  have hcolon : (":" : String).toList = [':'] := rfl
  have hlist := congrArg String.toList h
  unfold quotaName at hlist
  simp only [String.toList_append, append_cancel_left_eq, hcolon, append_assoc,
    singleton_append] at hlist
  obtain ⟨horg, hlist⟩ := sep_append_inj horg horg' hlist
  obtain ⟨hwork, hlist⟩ := sep_append_inj hwork hwork' hlist
  obtain ⟨hactor, hstart⟩ := append_sep_inj (hnumber _) (hnumber _) hlist
  exact ⟨String.toList_injective horg, String.toList_injective hwork,
    String.toList_injective hactor,
    toString_int_inj hstart⟩

/-- So are the hashes. -/
theorem hashName_eq_iff (hc : env.Counted c) (hd : env.Counted d) :
    hashName env c = hashName env d ↔ env.quotaKey c = env.quotaKey d := by
  have hworkload : ∀ w : QueryWorkload, ':' ∉ w.text.toList := by
    intro w
    cases w <;> decide
  rw [quotaKey_eq_iff hc hd, ← Time.unix_inj, ← QueryWorkload.text_inj]
  constructor
  · exact quotaName_inj hc.1.2 hd.1.2 (hworkload _) (hworkload _)
  · rintro ⟨horg, hwork, hactor, hunix⟩
    rw [hashName, hashName, horg, hwork, hactor, hunix]

end Names

/-! ## Estimates -/

section Estimates

variable {env : GuardEnv} {c : GuardCall} {cost : Int64}

theorem screen_eq_ok (h : env.screen c = .ok cost) :
    (trimSpace c.request.estimate.query).utf8ByteSize ≤ 512 ∧
      cost = Int64.ofInt (exactCost env.search c.request.estimate) := by
  rw [screen] at h
  split at h
  · cases h
  · rw [estimateQueryCost] at h
    split at h
    · cases h
    · rename_i cost' hestimate
      split at hestimate
      · cases hestimate
      · rename_i hsize
        split at h
        · cases h
        · cases h
          exact ⟨not_lt.mp hsize, (Except.ok.inj hestimate).symm⟩

theorem workloadCost_nonneg (estimate : QueryEstimate) : 0 ≤ workloadCost estimate := by
  have hlimit : 0 ≤ estimateLimit estimate := by
    rw [estimateLimit]
    split <;> omega
  rw [workloadCost]
  cases estimate.workload with
  | discover | replays | profiles =>
    dsimp only
    split_ifs <;> omega
  | logs | transactions | orgIssues | unset =>
    dsimp only
    omega

/-- The estimate of a moderate call does not overflow. -/
theorem toInt_cost_nonneg (hc : env.Moderate c) (h : env.screen c = .ok cost) : 0 ≤ cost.toInt := by
  obtain ⟨hsize, rfl⟩ := screen_eq_ok h
  have hwork := workloadCost_nonneg c.request.estimate
  have hnonneg : 0 ≤ exactCost env.search c.request.estimate := by
    simp only [exactCost]
    split <;> split <;> omega
  have hlt := hc.estimate hsize
  rw [Int64.toInt_ofInt_of_le (by omega) (by omega)]
  exact hnonneg

end Estimates

/-! ## Both guards follow the rule -/

section Rule

variable {env : GuardEnv} {c : GuardCall} {cost : Int64} {usage : Usage}

/-- The decision on a request that has been screened, and the counter afterwards, by the rule. The
wait differs between the guards. -/
def ruled (env : GuardEnv) (c : GuardCall) (cost : Int64) (retryAfter : ℤ) {ν : Type}
    [DecidableEq ν] (name : ν) (store : ν → Option Usage) :
    QueryGuardDecision × (ν → Option Usage) :=
  let usage := value store name
  if Admits (env.limits (env.quotaKey c)) usage cost.toInt then
    (.admitted cost, Function.update store name (some ⟨usage.count + 1, usage.cost + cost.toInt⟩))
  else (.exhausted retryAfter cost, store)

/-- The limits of the key of a call are those of its policy. -/
theorem limits_quotaKey (env : GuardEnv) (c : GuardCall) : env.limits (env.quotaKey c) =
    ⟨(env.loadPolicy c).maxRequestsPerWindow.toInt,
      (env.loadPolicy c).maxCostPerWindow.toInt⟩ := rfl

theorem hopeless_iff : env.Hopeless c cost ↔ (env.limits (env.quotaKey c)).requests < 1 ∨
      (env.limits (env.quotaKey c)).cost < cost.toInt := by
  rw [Hopeless, Int64.lt_iff_toInt_lt, Int64.lt_iff_toInt_lt]
  exact Iff.rfl

/-- The counts are not negative, and small enough for doubles. -/
structure Small (usage : Usage) : Prop where
  count : 0 ≤ usage.count
  cost : 0 ≤ usage.cost
  count_lt : usage.count < 2 ^ 53
  cost_le : usage.cost ≤ 2 ^ 52

/-- A request without hope is not admitted, whatever has been used. -/
theorem not_admits_of_hopeless (h : env.Hopeless c cost) (hsmall : Small usage) :
    ¬Admits (env.limits (env.quotaKey c)) usage cost.toInt := by
  rintro ⟨hrequests, hcosts⟩
  have hcount := hsmall.count
  have hused := hsmall.cost
  rcases hopeless_iff.mp h with hlow | hlow <;> omega

theorem queryGuardStore_ruled {table : UsageTable} (h : env.screen c = .ok cost)
    (hsmall : Small (value table (usageKey env c))) :
    QueryGuardStore.checkAndRecord env table c =
      ruled env c cost (env.remaining c) (usageKey env c) table := by
  simp only [QueryGuardStore.checkAndRecord, h, ruled]
  by_cases hhope : env.Hopeless c cost
  · rw [if_pos hhope, if_neg (not_admits_of_hopeless hhope hsmall)]
  rw [if_neg hhope]
  rw [hopeless_iff, not_or] at hhope
  obtain ⟨hrequests, hcosts⟩ := hhope
  cases hrow : table (usageKey env c) with
  | none =>
    have hvalue : value table (usageKey env c) = ⟨0, 0⟩ := by
      rw [value, hrow]
      rfl
    have hadmits : Admits (env.limits (env.quotaKey c)) ⟨0, 0⟩ cost.toInt :=
      ⟨by simpa using hrequests, by simpa using hcosts⟩
    simp only [upsertUsage, hrow, hvalue, if_pos hadmits, one_ne_zero, if_false, zero_add]
  | some usage =>
    have hvalue : value table (usageKey env c) = usage := by
      rw [value, hrow]
      rfl
    simp only [upsertUsage, hrow, hvalue]
    by_cases hadmits : Admits (env.limits (env.quotaKey c)) usage cost.toInt
    · rw [if_pos hadmits]
      rw [Admits, limits_quotaKey] at hadmits
      simp only [if_pos hadmits, one_ne_zero, if_false]
    · rw [if_neg hadmits]
      rw [Admits, limits_quotaKey] at hadmits
      simp only [if_neg hadmits, if_true]

/-- The script computes with doubles, but the numbers are small enough. -/
theorem quotaScript_eq {maxRequests maxCost spent : ℤ} {hash : Option Usage}
    (hhash : hash.getD ⟨0, 0⟩ = usage) (hsmall : Small usage) (hspent : 0 ≤ spent)
    (hrequests : 1 ≤ maxRequests) (hrequests' : maxRequests < 2 ^ 53) (hcosts : spent ≤ maxCost)
    (hcosts' : maxCost ≤ 2 ^ 52) :
    quotaScript spent maxRequests maxCost hash =
      if Admits ⟨maxRequests, maxCost⟩ usage spent then
        (true, some ⟨usage.count + 1, usage.cost + spent⟩)
      else (false, hash) := by
  obtain ⟨hcount, hused, hcount', hused'⟩ := hsmall
  have hmaxRequests := toDouble_of_le (n := maxRequests) (by omega) (by omega)
  have hmaxCost := toDouble_of_le (n := maxCost) (by omega) (by omega)
  have hspends := toDouble_of_le hspent (by omega)
  have hnextCount := toDouble_of_le (n := usage.count + 1) (by omega) (by omega)
  have hnextCost := toDouble_of_le (n := usage.cost + spent) (by omega) (by omega)
  simp only [quotaScript, hhash]
  rw [hmaxRequests, hmaxCost, hspends, hnextCount, hnextCost]
  by_cases hadmits : Admits ⟨maxRequests, maxCost⟩ usage spent
  · rw [if_pos hadmits, if_neg]
    rw [not_or, not_lt, not_lt]
    exact hadmits
  · rw [if_neg hadmits, if_pos]
    rwa [Admits, not_and_or, not_le, not_le] at hadmits

theorem valkeyQueryGuardStore_ruled (hc : env.Moderate c) {hashes : UsageHashes}
    (h : env.screen c = .ok cost) (hspent : 0 ≤ cost.toInt)
    (hsmall : Small (value hashes (hashName env c))) :
    ValkeyQueryGuardStore.checkAndRecord env hashes c =
      ruled env c cost (max (env.remaining c) (10 ^ 9)) (hashName env c) hashes := by
  simp only [ValkeyQueryGuardStore.checkAndRecord, h, ruled]
  by_cases hhope : env.Hopeless c cost
  · rw [if_pos hhope, if_neg (not_admits_of_hopeless hhope hsmall)]
  rw [if_neg hhope]
  rw [hopeless_iff, not_or, not_lt, not_lt] at hhope
  have hscript : quotaScript cost.toInt (env.loadPolicy c).maxRequestsPerWindow.toInt
      (env.loadPolicy c).maxCostPerWindow.toInt (hashes (hashName env c)) =
      if Admits (env.limits (env.quotaKey c)) (value hashes (hashName env c)) cost.toInt then
        (true, some ⟨(value hashes (hashName env c)).count + 1,
          (value hashes (hashName env c)).cost + cost.toInt⟩)
      else (false, hashes (hashName env c)) :=
    quotaScript_eq rfl hsmall hspent hhope.1 hc.requests hhope.2 hc.cost
  rw [hscript]
  by_cases hadmits : Admits (env.limits (env.quotaKey c)) (value hashes (hashName env c)) cost.toInt
  · simp only [if_pos hadmits, if_true]
  · simp [if_neg hadmits]

end Rule

/-! ## Runs of a guard -/

section Runs

variable {env : GuardEnv} {c : GuardCall} {cost : Int64}
  {outcomes : List (GuardCall × QueryGuardDecision)} {ν : Type}
  {name : GuardCall → ν} {store : ν → Option Usage}

theorem quotaLog_cons_error {decision screened : QueryGuardDecision}
    (h : env.screen c = .error screened) :
    env.quotaLog ((c, decision) :: outcomes) = env.quotaLog outcomes := by
  simp [quotaLog, h]

variable {decision : QueryGuardDecision}

theorem quotaLog_cons_ok (h : env.screen c = .ok cost) :
    env.quotaLog ((c, decision) :: outcomes) =
      ⟨env.quotaKey c, cost.toInt, decision.allowed⟩ :: env.quotaLog outcomes := by
  simp [quotaLog, h]

/-- **What holds between a guard and its history**: the history is lawful, and the counters say what
it says. -/
structure Follows (env : GuardEnv) (name : GuardCall → ν)
    (history : List (GuardCall × QueryGuardDecision) × (ν → Option Usage)) : Prop where
  lawful : Lawful env.limits (env.quotaLog history.1)
  backs : Backs env.Counted name env.quotaKey history.2 (env.quotaLog history.1)
  nonneg : ∀ e ∈ env.quotaLog history.1, 0 ≤ e.cost

/-- The usage of a key, as the guard reads it at a call of that key. -/
theorem Follows.small_value (h : env.Follows name (outcomes, store)) (hc : env.Counted c) :
    Small (value store (name c)) := by
  rw [h.backs c hc]
  suffices hbounds : (usage (env.quotaLog outcomes) (env.quotaKey c)).count < 2 ^ 53 ∧
      (usage (env.quotaLog outcomes) (env.quotaKey c)).cost ≤ 2 ^ 52
    from ⟨count_nonneg _ _, cost_nonneg h.nonneg _, hbounds.1, hbounds.2⟩
  by_cases hnone : (usage (env.quotaLog outcomes) (env.quotaKey c)).count = 0
  · rw [hnone, cost_eq_zero hnone]
    exact ⟨by decide, by decide⟩
  · have hwithin := h.lawful.usage_le _ hnone
    exact ⟨hwithin.1.trans_lt hc.2.requests, hwithin.2.trans hc.2.cost⟩

/-- One request, decided by the rule. -/
theorem Follows.step [DecidableEq ν] (h : env.Follows name (outcomes, store))
    (hname : ∀ c d, env.Counted c → env.Counted d →
      (name c = name d ↔ env.quotaKey c = env.quotaKey d))
    (hc : env.Counted c) (hscreen : env.screen c = .ok cost) (hspent : 0 ≤ cost.toInt) {wait : ℤ}
    {result : QueryGuardDecision × (ν → Option Usage)}
    (hresult : result = ruled env c cost wait (name c) store) :
    env.Follows name ((c, result.1) :: outcomes, result.2) := by
  have hvalue := h.backs c hc
  have hnonneg : ∀ e ∈ (⟨env.quotaKey c, cost.toInt, result.1.allowed⟩ : Entry QuotaKey) ::
      env.quotaLog outcomes, 0 ≤ e.cost := by
    rw [forall_mem_cons]
    exact ⟨hspent, h.nonneg⟩
  simp only [ruled, hvalue] at hresult
  by_cases hadmits : Admits (env.limits (env.quotaKey c))
      (usage (env.quotaLog outcomes) (env.quotaKey c)) cost.toInt
  · rw [if_pos hadmits] at hresult
    subst hresult
    refine ⟨?_, ?_, ?_⟩ <;> rw [quotaLog_cons_ok hscreen]
    · exact ⟨iff_of_true rfl hadmits, h.lawful⟩
    · exact h.backs.admit hname hc cost.toInt
    · exact hnonneg
  · rw [if_neg hadmits] at hresult
    subst hresult
    refine ⟨?_, ?_, ?_⟩ <;> rw [quotaLog_cons_ok hscreen]
    · exact ⟨iff_of_false Bool.false_ne_true hadmits, h.lawful⟩
    · exact h.backs.deny rfl
    · exact hnonneg

/-- A request that is not counted changes nothing. -/
theorem Follows.screened (h : env.Follows name (outcomes, store))
    (hscreen : env.screen c = .error decision) :
    env.Follows name ((c, decision) :: outcomes, store) := by
  refine ⟨?_, ?_, ?_⟩ <;> rw [quotaLog_cons_error hscreen]
  · exact h.lawful
  · exact h.backs
  · exact h.nonneg

variable {calls : List GuardCall}

/-- A guard that decides by the rule what has been screened follows it in every run. -/
theorem follows_runGuard [DecidableEq ν]
    {check : (ν → Option Usage) → GuardCall → QueryGuardDecision × (ν → Option Usage)}
    (hname : ∀ c d, env.Counted c → env.Counted d →
      (name c = name d ↔ env.quotaKey c = env.quotaKey d))
    (hscreened : ∀ {c store decision}, env.screen c = .error decision →
      check store c = (decision, store))
    (hruled : ∀ {c cost outcomes store}, env.Follows name (outcomes, store) → env.Counted c →
      env.screen c = .ok cost → ∃ wait, check store c = ruled env c cost wait (name c) store)
    (hcalls : ∀ c ∈ calls, env.Counted c) :
    env.Follows name (runGuard check (fun _ => none) calls) := by
  induction calls with
  | nil => exact ⟨trivial, fun _ _ => rfl, forall_mem_nil _⟩
  | cons c earlier ih =>
    rw [forall_mem_cons] at hcalls
    obtain ⟨hc, hearlier⟩ := hcalls
    have hbefore := ih hearlier
    rw [runGuard]
    cases hscreen : env.screen c with
    | error decision =>
      simp only [hscreened hscreen]
      exact hbefore.screened hscreen
    | ok cost =>
      obtain ⟨wait, hcheck⟩ := hruled hbefore hc hscreen
      exact hbefore.step hname hc hscreen (toInt_cost_nonneg hc.2 hscreen) hcheck

theorem queryGuardStore_screened {table : UsageTable} (h : env.screen c = .error decision) :
    QueryGuardStore.checkAndRecord env table c = (decision, table) := by
  simp only [QueryGuardStore.checkAndRecord, h]

theorem valkeyQueryGuardStore_screened {hashes : UsageHashes} (h : env.screen c = .error decision) :
    ValkeyQueryGuardStore.checkAndRecord env hashes c = (decision, hashes) := by
  simp only [ValkeyQueryGuardStore.checkAndRecord, h]

/-- The guard of the database follows the rule. -/
theorem follows_queryGuardStore (hcalls : ∀ c ∈ calls, env.Counted c) :
    env.Follows (usageKey env)
      (runGuard (QueryGuardStore.checkAndRecord env) (fun _ => none) calls) := by
  refine follows_runGuard (fun c d hc hd => ?_) queryGuardStore_screened ?_ hcalls
  · rw [quotaKey_eq_iff hc hd, usageKey, usageKey, UsageKey.mk.injEq, QueryWorkload.text_inj,
      Time.rfc3339_inj]
  intro c cost outcomes table h hc hscreen
  exact ⟨_, queryGuardStore_ruled hscreen (h.small_value hc)⟩

/-- The guard of the Valkey server follows the rule. -/
theorem follows_valkeyQueryGuardStore (hcalls : ∀ c ∈ calls, env.Counted c) :
    env.Follows (hashName env)
      (runGuard (ValkeyQueryGuardStore.checkAndRecord env) (fun _ => none) calls) := by
  refine follows_runGuard (fun _ _ => hashName_eq_iff) valkeyQueryGuardStore_screened ?_ hcalls
  intro c cost outcomes hashes h hc hscreen
  exact ⟨_,
    valkeyQueryGuardStore_ruled hc.2 hscreen (toInt_cost_nonneg hc.2 hscreen) (h.small_value hc)⟩

/-- What follows the rule enforces the policy. -/
theorem Follows.enforced (h : env.Follows name (outcomes, store)) : env.Enforced outcomes where
  within := h.lawful.usage_le
  denied := by
    rintro later ⟨c, decision⟩ earlier cost houtcomes hscreen hdenied
    have hlawful := h.lawful
    have hlog : env.quotaLog outcomes = env.quotaLog later ++
        ⟨env.quotaKey c, cost.toInt, decision.allowed⟩ :: env.quotaLog earlier := by
      rw [houtcomes, ← quotaLog_cons_ok hscreen, quotaLog, filterMap_append]
      rfl
    rw [hlog] at hlawful
    exact hlawful.of_denied hdenied

/-- The keys and the costs of the requests are those of the calls, whatever the guard decides. -/
theorem requests_quotaLog {σ τ : Type} (check : σ → GuardCall → QueryGuardDecision × σ) (init : σ)
    (other : τ → GuardCall → QueryGuardDecision × τ) (start : τ) (calls : List GuardCall) :
    (env.quotaLog (runGuard check init calls).1).map (fun e => (e.key, e.cost)) =
      (env.quotaLog (runGuard other start calls).1).map fun e => (e.key, e.cost) := by
  induction calls with
  | nil => rfl
  | cons c earlier ih =>
    rw [runGuard, runGuard]
    cases hscreen : env.screen c with
    | error decision => rw [quotaLog_cons_error hscreen, quotaLog_cons_error hscreen, ih]
    | ok cost =>
      rw [quotaLog_cons_ok hscreen, quotaLog_cons_ok hscreen, map_cons, map_cons, ih]

end Runs

end GuardEnv

/-! ## Agreement -/

/-- What a caller does with a decision. -/
def QueryGuardDecision.verdict (decision : QueryGuardDecision) : Bool × ℕ :=
  (decision.allowed, decision.statusCode)

namespace QueryGuards

open GuardEnv

variable {env : GuardEnv}

/-- The status of a request that has been screened depends on whether it is allowed. -/
theorem verdict_ruled {c : GuardCall} {cost : Int64} {wait : ℤ} {ν : Type}
    [DecidableEq ν] {name : ν} {store : ν → Option Usage} :
    (ruled env c cost wait name store).1.verdict =
      if (ruled env c cost wait name store).1.allowed then (true, 200) else (false, 429) := by
  simp only [ruled]
  split <;> rfl

/-- The guards return the same decisions on the last call, if the calls before are counted alike. -/
theorem verdicts_eq {calls : List GuardCall} (hcalls : ∀ c ∈ calls, env.Counted c) :
    (runGuard (QueryGuardStore.checkAndRecord env) (fun _ => none) calls).1.map
      (fun p => p.2.verdict) =
      (runGuard (ValkeyQueryGuardStore.checkAndRecord env) (fun _ => none) calls).1.map
        fun p => p.2.verdict := by
  induction calls with
  | nil => rfl
  | cons c earlier ih =>
    have hlogs := (follows_queryGuardStore hcalls).lawful.decisions_eq
      (follows_valkeyQueryGuardStore hcalls).lawful (requests_quotaLog ..)
    rw [forall_mem_cons] at hcalls
    obtain ⟨hc, hearlier⟩ := hcalls
    rw [runGuard, runGuard, map_cons, map_cons, ih hearlier]
    refine congrArg (· :: _) ?_
    rw [runGuard, runGuard] at hlogs
    have htable := follows_queryGuardStore hearlier
    have hhashes := follows_valkeyQueryGuardStore hearlier
    cases hscreen : env.screen c with
    | error decision =>
      rw [queryGuardStore_screened hscreen, valkeyQueryGuardStore_screened hscreen]
    | ok cost =>
      have hfirst := queryGuardStore_ruled hscreen (htable.small_value hc)
      have hsecond := valkeyQueryGuardStore_ruled hc.2 hscreen (toInt_cost_nonneg hc.2 hscreen)
        (hhashes.small_value hc)
      rw [quotaLog_cons_ok hscreen, quotaLog_cons_ok hscreen, hfirst, hsecond, cons.injEq,
        Entry.mk.injEq] at hlogs
      rw [hfirst, hsecond, verdict_ruled, verdict_ruled, hlogs.1.2.2]

/-- **The two guards agree and enforce the policy.** For every sequence of calls with moderate
numbers the guards return the same decisions, the admitted requests of every actor in every window
keep within the policy, and a request within the limits of one request is denied only if it would
exceed one of the limits of the window. -/
theorem agree_and_enforce (env : GuardEnv) (calls : List GuardCall)
    (hproper : ∀ c ∈ calls, env.Proper c) (hmoderate : ∀ c ∈ calls, env.Moderate c) :
    (runGuard (QueryGuardStore.checkAndRecord env) (fun _ => none) calls).1.map
      (fun p => p.2.verdict) =
      (runGuard (ValkeyQueryGuardStore.checkAndRecord env) (fun _ => none) calls).1.map
        (fun p => p.2.verdict) ∧
    env.Enforced (runGuard (QueryGuardStore.checkAndRecord env) (fun _ => none) calls).1 ∧
    env.Enforced (runGuard (ValkeyQueryGuardStore.checkAndRecord env) (fun _ => none) calls).1 := by
  have hcalls : ∀ c ∈ calls, env.Counted c := fun c hc => ⟨hproper c hc, hmoderate c hc⟩
  exact ⟨verdicts_eq hcalls, (follows_queryGuardStore hcalls).enforced,
    (follows_valkeyQueryGuardStore hcalls).enforced⟩

/-- A member of an organization, who asks for the logs at some second of the day. -/
def logsCall (seconds : Fin 86400) : GuardCall where
  request :=
    ⟨some { kind := .session, credentialId := "session1" }, "org", ⟨.logs, 25, "", "", false⟩⟩
  now := .ofDaySeconds seconds

/-- An organization with one request of logs in a window of so many seconds. -/
def oneRequest (windowSeconds : Int64) : GuardEnv where
  policies := fun _ _ => some ⟨350, 1, 2400, windowSeconds⟩
  search := fun _ => ⟨"", "", "", "", ""⟩

theorem proper_logsCall {windowSeconds : Int64} (h : 1 ≤ windowSeconds.toInt)
    (seconds : Fin 86400) :
    (oneRequest windowSeconds).Proper (logsCall seconds) := by
  have horg : ':' ∉ "org".toList := by decide
  exact ⟨h, horg⟩

/-- One request in five minutes: the second one is too many. -/
theorem agree_and_enforce_fiveMinutes :
    ((runGuard (QueryGuardStore.checkAndRecord (oneRequest 300)) (fun _ => none)
        [logsCall 10, logsCall 0]).1.map (fun p => p.2.verdict) =
      (runGuard (ValkeyQueryGuardStore.checkAndRecord (oneRequest 300)) (fun _ => none)
        [logsCall 10, logsCall 0]).1.map fun p => p.2.verdict) ∧
    (runGuard (QueryGuardStore.checkAndRecord (oneRequest 300)) (fun _ => none)
        [logsCall 10, logsCall 0]).1.map (fun p => p.2.verdict) = [(false, 429), (true, 200)] := by
  have hproper : ∀ c ∈ [logsCall 10, logsCall 0], (oneRequest 300).Proper c := by
    rintro c hc
    rcases mem_pair.mp hc with rfl | rfl <;> exact proper_logsCall (by decide) _
  have hmoderate : ∀ c ∈ [logsCall 10, logsCall 0], (oneRequest 300).Moderate c := by
    rintro c hc
    rcases mem_pair.mp hc with rfl | rfl <;>
      exact ⟨by decide, by decide, by decide, by decide +kernel⟩
  exact ⟨(agree_and_enforce (oneRequest 300) _ hproper hmoderate).1, by decide +kernel⟩

/-- **A window that wraps around.** One request is allowed in `18446744074` seconds, which is the
least number of seconds whose nanoseconds wrap around to a positive duration, of 0.29 seconds. Two
requests ten seconds apart are both admitted, by either guard. -/
theorem wrapped_window :
    (∀ c ∈ [logsCall 10, logsCall 0], (oneRequest 18446744074).Proper c) ∧
    ¬(oneRequest 18446744074).Enforced
      (runGuard (QueryGuardStore.checkAndRecord (oneRequest 18446744074)) (fun _ => none)
        [logsCall 10, logsCall 0]).1 ∧
    ¬(oneRequest 18446744074).Enforced
      (runGuard (ValkeyQueryGuardStore.checkAndRecord (oneRequest 18446744074)) (fun _ => none)
        [logsCall 10, logsCall 0]).1 := by
  refine ⟨?_, fun h => ?_, fun h => ?_⟩
  · rintro c hc
    rcases mem_pair.mp hc with rfl | rfl <;> exact proper_logsCall (by decide) _
  · have hcount := h.within ((oneRequest 18446744074).quotaKey (logsCall 0))
    revert hcount
    decide +kernel
  · have hcount := h.within ((oneRequest 18446744074).quotaKey (logsCall 0))
    revert hcount
    decide +kernel

end QueryGuards

end Urgentry
