import Urgentry.GoLib
import Mathlib.Data.List.Infix

/-!
# Sampling rules

`sampling.go`: a rule of a project keeps a fraction of the transactions that match its conditions.
The decision is a hash of the project and the name of the transaction, so the same transaction is
always kept or always dropped.

A transaction is dropped as soon as one matching rule drops it, so the order in which the rules are
read does not matter, and they are a plain list here.
-/

namespace Urgentry

/-- `SamplingConditions`; an empty text matches everything. -/
structure SamplingConditions where
  environment : String := ""
  release : String := ""
  transaction : String := ""
deriving DecidableEq

/-- A row of `sampling_rules`, with its conditions parsed. -/
structure SamplingRule where
  (id projectId : String)
  sampleRate : ℚ
  conditions : SamplingConditions := {}
  active : Bool := true
deriving DecidableEq

/-- `extractTransactionSamplingFields` answers with these. -/
structure SamplingFields where
  (environment release transaction : String)
deriving DecidableEq

/-- `conditionMatches`. -/
def conditionMatches (lib : GoLib) (cond : SamplingConditions) (f : SamplingFields) : Bool :=
  (cond.environment = "" || lib.equalFold cond.environment f.environment) &&
  (cond.release = "" || cond.release = f.release) &&
  (cond.transaction = "" || cond.transaction.toList <:+: f.transaction.toList)

/-- The hash of `sampleDecision`, over the bytes of the key. -/
def fnvHash (key : String) : UInt32 :=
  (key.toList.flatMap String.utf8EncodeChar).foldl
    (fun h b => (h ^^^ b.toUInt32) * 16777619) 2166136261

/-- `sampleDecision`. The threshold is `uint32(rate * float64(^uint32(0)))`, with the rounding of a
floating-point product. -/
def sampleDecision (threshold : ℚ → UInt32) (rate : ℚ) (key : String) : Bool :=
  if 1 ≤ rate then true
  else if rate ≤ 0 then false
  else fnvHash key ≤ threshold rate

/-- `EvaluateSampling`, when the rules can be read. -/
def evaluateSampling (lib : GoLib) (threshold : ℚ → UInt32) (rules : List SamplingRule)
    (projectID : String) (f : SamplingFields) : Bool :=
  (rules.filter fun r => r.projectId = projectID && r.active).all fun r =>
    !conditionMatches lib r.conditions f ||
      sampleDecision threshold r.sampleRate (projectID ++ "/" ++ f.transaction)

end Urgentry
