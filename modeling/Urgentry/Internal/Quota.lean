import Mathlib.Algebra.Order.BigOperators.Group.List

/-!
# Quotas

Requests have a key and a cost. A key has two limits, one for the number of its requests and one for
the sum of their costs, and a request is admitted when neither would be exceeded.

A log says of every request whether it was admitted. It is `Lawful` when each of these decisions
follows the rule, from the admissions that came before. The decisions of a lawful log are determined
by its requests (`Lawful.decisions_eq`), so two implementations of the rule agree. The admissions of
a key keep within its limits (`Lawful.usage_le`).

An implementation has a counter for each key, under a name. `Backs` says that its counters hold what
the log says. The names of different keys are different, as far as the requests go that occur.
-/

namespace Quota

open Function List

/-- The limits of a key. -/
structure Limits where
  (requests cost : ℤ)

/-- The admissions of a key: how many, and what they cost. -/
@[ext] structure Usage where
  count : ℤ
  cost : ℤ
deriving DecidableEq

/-- A request, and whether it was admitted. -/
structure Entry (κ : Type*) where
  key : κ
  cost : ℤ
  admitted : Bool

/-- The rule. -/
def Admits (limits : Limits) (usage : Usage) (cost : ℤ) : Prop :=
  usage.count + 1 ≤ limits.requests ∧ usage.cost + cost ≤ limits.cost
deriving Decidable

variable {κ : Type*} [DecidableEq κ]

/-- The admissions of a key in a log, which has the last request first. -/
def usage : List (Entry κ) → κ → Usage
  | [], _ => ⟨0, 0⟩
  | e :: log, k =>
    if e.key = k ∧ e.admitted then ⟨(usage log k).count + 1, (usage log k).cost + e.cost⟩
    else usage log k

/-- Every decision follows the rule. -/
def Lawful (limits : κ → Limits) : List (Entry κ) → Prop
  | [] => True
  | e :: log =>
    (e.admitted = true ↔ Admits (limits e.key) (usage log e.key) e.cost) ∧ Lawful limits log

variable {limits : κ → Limits} {log : List (Entry κ)} {e : Entry κ}

theorem usage_cons_admitted (h : e.admitted = true) :
    usage (e :: log) e.key = ⟨(usage log e.key).count + 1, (usage log e.key).cost + e.cost⟩ := by
  rw [usage, if_pos ⟨rfl, h⟩]

theorem count_nonneg (log : List (Entry κ)) (k : κ) : 0 ≤ (usage log k).count := by
  induction log with
  | nil => exact le_rfl
  | cons e log ih =>
    rw [usage]
    split
    · show 0 ≤ (usage log k).count + 1
      omega
    · exact ih

theorem cost_nonneg (hcost : ∀ e ∈ log, 0 ≤ e.cost) (k : κ) : 0 ≤ (usage log k).cost := by
  induction log with
  | nil => exact le_rfl
  | cons e log ih =>
    rw [forall_mem_cons] at hcost
    have hlog := ih hcost.2
    rw [usage]
    split
    · show 0 ≤ (usage log k).cost + e.cost
      omega
    · exact hlog

theorem cost_eq_zero {k : κ} (h : (usage log k).count = 0) : (usage log k).cost = 0 := by
  induction log with
  | nil => rfl
  | cons e log ih =>
    have hcount := count_nonneg log k
    rw [usage] at h ⊢
    split at h
    · have hsucc : (usage log k).count + 1 = 0 := h
      omega
    · rename_i hother
      rw [if_neg hother]
      exact ih h

/-- **Within the limits.** A key that has admissions has at most as many as its limit says, and they
cost at most what its limit says. -/
theorem Lawful.usage_le (h : Lawful limits log) (k : κ) (hany : (usage log k).count ≠ 0) :
    (usage log k).count ≤ (limits k).requests ∧ (usage log k).cost ≤ (limits k).cost := by
  induction log with
  | nil => exact absurd rfl hany
  | cons e log ih =>
    obtain ⟨hrule, hlog⟩ := h
    by_cases hk : e.key = k ∧ e.admitted = true
    · obtain ⟨rfl, hadmitted⟩ := hk
      rw [usage_cons_admitted hadmitted]
      exact hrule.mp hadmitted
    · rw [usage, if_neg hk] at hany ⊢
      exact ih hlog hany

/-- **No denial without cause.** -/
theorem Lawful.of_denied {front : List (Entry κ)}
    (h : Lawful limits (front ++ e :: log)) (hdenied : e.admitted = false) :
    (limits e.key).requests < (usage log e.key).count + 1 ∨
      (limits e.key).cost < (usage log e.key).cost + e.cost := by
  induction front with
  | nil =>
    have hrule : ¬Admits (limits e.key) (usage log e.key) e.cost := by
      rw [← h.1, hdenied]
      exact Bool.false_ne_true
    rwa [Admits, not_and_or, not_le, not_le] at hrule
  | cons d front ih => exact ih h.2

/-- **The decisions are determined** by the keys and the costs of the requests. -/
theorem Lawful.decisions_eq {other : List (Entry κ)} (h : Lawful limits log)
    (hother : Lawful limits other)
    (hrequests : log.map (fun e => (e.key, e.cost)) = other.map fun e => (e.key, e.cost)) :
    log = other := by
  induction log generalizing other with
  | nil =>
    rw [map_nil, eq_comm, map_eq_nil_iff] at hrequests
    exact hrequests.symm
  | cons e log ih =>
    cases other with
    | nil => cases hrequests
    | cons d other =>
      simp only [map_cons, cons.injEq, Prod.mk.injEq] at hrequests
      obtain ⟨⟨hkey, hcost⟩, hrequests⟩ := hrequests
      have hlog := ih h.2 hother.2 hrequests
      have hadmitted : e.admitted = d.admitted := by
        rw [Bool.eq_iff_iff, h.1, hother.1, hlog, hkey, hcost]
      cases e
      cases d
      cases hkey
      cases hcost
      cases hadmitted
      rw [hlog]

/-! ## Counters -/

section Counters

variable {χ ν : Type*} [DecidableEq ν] {valid : χ → Prop} {name : χ → ν} {key : χ → κ}
  {store : ν → Option Usage}

/-- The value of a counter that is not there is zero. -/
def value (store : ν → Option Usage) (n : ν) : Usage := (store n).getD ⟨0, 0⟩

/-- The counters hold what the log says. -/
def Backs (valid : χ → Prop) (name : χ → ν) (key : χ → κ) (store : ν → Option Usage)
    (log : List (Entry κ)) : Prop :=
  ∀ c, valid c → value store (name c) = usage log (key c)

omit [DecidableEq ν] in
theorem Backs.deny (h : Backs valid name key store log) {e : Entry κ} (he : e.admitted = false) :
    Backs valid name key store (e :: log) := by
  intro c hc
  rw [usage, if_neg fun hand => by simp [he] at hand, h c hc]

theorem Backs.admit (h : Backs valid name key store log)
    (hname : ∀ c d, valid c → valid d → (name c = name d ↔ key c = key d)) {c : χ} (hc : valid c)
    (cost : ℤ) :
    Backs valid name key (update store (name c)
        (some ⟨(usage log (key c)).count + 1, (usage log (key c)).cost + cost⟩))
      (⟨key c, cost, true⟩ :: log) := by
  intro d hd
  by_cases heq : name d = name c
  · rw [value, heq, update_self, (hname d c hd hc).mp heq]
    exact (usage_cons_admitted (e := ⟨key c, cost, true⟩) rfl).symm
  · have hkey : key c ≠ key d := fun hkey => heq ((hname d c hd hc).mpr hkey.symm)
    rw [value, update_of_ne heq, usage, if_neg fun hand => hkey hand.1]
    exact h d hd

end Counters

end Quota
