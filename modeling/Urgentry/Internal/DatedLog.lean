import Mathlib.Data.List.Basic

/-!
# Dated logs

The writes of a table, newest first, each with the key it was made under and its date. The dates are
numbers that grow from write to write, so they say in which order things have happened, and a copy
of the data is dated by the last write that it shows.

Nothing is kept about what a write does. The last write of a key is what the table should show under
that key, and `last?_eq_some` says how to recognise it.
-/

namespace DatedLog

open List

variable {κ ν : Type*}

/-- A write. -/
structure Entry (κ ν : Type*) where
  key : κ
  time : ℕ
  value : ν
deriving DecidableEq

/-- The log is dated: the dates grow, and the next one is `n`. -/
structure Dated (n : ℕ) (log : List (Entry κ ν)) : Prop where
  pos : 0 < n
  lt : ∀ e ∈ log, e.time < n
  sorted : log.Pairwise fun e e' => e'.time < e.time

variable {log : List (Entry κ ν)} {e : Entry κ ν} {k : κ} {n : ℕ} {v : ν}

theorem Dated.nil : Dated 1 ([] : List (Entry κ ν)) :=
  ⟨Nat.one_pos, forall_mem_nil _, Pairwise.nil⟩

theorem Dated.cons (h : Dated n log) : Dated (n + 1) (⟨k, n, v⟩ :: log) := by
  refine ⟨Nat.succ_pos n, ?_, pairwise_cons.mpr ⟨h.lt, h.sorted⟩⟩
  rw [forall_mem_cons]
  exact ⟨Nat.lt_succ_self n, fun e he => Nat.lt_succ_of_lt (h.lt e he)⟩

theorem Dated.succ (h : Dated n log) : Dated (n + 1) log :=
  ⟨Nat.succ_pos n, fun e he => Nat.lt_succ_of_lt (h.lt e he), h.sorted⟩

variable [DecidableEq κ]

/-- The last write of a key. -/
def last? (log : List (Entry κ ν)) (k : κ) : Option (Entry κ ν) := log.find? fun e => e.key = k

/-- The date of the last write of a key; `0` is before all writes. -/
def lastTime (log : List (Entry κ ν)) (k : κ) : ℕ := ((last? log k).map Entry.time).getD 0

@[simp] theorem last?_cons_self : last? (⟨k, n, v⟩ :: log) k = some ⟨k, n, v⟩ := by
  simp [last?]

theorem last?_cons_of_ne {k' : κ} (h : k ≠ k') : last? (⟨k, n, v⟩ :: log) k' = last? log k' := by
  simp [last?, h]

theorem mem_of_last? (h : last? log k = some e) : e ∈ log := mem_of_find?_eq_some h

theorem Dated.lastTime_lt (h : Dated n log) (k : κ) : lastTime log k < n := by
  unfold lastTime
  cases hlast : last? log k with
  | none => exact h.pos
  | some e => exact h.lt e (mem_of_last? hlast)

/-- **The last write.** It is the one after which there is none with its key. -/
theorem Dated.last?_eq_some (h : Dated n log) (he : e ∈ log)
    (hlast : ∀ e' ∈ log, e'.key = e.key → e'.time ≤ e.time) : last? log e.key = some e := by
  induction log with
  | nil => exact absurd he not_mem_nil
  | cons newest log ih =>
    have hsorted := pairwise_cons.mp h.sorted
    rcases mem_cons.mp he with rfl | he
    · simp [last?]
    · have hne : newest.key ≠ e.key := by
        intro hkey
        have hle := hlast newest mem_cons_self hkey
        have hlt := hsorted.1 e he
        omega
      rw [last?, find?_cons_of_neg (by simpa using hne)]
      have htail : Dated n log :=
        ⟨h.pos, fun e' he' => h.lt e' (mem_cons_of_mem newest he'), hsorted.2⟩
      exact ih htail he fun e' he' => hlast e' (mem_cons_of_mem newest he')

end DatedLog
