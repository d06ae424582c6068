import Mathlib.Algebra.Order.BigOperators.Group.List
import Mathlib.Algebra.Order.Ring.Int

/-!
# Sums in SQLite

`SUM` over a column of integers adds them up in 64 bits and fails when a partial sum does not fit. A
column without negative numbers has growing partial sums, so that only the whole sum matters
(`sum_of_nonneg`).

`SUM(CASE WHEN p THEN column ELSE 0 END)` is the sum over a part of the rows. It is additive in the
rows, and it is at most the sum over all of them.
-/

namespace SqlSum

open List

/-- A number fits into a column. -/
def Fits (n : ℤ) : Prop := -2 ^ 63 ≤ n ∧ n < 2 ^ 63
deriving Decidable

/-- The sum, starting from `start`. -/
def sumFrom (start : ℤ) : List ℤ → Option ℤ
  | [] => some start
  | n :: column => if Fits (start + n) then sumFrom (start + n) column else none

/-- `SUM(column)`. -/
def sum (column : List ℤ) : Option ℤ := sumFrom 0 column

theorem sumFrom_of_nonneg {start : ℤ} {column : List ℤ} (hstart : 0 ≤ start)
    (hfits : start < 2 ^ 63) (hcolumn : ∀ n ∈ column, 0 ≤ n) :
    sumFrom start column =
      if start + column.sum < 2 ^ 63 then some (start + column.sum) else none := by
  induction column generalizing start with
  | nil => rw [sumFrom, sum_nil, add_zero, if_pos hfits]
  | cons n column ih =>
    rw [forall_mem_cons] at hcolumn
    obtain ⟨hn, hcolumn⟩ := hcolumn
    have hrest : 0 ≤ column.sum := sum_nonneg hcolumn
    rw [sumFrom, sum_cons, ← add_assoc]
    by_cases hnext : start + n < 2 ^ 63
    · rw [if_pos (show Fits (start + n) from ⟨by omega, hnext⟩), ih (by omega) hnext hcolumn]
    · rw [if_neg fun h : Fits (start + n) => hnext h.2, if_neg (by omega)]

/-- Without negative numbers, the sum fails when it does not fit. -/
theorem sum_of_nonneg {column : List ℤ} (hcolumn : ∀ n ∈ column, 0 ≤ n) :
    sum column = if column.sum < 2 ^ 63 then some column.sum else none := by
  rw [sum, sumFrom_of_nonneg le_rfl (by decide) hcolumn, zero_add]

section Weight

variable {ρ : Type*} (column : ρ → ℤ) (p : ρ → Bool)

/-- The sum over the rows in `p`, as a number. -/
def weight (rows : List ρ) : ℤ := (rows.map fun r => if p r then column r else 0).sum

/-- `SUM(CASE WHEN p THEN column ELSE 0 END)`. -/
def sumWhere (rows : List ρ) : Option ℤ := sum (rows.map fun r => if p r then column r else 0)

variable {column p} {rows : List ρ} {column' : ρ → ℤ}

@[simp] theorem weight_nil : weight column p [] = 0 := rfl

@[simp] theorem weight_cons (r : ρ) :
    weight column p (r :: rows) = (if p r then column r else 0) + weight column p rows := rfl

@[simp] theorem weight_append (later : List ρ) :
    weight column p (rows ++ later) = weight column p rows + weight column p later := by
  rw [weight, map_append, sum_append, weight, weight]

theorem weight_congr (h : ∀ r ∈ rows, column r = column' r) :
    weight column p rows = weight column' p rows := by
  rw [weight, weight, map_congr_left]
  intro r hr
  rw [h r hr]

theorem weight_mono (h : ∀ r ∈ rows, column r ≤ column' r) :
    weight column p rows ≤ weight column' p rows := by
  refine sum_le_sum ?_
  intro r hr
  split
  · exact h r hr
  · exact le_rfl

/-- Two columns with the same sum, one of which is never below the other, are equal. -/
theorem eq_of_weight_eq (h : ∀ r ∈ rows, column r ≤ column' r)
    (heq : weight column (fun _ => true) rows = weight column' (fun _ => true) rows) :
    ∀ r ∈ rows, column r = column' r := by
  induction rows with
  | nil => exact forall_mem_nil _
  | cons r rows ih =>
    rw [forall_mem_cons] at h ⊢
    obtain ⟨hr, hrows⟩ := h
    have hle := weight_mono (p := fun _ => true) hrows
    rw [weight_cons, weight_cons, if_pos rfl, if_pos rfl] at heq
    exact ⟨by omega, ih hrows (by omega)⟩

theorem weight_flatMap {α : Type*} (f : α → List ρ) (l : List α) :
    weight column p (l.flatMap f) = (l.map fun a => weight column p (f a)).sum := by
  induction l with
  | nil => rfl
  | cons a l ih => rw [flatMap_cons, weight_append, ih, map_cons, sum_cons]

variable (h : ∀ r ∈ rows, 0 ≤ column r)

include h

theorem weight_le_weight_true : weight column p rows ≤ weight column (fun _ => true) rows := by
  refine sum_le_sum ?_
  intro r hr
  split
  · exact le_rfl
  · exact h r hr

/-- The part of the rows does not matter for the failure, as long as the whole sum fits. -/
theorem sumWhere_eq (hfits : weight column (fun _ => true) rows < 2 ^ 63) :
    sumWhere column p rows = some (weight column p rows) := by
  have hle := weight_le_weight_true (p := p) h
  rw [sumWhere, sum_of_nonneg]
  · exact if_pos (hle.trans_lt hfits)
  · rintro n hn
    obtain ⟨r, hr, rfl⟩ := mem_map.mp hn
    split
    · exact h r hr
    · exact le_rfl

theorem sumWhere_true_eq_none (hfits : ¬weight column (fun _ => true) rows < 2 ^ 63) :
    sumWhere column (fun _ => true) rows = none := by
  rw [sumWhere, sum_of_nonneg]
  · exact if_neg hfits
  · rintro n hn
    obtain ⟨r, hr, rfl⟩ := mem_map.mp hn
    exact h r hr

end Weight

end SqlSum
