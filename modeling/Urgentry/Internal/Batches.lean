import Mathlib.Data.List.Sort

/-!
# Reading a table in batches

A reader that goes through a table in the order of a numeric key remembers the key of the last row
that it has seen, its *mark*, and asks for the rows after the mark, in order and at most so many.
Two facts make this work. A batch that is not full holds every row after the mark, and any batch
holds every row between the mark and its own last row, so that the key of that row is the next mark.

The second needs that no two rows have one key. Both are about one batch: what happens to the table
between two batches is up to the user of the library.
-/

namespace Batches

open List

variable {α : Type*} (key : α → ℤ)

/-- `SELECT … WHERE key > mark ORDER BY key LIMIT limit`. -/
def batch (mark : ℤ) (limit : ℕ) (rows : List α) : List α :=
  ((rows.filter fun r => decide (mark < key r)).insertionSort fun a b => key a ≤ key b).take limit

variable {key} {mark : ℤ} {limit : ℕ} {rows : List α} {r last : α}

theorem mem_of_mem_batch (h : r ∈ batch key mark limit rows) : r ∈ rows ∧ mark < key r := by
  have hmem := (mem_insertionSort _).mp (mem_of_mem_take h)
  obtain ⟨hr, hkey⟩ := mem_filter.mp hmem
  exact ⟨hr, of_decide_eq_true hkey⟩

/-- **A batch that is not full** is the last one. -/
theorem mem_batch_of_length_lt (hshort : (batch key mark limit rows).length < limit) (hr : r ∈ rows)
    (hmark : mark < key r) : r ∈ batch key mark limit rows := by
  rw [batch, length_take] at hshort
  rw [batch, take_of_length_le (by omega), mem_insertionSort]
  exact mem_filter.mpr ⟨hr, decide_eq_true hmark⟩

/-- **The next mark.** A batch holds every row up to its last one. -/
theorem mem_batch_of_le (hinj : ∀ a ∈ rows, ∀ b ∈ rows, key a = key b → a = b)
    (hlast : (batch key mark limit rows).getLast? = some last) (hr : r ∈ rows)
    (hmark : mark < key r) (hle : key r ≤ key last) : r ∈ batch key mark limit rows := by
  have hmem : last ∈ batch key mark limit rows := mem_of_getLast? hlast
  by_contra hout
  -- A row that the limit cuts off comes after the last row of the batch.
  have hrest : r ∈ ((rows.filter fun r => decide (mark < key r)).insertionSort
      fun a b => key a ≤ key b).drop limit := by
    have hall : r ∈ (rows.filter fun r => decide (mark < key r)).insertionSort
        fun a b => key a ≤ key b :=
      (mem_insertionSort _).mpr (mem_filter.mpr ⟨hr, decide_eq_true hmark⟩)
    rw [← take_append_drop limit (insertionSort _ _), mem_append] at hall
    exact hall.resolve_left hout
  have hsorted :=
    pairwise_insertionSort (fun a b => key a ≤ key b) (rows.filter fun r => decide (mark < key r))
  rw [← take_append_drop limit (insertionSort _ _), pairwise_append] at hsorted
  have hge : key last ≤ key r := hsorted.2.2 last hmem r hrest
  have heq : r = last := hinj r hr last (mem_of_mem_batch hmem).1 (Int.le_antisymm hle hge)
  exact hout (heq ▸ hmem)

end Batches
