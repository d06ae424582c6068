import Mathlib.Data.List.Pairwise
import Mathlib.Tactic.Common

/-!
# Tables with uniqueness constraints

A table is a list of rows in which no two rows agree on a unique key. The constraint is part of
the type, so a statement that would break it is one that fails, and a caller who holds a table
never has to show again that a key names at most one row.

Only the part of SQL's data manipulation is here whose behaviour depends on the constraints:
`INSERT`, `INSERT OR IGNORE`, `INSERT OR REPLACE`, `INSERT … ON CONFLICT(target) DO UPDATE`,
`UPDATE` and `DELETE`. A failing statement returns `none`.

## The frame rules

Each statement has a rule that says which rows it leaves alone: the lemmas named `…_filter` give,
for a class `p` of rows, the condition under which the rows in `p` are the same list before and
after. They are what an isolation argument uses, statement by statement.
-/

namespace SqlTable

open List

/-- The uniqueness constraints of a row type: `conflict r s` holds when `r` and `s` agree on every
column of some unique key. -/
class Schema (ρ : Type*) where
  /-- Two rows that may not stand in one table. -/
  conflict : ρ → ρ → Bool
  /-- Agreement on a key is symmetric. -/
  conflict_comm : ∀ r s, conflict r s = conflict s r

/-- The constraints of a table with one unique key. -/
@[reducible] def Schema.ofKey {ρ κ : Type*} [BEq κ] [LawfulBEq κ] (key : ρ → κ) : Schema ρ where
  conflict r s := key r == key s
  conflict_comm _ _ := Bool.beq_comm

/-- A list of rows that meets the constraints. -/
structure Table (ρ : Type*) [Schema ρ] where
  /-- The stored rows, in the order a scan visits them. -/
  rows : List ρ
  /-- No two rows agree on a unique key. -/
  unique : rows.Pairwise fun r s => Schema.conflict r s = false

namespace Table

variable {ρ : Type*} [Schema ρ]

instance : Membership ρ (Table ρ) := ⟨fun t r => r ∈ t.rows⟩

variable {t u : Table ρ} {r : ρ}

theorem mem_def : r ∈ t ↔ r ∈ t.rows := Iff.rfl

instance [DecidableEq ρ] (t : Table ρ) (r : ρ) : Decidable (r ∈ t) :=
  inferInstanceAs (Decidable (r ∈ t.rows))

instance (t : Table ρ) (p : ρ → Prop) [DecidablePred p] : Decidable (∀ r ∈ t, p r) :=
  inferInstanceAs (Decidable (∀ r ∈ t.rows, p r))

instance (t : Table ρ) (p : ρ → Prop) [DecidablePred p] : Decidable (∃ r ∈ t, p r) :=
  inferInstanceAs (Decidable (∃ r ∈ t.rows, p r))

@[ext] theorem ext (h : t.rows = u.rows) : t = u := by
  cases t; cases u; cases h; rfl

/-- The table without rows. -/
def empty : Table ρ := ⟨[], List.Pairwise.nil⟩

@[simp] theorem rows_empty : (empty : Table ρ).rows = [] := rfl

/-- The rows as a table, when they meet the constraints. -/
def ofRows? (rows : List ρ) : Option (Table ρ) :=
  if h : rows.Pairwise fun r s => Schema.conflict r s = false then some ⟨rows, h⟩ else none

theorem rows_of_ofRows? {rows : List ρ} (h : ofRows? rows = some t) : t.rows = rows := by
  unfold ofRows? at h
  split at h
  · cases h; rfl
  · cases h

instance : Std.Symm fun r s : ρ => Schema.conflict r s = false :=
  ⟨fun r s h => by rw [Schema.conflict_comm]; exact h⟩

variable {r s : ρ} {κ : Type*} {key : ρ → κ} {f : ρ → ρ} {p : ρ → Bool}

/-- Two rows of one table that agree on a unique key are one row. -/
theorem eq_of_conflict (hr : r ∈ t) (hs : s ∈ t) (h : Schema.conflict r s = true) : r = s := by
  by_contra hne
  have hfalse := t.unique.forall hr hs hne
  rw [hfalse] at h
  exact Bool.false_ne_true h

/-- No two rows of a table have the same value of a unique key. -/
theorem nodup_map_key (hkey : ∀ r s, key r = key s → Schema.conflict r s = true) (t : Table ρ) :
    (t.rows.map key).Nodup := by
  rw [Nodup, pairwise_map]
  refine t.unique.imp fun {r s} hrs heq => ?_
  rw [hkey r s heq] at hrs
  cases hrs

/-- A query by a unique key finds the row that has the key. -/
theorem find?_of_mem (hr : r ∈ t) (hp : p r = true)
    (hkey : ∀ s, p s = true → Schema.conflict r s = true) : t.rows.find? p = some r := by
  obtain ⟨s, hs⟩ := Option.isSome_iff_exists.mp (find?_isSome.mpr ⟨r, hr, hp⟩)
  rw [hs, eq_of_conflict hr (mem_of_find?_eq_some hs) (hkey s (find?_some hs))]

/-! ## Statements -/

variable (p : ρ → Bool)

/-- `DELETE FROM t WHERE p`. -/
def deleteWhere (t : Table ρ) : Table ρ :=
  ⟨t.rows.filter fun r => !p r, t.unique.filter _⟩

@[simp]
theorem rows_deleteWhere (t : Table ρ) : (t.deleteWhere p).rows = t.rows.filter fun r => !p r := rfl

/-- Deleting by the ids of selected rows deletes the selected rows. -/
theorem rows_deleteWhere_key [BEq κ] [LawfulBEq κ]
    (hkey : ∀ r s : ρ, key r = key s → Schema.conflict r s = true) (p : ρ → Bool) (t : Table ρ) :
    (t.deleteWhere fun r => ((t.rows.filter p).map key).contains (key r)).rows =
      t.rows.filter fun r => !p r := by
  refine filter_congr fun r hr => congrArg (!·) ?_
  rw [Bool.eq_iff_iff, contains_iff_mem, mem_map]
  constructor
  · rintro ⟨s, hs, hkeys⟩
    obtain ⟨hs, hp⟩ := mem_filter.mp hs
    rwa [← eq_of_conflict hs hr (hkey s r hkeys)]
  · exact fun hp => ⟨r, mem_filter.mpr ⟨hr, hp⟩, rfl⟩

/-- `DELETE FROM t WHERE key IN (…)`, with the keys of these rows. -/
def deleteKeys {κ : Type*} [BEq κ] (key : ρ → κ) (gone : List ρ) (t : Table ρ) : Table ρ :=
  t.deleteWhere fun r => (gone.map key).contains (key r)

theorem mem_deleteKeys [BEq κ] [LawfulBEq κ] {gone : List ρ} :
    r ∈ t.deleteKeys key gone ↔ r ∈ t ∧ key r ∉ gone.map key := by
  rw [mem_def, deleteKeys, rows_deleteWhere, mem_filter, Bool.not_eq_true', ← Bool.not_eq_true,
    contains_iff_mem, mem_def]

theorem deleteKeys_nil [BEq κ] (key : ρ → κ) (t : Table ρ) : t.deleteKeys key [] = t :=
  ext (filter_eq_self.mpr fun _ _ => rfl)

/-- Deleting rows one by one. -/
theorem deleteKeys_concat [BEq κ] [LawfulBEq κ] (key : ρ → κ) (gone : List ρ) (r : ρ)
    (t : Table ρ) :
    (t.deleteKeys key gone).deleteWhere (fun s => key s == key r) =
      t.deleteKeys key (gone ++ [r]) := by
  refine ext ?_
  simp only [deleteKeys, rows_deleteWhere, filter_filter]
  refine filter_congr fun s _ => ?_
  rw [map_append, contains_append, Bool.and_comm]
  simp

/-- Whether inserting `r` would break a constraint. -/
def clashes (r : ρ) (t : Table ρ) : Bool := t.rows.any (Schema.conflict r)

theorem clashes_eq_false : t.clashes r = false ↔ ∀ s ∈ t, Schema.conflict r s = false := by
  simp [clashes, mem_def]

/-- A row that breaks no constraint, added at the end. -/
def append (r : ρ) (t : Table ρ) (h : t.clashes r = false) : Table ρ :=
  ⟨t.rows ++ [r], by
    rw [List.pairwise_append]
    refine ⟨t.unique, List.pairwise_singleton _ _, fun s hs x hx => ?_⟩
    rw [List.mem_singleton.mp hx, Schema.conflict_comm]
    exact clashes_eq_false.mp h s hs⟩

theorem mem_of_rows (h : u.rows = t.rows ++ [r]) : s ∈ u ↔ s ∈ t ∨ s = r := by
  rw [mem_def, h, mem_append, mem_singleton, mem_def]

/-- `INSERT INTO t VALUES r`: fails when a unique key of `r` is taken. -/
def insert (r : ρ) (t : Table ρ) : Option (Table ρ) :=
  if h : t.clashes r = false then some (t.append r h) else none

theorem insert_eq_some_iff :
    t.insert r = some u ↔ (∀ s ∈ t, Schema.conflict r s = false) ∧ u.rows = t.rows ++ [r] := by
  rw [insert, ← clashes_eq_false]
  constructor
  · intro h
    split at h
    · next hfree =>
      cases h
      exact ⟨hfree, rfl⟩
    · cases h
  · rintro ⟨hfree, hrows⟩
    rw [dif_pos hfree]
    exact congrArg some (ext hrows.symm)

theorem mem_of_insert (h : t.insert r = some u) (hs : s ∈ t) : s ∈ u :=
  (mem_of_rows (insert_eq_some_iff.mp h).2).mpr (.inl hs)

theorem mem_of_insert_self (h : t.insert r = some u) : r ∈ u :=
  (mem_of_rows (insert_eq_some_iff.mp h).2).mpr (.inr rfl)

/-- `INSERT OR IGNORE INTO t VALUES r`: does nothing when a unique key of `r` is taken. -/
def insertOrIgnore (r : ρ) (t : Table ρ) : Table ρ :=
  if h : t.clashes r = false then t.append r h else t

@[simp]
theorem rows_insertOrIgnore (r : ρ) (t : Table ρ) :
    (t.insertOrIgnore r).rows = if t.clashes r then t.rows else t.rows ++ [r] := by
  unfold insertOrIgnore
  split
  · next h => rw [h]; rfl
  · next h => rw [Bool.of_not_eq_false h]; rfl

/-- `INSERT INTO t VALUES r ON CONFLICT(target) DO NOTHING`. Another unique key of `r` that is taken
is still an error. -/
def insertUnless (r : ρ) (target : ρ → Bool) (t : Table ρ) : Option (Table ρ) :=
  if t.rows.any target then some t else t.insert r

/-- An insertion that does nothing on a conflict leaves a row with the key, the old one or the new
one. -/
theorem insertUnless_cases {target : ρ → Bool} (h : t.insertUnless r target = some u) :
    (u = t ∧ ∃ s ∈ t, target s = true) ∨ u.rows = t.rows ++ [r] := by
  rw [insertUnless] at h
  split_ifs at h with hany
  · cases h
    exact .inl ⟨rfl, any_eq_true.mp hany⟩
  · exact .inr (insert_eq_some_iff.mp h).2

/-- An insertion without conflicts. -/
theorem exists_insertUnless (r : ρ) (target : ρ → Bool)
    (htarget : ∀ s ∈ t, target s = false) (hfree : ∀ s ∈ t, Schema.conflict r s = false) :
    ∃ u, t.insertUnless r target = some u ∧ u.rows = t.rows ++ [r] := by
  have hnone : t.rows.any target = false := by simpa [mem_def] using htarget
  rw [insertUnless, if_neg (by rw [hnone]; exact Bool.false_ne_true)]
  exact ⟨t.append r (clashes_eq_false.mpr hfree), insert_eq_some_iff.mpr ⟨hfree, rfl⟩, rfl⟩

/-- `INSERT OR REPLACE INTO t VALUES r`: first deletes every row that holds a unique key of `r`. -/
def insertOrReplace (r : ρ) (t : Table ρ) : Table ρ :=
  (t.deleteWhere (Schema.conflict r)).append r (by
    rw [clashes_eq_false]
    intro s hs
    have hs' := (List.mem_filter.mp hs).2
    simpa using hs')

/-- `UPDATE t SET … WHERE p`, with the new columns of a row computed by `f`: fails when the new
rows break a constraint. -/
def update (f : ρ → ρ) (t : Table ρ) : Option (Table ρ) :=
  ofRows? (t.rows.map fun s => if p s then f s else s)

/-- An update succeeds when rows that clash afterwards clashed before. -/
theorem exists_update
    (h : ∀ r s, Schema.conflict (if p r then f r else r) (if p s then f s else s) = true →
      Schema.conflict r s = true) : ∃ u, t.update p f = some u := by
  have hunique : (t.rows.map fun s => if p s then f s else s).Pairwise fun r s =>
      Schema.conflict r s = false := by
    rw [pairwise_map]
    refine t.unique.imp fun {r s} hrs => ?_
    by_contra hconf
    rw [h r s (by simpa using hconf)] at hrs
    exact absurd hrs (by decide)
  exact ⟨⟨_, hunique⟩, dif_pos hunique⟩

/-- `INSERT INTO t VALUES r ON CONFLICT(target) DO UPDATE SET …`. `target s` holds when the stored
row `s` has the key that `r` has in the conflict target; `f` computes the updated row from it. The
conflict target is looked at first, so any other unique key of `r` matters only to an insertion. -/
def upsert (r : ρ) (target : ρ → Bool) (f : ρ → ρ) (t : Table ρ) : Option (Table ρ) :=
  if t.rows.any target then t.update target f else t.insert r

/-- `UPDATE t SET …` where the new columns of a row are outside the unique keys. -/
def map (f : ρ → ρ) (hf : ∀ s u, Schema.conflict (f s) u = Schema.conflict s u) (t : Table ρ) :
    Table ρ :=
  ⟨t.rows.map f, by
    rw [List.pairwise_map]
    refine t.unique.imp fun {r s} h => ?_
    rw [hf, Schema.conflict_comm, hf, Schema.conflict_comm, h]⟩

/-- Changing the row with a key changes a count by the new row minus the old one. -/
theorem countP_map_row {e : ρ} (key p : ρ → Bool) (f : ρ → ρ) (he : e ∈ t)
    (hkey : key e = true) (honly : ∀ s, key s = true → Schema.conflict e s = true) :
    (t.rows.map fun s => if key s then f s else s).countP p + (if p e then 1 else 0) =
      t.rows.countP p + if p (f e) then 1 else 0 := by
  obtain ⟨front, back, hrows⟩ := append_of_mem he
  have hother : ∀ s ∈ front ++ back, (if key s then f s else s) = s := by
    intro s hs
    refine if_neg fun hs' => ?_
    have hunique := t.unique
    rw [hrows, pairwise_append, pairwise_cons] at hunique
    obtain ⟨-, ⟨hback, -⟩, hfront⟩ := hunique
    have hconf := honly s hs'
    rcases mem_append.mp hs with hs | hs
    · rw [Schema.conflict_comm, hfront s hs e mem_cons_self] at hconf
      exact Bool.false_ne_true hconf
    · rw [hback s hs] at hconf
      exact Bool.false_ne_true hconf
  have hfront : (front.map fun s => if key s then f s else s) = front.map id :=
    map_congr_left fun s hs => hother s (mem_append_left back hs)
  have hback : (back.map fun s => if key s then f s else s) = back.map id :=
    map_congr_left fun s hs => hother s (mem_append_right front hs)
  rw [hrows, map_append, map_cons, hfront, hback, map_id, map_id, if_pos hkey]
  simp only [countP_append, countP_cons]
  omega

/-- `INSERT INTO t VALUES r ON CONFLICT(key) DO UPDATE SET …`, where the conflict target is the only
unique key and the update leaves it alone. -/
def upsertKey (r : ρ) (f : ρ → ρ) (hf : ∀ s u, Schema.conflict (f s) u = Schema.conflict s u)
    (t : Table ρ) : Table ρ :=
  if h : t.clashes r = false then t.append r h
  else t.map (fun s => if Schema.conflict r s then f s else s) fun s u => by
    split
    · exact hf s u
    · rfl

theorem mem_upsertKey {hf : ∀ s u, Schema.conflict (f s) u = Schema.conflict s u} :
    s ∈ t.upsertKey r f hf ↔
      (s ∈ t ∧ Schema.conflict r s = false) ∨ (∃ u ∈ t, Schema.conflict r u = true ∧ s = f u) ∨
        (t.clashes r = false ∧ s = r) := by
  unfold upsertKey
  split_ifs with h
  · have hno := clashes_eq_false.mp h
    constructor
    · intro hs
      rcases mem_append.mp hs with hs | hs
      · exact .inl ⟨hs, hno s hs⟩
      · exact .inr (.inr ⟨h, mem_singleton.mp hs⟩)
    · rintro (⟨hs, -⟩ | ⟨u, hu, hconf, -⟩ | ⟨-, rfl⟩)
      · exact mem_append_left _ hs
      · rw [hno u hu] at hconf
        exact absurd hconf Bool.false_ne_true
      · exact mem_append_right _ (mem_singleton_self s)
  · rw [mem_def, map, mem_map]
    constructor
    · rintro ⟨u, hu, rfl⟩
      split
      · next hconf => exact .inr (.inl ⟨u, hu, hconf, rfl⟩)
      · next hconf => exact .inl ⟨hu, Bool.of_not_eq_true hconf⟩
    · rintro (⟨hs, hconf⟩ | ⟨u, hu, hconf, rfl⟩ | ⟨hfalse, -⟩)
      · exact ⟨s, hs, if_neg (by rw [hconf]; exact Bool.false_ne_true)⟩
      · exact ⟨u, hu, if_pos hconf⟩
      · exact absurd hfalse h

/-- The row with the key of `r` after an upsert. -/
theorem find?_upsertKey {hf : ∀ s u, Schema.conflict (f s) u = Schema.conflict s u}
    (hr : Schema.conflict r r = true) :
    (t.upsertKey r f hf).rows.find? (Schema.conflict r) =
      some (((t.rows.find? (Schema.conflict r)).map f).getD r) := by
  unfold upsertKey
  split_ifs with h
  · have hnone : t.rows.find? (Schema.conflict r) = none := by
      rw [find?_eq_none]
      intro s hs
      rw [clashes_eq_false.mp h s hs]
      exact Bool.false_ne_true
    rw [append, find?_append, hnone]
    simp [hr]
  · obtain ⟨s, hs, hconf⟩ : ∃ s ∈ t.rows, Schema.conflict r s = true := by
      rw [Bool.not_eq_false, clashes, any_eq_true] at h
      exact h
    obtain ⟨u, hu⟩ := Option.isSome_iff_exists.mp (find?_isSome.mpr ⟨s, hs, hconf⟩)
    have hcomp : (Schema.conflict r ∘ fun s => if Schema.conflict r s then f s else s) =
        Schema.conflict r := by
      funext s
      rw [Function.comp_apply]
      split
      · rw [Schema.conflict_comm, hf, Schema.conflict_comm]
      · rfl
    rw [map, find?_map, hcomp, hu, Option.map_some, if_pos (find?_some hu)]
    rfl

/-! ## Frame rules -/

section Frame

variable {q target : ρ → Bool} {r : ρ} {t u : Table ρ} {f : ρ → ρ}

/-- A row outside the class replaces the rows of the class that it conflicts with. -/
theorem insertOrReplace_filter (hr : q r = false) :
    (t.insertOrReplace r).rows.filter q = (t.rows.filter q).filter fun s =>
      !Schema.conflict r s := by
  rw [insertOrReplace, append, filter_append, rows_deleteWhere]
  simp [hr, Bool.and_comm]

theorem insert_filter (h : t.insert r = some u) (hr : q r = false) :
    u.rows.filter q = t.rows.filter q := by
  rw [(insert_eq_some_iff.mp h).2]
  simp [hr]

theorem update_filter (h : t.update target f = some u)
    (hf : ∀ s ∈ t, target s = true → q (f s) = false) :
    u.rows.filter q = (t.rows.filter q).filter fun s => !target s := by
  rw [rows_of_ofRows? h, filter_filter]
  have hrows : ∀ s ∈ t.rows, target s = true → q (f s) = false := hf
  generalize t.rows = rows at hrows
  induction rows with
  | nil => rfl
  | cons s rows ih =>
    have hrest := ih fun v hv => hrows v (mem_cons_of_mem s hv)
    by_cases hs : target s = true
    · simpa [hs, hrows s mem_cons_self hs] using hrest
    · by_cases hq : q s = true <;> simpa [hs, hq] using hrest

theorem filter_not_target (hnone : ¬(t.rows.any target = true)) :
    (t.rows.filter q).filter (fun s => !target s) = t.rows.filter q := by
  have hall : ∀ s ∈ t.rows, target s = false := by simpa using hnone
  refine filter_eq_self.mpr fun s hs => ?_
  rw [hall s (mem_filter.mp hs).1]
  rfl

theorem filter_outside (hq : ∀ s ∈ t, target s = true → q s = false) :
    (t.rows.filter q).filter (fun s => !target s) = t.rows.filter q := by
  refine filter_eq_self.mpr fun s hs => ?_
  obtain ⟨hs, hqs⟩ := mem_filter.mp hs
  cases htarget : target s with
  | false => rfl
  | true => exact absurd (hq s hs htarget) (by rw [hqs]; decide)

variable (h : t.upsert r target f = some u)

include h

/-- An upsert whose row is outside the class and whose update leads out of it takes the target rows
out of the class. -/
theorem upsert_filter (hr : q r = false) (hf : ∀ s, target s = true → q (f s) = false) :
    u.rows.filter q = (t.rows.filter q).filter fun s => !target s := by
  rw [upsert] at h
  split at h
  · exact update_filter h fun s _ => hf s
  · next hnone => rw [insert_filter h hr, filter_not_target hnone]

/-- An upsert outside the class leaves the class alone. -/
theorem upsert_filter_of_outside (hr : q r = false)
    (hf : ∀ s, target s = true → q (f s) = false) (hq : ∀ s, target s = true → q s = false) :
    u.rows.filter q = t.rows.filter q := by
  rw [upsert_filter h hr hf, filter_outside fun s _ => hq s]

/-- An upsert that inserts only outside the class and whose update does not lead out of it updates
the target rows of the class. -/
theorem upsert_filter_map (hr : (∀ s ∈ t, target s = false) → q r = false)
    (hf : ∀ s, q (f s) = q s) :
    u.rows.filter q = (t.rows.filter q).map fun s => if target s then f s else s := by
  have hq : ∀ s, q (if target s then f s else s) = q s := by
    intro s
    split
    · exact hf s
    · rfl
  rw [upsert] at h
  split_ifs at h with hnone
  · rw [update] at h
    rw [rows_of_ofRows? h, filter_map]
    congr 2
    funext s
    exact hq s
  · have hall : ∀ s ∈ t.rows, target s = false := by simpa using hnone
    rw [insert_filter h (hr hall)]
    have hsame : ∀ s ∈ t.rows.filter q, (if target s then f s else s) = id s := by
      intro s hs
      rw [hall s (mem_filter.mp hs).1]
      rfl
    rw [map_congr_left hsame, map_id]

end Frame

end Table

end SqlTable
