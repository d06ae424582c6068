import Urgentry.Discovershared.AggregateColumns
import Mathlib.Algebra.BigOperators.Ring.Finset

/-!
# Selected counts

A count stands in the row of its group under the name of its item, and every row of the group adds
one to it. The row is shared: an item with the same name adds another one, or writes something else
in its place; and the last pass may take the name for an accumulator, or write the value of an
average or a percentile over it.

The last pass writes no `int64`. So a finished count is right exactly when it was right before the
pass and no round of the pass touches it (`get_pass_eq_int64_iff`); whether a round does, depends on
what the rounds before it have left (`Touches`, `Spared`).

`CountColumn` is a condition on the selection alone: there is one count under the name and nothing
else, and the last pass finds nothing to do there. An accumulator with the suffix of a sum does no
harm as long as nothing is counted beside it.

## Main results

* `get_pass_eq_int64_iff`: what the last pass leaves of a count;
* `CountColumn.shown`: the counts of a column of counts are right, whatever the rows are.
-/

namespace Urgentry.Discover

open List

section Counts

variable {F : Type} {fl : FloatLib F} {lib : GoLib} {items : List SelectItem} {name key : String}
  {values fresh : TableRow F} {keys fields : List String} {rows : List (TableRow F)} {n : ℤ}

/-- The number that a count goes on from. -/
def storedCount : Value F → ℤ
  | .int64 n => n
  | _ => 0

/-! ## The last pass -/

/-- **A round of the last pass touches a name**: it deletes it; or it comes to the sum of the name
and there is a count beside it; or it comes to its values, and they are no list or have the mark of
a percentile. -/
def Touches (fl : FloatLib F) (values : TableRow F) (key name : String) : Prop :=
  Removes key name ∨
    key = name ++ ".__sum" ∧ 0 < targetCount fl (get values (name ++ ".__count")) ∨
    key = name ++ ".__values" ∧ ¬∃ xs, get values key = .floats xs ∧
      get values (name ++ ".__agg") ≠ .text "p50" ∧ get values (name ++ ".__agg") ≠ .text "p95"

/-- **The last pass spares a name**, when it takes the keys in this order. -/
def Spared (fl : FloatLib F) (name : String) : List String → TableRow F → Prop
  | [], _ => True
  | key :: keys, values => ¬Touches fl values key name ∧
    Spared fl name keys (finalizeKey fl values key)

theorem get_erase_erase {p : String × String} (hp : p ∈ suffixPairs) (values : TableRow F)
    (name : String) :
    get ((values.erase (name ++ p.1)).erase (name ++ p.2)) name = get values name := by
  obtain ⟨hkey, hmark⟩ := mem_accumulatorSuffixes p hp
  rw [get, AList.lookup_erase_ne (ne_append_suffix hmark),
    AList.lookup_erase_ne (ne_append_suffix hkey), get]

/-- A round that does not touch a name leaves it. -/
theorem get_finalizeKey_of_not_touches (h : ¬Touches fl values key name) :
    get (finalizeKey fl values key) name = get values name := by
  obtain ⟨hremove, hsum, hvalues⟩ : ¬Removes key name ∧ _ ∧ _ := by
    simpa only [Touches, not_or] using h
  by_cases hset : Sets key name
  · rcases hset with rfl | rfl
    · have hcount : ¬targetCount fl (get values (name ++ ".__count")) > 0 :=
        fun hpos => hsum ⟨rfl, hpos⟩
      rw [finalizeKey, beforeSuffix_eq_some.mpr rfl]
      dsimp only
      rw [if_neg hcount]
      exact get_erase_erase (p := (".__sum", ".__count")) (by decide) values name
    · obtain ⟨xs, hxs, h50, h95⟩ := not_not.mp fun hno => hvalues ⟨rfl, hno⟩
      rw [finalizeKey, beforeSuffix_sum_values, beforeSuffix_eq_some.mpr rfl]
      dsimp only
      rw [hxs]
      dsimp only
      split
      · next hagg => exact absurd hagg h50
      · next hagg => exact absurd hagg h95
      · exact get_erase_erase (p := (".__values", ".__agg")) (by decide) values name
  · rw [get, lookup_finalizeKey hset hremove, get]

/-- A round that touches a name leaves no count there. -/
theorem get_finalizeKey_of_touches (h : Touches fl values key name) (n : ℤ) :
    get (finalizeKey fl values key) name ≠ .int64 n := by
  rcases h with hremove | ⟨rfl, hpos⟩ | ⟨rfl, hno⟩
  · rw [get, AList.lookup_eq_none.mpr (notMem_finalizeKey hremove)]
    simp
  · rw [finalizeKey, beforeSuffix_eq_some.mpr rfl]
    dsimp only
    rw [if_pos hpos, get_erase_erase (p := (".__sum", ".__count")) (by decide), get,
      AList.lookup_insert]
    simp
  · rw [finalizeKey, beforeSuffix_sum_values, beforeSuffix_eq_some.mpr rfl]
    dsimp only
    rw [get_erase_erase (p := (".__values", ".__agg")) (by decide)]
    split
    · next xs hxs =>
      split
      · rw [get, AList.lookup_insert]
        simp
      · rw [get, AList.lookup_insert]
        simp
      · next h50 h95 => exact absurd ⟨xs, hxs, h50, h95⟩ hno
    · rw [get, AList.lookup_insert]
      simp

/-- **What the last pass leaves of a count**: all of it, exactly when it spares the name. -/
theorem get_pass_eq_int64_iff : get (keys.foldl (finalizeKey fl) values) name = .int64 n ↔
    get values name = .int64 n ∧ Spared fl name keys values := by
  induction keys generalizing values with
  | nil => simp [Spared]
  | cons key keys ih =>
    rw [foldl_cons, ih, Spared]
    by_cases htouch : Touches fl values key name
    · simp [htouch, get_finalizeKey_of_touches htouch]
    · simp [htouch, get_finalizeKey_of_not_touches htouch]

/-! ## The count of a group -/

/-- **The count of a group is shown**: its rows leave their number under the name, and the last pass
spares it in whatever order it takes the keys. -/
def CountShown (fl : FloatLib F) (lib : GoLib) (items : List SelectItem) (name : String)
    (fresh : TableRow F) (rows : List (TableRow F)) : Prop :=
  get (rows.foldl (applyAggregates fl lib items) fresh) name = .int64 rows.length ∧
    ∀ keys, keys.Perm (rows.foldl (applyAggregates fl lib items) fresh).keys →
      Spared fl name keys (rows.foldl (applyAggregates fl lib items) fresh)

/-- The order that takes the keys of one map as they are given. -/
def MapOrder.given (keys : List String) : MapOrder where
  order _ keys' := if keys.Perm keys' then keys else keys'
  perm _ keys' := by
    split
    · assumption
    · exact .refl _

theorem MapOrder.order_given {keys keys' : List String} (h : keys.Perm keys') (i : ℕ) :
    (MapOrder.given keys).order i keys' = keys := if_pos h

/-- **A count is right in every order exactly when it is shown.** -/
theorem countShown_iff : CountShown fl lib items name fresh rows ↔
    ∀ order : List String → List String, (∀ keys, (order keys).Perm keys) →
      get (finalizeAggregates fl order (rows.foldl (applyAggregates fl lib items) fresh)) name =
        .int64 rows.length := by
  constructor
  · rintro ⟨hget, hspared⟩ order horder
    exact get_pass_eq_int64_iff.mpr ⟨hget, hspared _ (horder _)⟩
  · intro h
    refine ⟨(get_pass_eq_int64_iff.mp (h id fun _ => .refl _)).1, fun keys hkeys => ?_⟩
    have hpass := h ((MapOrder.given keys).order 0) ((MapOrder.given keys).perm 0)
    rw [finalizeAggregates, MapOrder.order_given hkeys] at hpass
    exact (get_pass_eq_int64_iff.mp hpass).2

/-! ## Columns of counts -/

/-- The items that write a key. -/
def writers (lib : GoLib) (items : List SelectItem) (key : String) : List SelectItem :=
  items.filter fun item => key ∈ writtenKeys lib item

/-- The keys that the row of a group can have before the last pass. -/
def rowKeys (lib : GoLib) (fields : List String) (items : List SelectItem) : List String :=
  fields ++ items.flatMap (writtenKeys lib)

/-- **A column of counts**, for rows that start with some fields: one count is written under the
name and nothing else; the last pass does not delete it, and where it could write it, it finds a sum
without a count. -/
@[mk_iff]
structure CountColumn (lib : GoLib) (fields : List String) (items : List SelectItem)
    (name : String) : Prop where
  counts : ∀ item ∈ items, name ∈ writtenKeys lib item → item.expr.call = "count"
  alone : (writers lib items name).length = 1
  kept : ∀ key ∈ rowKeys lib fields items, ¬Removes key name ∧
    (Sets key name → key = name ++ ".__sum" ∧
    name ++ ".__count" ∉ rowKeys lib fields items ∧
    ∀ key' ∈ rowKeys lib fields items, ¬Sets key' (name ++ ".__count"))

instance : Decidable (Sets key name) := inferInstanceAs (Decidable (_ ∨ _))

instance : Decidable (Removes key name) :=
  decidable_of_iff ((∃ stem ∈ beforeSuffix ".__sum" key, name = key ∨ name = stem ++ ".__count") ∨
    ∃ stem ∈ beforeSuffix ".__values" key, name = key ∨ name = stem ++ ".__agg")
    (by simp only [Option.mem_def, beforeSuffix_eq_some]; rfl)

instance : Decidable (CountColumn lib fields items name) :=
  decidable_of_iff _ (countColumn_iff lib fields items name).symm

/-- **What a row adds**: one for each item that writes the name. Nothing is written if there is
none. -/
theorem get_applyAggregates
    (hcounts : ∀ item ∈ items, name ∈ writtenKeys lib item → item.expr.call = "count")
    (target row : TableRow F) :
    get (applyAggregates fl lib items target row) name =
      if writers lib items name = [] then get target name
      else .int64 (storedCount (get target name) + (writers lib items name).length) := by
  rw [applyAggregates]
  induction items generalizing target with
  | nil => rfl
  | cons item items ih =>
    rw [forall_mem_cons] at hcounts
    rw [foldl_cons, ih hcounts.2]
    by_cases hwrites : name ∈ writtenKeys lib item
    · have hcall := hcounts.1 hwrites
      have hhead : writers lib (item :: items) name = item :: writers lib items name :=
        filter_cons_of_pos (decide_eq_true hwrites)
      rw [writtenKeys_direct (by rw [hcall]; decide), mem_singleton] at hwrites
      have hget : get (applyItem fl lib row target item) name =
          .int64 (storedCount (get target name) + 1) := by
        unfold applyItem
        simp only [hcall]
        rw [hwrites, get, AList.lookup_insert]
        rfl
      rw [hhead, hget, if_neg (cons_ne_nil _ _), length_cons, Nat.cast_add, Nat.cast_one]
      split
      next hnone => rw [hnone, length_nil, Nat.cast_zero, zero_add]
      next => rw [storedCount, add_assoc, add_comm (1 : ℤ)]
    · have hhead : writers lib (item :: items) name = writers lib items name :=
        filter_cons_of_neg (by simpa using hwrites)
      have hget : get (applyItem fl lib row target item) name = get target name := by
        rw [get, (itemStep_applyItem row target item).lookup hwrites, get]
      rw [hhead, hget]

theorem mem_rowKeys (hfresh : ∀ k ∈ fresh, k ∈ fields)
    (h : key ∈ rows.foldl (applyAggregates fl lib items) fresh) :
    key ∈ rowKeys lib fields items := by
  induction rows using reverseRecOn with
  | nil => exact mem_append_left _ (hfresh key h)
  | append_singleton rows row ih =>
    rw [foldl_append, foldl_cons, foldl_nil, mem_applyAggregates] at h
    exact h.elim ih fun hkey => mem_append_right _ (mem_flatMap.mpr hkey)

namespace CountColumn

variable (h : CountColumn lib fields items name)

include h

/-- The pass spares the name, as long as no count is beside the sum. -/
theorem spared (hkeys : ∀ key ∈ keys, key ∈ rowKeys lib fields items)
    (hvalues : ∀ key ∈ values, key ∈ rowKeys lib fields items ∨
      ∃ key' ∈ rowKeys lib fields items, Sets key' key) :
    Spared fl name keys values := by
  induction keys generalizing values with
  | nil => exact trivial
  | cons key keys ih =>
    rw [forall_mem_cons] at hkeys
    refine ⟨?_, ih hkeys.2 fun k hk => ?_⟩
    · obtain ⟨hremove, hset⟩ := h.kept key hkeys.1
      rintro (hremoves | ⟨hkey, hpos⟩ | ⟨hkey, -⟩)
      · exact hremove hremoves
      · -- what would be counted beside the sum is not in the row
        obtain ⟨-, hnone, hnot⟩ := hset (.inl hkey)
        have hmissing : name ++ ".__count" ∉ values := fun hmem =>
          (hvalues _ hmem).elim hnone fun ⟨key', hkey', hsets⟩ => hnot key' hkey' hsets
        rw [get, AList.lookup_eq_none.mpr hmissing] at hpos
        exact absurd hpos (lt_irrefl 0)
      · exact absurd ((hset (.inr hkey)).1.symm.trans hkey) (append_suffix_ne (by decide))
    · rcases mem_of_mem_finalizeKey hk with hk | hset
      · exact hvalues k hk
      · exact .inr ⟨key, hkeys.1, hset⟩

/-- Every row adds one. -/
theorem get_foldl (hstart : storedCount (get fresh name) = 0) (hrows : rows ≠ []) :
    get (rows.foldl (applyAggregates fl lib items) fresh) name = .int64 rows.length := by
  have hwriters : writers lib items name ≠ [] := fun hnil => by simpa [hnil] using h.alone
  induction rows using reverseRecOn with
  | nil => exact absurd rfl hrows
  | append_singleton rows row ih =>
    have hstored :
        storedCount (get (rows.foldl (applyAggregates fl lib items) fresh) name) = rows.length := by
      by_cases hnil : rows = []
      · rw [hnil]
        exact hstart
      · rw [ih hnil, storedCount]
    rw [foldl_append, foldl_cons, foldl_nil, get_applyAggregates h.counts, if_neg hwriters,
      hstored, h.alone,
      length_append]
    rfl

/-- **The counts of a column of counts are right**, whatever the rows are. -/
theorem shown (hfresh : ∀ k ∈ fresh, k ∈ fields) (hstart : storedCount (get fresh name) = 0)
    (hrows : rows ≠ []) :
    CountShown fl lib items name fresh rows := by
  refine ⟨h.get_foldl hstart hrows, fun keys hkeys => ?_⟩
  exact h.spared (fun key hkey => mem_rowKeys hfresh (AList.mem_keys.mpr (hkeys.mem_iff.mp hkey)))
    fun key hkey => .inl (mem_rowKeys hfresh hkey)

end CountColumn

end Counts

end Urgentry.Discover
