import Urgentry.Discovershared.Result

/-!
# The columns of aggregate results

A query may select any aggregate of the validator's catalogue. The loop that computes them has a
case for five: `count`, `avg`, `max`, `p50` and `p95`; an item with another call leaves no trace in
the row. Beside that, the accumulators share the row with the values, and a client chooses the names
of both through the aliases: an alias can end like an accumulator.

## The pass over the keys

The last pass goes over the keys that the row had before it. At a key with the suffix of a sum or of
a list of values it writes the value of the name before the suffix (`Sets`), and deletes the key and
its companion (`Removes`). That the result has all the columns means that no key is deleted that is
a name, and that all names are written. Both follow from where keys come from (`KeyOf`), in any
order of the keys.

In the other direction an order can be chosen, and the pass may come last to a value that looks like
an accumulator.

## Main results

* `ItemStep`: what one item does to the row of its group;
* `computed_of_computable`, `computable_of_computed`: when the row of a group has all its columns;
* `aggregates_computed_iff`: the same of the tables and series of accepted queries.
-/

namespace Urgentry.Discover

open List AList

/-! ## Suffixes -/

/-- The suffixes of the accumulators. -/
def accumulatorSuffixes : List String := [".__sum", ".__count", ".__values", ".__agg"]

variable {suffix name name' s key s' : String}

theorem beforeSuffix_eq_some : beforeSuffix suffix key = some name ↔ key = name ++ suffix := by
  rw [beforeSuffix]
  constructor
  · intro h
    split at h
    next hsuffix =>
      rw [Option.some.injEq] at h
      rw [← String.toList_inj, String.toList_append, ← h, String.toList_ofList]
      exact (suffix_iff_eq_append.mp hsuffix).symm
    next => cases h
  · rintro rfl
    have hlen : (name ++ suffix).toList.length - suffix.toList.length = name.toList.length := by
      rw [String.toList_append, length_append, Nat.add_sub_cancel]
    have hsuffix : suffix.toList <:+ (name ++ suffix).toList := by
      rw [String.toList_append]
      exact suffix_append _ _
    rw [if_pos hsuffix, hlen, String.toList_append, take_left, String.ofList_toList]

theorem beforeSuffix_eq_none : beforeSuffix suffix key = none ↔ ∀ name, key ≠ name ++ suffix := by
  rw [Option.eq_none_iff_forall_ne_some]
  exact forall_congr' fun name => not_congr beforeSuffix_eq_some

/-- The suffixes have different last letters, so a key has at most one of them. -/
theorem append_suffix_inj (hs : s ∈ accumulatorSuffixes) (hs' : s' ∈ accumulatorSuffixes)
    (h : name ++ s = name' ++ s') : name = name' ∧ s = s' := by
  have hlast : ∀ t ∈ accumulatorSuffixes, ∀ t' ∈ accumulatorSuffixes,
      t.toList.getLast? = t'.toList.getLast? → t = t' := by decide
  have hne : ∀ t ∈ accumulatorSuffixes, t.toList ≠ [] := by decide
  have hchars := congrArg (fun text : String => text.toList.getLast?) h
  simp only [String.toList_append] at hchars
  rw [getLast?_append_of_ne_nil _ (hne s hs), getLast?_append_of_ne_nil _ (hne s' hs')]
    at hchars
  obtain rfl : s = s' := hlast s hs s' hs' hchars
  exact ⟨(String.append_left_inj s).mp h, rfl⟩

/-- Different suffixes make different keys. -/
theorem append_suffix_ne (h : s ∈ accumulatorSuffixes ∧ s' ∈ accumulatorSuffixes ∧ s ≠ s') :
    name ++ s ≠ name' ++ s' :=
  fun heq => h.2.2 (append_suffix_inj h.1 h.2.1 heq).2

theorem ne_append_suffix (hs : s ∈ accumulatorSuffixes) : name ≠ name ++ s := by
  have hne : ∀ t ∈ accumulatorSuffixes, t.toList.length ≠ 0 := by decide
  intro h
  have hlen := congrArg (fun text : String => text.toList.length) h
  simp only [String.toList_append, length_append] at hlen
  exact hne s hs (by omega)

/-- The suffix at which the last pass writes a value, with its companion. -/
def suffixPairs : List (String × String) := [(".__sum", ".__count"), (".__values", ".__agg")]

theorem mem_accumulatorSuffixes :
    ∀ p ∈ suffixPairs, p.1 ∈ accumulatorSuffixes ∧ p.2 ∈ accumulatorSuffixes := by decide

/-! ## The keys that are written -/

section Keys

variable {F : Type} {fl : FloatLib F} {lib : GoLib} {target target' values : TableRow F}
  {item : SelectItem} {k key name : String} {items : List SelectItem}

/-- The calls whose value stands under the name of the item from the beginning. -/
def directCalls : List String := ["", "count", "max"]

/-- The calls that `applyAggregates` knows. -/
def knownCalls : List String := directCalls ++ ["avg", "p50", "p95"]

/-- **What one item does** to the values of a group. -/
inductive ItemStep (fl : FloatLib F) (lib : GoLib) (target : TableRow F) (item : SelectItem) :
    TableRow F → Prop
  | direct (hcall : item.expr.call ∈ directCalls) (v : Value F) :
    ItemStep fl lib target item (target.insert (selectName lib item) v)
  | kept (hcall : item.expr.call ∈ directCalls) (hmem : selectName lib item ∈ target) :
    ItemStep fl lib target item target
  | average (hcall : item.expr.call = "avg") (x : F) :
    ItemStep fl lib target item ((target.insert (selectName lib item ++ ".__sum") (.float x)).insert
      (selectName lib item ++ ".__count")
      (.int64 (targetCount fl (get target (selectName lib item ++ ".__count")) + 1)))
  | percentile (hcall : item.expr.call = "p50" ∨ item.expr.call = "p95") (xs : List F) :
    ItemStep fl lib target item
      ((target.insert (selectName lib item ++ ".__values") (.floats xs)).insert
      (selectName lib item ++ ".__agg") (.text item.expr.call))
  | unknown (hcall : item.expr.call ∉ knownCalls) : ItemStep fl lib target item target

theorem get_insert_of_ne {k' : String} (hne : k ≠ k') (v : Value F) :
    get (target.insert k' v) k = get target k := by
  rw [get, get, lookup_insert_ne hne]

@[simp]
theorem mem_insert_insert {a b : String} {v w : Value F} :
    k ∈ (target.insert a v).insert b w ↔ k ∈ target ∨ k ∈ [a, b] := by
  rw [mem_insert, mem_insert, mem_cons, mem_singleton]
  tauto

theorem eq_of_lookup_insert {v w : Value F} (h : (target.insert k w).lookup key = some v) :
    key = k ∧ v = w ∨ target.lookup key = some v := by
  by_cases hkey : key = k
  · rw [hkey, lookup_insert, Option.some.injEq] at h
    exact .inl ⟨hkey, h.symm⟩
  · rw [lookup_insert_ne hkey] at h
    exact .inr h

theorem itemStep_applyItem (row target : TableRow F) (item : SelectItem) :
    ItemStep fl lib target item (applyItem fl lib row target item) := by
  unfold applyItem
  dsimp only
  split
  next hcall => exact .direct (by rw [hcall]; decide) _
  next hcall => exact .direct (by rw [hcall]; decide) _
  next hcall =>
    rw [get_insert_of_ne (append_suffix_ne (by decide))]
    exact .average hcall _
  next hcall =>
    have hdirect : item.expr.call ∈ directCalls := by rw [hcall]; decide
    split
    next => exact .direct hdirect _
    next existing hexisting =>
      split
      · exact .direct hdirect _
      · exact .kept hdirect (lookup_isSome.mp (by rw [hexisting]; rfl))
  next hcall => exact .percentile (.inl hcall) _
  next hcall => exact .percentile (.inr hcall) _
  next h₁ h₂ h₃ h₄ h₅ h₆ =>
    exact .unknown (by simpa [knownCalls, directCalls] using ⟨h₁, h₂, h₄, h₃, h₅, h₆⟩)

/-- The keys that a selected item writes. -/
def writtenKeys (lib : GoLib) (item : SelectItem) : List String :=
  if item.expr.call ∈ directCalls then [selectName lib item]
  else if item.expr.call = "avg" then
    [selectName lib item ++ ".__sum", selectName lib item ++ ".__count"]
  else if item.expr.call ∈ knownCalls then
    [selectName lib item ++ ".__values", selectName lib item ++ ".__agg"]
  else []

theorem writtenKeys_direct (h : item.expr.call ∈ directCalls) :
    writtenKeys lib item = [selectName lib item] := if_pos h

theorem writtenKeys_average (h : item.expr.call = "avg") :
    writtenKeys lib item =
      [selectName lib item ++ ".__sum", selectName lib item ++ ".__count"] := by
  rw [writtenKeys, if_neg (by rw [h]; decide), if_pos h]

theorem writtenKeys_percentile (h : item.expr.call = "p50" ∨ item.expr.call = "p95") :
    writtenKeys lib item =
      [selectName lib item ++ ".__values", selectName lib item ++ ".__agg"] := by
  rw [writtenKeys]
  rcases h with h | h <;>
    rw [if_neg (by rw [h]; decide), if_neg (by rw [h]; decide), if_pos (by rw [h]; decide)]

theorem writtenKeys_unknown (h : item.expr.call ∉ knownCalls) : writtenKeys lib item = [] := by
  rw [writtenKeys, if_neg fun hdirect => h (mem_append_left _ hdirect),
    if_neg fun havg => h (by rw [havg]; decide), if_neg h]

theorem ItemStep.mem (h : ItemStep fl lib target item target') :
    k ∈ target' ↔ k ∈ target ∨ k ∈ writtenKeys lib item := by
  cases h with
  | direct hcall v =>
    rw [writtenKeys_direct hcall, mem_insert, mem_singleton, or_comm]
  | kept hcall hmem =>
    rw [writtenKeys_direct hcall, mem_singleton]
    exact ⟨.inl, fun h => h.elim id fun hk => hk ▸ hmem⟩
  | average hcall x => rw [writtenKeys_average hcall, mem_insert_insert]
  | percentile hcall xs => rw [writtenKeys_percentile hcall, mem_insert_insert]
  | unknown hcall => simp [writtenKeys_unknown hcall]

theorem ItemStep.lookup (h : ItemStep fl lib target item target') (hk : k ∉ writtenKeys lib item) :
    target'.lookup k = target.lookup k := by
  cases h with
  | direct hcall v =>
    rw [writtenKeys_direct hcall, mem_singleton] at hk
    exact lookup_insert_ne hk
  | kept hcall hmem => rfl
  | average hcall x =>
    simp only [writtenKeys_average hcall, mem_cons, not_mem_nil, or_false, not_or] at hk
    rw [lookup_insert_ne hk.2, lookup_insert_ne hk.1]
  | percentile hcall xs =>
    simp only [writtenKeys_percentile hcall, mem_cons, not_mem_nil, or_false, not_or] at hk
    rw [lookup_insert_ne hk.2, lookup_insert_ne hk.1]
  | unknown hcall => rfl

/-! ## The values of a group before the last pass -/

/-- The counts and the percentile marks of a group are as `applyAggregates` writes them, where no
item of the selection has their key for its name. -/
structure Marked (fl : FloatLib F) (lib : GoLib) (items : List SelectItem)
    (target : TableRow F) : Prop where
  count : ∀ name, (∀ item ∈ items, selectName lib item ≠ name ++ ".__count") →
    ∀ v, target.lookup (name ++ ".__count") = some v → 1 ≤ targetCount fl v
  agg : ∀ name, (∀ item ∈ items, selectName lib item ≠ name ++ ".__agg") →
    ∀ v, target.lookup (name ++ ".__agg") = some v → v = .text "p50" ∨ v = .text "p95"

/-- What an item writes under a key that is not its name is the value of an accumulator. -/
theorem ItemStep.value (h : ItemStep fl lib target item target') {P : Value F → Prop}
    (hname : selectName lib item ≠ key) (hold : ∀ v, target.lookup key = some v → P v)
    (hsum : key = selectName lib item ++ ".__sum" → ∀ x, P (.float x))
    (hcount : key = selectName lib item ++ ".__count" →
      P (.int64 (targetCount fl (get target key) + 1)))
    (hvalues : key = selectName lib item ++ ".__values" → ∀ xs, P (.floats xs))
    (hagg : key = selectName lib item ++ ".__agg" → P (.text "p50") ∧ P (.text "p95")) :
    ∀ v, target'.lookup key = some v → P v := by
  intro v hv
  cases h with
  | direct hcall w =>
    rcases eq_of_lookup_insert hv with ⟨rfl, -⟩ | hv
    · exact absurd rfl hname
    · exact hold v hv
  | kept hcall hmem => exact hold v hv
  | average hcall x =>
    rcases eq_of_lookup_insert hv with ⟨rfl, rfl⟩ | hv
    · exact hcount rfl
    rcases eq_of_lookup_insert hv with ⟨rfl, rfl⟩ | hv
    · exact hsum rfl x
    · exact hold v hv
  | percentile hcall xs =>
    rcases eq_of_lookup_insert hv with ⟨rfl, rfl⟩ | hv
    · rcases hcall with hcall | hcall <;> rw [hcall]
      · exact (hagg rfl).1
      · exact (hagg rfl).2
    rcases eq_of_lookup_insert hv with ⟨rfl, rfl⟩ | hv
    · exact hvalues rfl xs
    · exact hold v hv
  | unknown hcall => exact hold v hv

theorem ItemStep.marked (h : ItemStep fl lib target item target') (hitem : item ∈ items)
    (hmarked : Marked fl lib items target) : Marked fl lib items target' where
  count name hname := by
    refine h.value (hname item hitem) (hmarked.count name hname)
      (fun heq => absurd heq (append_suffix_ne (by decide))) (fun _ => ?_)
      (fun heq => absurd heq (append_suffix_ne (by decide)))
      fun heq => absurd heq (append_suffix_ne (by decide))
    have hold : 0 ≤ targetCount fl (get target (name ++ ".__count")) := by
      rw [get]
      rcases hlookup : target.lookup (name ++ ".__count") with _ | w
      · exact le_rfl
      · exact le_trans zero_le_one (hmarked.count name hname w hlookup)
    rw [targetCount]
    omega
  agg name hname :=
    h.value (hname item hitem) (hmarked.agg name hname)
      (fun heq => absurd heq (append_suffix_ne (by decide)))
      (fun heq => absurd heq (append_suffix_ne (by decide)))
      (fun heq => absurd heq (append_suffix_ne (by decide))) fun _ => ⟨.inl rfl, .inr rfl⟩

/-- One row, item by item. -/
theorem marked_applyAggregates {selects : List SelectItem} (hsub : selects ⊆ items)
    (h : Marked fl lib items target) (row : TableRow F) :
    Marked fl lib items (applyAggregates fl lib selects target row) := by
  rw [applyAggregates]
  induction selects generalizing target with
  | nil => exact h
  | cons item selects ih =>
    rw [cons_subset] at hsub
    exact ih hsub.2 ((itemStep_applyItem row target item).marked hsub.1 h)

theorem mem_applyAggregates {selects : List SelectItem} {row : TableRow F} :
    k ∈ applyAggregates fl lib selects target row ↔
      k ∈ target ∨ ∃ item ∈ selects, k ∈ writtenKeys lib item := by
  rw [applyAggregates]
  induction selects generalizing target with
  | nil => simp
  | cons item selects ih =>
    rw [foldl_cons, ih, (itemStep_applyItem row target item).mem, exists_mem_cons_iff, or_assoc]

/-- **The values of a group**: the fields it is grouped by, and what the items write. -/
structure Accumulated (fl : FloatLib F) (lib : GoLib) (fields : List String)
    (items : List SelectItem) (target : TableRow F) : Prop extends Marked fl lib items target where
  mem : ∀ k, k ∈ target ↔ k ∈ fields ∨ ∃ item ∈ items, k ∈ writtenKeys lib item

/-- A group is accumulated after its first row, and after every row. -/
theorem accumulated_foldl {fields : List String} {fresh : TableRow F}
    (hfresh : ∀ k, k ∈ fresh ↔ k ∈ fields) (hmarked : Marked fl lib items fresh)
    (first : TableRow F) (rest : List (TableRow F)) :
    Accumulated fl lib fields items
      (rest.foldl (applyAggregates fl lib items) (applyAggregates fl lib items fresh first)) := by
  induction rest using reverseRecOn with
  | nil =>
    refine ⟨marked_applyAggregates (Subset.refl _) hmarked first, fun k => ?_⟩
    rw [foldl_nil, mem_applyAggregates, hfresh]
  | append_singleton rest row ih =>
    rw [foldl_append]
    refine ⟨marked_applyAggregates (Subset.refl _) ih.toMarked row, fun k => ?_⟩
    rw [foldl_cons, foldl_nil, mem_applyAggregates, ih.mem k, or_assoc, or_self]

/-! ## The last pass -/

/-- The last pass may write the value of a name when it comes to a key. -/
def Sets (key name : String) : Prop := key = name ++ ".__sum" ∨ key = name ++ ".__values"

/-- The last pass deletes an entry when it comes to a key. -/
def Removes (key k : String) : Prop :=
  (∃ name, key = name ++ ".__sum" ∧ (k = key ∨ k = name ++ ".__count")) ∨
    ∃ name, key = name ++ ".__values" ∧ (k = key ∨ k = name ++ ".__agg")

theorem sets_iff : Sets key name ↔ ∃ p ∈ suffixPairs, key = name ++ p.1 := by
  simp [Sets, suffixPairs]

theorem removes_iff : Removes key k ↔
    ∃ p ∈ suffixPairs, ∃ name, key = name ++ p.1 ∧ (k = key ∨ k = name ++ p.2) := by
  simp [Removes, suffixPairs]

@[simp]
theorem beforeSuffix_sum_values : beforeSuffix ".__sum" (name ++ ".__values") = none :=
  beforeSuffix_eq_none.mpr fun _ => append_suffix_ne (by decide)

/-- **At a key with a suffix**, the pass writes at most the name before it, and deletes the key and
its companion. -/
theorem finalizeKey_eq (fl : FloatLib F) {p : String × String} (hp : p ∈ suffixPairs)
    (values : TableRow F) (name : String) :
    ∃ values' : TableRow F, (values' = values ∨ ∃ v, values' = values.insert name v) ∧
      finalizeKey fl values (name ++ p.1) = (values'.erase (name ++ p.1)).erase (name ++ p.2) := by
  simp only [suffixPairs, mem_cons, not_mem_nil, or_false] at hp
  rcases hp with rfl | rfl
  · rw [finalizeKey, beforeSuffix_eq_some.mpr rfl]
    refine ⟨_, ?_, rfl⟩
    split
    · exact .inr ⟨_, rfl⟩
    · exact .inl rfl
  · rw [finalizeKey, beforeSuffix_sum_values, beforeSuffix_eq_some.mpr rfl]
    refine ⟨_, ?_, rfl⟩
    split
    · split
      · exact .inr ⟨_, rfl⟩
      · exact .inr ⟨_, rfl⟩
      · exact .inl rfl
    · exact .inr ⟨_, rfl⟩

/-- At the other keys, the pass does nothing. -/
theorem finalizeKey_of_plain (h : ∀ name, ¬ Sets key name) :
    finalizeKey fl values key = values := by
  rw [finalizeKey, beforeSuffix_eq_none.mpr fun name heq => h name (.inl heq),
    beforeSuffix_eq_none.mpr fun name heq => h name (.inr heq)]

theorem lookup_finalizeKey (hset : ¬ Sets key k) (hremove : ¬ Removes key k) :
    (finalizeKey fl values key).lookup k = values.lookup k := by
  by_cases hname : ∃ name, Sets key name
  · obtain ⟨name, hname⟩ := hname
    obtain ⟨p, hp, rfl⟩ := sets_iff.mp hname
    obtain ⟨values', hvalues', heq⟩ := finalizeKey_eq fl hp values name
    have hkey : k ≠ name ++ p.1 := fun h => hremove (removes_iff.mpr ⟨p, hp, name, rfl, .inl h⟩)
    have hmark : k ≠ name ++ p.2 := fun h => hremove (removes_iff.mpr ⟨p, hp, name, rfl, .inr h⟩)
    rw [heq, lookup_erase_ne hmark, lookup_erase_ne hkey]
    rcases hvalues' with rfl | ⟨v, rfl⟩
    · rfl
    · refine lookup_insert_ne ?_
      rintro rfl
      exact hset hname
  · rw [finalizeKey_of_plain (not_exists.mp hname)]

theorem mem_congr_lookup {values' : TableRow F} (h : values.lookup k = values'.lookup k) :
    k ∈ values ↔ k ∈ values' := by
  rw [← lookup_isSome, h, lookup_isSome]

theorem notMem_finalizeKey (h : Removes key k) : k ∉ finalizeKey fl values key := by
  obtain ⟨p, hp, name, rfl, hk⟩ := removes_iff.mp h
  obtain ⟨values', -, heq⟩ := finalizeKey_eq fl hp values name
  rw [heq, mem_erase, mem_erase]
  rcases hk with rfl | rfl
  · exact fun hmem => hmem.2.1 rfl
  · exact fun hmem => hmem.1 rfl

/-- The pass keeps a name with a mark, when it comes to its values. -/
theorem mem_finalizeKey_values
    (h : get values (name ++ ".__agg") = .text "p50" ∨
      get values (name ++ ".__agg") = .text "p95") :
    name ∈ finalizeKey fl values (name ++ ".__values") := by
  rw [finalizeKey, beforeSuffix_sum_values, beforeSuffix_eq_some.mpr rfl]
  rw [mem_erase, mem_erase]
  refine ⟨ne_append_suffix (by decide), ne_append_suffix (by decide), ?_⟩
  split
  · rcases h with h | h <;> rw [h] <;> exact mem_insert _ |>.mpr (.inl rfl)
  · exact mem_insert _ |>.mpr (.inl rfl)

theorem mem_of_mem_finalizeKey (h : k ∈ finalizeKey fl values key) : k ∈ values ∨ Sets key k := by
  by_cases hset : Sets key k
  · exact .inr hset
  · have hremove : ¬ Removes key k := fun hremove => notMem_finalizeKey hremove h
    exact .inl ((mem_congr_lookup (lookup_finalizeKey hset hremove)).mp h)

theorem mem_finalizeKey_of_mem (hremove : ¬ Removes key k) (h : k ∈ values) :
    k ∈ finalizeKey fl values key := by
  by_cases hset : Sets key k
  swap
  · exact (mem_congr_lookup (lookup_finalizeKey hset hremove)).mpr h
  obtain ⟨p, hp, rfl⟩ := sets_iff.mp hset
  obtain ⟨hkey, hmark⟩ := mem_accumulatorSuffixes p hp
  obtain ⟨values', hvalues', heq⟩ := finalizeKey_eq fl hp values k
  rw [heq, mem_erase, mem_erase]
  refine ⟨ne_append_suffix hmark, ne_append_suffix hkey, ?_⟩
  rcases hvalues' with rfl | ⟨v, rfl⟩
  · exact h
  · exact mem_insert _ |>.mpr (.inl rfl)

/-! ### The whole pass -/

section Pass

variable {keys : List String}

theorem lookup_pass (h : ∀ key ∈ keys, ¬ Sets key k ∧ ¬ Removes key k) :
    (keys.foldl (finalizeKey fl) values).lookup k = values.lookup k := by
  induction keys generalizing values with
  | nil => rfl
  | cons key keys ih =>
    rw [forall_mem_cons] at h
    rw [foldl_cons, ih h.2, lookup_finalizeKey h.1.1 h.1.2]

theorem mem_pass_of_mem (h : ∀ key ∈ keys, ¬ Removes key k) (hk : k ∈ values) :
    k ∈ keys.foldl (finalizeKey fl) values := by
  induction keys generalizing values with
  | nil => exact hk
  | cons key keys ih =>
    rw [forall_mem_cons] at h
    exact ih h.2 (mem_finalizeKey_of_mem h.1 hk)

theorem mem_of_mem_pass (hk : k ∈ keys.foldl (finalizeKey fl) values) :
    k ∈ values ∨ ∃ key ∈ keys, Sets key k := by
  induction keys generalizing values with
  | nil => exact .inl hk
  | cons key keys ih =>
    rcases ih hk with hk | ⟨key', hkey', hset⟩
    · exact (mem_of_mem_finalizeKey hk).imp_right fun hset => ⟨key, mem_cons_self, hset⟩
    · exact .inr ⟨key', mem_cons_of_mem _ hkey', hset⟩

/-- A name is kept if the pass writes it at a key, given what it reads there is not touched
before. -/
theorem mem_pass_of_sets (mark : String) (hkey : key ∈ keys) (hnodup : keys.Nodup)
    (hmark : ∀ key' ∈ keys, key' ≠ key → ¬ Sets key' mark ∧ ¬ Removes key' mark)
    (hname : ∀ key' ∈ keys, ¬ Removes key' name)
    (hwrite : ∀ values' : TableRow F, values'.lookup mark = values.lookup mark →
      name ∈ finalizeKey fl values' key) : name ∈ keys.foldl (finalizeKey fl) values := by
  obtain ⟨before, after, rfl⟩ := append_of_mem hkey
  rw [foldl_append, foldl_cons]
  have hbefore : ∀ key' ∈ before, key' ≠ key := by
    rintro key' hkey' rfl
    rw [nodup_append] at hnodup
    exact hnodup.2.2 key' hkey' key' mem_cons_self rfl
  refine mem_pass_of_mem (fun key' hkey' => hname key' (by simp [hkey'])) (hwrite _ ?_)
  exact lookup_pass fun key' hkey' => hmark key' (by simp [hkey']) (hbefore key' hkey')

end Pass

/-! ## Rows with all their columns -/

/-- **The columns of a row**: every selected item has an entry under its name, and no accumulator is
left. -/
def Computed (lib : GoLib) (items : List SelectItem) (row : TableRow F) : Prop :=
  ∀ item ∈ items, selectName lib item ∈ row ∧
    ∀ suffix ∈ accumulatorSuffixes, selectName lib item ++ suffix ∉ row

/-- **The condition on the selection**, for rows that start with some fields. The name of every item
is the name of a field or of an item whose call is known; no name is another one with the suffix of
an accumulator; and no value that stands under its name from the beginning looks like an
accumulator. -/
structure Computable (lib : GoLib) (fields : List String) (items : List SelectItem) : Prop where
  computed : ∀ item ∈ items, selectName lib item ∈ fields ∨
    ∃ other ∈ items, other.expr.call ∈ knownCalls ∧ selectName lib other = selectName lib item
  separated : ∀ item ∈ items, ∀ other ∈ items, ∀ suffix ∈ accumulatorSuffixes,
    selectName lib item ≠ selectName lib other ++ suffix
  plain : ∀ item ∈ items, item.expr.call ∈ directCalls →
    beforeSuffix ".__sum" (selectName lib item) = none ∧
      beforeSuffix ".__values" (selectName lib item) = none

/-- Where a key can come from. -/
inductive KeyOf (lib : GoLib) (fields : List String) (items : List SelectItem) : String → Prop
  | field {k : String} (hk : k ∈ fields) : KeyOf lib fields items k
  | direct (item : SelectItem) (hitem : item ∈ items) (hcall : item.expr.call ∈ directCalls) :
    KeyOf lib fields items (selectName lib item)
  | average (item : SelectItem) (hitem : item ∈ items) (hcall : item.expr.call = "avg")
    (suffix : String) (hsuffix : suffix = ".__sum" ∨ suffix = ".__count") :
    KeyOf lib fields items (selectName lib item ++ suffix)
  | percentile (item : SelectItem) (hitem : item ∈ items)
    (hcall : item.expr.call = "p50" ∨ item.expr.call = "p95") (suffix : String)
    (hsuffix : suffix = ".__values" ∨ suffix = ".__agg") :
    KeyOf lib fields items (selectName lib item ++ suffix)

section Group

variable {fields : List String} {items : List SelectItem}

theorem Accumulated.keyOf (h : Accumulated fl lib fields items values) (hk : k ∈ values) :
    KeyOf lib fields items k := by
  rcases (h.mem k).mp hk with hk | ⟨item, hitem, hk⟩
  · exact .field hk
  rw [writtenKeys] at hk
  split at hk
  next hcall =>
    rw [mem_singleton] at hk
    exact hk ▸ .direct item hitem hcall
  next hdirect =>
    split at hk
    next hcall =>
      rw [mem_cons, mem_singleton] at hk
      rcases hk with rfl | rfl
      · exact .average item hitem hcall _ (.inl rfl)
      · exact .average item hitem hcall _ (.inr rfl)
    next havg =>
      split_ifs at hk with hknown
      · have hcall : item.expr.call = "p50" ∨ item.expr.call = "p95" := by
          rw [knownCalls, mem_append] at hknown
          simpa [havg] using hknown.resolve_left hdirect
        rw [mem_cons, mem_singleton] at hk
        rcases hk with rfl | rfl
        · exact .percentile item hitem hcall _ (.inl rfl)
        · exact .percentile item hitem hcall _ (.inr rfl)
      · exact absurd hk not_mem_nil

/-- The fields have no suffix of an accumulator. -/
def PlainFields (fields : List String) : Prop :=
  ∀ field ∈ fields, ∀ suffix ∈ accumulatorSuffixes, ∀ name, field ≠ name ++ suffix

/-- A key is a field, the name of an item, or one of the two accumulators of an item. -/
theorem KeyOf.split (h : KeyOf lib fields items k) : k ∈ fields ∨
    (∃ item ∈ items, item.expr.call ∈ directCalls ∧ k = selectName lib item) ∨
    ∃ item ∈ items, item.expr.call ∈ knownCalls ∧ ∃ p ∈ suffixPairs,
      writtenKeys lib item = [selectName lib item ++ p.1, selectName lib item ++ p.2] ∧
      ∃ suffix ∈ accumulatorSuffixes, (suffix = p.1 ∨ suffix = p.2) ∧
        k = selectName lib item ++ suffix := by
  cases h with
  | field hk => exact .inl hk
  | direct item hitem hcall => exact .inr (.inl ⟨item, hitem, hcall, rfl⟩)
  | average item hitem hcall suffix hsuffix =>
    exact .inr
      (.inr ⟨item, hitem, by rw [hcall]; decide, _, mem_cons_self, writtenKeys_average hcall,
      suffix, by rcases hsuffix with rfl | rfl <;> decide, hsuffix, rfl⟩)
  | percentile item hitem hcall suffix hsuffix =>
    exact .inr (.inr ⟨item, hitem, by rcases hcall with hcall | hcall <;> rw [hcall] <;> decide, _,
      mem_cons_of_mem _ mem_cons_self, writtenKeys_percentile hcall, suffix,
      by rcases hsuffix with rfl | rfl <;> decide, hsuffix, rfl⟩)

/-- A key at which the pass may write a name is an accumulator of an item with that name. -/
theorem KeyOf.of_sets (h : KeyOf lib fields items key) (hfields : PlainFields fields)
    (hplain : ∀ item ∈ items, item.expr.call ∈ directCalls →
      beforeSuffix ".__sum" (selectName lib item) = none ∧
        beforeSuffix ".__values" (selectName lib item) = none)
    (hset : Sets key name) :
    ∃ item ∈ items, item.expr.call ∈ knownCalls ∧ selectName lib item = name := by
  obtain ⟨p, hp, hkey⟩ := sets_iff.mp hset
  have hmem := (mem_accumulatorSuffixes p hp).1
  rcases h.split with hk | ⟨item, hitem, hcall, rfl⟩
    | ⟨item, hitem, hcall, -, -, -, suffix, hsuffix, -, rfl⟩
  · exact absurd hkey (hfields key hk p.1 hmem name)
  · obtain ⟨hsum, hvalues⟩ := hplain item hitem hcall
    rcases hset with hset | hset
    · exact absurd hset (beforeSuffix_eq_none.mp hsum name)
    · exact absurd hset (beforeSuffix_eq_none.mp hvalues name)
  · exact ⟨item, hitem, hcall, (append_suffix_inj hsuffix hmem hkey).1⟩

variable (hacc : Accumulated fl lib fields items values) (hfields : PlainFields fields)
  {order : List String → List String} (horder : (order values.keys).Perm values.keys)
  (hcomp : Computable lib fields items)

include hacc hfields horder hcomp

theorem sets_of_mem_order (hkey : key ∈ order values.keys) (hset : Sets key name) :
    ∃ item ∈ items, item.expr.call ∈ knownCalls ∧ selectName lib item = name :=
  (hacc.keyOf (mem_keys.mp (horder.mem_iff.mp hkey))).of_sets hfields hcomp.plain hset

section

variable (hitem : item ∈ items) {suffix : String}

include hitem

/-- The pass does not delete the name of an item. -/
theorem not_removes_selectName (hkey : key ∈ order values.keys) :
    ¬ Removes key (selectName lib item) := by
  intro hremove
  obtain ⟨p, hp, name, rfl, hname⟩ := removes_iff.mp hremove
  obtain ⟨hfirst, hsecond⟩ := mem_accumulatorSuffixes p hp
  obtain ⟨other, hother, -, rfl⟩ :=
    sets_of_mem_order hacc hfields horder hcomp hkey (sets_iff.mpr ⟨p, hp, rfl⟩)
  exact hname.elim (hcomp.separated item hitem other hother _ hfirst)
    (hcomp.separated item hitem other hother _ hsecond)

/-- The pass does not write an accumulator of an item. -/
theorem not_sets_accumulator (hsuffix : suffix ∈ accumulatorSuffixes)
    (hkey : key ∈ order values.keys) : ¬ Sets key (selectName lib item ++ suffix) := by
  intro hset
  obtain ⟨other, hother, -, hname⟩ := sets_of_mem_order hacc hfields horder hcomp hkey hset
  exact hcomp.separated other hother item hitem suffix hsuffix hname

/-- No accumulator of an item is left. -/
theorem accumulator_notMem (hsuffix : suffix ∈ accumulatorSuffixes) :
    selectName lib item ++ suffix ∉ finalizeAggregates fl order values := by
  have hset : ∀ key ∈ order values.keys,
      ¬ Sets key (selectName lib item ++ suffix) := fun key hkey =>
    not_sets_accumulator hacc hfields horder hcomp hitem hsuffix hkey
  intro hleft
  rw [finalizeAggregates] at hleft
  rcases mem_of_mem_pass hleft with hleft' | ⟨key, hkey, hset'⟩
  swap
  · exact hset key hkey hset'
  generalize hk : selectName lib item ++ suffix = k at *
  rcases (hacc.keyOf hleft').split with hfield | ⟨other, hother, -, rfl⟩ |
    ⟨other, hother, -, p, hp, hwritten, suffix', -, hsuffix', rfl⟩
  · exact hfields k hfield suffix hsuffix _ hk.symm
  · exact hcomp.separated other hother item hitem suffix hsuffix hk.symm
  · have hkey : selectName lib other ++ p.1 ∈ values :=
      (hacc.mem _).mpr (.inr ⟨other, hother, by rw [hwritten]; exact mem_cons_self⟩)
    -- What a key deletes is gone at the end, if nothing writes it again.
    obtain ⟨before, after, hkeys⟩ := append_of_mem (horder.mem_iff.mpr (mem_keys.mpr hkey))
    rw [hkeys, foldl_append, foldl_cons] at hleft
    rcases mem_of_mem_pass hleft with hleft | ⟨key, hkey, hset'⟩
    · refine notMem_finalizeKey (removes_iff.mpr ⟨p, hp, selectName lib other, rfl, ?_⟩) hleft
      exact hsuffix'.imp (congrArg _) (congrArg _)
    · exact hset key (by simp [hkeys, hkey]) hset'

/-- A value is written in place of its accumulators. -/
theorem accumulated_mem {p : String × String} (hp : p ∈ suffixPairs)
    (hkeys : writtenKeys lib item = [selectName lib item ++ p.1, selectName lib item ++ p.2])
    (hwrite : ∀ v, values.lookup (selectName lib item ++ p.2) = some v → ∀ values' : TableRow F,
      get values' (selectName lib item ++ p.2) = v →
        selectName lib item ∈ finalizeKey fl values' (selectName lib item ++ p.1)) :
    selectName lib item ∈ finalizeAggregates fl order values := by
  have hwritten : ∀ key ∈ writtenKeys lib item, key ∈ values := fun key hkey =>
    (hacc.mem key).mpr (.inr ⟨item, hitem, hkey⟩)
  rw [hkeys] at hwritten
  have hkey : selectName lib item ++ p.1 ∈ order values.keys :=
    horder.mem_iff.mpr (mem_keys.mpr (hwritten _ (by simp)))
  obtain ⟨v, hv⟩ := Option.isSome_iff_exists.mp
    (lookup_isSome.mpr (hwritten (selectName lib item ++ p.2) (by simp)))
  have hmem := mem_accumulatorSuffixes p hp
  refine mem_pass_of_sets (selectName lib item ++ p.2) hkey (horder.nodup_iff.mpr values.nodupKeys)
    (fun key hkey hne => ⟨not_sets_accumulator hacc hfields horder hcomp hitem hmem.2 hkey, ?_⟩)
    (fun key hkey => not_removes_selectName hacc hfields horder hcomp hitem hkey)
    (fun values' hlookup => hwrite v hv values' (by rw [get, hlookup, hv, Option.getD_some]))
  -- the companion is deleted at its own key only
  intro hremove
  have hpairs : ∀ p ∈ suffixPairs, ∀ p' ∈ suffixPairs,
    p.2 ≠ p'.1 ∧ (p.2 = p'.2 → p.1 = p'.1) := by decide
  obtain ⟨p', hp', name, rfl, hk | hk⟩ := removes_iff.mp hremove
  · exact (hpairs p hp p' hp').1 (append_suffix_inj hmem.2 (mem_accumulatorSuffixes p' hp').1 hk).2
  · obtain ⟨hname, hsuffix⟩ := append_suffix_inj hmem.2 (mem_accumulatorSuffixes p' hp').2 hk
    exact hne (by rw [hname, (hpairs p hp p' hp').2 hsuffix])

/-- An average is written in place of its sum. -/
theorem average_mem (hcall : item.expr.call = "avg") :
    selectName lib item ∈ finalizeAggregates fl order values := by
  refine accumulated_mem hacc hfields horder hcomp hitem mem_cons_self (writtenKeys_average hcall)
    fun v hv values' hget => ?_
  have hcount :=
    hacc.count _ (fun other hother => hcomp.separated other hother item hitem _ (by decide)) v hv
  rw [finalizeKey, beforeSuffix_eq_some.mpr rfl]
  dsimp only
  rw [hget, if_pos (by omega), mem_erase, mem_erase, mem_insert]
  exact ⟨ne_append_suffix (by decide), ne_append_suffix (by decide), .inl rfl⟩

/-- A percentile is written in place of its values. -/
theorem percentile_mem (hcall : item.expr.call = "p50" ∨ item.expr.call = "p95") :
    selectName lib item ∈ finalizeAggregates fl order values := by
  refine accumulated_mem hacc hfields horder hcomp hitem (mem_cons_of_mem _ mem_cons_self)
    (writtenKeys_percentile hcall) fun v hv values' hget => mem_finalizeKey_values ?_
  rw [hget]
  exact hacc.agg _ (fun other hother => hcomp.separated other hother item hitem _ (by decide)) v hv

end

/-- **Under the condition, the row of a group has all its columns**, in whatever order the pass
goes. -/
theorem computed_of_computable : Computed lib items (finalizeAggregates fl order values) := by
  intro item hitem
  refine ⟨?_, fun suffix hsuffix => accumulator_notMem hacc hfields horder hcomp hitem hsuffix⟩
  have hkeep : selectName lib item ∈ values →
      selectName lib item ∈ finalizeAggregates fl order values :=
    mem_pass_of_mem fun key hkey => not_removes_selectName hacc hfields horder hcomp hitem hkey
  rcases hcomp.computed item hitem with hfield | ⟨other, hother, hknown, hname⟩
  · exact hkeep ((hacc.mem _).mpr (.inl hfield))
  rw [knownCalls, mem_append] at hknown
  simp only [mem_cons, not_mem_nil, or_false] at hknown
  rcases hknown with hdirect | havg | hpercentile
  · refine hkeep ((hacc.mem _).mpr (.inr ⟨other, hother, ?_⟩))
    rw [writtenKeys_direct hdirect, hname]
    exact mem_cons_self
  · exact hname ▸ average_mem hacc hfields horder hcomp hother havg
  · exact hname ▸ percentile_mem hacc hfields horder hcomp hother hpercentile

end Group

/-! ## The condition is needed -/

variable {items : List SelectItem} {fields : List String}

/-- The order that comes to a key last. -/
def lastOrder (key : String) (keys : List String) : List String :=
  keys.filter (· ≠ key) ++ keys.filter (· = key)

theorem perm_lastOrder (key : String) (keys : List String) : (lastOrder key keys).Perm keys := by
  have h := filter_append_perm (fun k => decide (k ≠ key)) keys
  have hnot : (fun k : String => !decide (k ≠ key)) = fun k => decide (k = key) := by
    funext k
    simp
  rw [hnot] at h
  exact h

theorem finalizeAggregates_lastOrder (hkey : key ∈ values) :
    finalizeAggregates fl (lastOrder key) values =
      finalizeKey fl ((values.keys.filter (· ≠ key)).foldl (finalizeKey fl) values) key := by
  have hnodup : (keys values).Nodup := values.nodupKeys
  have hlast : values.keys.filter (· = key) = [key] := by
    rw [filter_eq, count_eq_one_of_mem hnodup (mem_keys.mp hkey)]
    rfl
  rw [finalizeAggregates, lastOrder, hlast, foldl_append]
  rfl

/-- A value that looks like an accumulator is deleted when the pass comes to it last. -/
theorem plain_of_computed (hacc : Accumulated fl lib fields items values) (hitem : item ∈ items)
    (hcall : item.expr.call ∈ directCalls)
    (h : Computed lib items (finalizeAggregates fl (lastOrder (selectName lib item)) values)) :
    beforeSuffix ".__sum" (selectName lib item) = none ∧
      beforeSuffix ".__values" (selectName lib item) = none := by
  have hmem : selectName lib item ∈ values := by
    refine (hacc.mem _).mpr (.inr ⟨item, hitem, ?_⟩)
    rw [writtenKeys_direct hcall]
    exact mem_cons_self
  have hremove : ¬ Removes (selectName lib item) (selectName lib item) := by
    intro hremove
    have hrow := (h item hitem).1
    rw [finalizeAggregates_lastOrder hmem] at hrow
    exact notMem_finalizeKey hremove hrow
  rw [beforeSuffix_eq_none, beforeSuffix_eq_none]
  exact ⟨fun name hname => hremove (.inl ⟨name, hname, .inl rfl⟩),
    fun name hname => hremove (.inr ⟨name, hname, .inl rfl⟩)⟩

/-- **The condition is needed**: it holds if, whatever key the pass comes to last, the row of some
group has all its columns. -/
theorem computable_of_computed (hfields : PlainFields fields)
    (h : ∀ key, ∃ values : TableRow F, Accumulated fl lib fields items values ∧
      Computed lib items (finalizeAggregates fl (lastOrder key) values)) :
    Computable lib fields items := by
  obtain ⟨values, hacc, hcomputed⟩ := h ""
  have hsep : ∀ item ∈ items, ∀ other ∈ items, ∀ suffix ∈ accumulatorSuffixes,
      selectName lib item ≠
        selectName lib other ++ suffix := fun item hitem other hother suffix hsuffix heq =>
    (hcomputed other hother).2 suffix hsuffix (heq ▸ (hcomputed item hitem).1)
  have hplain : ∀ item ∈ items, item.expr.call ∈ directCalls →
      beforeSuffix ".__sum" (selectName lib item) = none ∧
        beforeSuffix ".__values" (selectName lib item) = none := by
    intro item hitem hcall
    obtain ⟨values', hacc', hcomputed'⟩ := h (selectName lib item)
    exact plain_of_computed hacc' hitem hcall hcomputed'
  refine ⟨fun item hitem => ?_, hsep, hplain⟩
  rcases mem_of_mem_pass (hcomputed item hitem).1 with hmem | ⟨key, hkey, hset⟩
  · rcases (hacc.keyOf hmem).split with hfield | ⟨other, hother, hcall, hname⟩ |
      ⟨other, hother, -, -, -, -, suffix, hsuffix, -, hname⟩
    · exact .inl hfield
    · exact .inr ⟨other, hother, mem_append_left _ hcall, hname.symm⟩
    · exact absurd hname (hsep item hitem other hother suffix hsuffix)
  · have hkey' : key ∈ values := mem_keys.mp ((perm_lastOrder "" values.keys).mem_iff.mp hkey)
    exact .inr ((hacc.keyOf hkey').of_sets hfields hplain hset)

/-! ## Accepted queries -/

/-- The fields that a query is grouped by. -/
def groupFields (lib : GoLib) (q : Query) : List String :=
  q.groupBy.map fun e => lib.canonical e.field

/-- The names of the catalogue have no suffix of an accumulator. -/
theorem plainFields_catalogNames (dataset : String) : PlainFields (catalogNames dataset) := by
  have hplain : ∀ d ∈ allDatasets, ∀ field ∈ catalogNames d, ∀ suffix ∈ accumulatorSuffixes,
      beforeSuffix suffix field = none := by decide +kernel
  intro field hfield suffix hsuffix
  refine beforeSuffix_eq_none.mp (hplain dataset ?_ field hfield suffix hsuffix)
  unfold catalogNames datasetCatalog at hfield
  split at hfield
  · decide
  · decide
  · decide
  · decide
  · exact absurd hfield not_mem_nil

/-- An expression that may stand in `group_by` is a field of the catalogue. -/
theorem lookupField_of_validateGroupBy {dataset : String} {i : ℕ} {expr : Expression}
    (h : (validateGroupBy lib dataset i expr).1 = []) :
    (lookupField lib dataset expr.field).isSome = true := by
  obtain ⟨field, call, args, aliasName⟩ := expr
  rw [validateGroupBy] at h
  split at h
  · exact absurd h (append_ne_nil_of_right_ne_nil _ (cons_ne_nil _ _))
  next haggregate =>
    have herrs := (append_eq_nil_iff.mp h).1
    rw [validateExpression] at herrs haggregate
    dsimp only at herrs haggregate
    split at herrs
    · exact absurd herrs (cons_ne_nil _ _)
    next hone =>
      rw [if_neg hone] at haggregate
      split at herrs
      · exact absurd herrs (cons_ne_nil _ _)
      next halias =>
        rw [if_neg halias] at haggregate
        split at herrs
        next hfield =>
          show (lookupField lib dataset field).isSome = true
          rcases hlookup : lookupField lib dataset field with _ | spec
          · rw [hlookup] at herrs
            exact absurd herrs (cons_ne_nil _ _)
          · rfl
        next hfield =>
          rw [if_neg hfield] at haggregate
          refine absurd ?_ haggregate
          split
          · rfl
          · split
            · rfl
            · split <;> rfl

section Accepted

variable {q₀ q : Query} {cost : CostEstimate} (h : validateQuery lib q₀ = .ok (q, cost))

include h

theorem plainFields_groupFields : PlainFields (groupFields lib q) := by
  obtain ⟨-, -, herrs⟩ := (validateQuery_eq_ok lib).mp h
  simp only [validationErrors, validateSelection, append_eq_nil_iff] at herrs
  have hgroupBy := herrs.1.1.1.1.2.1.1.1.1
  intro field hfield
  obtain ⟨expr, hexpr, rfl⟩ := mem_map.mp hfield
  obtain ⟨i, hi, rfl⟩ := mem_iff_getElem.mp hexpr
  refine plainFields_catalogNames q.dataset _ (canonical_mem_catalogNames ?_)
  refine lookupField_of_validateGroupBy (i := i) ?_
  rw [flatMap_eq_nil_iff] at hgroupBy
  refine hgroupBy _ (mem_map.mpr ⟨(q.groupBy[i], i), ?_, rfl⟩)
  exact mk_mem_zipIdx_iff_getElem?.mpr (getElem?_eq_getElem hi)

theorem one_le_limit : 1 ≤ q.limit := by
  obtain ⟨hq, -, -⟩ := (validateQuery_eq_ok lib).mp h
  have hlimit : q.limit = if (normalizeQuery lib q₀).limit ≤ 0 then 50
      else (normalizeQuery lib q₀).limit := by
    rw [hq]
    rfl
  rw [hlimit]
  split <;> omega

/-- A query with a rollup is not grouped. -/
theorem groupFields_of_rollup {r : Rollup} (hr : q.rollup = some r) : groupFields lib q = [] := by
  obtain ⟨-, -, herrs⟩ := (validateQuery_eq_ok lib).mp h
  simp only [validationErrors, append_eq_nil_iff] at herrs
  have hrollup := herrs.1.2
  rw [hr, Option.elim_some, append_eq_nil_iff] at hrollup
  have hnil : q.groupBy = [] := by
    by_contra hne
    rw [if_pos hne] at hrollup
    exact absurd hrollup.2 (cons_ne_nil _ _)
  rw [groupFields, hnil, map_nil]

end Accepted

/-! ## Tables and series -/

variable {row : TableRow F} {q q₀ : Query} {items : List SelectItem} {orderBy : List OrderBy}
  {order : MapOrder}

theorem mem_groupRow {groupBy : List Expression} :
    k ∈ groupRow lib groupBy row ↔ k ∈ groupBy.map fun e => lib.canonical e.field := by
  rw [groupRow]
  induction groupBy using reverseRecOn with
  | nil => simp [notMem_empty]
  | append_singleton groupBy expr ih =>
    rw [foldl_append, foldl_cons, foldl_nil, mem_insert, ih, map_append,
      mem_append, map_singleton, mem_singleton, or_comm]

/-- Values with no accumulators are marked. -/
theorem marked_of_plain {fields : List String} (hfields : PlainFields fields)
    (hmem : ∀ k, k ∈ values ↔ k ∈ fields) : Marked fl lib items values := by
  have hnone : ∀ suffix ∈ accumulatorSuffixes, ∀ name v,
      values.lookup (name ++ suffix) ≠ some v := by
    intro suffix hsuffix name v hv
    have hk : name ++ suffix ∈ values := lookup_isSome.mp (by rw [hv]; rfl)
    exact hfields _ ((hmem _).mp hk) suffix hsuffix name rfl
  exact ⟨fun name _ v hv => absurd hv (hnone _ (by decide) name v),
    fun name _ v hv => absurd hv (hnone _ (by decide) name v)⟩

variable {rows : List (TableRow F)} {cost : CostEstimate}

/-- The groups of a table are accumulated. -/
theorem accumulated_of_mem_groups (h : validateQuery lib q₀ = .ok (q, cost))
    {g : String × TableRow F}
    (hg : g ∈ Grouped.groups (aggregateKey fl lib q.groupBy) (groupRow lib q.groupBy)
      (applyAggregates fl lib q.select) rows) :
    Accumulated fl lib (groupFields lib q) q.select g.2 := by
  obtain ⟨first, rest, -, hfold⟩ := Grouped.mem_groups hg
  rw [hfold]
  have hmem : ∀ k, k ∈ groupRow lib q.groupBy first ↔ k ∈ groupFields lib q := fun k => mem_groupRow
  exact accumulated_foldl hmem (marked_of_plain (plainFields_groupFields h) hmem) first rest

/-- The buckets of a series are accumulated, with no fields. -/
theorem accumulated_of_mem_buckets {key : ℤ × TableRow F → ℤ} {rows : List (ℤ × TableRow F)}
    {g : ℤ × TableRow F} (hg : g ∈ Grouped.groups key (fun _ => ∅)
      (fun values r => applyAggregates fl lib items values r.2) rows) :
    Accumulated fl lib [] items g.2 := by
  obtain ⟨first, rest, -, hfold⟩ := Grouped.mem_groups hg
  have hmem : ∀ k, k ∈ (∅ : TableRow F) ↔ k ∈ ([] : List String) := fun k =>
    iff_of_false (notMem_empty k) not_mem_nil
  have hplain : PlainFields [] := fun field hfield => absurd hfield not_mem_nil
  rw [hfold, ← foldl_map (f := fun r : ℤ × TableRow F => r.2) (g := applyAggregates fl lib items)]
  exact accumulated_foldl hmem (marked_of_plain hplain hmem) first.2 (rest.map (·.2))

theorem mem_sortAggregatedRows : row ∈ sortAggregatedRows fl lib orderBy rows ↔ row ∈ rows := by
  rw [sortAggregatedRows]
  split
  · rfl
  · exact mem_mergeSort

theorem sortAggregatedRows_eq_nil : sortAggregatedRows fl lib orderBy rows = [] ↔ rows = [] := by
  simp only [eq_nil_iff_forall_not_mem, mem_sortAggregatedRows]

/-- The rows of an aggregate table are finished groups. -/
theorem mem_aggregateTable (h : row ∈ (aggregateTable fl lib order q cost rows).rows) :
    ∃ g ∈ Grouped.groups (aggregateKey fl lib q.groupBy) (groupRow lib q.groupBy)
      (applyAggregates fl lib q.select) rows, ∃ i,
        row = finalizeAggregates fl (order.order i) g.2 := by
  rw [aggregateTable] at h
  obtain ⟨⟨g, i⟩, hg, rfl⟩ := mem_map.mp (mem_sortAggregatedRows.mp (mem_of_mem_take h))
  exact ⟨g, fst_mem_of_mem_zipIdx hg, i, rfl⟩

/-- The same order for every map. -/
def MapOrder.last (key : String) : MapOrder := ⟨fun _ => lastOrder key, fun _ => perm_lastOrder key⟩

/-- The points of a series are finished buckets. -/
theorem mem_buildSeriesResult {result : SeriesResult F}
    (h : buildSeriesResult fl lib order q cost rows = .ok result) {point : SeriesPoint F}
    (hpoint : point ∈ result.points) :
    ∃ r, q.rollup = some r ∧ ∃ values, Accumulated fl lib [] q.select values ∧
      ∃ i, point.values = finalizeAggregates fl (order.order i) values := by
  unfold buildSeriesResult at h
  split at h
  · cases h
  next r hr =>
    split at h
    · cases h
    · dsimp only at h
      split at h
      · cases h
      · rw [Except.ok.injEq] at h
        rw [← h] at hpoint
        obtain ⟨⟨g, i⟩, hg, rfl⟩ := mem_map.mp hpoint
        have hg' := (mem_insertionSort _).mp (fst_mem_of_mem_zipIdx hg)
        exact ⟨r, hr, g.2, accumulated_of_mem_buckets hg', i, rfl⟩

/-- **When every accepted aggregate is computed.** For an accepted query with aggregates and fetched
rows, all the rows of the table and all the points of the series have all their columns, in whatever
order the keys of the maps come, exactly when the condition on the selection holds. -/
theorem aggregates_computed_iff {q₀ q : Query} {cost : CostEstimate}
    (h : validateQuery lib q₀ = .ok (q, cost)) (hagg : usesAggregate q = true)
    {rows : List (TableRow F)} (hrows : rows ≠ []) :
    (∀ order : MapOrder,
      (∀ row ∈ (buildTableResult fl lib order q cost rows).rows, Computed lib q.select row) ∧
      ∀ result, buildSeriesResult fl lib order q cost rows = .ok result →
        ∀ point ∈ result.points, Computed lib q.select point.values) ↔
    Computable lib (groupFields lib q) q.select := by
  have htable : ∀ order : MapOrder,
      buildTableResult fl lib order q cost rows =
        aggregateTable fl lib order q cost rows := fun order =>
    if_pos (.inl hagg)
  constructor
  · intro hall
    have hsome : ∀ key, ∃ values : TableRow F,
      Accumulated fl lib (groupFields lib q) q.select values ∧
        Computed lib q.select (finalizeAggregates fl (lastOrder key) values) := by
      intro key
      obtain ⟨row, hrow⟩ : ∃ row, row ∈ (aggregateTable fl lib (.last key) q cost rows).rows := by
        refine exists_mem_of_ne_nil _ ?_
        rw [aggregateTable, ne_eq, take_eq_nil_iff, not_or]
        constructor
        · have hlimit := one_le_limit h
          omega
        · rw [sortAggregatedRows_eq_nil, map_eq_nil_iff, zipIdx_eq_nil_iff]
          exact Grouped.groups_ne_nil hrows
      obtain ⟨g, hg, i, heq⟩ := mem_aggregateTable hrow
      have hcomputed := (hall (.last key)).1 row (by rw [htable]; exact hrow)
      exact ⟨g.2, accumulated_of_mem_groups h hg, heq ▸ hcomputed⟩
    exact computable_of_computed (plainFields_groupFields h) hsome
  · intro hcomp order
    constructor
    · intro row hrow
      rw [htable] at hrow
      obtain ⟨g, hg, i, rfl⟩ := mem_aggregateTable hrow
      exact computed_of_computable (accumulated_of_mem_groups h hg) (plainFields_groupFields h)
        (order.perm i _) hcomp
    · intro result hresult point hpoint
      obtain ⟨r, hr, values, hacc, i, hvalues⟩ := mem_buildSeriesResult hresult hpoint
      rw [groupFields_of_rollup h hr] at hcomp
      rw [hvalues]
      exact computed_of_computable hacc (fun field hfield => absurd hfield not_mem_nil)
        (order.perm i _) hcomp

end Keys

/-! ## Two aggregates of durations -/

/-- Exact numbers in place of `float64`. -/
def ratLib : FloatLib ℚ where
  ofInt n := n
  toInt x := x.num.tdiv x.den
  parse _ := 0
  add x y := x + y
  div x y := x / y
  lt x y := decide (x < y)
  sort xs := xs.insertionSort (· ≤ ·)
  rank n q := match q with
    | .p50 => (n + 1) / 2
    | .p95 => (95 * n + 99) / 100
  sprint _ := ""
  seconds d := d.toInt.tdiv (10 ^ 9)

/-- An aggregate of the durations of the transactions of a project. -/
def durations (call : String) : Query where
  version := 1
  dataset := "transactions"
  scope := { kind := "project", projectId := "p1" }
  select := [{ expr := .mk "" call [.mk "duration.ms" "" [] ""] "" }]

/-- A transaction, as far as the aggregates read it. -/
def oneTransaction : TableRow ℚ := (∅ : TableRow ℚ).insert "duration.ms" (.float 5)

/-- The average is computed. -/
theorem average_computed : usesAggregate (preparedQuery asciiLib (durations "avg")) = true ∧
    ∀ order : MapOrder,
    (∀ row ∈ (buildTableResult ratLib asciiLib order (preparedQuery asciiLib (durations "avg"))
      (estimateCost (preparedQuery asciiLib (durations "avg"))) [oneTransaction]).rows,
      Computed asciiLib (preparedQuery asciiLib (durations "avg")).select row) ∧
    ∀ result, buildSeriesResult ratLib asciiLib order (preparedQuery asciiLib (durations "avg"))
      (estimateCost (preparedQuery asciiLib (durations "avg"))) [oneTransaction] = .ok result →
      ∀ point ∈ result.points,
        Computed asciiLib (preparedQuery asciiLib (durations "avg")).select point.values :=
  ⟨by decide +kernel,
    (aggregates_computed_iff ((validateQuery_eq_ok asciiLib).mpr ⟨rfl, rfl, by decide +kernel⟩)
      (by decide +kernel) (cons_ne_nil _ _)).mpr
        ⟨by decide +kernel, by decide +kernel, by decide +kernel⟩⟩

/-- **The sum is accepted, and the table has no column for it.** -/
theorem sum_not_computed :
    ∃ q cost, validateQuery asciiLib (durations "sum") = .ok (q, cost) ∧ usesAggregate q = true ∧
      q.select.map (selectName asciiLib) = ["sum"] ∧
      ∃ row ∈ (buildTableResult ratLib asciiLib (.last "") q cost [oneTransaction]).rows,
        row.lookup "sum" = none := by
  refine ⟨_, _, (validateQuery_eq_ok asciiLib).mpr ⟨rfl, rfl, by decide +kernel⟩, by decide +kernel,
    by decide +kernel, ?_⟩
  decide +kernel

end Urgentry.Discover
