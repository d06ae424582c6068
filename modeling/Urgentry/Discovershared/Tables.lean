import Urgentry.Internal.Terminated
import Urgentry.Discovershared.Counts

/-!
# The rows of a table

The groups of a table are found by a text: `aggregateKey` writes the values of the `group_by` fields
with `%v` and joins them with U+001F. A value may hold that character, since most fields are what a
client has sent. So the text determines the *parts* of the values only, the pieces between the
separators, and rows with different values but the same parts are added up in one row, which shows
the values of the first of them.

The table has as many rows as there are texts. When it has a row for each tuple of values, there are
as many texts as tuples, so no two tuples have the same text: the number of rows alone tells whether
the groups are right.

A table without aggregates is a projection. `projectRow` reads the row at the name of the column,
and the name of a column is the alias when there is one.

## Main results

* `aggregateKey_inj`: when two rows have the same text;
* `exists_keys_of_aggregateTable`: what a table is;
* `grouping_exact_iff`: when the groups are those of the values, and when the counts say so;
* `projection_iff`: when a projected row has the values of the selected fields.
-/

namespace Urgentry.Discover

open List GoText

/-! ## The text of a group -/

section Groups

variable {F : Type} {fl : FloatLib F} {lib : GoLib} {order : MapOrder} {q : Query}
  {cost : CostEstimate}
  {rows : List (TableRow F)} {name : String} {row : TableRow F} {keys : List String}

/-- The values that a row is grouped by. -/
def groupTuple (lib : GoLib) (q : Query) (row : TableRow F) : List (Value F) :=
  (groupFields lib q).map (get row)

/-- The parts of values: the pieces of their texts between the separators. -/
def tupleParts (fl : FloatLib F) (values : List (Value F)) : List (List Char) :=
  Terminated.parts '\x1f' (values.map fun v => (fl.sprint v).toList)

/-- The text of values. -/
def tupleKey (fl : FloatLib F) (values : List (Value F)) : String :=
  "\x1f".intercalate (values.map fl.sprint)

theorem aggregateKey_eq (hgroup : q.groupBy ≠ []) (row : TableRow F) :
    aggregateKey fl lib q.groupBy row = tupleKey fl (groupTuple lib q row) := by
  rw [aggregateKey, if_neg hgroup, tupleKey, groupTuple, groupFields, map_map, map_map]
  rfl

theorem tupleKey_inj {s t : List (Value F)} (hs : s ≠ []) (ht : t ≠ []) :
    tupleKey fl s = tupleKey fl t ↔ tupleParts fl s = tupleParts fl t := by
  have hne : ∀ {u : List (Value F)},
      u ≠ [] → (u.map fun v => (fl.sprint v).toList) ≠ [] := fun hu =>
    fun h => hu (map_eq_nil_iff.mp h)
  rw [tupleParts, tupleParts, ← Terminated.intercalate_inj (hne hs) (hne ht),
    ← String.toList_inj, tupleKey,
    tupleKey, String.toList_intercalate, String.toList_intercalate, map_map, map_map]
  rfl

theorem groupTuple_ne_nil (hgroup : q.groupBy ≠ []) (row : TableRow F) :
    groupTuple lib q row ≠ [] := fun h =>
  hgroup (map_eq_nil_iff.mp (map_eq_nil_iff.mp h))

/-- **When two rows have the same text**: their values have the same parts. -/
theorem aggregateKey_inj (hgroup : q.groupBy ≠ []) {a b : TableRow F} :
    aggregateKey fl lib q.groupBy a = aggregateKey fl lib q.groupBy b ↔
      tupleParts fl (groupTuple lib q a) = tupleParts fl (groupTuple lib q b) := by
  rw [aggregateKey_eq hgroup, aggregateKey_eq hgroup,
    tupleKey_inj (groupTuple_ne_nil hgroup a) (groupTuple_ne_nil hgroup b)]

/-- **The condition on the rows**: the parts of the values determine the values. -/
def Separable (fl : FloatLib F) (lib : GoLib) (q : Query) (rows : List (TableRow F)) : Prop :=
  ∀ a ∈ rows, ∀ b ∈ rows, tupleParts fl (groupTuple lib q a) = tupleParts fl (groupTuple lib q b) →
    groupTuple lib q a = groupTuple lib q b

/-- Strings without the separator are separable. -/
theorem separable_of_texts (hsprint : ∀ s, fl.sprint (.text s) = s)
    (htexts : ∀ row ∈ rows, ∀ v ∈ groupTuple lib q row, ∃ s, v = .text s ∧ '\x1f' ∉ s.toList) :
    Separable fl lib q rows := by
  have hread : ∀ row ∈ rows,
      (tupleParts fl (groupTuple lib q row)).map (fun cs => .text (String.ofList cs)) =
        groupTuple lib q row := by
    intro row hrow
    rw [tupleParts, Terminated.parts_of_not_mem, map_map]
    · refine (map_congr_left fun v hv => ?_).trans (map_id _)
      obtain ⟨s, rfl, -⟩ := htexts row hrow v hv
      show Value.text (String.ofList (fl.sprint (.text s)).toList) = .text s
      rw [hsprint, String.ofList_toList]
    · intro text htext
      obtain ⟨v, hv, rfl⟩ := mem_map.mp htext
      obtain ⟨s, rfl, hs⟩ := htexts row hrow v hv
      rwa [hsprint]
  intro a ha b hb hparts
  rw [← hread a ha, hparts, hread b hb]

/-! ## What a table is -/

/-- A row of the table is the group of a text, finished. -/
def FinishedGroup (fl : FloatLib F) (lib : GoLib) (order : MapOrder) (q : Query)
    (rows : List (TableRow F)) (row : TableRow F) (key : String) : Prop :=
  ∃ (i : ℕ) (first : TableRow F) (rest : List (TableRow F)),
    rows.filter (fun r => aggregateKey fl lib q.groupBy r = key) = first :: rest ∧
    row = finalizeAggregates fl (order.order i)
      ((first :: rest).foldl (applyAggregates fl lib q.select) (groupRow lib q.groupBy first))

theorem perm_sortAggregatedRows (fl : FloatLib F) (lib : GoLib) (orderBy : List OrderBy)
    (rows : List (TableRow F)) : (sortAggregatedRows fl lib orderBy rows).Perm rows := by
  rw [sortAggregatedRows]
  split
  · exact List.Perm.refl _
  · exact mergeSort_perm _ _

/-- **What a table is**, when its groups are within the limit: a row for each text, in some
order. -/
theorem exists_keys_of_aggregateTable (fl : FloatLib F) (lib : GoLib) (order : MapOrder)
    (cost : CostEstimate)
    (hlimit : (rows.map (aggregateKey fl lib q.groupBy)).dedup.length ≤ q.limit) :
    ∃ keys : List String,
      keys.Nodup ∧ (∀ k, k ∈ keys ↔ k ∈ rows.map (aggregateKey fl lib q.groupBy)) ∧
      List.Forall₂ (FinishedGroup fl lib order q rows)
        (aggregateTable fl lib order q cost rows).rows keys := by
  let groups := Grouped.groups (aggregateKey fl lib q.groupBy) (groupRow lib q.groupBy)
    (applyAggregates fl lib q.select) rows
  let items := groups.zipIdx.map fun g => finalizeAggregates fl (order.order g.2) g.1.2
  have hnodup : (groups.map Prod.fst).Nodup := Grouped.nodup_keys rows
  have hmem : ∀ k, k ∈ groups.map Prod.fst ↔
      k ∈ rows.map (aggregateKey fl lib q.groupBy) := fun k =>
    Grouped.mem_keys
  have hitems : Forall₂ (FinishedGroup fl lib order q rows) items (groups.map Prod.fst) := by
    have hfst : groups.map Prod.fst = groups.zipIdx.map fun g => g.1.1 := by
      conv_lhs => rw [← zipIdx_map_fst 0 groups, map_map]
      rfl
    rw [hfst, forall₂_map_left_iff, forall₂_map_right_iff, forall₂_same]
    rintro ⟨g, i⟩ hg
    obtain ⟨first, rest, hfilter, hfold⟩ := Grouped.mem_groups (fst_mem_of_mem_zipIdx hg)
    exact ⟨i, first, rest, hfilter, congrArg (finalizeAggregates fl (order.order i)) hfold⟩
  have hlength : (sortAggregatedRows fl lib q.orderBy items).length ≤ q.limit.toNat := by
    have hperm : (groups.map Prod.fst).Perm (rows.map (aggregateKey fl lib q.groupBy)).dedup :=
      (perm_ext_iff_of_nodup hnodup (nodup_dedup _)).mpr fun k => by rw [hmem, mem_dedup]
    rw [(perm_sortAggregatedRows _ _ _ _).length_eq, hitems.length_eq, hperm.length_eq]
    omega
  obtain ⟨keys, hkeys, hperm⟩ :=
    perm_comp_forall₂ (perm_sortAggregatedRows fl lib q.orderBy items) hitems
  refine ⟨keys, hperm.nodup_iff.mpr hnodup, fun k => by rw [hperm.mem_iff, hmem], ?_⟩
  show Forall₂ _ ((sortAggregatedRows fl lib q.orderBy items).take q.limit.toNat) keys
  rwa [take_of_length_le hlength]

/-! ## Counts -/

/-- The count of a group starts from what the group has under its name. -/
theorem storedCount_groupRow (hvalues : ∀ v ∈ groupTuple lib q row, storedCount v = 0)
    (name : String) :
    storedCount (get (groupRow lib q.groupBy row) name) = 0 := by
  rw [groupTuple, groupFields, map_map] at hvalues
  rw [groupRow]
  generalize q.groupBy = groupBy at hvalues
  induction groupBy using reverseRecOn with
  | nil => rfl
  | append_singleton groupBy e ih =>
    rw [map_append, forall_mem_append] at hvalues
    rw [foldl_append, foldl_cons, foldl_nil]
    by_cases hname : name = lib.canonical e.field
    · rw [hname, get, AList.lookup_insert]
      exact hvalues.2 _ mem_cons_self
    · rw [get_insert_of_ne hname]
      exact ih hvalues.1

variable [DecidableEq F]

/-- The fetched rows with a tuple. -/
def tupleRows (lib : GoLib) (q : Query) (rows : List (TableRow F)) (t : List (Value F)) :
    List (TableRow F) :=
  rows.filter fun r => groupTuple lib q r = t

/-- **The rows of the table are those of the tuples**: there is one for each, which is accumulated
over the fetched rows with the tuple; its count is their number, and the counts add up to the number
of fetched rows. -/
def CountedTable (fl : FloatLib F) (lib : GoLib) (order : MapOrder) (q : Query)
    (rows : List (TableRow F)) (name : String) (result : List (TableRow F)) : Prop :=
  (∃ tuples : List (List (Value F)), tuples.Nodup ∧
    (∀ t, t ∈ tuples ↔ t ∈ rows.map (groupTuple lib q)) ∧
    List.Forall₂ (fun row t => (∃ i first, (tupleRows lib q rows t).head? = some first ∧
        row = finalizeAggregates fl (order.order i)
          ((tupleRows lib q rows t).foldl (applyAggregates fl lib q.select)
            (groupRow lib q.groupBy first))) ∧
      get row name = .int64 (tupleRows lib q rows t).length) result tuples) ∧
  (result.map fun row => storedCount (get row name)).sum = rows.length

/-- The count of every tuple is shown. -/
def TuplesShown (fl : FloatLib F) (lib : GoLib) (q : Query) (rows : List (TableRow F))
    (name : String) : Prop :=
  ∀ row ∈ rows, ∀ first, (tupleRows lib q rows (groupTuple lib q row)).head? = some first →
    CountShown fl lib q.select name (groupRow lib q.groupBy first)
      (tupleRows lib q rows (groupTuple lib q row))

/-- A text for each tuple: there are no more texts than tuples. -/
theorem length_keys_le (hgroup : q.groupBy ≠ []) :
    (rows.map (aggregateKey fl lib q.groupBy)).dedup.length ≤
      (rows.map (groupTuple lib q)).dedup.length := by
  have hsub : (rows.map (aggregateKey fl lib q.groupBy)).dedup ⊆
      (rows.map (groupTuple lib q)).dedup.map (tupleKey fl) := by
    intro k hk
    obtain ⟨row, hrow, rfl⟩ := mem_map.mp (mem_dedup.mp hk)
    rw [aggregateKey_eq hgroup]
    exact mem_map_of_mem (mem_dedup.mpr (mem_map_of_mem hrow))
  have hlength := ((nodup_dedup _).subperm hsub).length_le
  rwa [length_map] at hlength

omit [DecidableEq F] in
/-- **As many rows as tuples**: then no two tuples have the same text. -/
theorem separable_of_length (hgroup : q.groupBy ≠ []) (hnodup : keys.Nodup)
    (hkeys : ∀ k, k ∈ keys ↔ k ∈ rows.map (aggregateKey fl lib q.groupBy))
    {tuples : List (List (Value F))} (htuples : ∀ t, t ∈ tuples ↔ t ∈ rows.map (groupTuple lib q))
    (hlength : tuples.length = keys.length) : Separable fl lib q rows := by
  have hsub : keys ⊆ tuples.map (tupleKey fl) := by
    intro k hk
    obtain ⟨row, hrow, rfl⟩ := mem_map.mp ((hkeys k).mp hk)
    rw [aggregateKey_eq hgroup]
    exact mem_map_of_mem ((htuples _).mpr (mem_map_of_mem hrow))
  have hperm : keys.Perm (tuples.map (tupleKey fl)) :=
    (hnodup.subperm hsub).perm_of_length_le (by rw [length_map, hlength])
  have hinj := inj_on_of_nodup_map (hperm.nodup_iff.mp hnodup)
  intro a ha b hb hparts
  refine hinj ((htuples _).mpr (mem_map_of_mem ha)) ((htuples _).mpr (mem_map_of_mem hb)) ?_
  exact (tupleKey_inj (groupTuple_ne_nil hgroup a) (groupTuple_ne_nil hgroup b)).mpr hparts

/-- **A tuple for each row**, when the values are separable. -/
theorem exists_tuples (hgroup : q.groupBy ≠ []) (hseparable : Separable fl lib q rows)
    (hnodup : keys.Nodup) (hkeys : ∀ k, k ∈ keys ↔ k ∈ rows.map (aggregateKey fl lib q.groupBy)) :
    ∃ tuples : List (List (Value F)), tuples.Nodup ∧
      (∀ t, t ∈ tuples ↔ t ∈ rows.map (groupTuple lib q)) ∧
      keys = tuples.map (tupleKey fl) := by
  have hinj : ∀ s ∈ (rows.map (groupTuple lib q)).dedup, ∀ t ∈ (rows.map (groupTuple lib q)).dedup,
      tupleKey fl s = tupleKey fl t → s = t := by
    intro s hs t ht heq
    obtain ⟨a, ha, rfl⟩ := mem_map.mp (mem_dedup.mp hs)
    obtain ⟨b, hb, rfl⟩ := mem_map.mp (mem_dedup.mp ht)
    exact hseparable a ha b hb
      ((tupleKey_inj (groupTuple_ne_nil hgroup a) (groupTuple_ne_nil hgroup b)).mp heq)
  have hperm : keys.Perm ((rows.map (groupTuple lib q)).dedup.map (tupleKey fl)) := by
    refine (perm_ext_iff_of_nodup hnodup ((nodup_dedup _).map_on hinj)).mpr fun k => ?_
    simp only [hkeys, mem_map, mem_dedup, aggregateKey_eq hgroup, exists_exists_and_eq_and]
  obtain ⟨tuples, rfl, htuples⟩ := (congrFun₂ (eq_map_comp_perm (tupleKey fl)) keys _).mpr hperm
  exact ⟨tuples, htuples.nodup_iff.mpr (nodup_dedup _),
    fun t => by rw [htuples.mem_iff, mem_dedup], rfl⟩

/-- The rows with the text of a tuple are those with the tuple, when the values are separable. -/
theorem filter_tupleKey (hgroup : q.groupBy ≠ []) (hseparable : Separable fl lib q rows)
    (hrow : row ∈ rows) :
    (rows.filter fun r => aggregateKey fl lib q.groupBy r = tupleKey fl (groupTuple lib q row)) =
      tupleRows lib q rows (groupTuple lib q row) := by
  refine filter_congr fun r hr => decide_eq_decide.mpr ?_
  rw [← aggregateKey_eq hgroup, aggregateKey_inj hgroup]
  exact ⟨hseparable r hr row hrow, congrArg (tupleParts fl)⟩

/-- **The counts are those of the tuples**, when the values are separable and the counts are
shown. -/
theorem countedTable_of_shown (hgroup : q.groupBy ≠ []) (hseparable : Separable fl lib q rows)
    (hshown : TuplesShown fl lib q rows name) {result : List (TableRow F)} (hnodup : keys.Nodup)
    (hkeys : ∀ k, k ∈ keys ↔ k ∈ rows.map (aggregateKey fl lib q.groupBy))
    (hresult : List.Forall₂ (FinishedGroup fl lib order q rows) result keys) :
    CountedTable fl lib order q rows name result := by
  obtain ⟨tuples, htuples, hmem, rfl⟩ := exists_tuples hgroup hseparable hnodup hkeys
  rw [forall₂_map_right_iff] at hresult
  have hrows : Forall₂ (fun row t => (∃ i first, (tupleRows lib q rows t).head? = some first ∧
      row = finalizeAggregates fl (order.order i)
        ((tupleRows lib q rows t).foldl (applyAggregates fl lib q.select)
          (groupRow lib q.groupBy first))) ∧
      get row name = .int64 (tupleRows lib q rows t).length) result tuples := by
    refine forall₂_iff_zip.mpr ⟨hresult.length_eq, fun {row t} hzip => ?_⟩
    obtain ⟨b, hb, rfl⟩ := mem_map.mp ((hmem t).mp (of_mem_zip hzip).2)
    obtain ⟨i, first, rest, hfilter, rfl⟩ := forall₂_zip hresult hzip
    rw [filter_tupleKey hgroup hseparable hb] at hfilter
    have hhead : (tupleRows lib q rows (groupTuple lib q b)).head? = some first := by
      rw [hfilter]
      rfl
    have hcount := countShown_iff.mp (hshown b hb first hhead) (order.order i) (order.perm i)
    rw [← hfilter]
    exact ⟨⟨i, first, hhead, rfl⟩, hcount⟩
  refine ⟨⟨tuples, htuples, hmem, hrows⟩, ?_⟩
  rw [← Grouped.sum_length_filter htuples hmem, Nat.cast_list_sum, map_map]
  refine congrArg sum ?_
  rw [← forall₂_eq_eq_eq, forall₂_map_left_iff, forall₂_map_right_iff]
  exact hrows.imp fun row t h => by rw [h.2]; rfl

end Groups

/-! ### Two pairs of tags -/

/-- Numbers as before, and strings as `%v` writes them. -/
def textLib : FloatLib ℚ where
  __ := ratLib
  sprint v := match v with
    | .text s => s
    | _ => "<nil>"

/-- The transactions of a project are counted by transaction and environment. -/
def countedByEnvironment : Query where
  version := 1
  dataset := "transactions"
  scope := { kind := "project", projectId := "p1" }
  select := [{ expr := .mk "" "count" [] "" }]
  groupBy := [.mk "transaction" "" [] "", .mk "environment" "" [] ""]

variable (transaction environment : String)

/-- A transaction, as far as the groups read it. -/
def transactionIn : TableRow ℚ :=
  ((∅ : TableRow ℚ).insert "transaction" (.text transaction)).insert "environment"
    (.text environment)

theorem groupTuple_transactionIn :
    groupTuple asciiLib (preparedQuery asciiLib countedByEnvironment)
      (transactionIn transaction environment) =
      [.text transaction, .text environment] := by
  have hfields : groupFields asciiLib (preparedQuery asciiLib countedByEnvironment) =
      ["transaction", "environment"] := by decide +kernel
  rw [groupTuple, hfields]
  rfl

section Projection

variable {F : Type} {fl : FloatLib F} {lib : GoLib} {q : Query}

/-- A projected row holds what the row has under the names of the columns. -/
theorem get_projectRow {columns : List String} {name : String} (h : name ∈ columns)
    (row : TableRow F) :
    get (projectRow row columns) name = get row name := by
  rw [projectRow]
  induction columns using reverseRecOn with
  | nil => exact absurd h not_mem_nil
  | append_singleton columns column ih =>
    rw [foldl_append, foldl_cons, foldl_nil]
    by_cases hname : name = column
    · rw [hname, get, AList.lookup_insert, Option.getD_some]
    · rw [get_insert_of_ne hname]
      refine ih ((mem_append.mp h).resolve_right fun hlast => ?_)
      exact hname (mem_singleton.mp hlast)

/-- Without an alias, the column of a selected field has its name. -/
theorem selectName_of_field (hplain : usesAggregate q = false) {item : SelectItem}
    (hitem : item ∈ q.select) (halias : trimSpace item.aliasName = "") :
    selectName lib item = lib.canonical item.expr.field := by
  have hcall : trimSpace item.expr.call = "" := by
    rw [usesAggregate, any_eq_false] at hplain
    simpa using hplain item hitem
  rw [selectName, if_neg (not_not.mpr halias)]
  split
  · rfl
  next hfield => rw [GoLib.canonical, GoLib.canonical, hcall, not_not.mp hfield]

/-- **When a projection respects aliases.** For every accepted query that selects fields, with no
aggregates and no groups, the table has the first rows up to the limit, in order. Their cells under
the columns are the values of the selected fields exactly when each row has the same value under an
alias as under its field. -/
theorem projection_iff {q₀ : Query} {cost : CostEstimate} (h : validateQuery lib q₀ = .ok (q, cost))
    (hselect : q.select ≠ []) (hplain : usesAggregate q = false) (hgroup : q.groupBy = [])
    (order : MapOrder) (rows : List (TableRow F)) :
    ((buildTableResult fl lib order q cost rows).rows.length : ℤ) = min q.limit rows.length ∧
    (List.Forall₂ (fun row out => ∀ item ∈ q.select,
        get out (selectName lib item) = get row (lib.canonical item.expr.field))
      (rows.take q.limit.toNat) (buildTableResult fl lib order q cost rows).rows ↔
    ∀ row ∈ rows.take q.limit.toNat, ∀ item ∈ q.select, trimSpace item.aliasName ≠ "" →
      get row (trimSpace item.aliasName) = get row (lib.canonical item.expr.field)) := by
  have htable : (buildTableResult fl lib order q cost rows).rows =
      (rows.take q.limit.toNat).map fun row => projectRow row (selectColumns lib q) := by
    rw [buildTableResult, if_neg (by simp [hplain, hgroup]), defaultTable, if_pos hselect]
  rw [htable]
  constructor
  · have hlimit := one_le_limit h
    rw [length_map, length_take]
    omega
  · rw [forall₂_map_right_iff, forall₂_same]
    refine forall₂_congr fun row _ => forall₂_congr fun item hitem => ?_
    have hcolumn : selectName lib item ∈ selectColumns lib q := mem_map_of_mem hitem
    rw [get_projectRow hcolumn]
    by_cases halias : trimSpace item.aliasName = ""
    · rw [selectName_of_field hplain hitem halias]
      exact iff_of_true rfl fun hne => absurd halias hne
    · rw [selectName, if_pos halias]
      exact ⟨fun heq _ => heq, fun heq => heq halias⟩

end Projection

/-! ### Two projections -/

/-- A field of the transactions of a project, under an alias. -/
def transactionsAs (aliasName : String) : Query where
  version := 1
  dataset := "transactions"
  scope := { kind := "project", projectId := "p1" }
  select := [{ aliasName := aliasName, expr := .mk "transaction" "" [] "" }]

/-- Without an alias, the column has the field. -/
theorem transaction_projected :
    ∃ q cost, validateQuery asciiLib (transactionsAs "") = .ok (q, cost) ∧
      List.Forall₂ (fun row out => ∀ item ∈ q.select,
        get out (selectName asciiLib item) = get row (asciiLib.canonical item.expr.field))
        [transactionIn "/" "a", transactionIn "/b" "a"]
        (buildTableResult textLib asciiLib (.last "") q cost
          [transactionIn "/" "a", transactionIn "/b" "a"]).rows := by
  have hvalid :
    validateQuery asciiLib (transactionsAs "") = .ok (preparedQuery asciiLib (transactionsAs ""),
      estimateCost (preparedQuery asciiLib (transactionsAs ""))) :=
    (validateQuery_eq_ok asciiLib).mpr ⟨rfl, rfl, by decide +kernel⟩
  have halias : ∀ item ∈ (preparedQuery asciiLib (transactionsAs "")).select,
      trimSpace item.aliasName = "" := by decide +kernel
  refine ⟨_, _, hvalid, ?_⟩
  exact (projection_iff hvalid (by decide +kernel) (by decide +kernel)
    (by decide +kernel) (.last "")
    [transactionIn "/" "a", transactionIn "/b" "a"]).2.mpr
      fun row _ item hitem hne => absurd (halias item hitem) hne

/-- **With an alias, the column is empty.** -/
theorem alias_projected_empty :
    ∃ q cost, validateQuery asciiLib (transactionsAs "name") = .ok (q, cost) ∧
      selectColumns asciiLib q = ["name"] ∧
      (buildTableResult textLib asciiLib (.last "") q cost [transactionIn "/" "a"]).rows.map
        (get · "name") = [.nil] ∧
      get (transactionIn "/" "a") "transaction" = .text "/" := by
  refine ⟨_, _, (validateQuery_eq_ok asciiLib).mpr ⟨rfl, rfl, by decide +kernel⟩, ?_, ?_, ?_⟩
  · decide +kernel
  · decide +kernel
  · decide +kernel

end Urgentry.Discover
