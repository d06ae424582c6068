import Urgentry.Discover.Engine
import Urgentry.Discover.WhereText

/-!
# What the `WHERE` text says

`compilePredicate` puts every argument of a connective in parentheses and nothing around the
connective itself. `assembleSQL` then joins the compiled predicate with the scope clauses by
` AND `. For a conjunction, a negation or a comparison that is harmless. A disjunction at the top is
torn apart: in `scope AND (a) OR (b)` the scope restricts `a` only.

The text is read by `BoolText.read`, with the usual precedence of the connectives. Its truth value
is compared with what the query asks for, under every assignment of truth values to the comparisons.

## Main results

* `means_predicateToks`: the text of a predicate, read alone, means the predicate.
* `where_scoped_iff`: the whole text means what the query asks for if and only if the predicate is
  not a disjunction of two or more arguments.
* `buildFetchSQL_within_scope`: then the engine reads no row outside the scope.
-/

namespace Urgentry.Discover

open BoolText List Option Function

/-- Whether an atom is true, given the truth values of the comparisons. -/
def Clause.holds (v : Label → Bool) (c : Clause) : Bool := v c.label

/-! ## What a query asks for -/

mutual

/-- The truth value of a predicate tree, given the values of its leaves by their paths. -/
def Predicate.holds : Predicate → (List ℕ → Bool) → Bool
  | .mk op args _ _ _, u =>
    if op = "and" then (truths 0 args).all (· u)
    else if op = "or" then (truths 0 args).any (· u)
    else if op = "not" then !(truths 0 args).any (· u)
    else u []

/-- The arguments of a connective from position `i` on. -/
def truths (i : ℕ) : List Predicate → List ((List ℕ → Bool) → Bool)
  | [] => []
  | p :: ps => (fun u => p.holds fun q => u (i :: q)) :: truths (i + 1) ps

end

theorem length_truths (i : ℕ) (ps : List Predicate) : (truths i ps).length = ps.length := by
  induction ps generalizing i with
  | nil => rfl
  | cons p ps ih => rw [truths, length_cons, ih, length_cons]

/-- The truth value of a time range. -/
def TimeRange.holds (t : TimeRange) (v : Label → Bool) : Bool :=
  v (.time 0) && (t.kind ≠ "absolute" || v (.time 1))

/-- **What a query asks for**: the rows in the scope for which the predicate and the time range are
true. -/
def Query.selects (baseClauses : List String) (q : Query) (v : Label → Bool) : Bool :=
  (baseClauses.zipIdx.all fun c => v (.base c.2)) &&
    (q.filter.all (fun p => p.holds fun path => v (.leaf path)) && q.timeRange.all (·.holds v))

/-! ## The text of a predicate -/

/-- The level of the text of a predicate: a disjunction is not wrapped. -/
def Predicate.level (p : Predicate) : Level :=
  if p.op = "or" ∧ 2 ≤ p.args.length then .disj else .conj

/-- What a predicate at a path says about the comparisons of the query. -/
def Predicate.holdsAt (path : List ℕ) (p : Predicate) (v : Label → Bool) : Bool :=
  p.holds fun q => v (.leaf (path ++ q))

section Predicates

variable {d : Dialect} {p : Predicate} {path : List ℕ} {parts : List Toks}

/-- The arguments from position `i` on, as statements about the comparisons of the query. -/
def truthsAt (path : List ℕ) (i : ℕ) (ps : List Predicate) : List ((Label → Bool) → Bool) :=
  (truths i ps).map fun t v => t fun q => v (.leaf (path ++ q))

theorem truthsAt_cons (path : List ℕ) (i : ℕ) (p : Predicate) (ps : List Predicate) :
    truthsAt path i (p :: ps) = p.holdsAt (path ++ [i]) :: truthsAt path (i + 1) ps := by
  rw [truthsAt, truths, map_cons]
  congr 1
  funext v
  simp [Predicate.holdsAt]

theorem disj_of_level {ts : Toks} {b : (Label → Bool) → Bool}
    (h : Means Clause.holds p.level ts b) : Means Clause.holds .disj ts b := by
  rw [Predicate.level] at h
  split at h
  · exact h
  · exact h.conj

/-- The parts of a connective mean its arguments. -/
theorem means_partToks {ps : List Predicate}
    (ih : ∀ p ∈ ps, ∀ {path : List ℕ} {s s' : List Arg} {ts : Toks},
      (predicateToks d path p).run s = .ok (ts, s') →
        Means Clause.holds p.level ts (p.holdsAt path)) {i : ℕ} {s s' : List Arg}
    (h : (partToks d path i ps).run s = .ok (parts, s')) :
    List.Forall₂ (Means Clause.holds .literal) parts (truthsAt path i ps) := by
  induction ps generalizing i s s' parts with
  | nil =>
    rw [partToks] at h
    cases h
    exact .nil
  | cons p ps ihps =>
    rw [partToks] at h
    obtain ⟨ts, s₁, hts, h⟩ := Build.run_bind_ok h
    obtain ⟨rest, s₂, hrest, h⟩ := Build.run_bind_ok h
    cases h
    rw [truthsAt_cons]
    refine .cons (disj_of_level (ih p (by simp) hts)).paren (ihps (fun p' hp' => ?_) hrest)
    exact ih p' (mem_cons_of_mem p hp')

theorem means_connective {op : String} {args : List Predicate} {field value : String}
    {values : List String} (hop : op = "and" ∨ op = "or") (hne : args ≠ [])
    (hparts : List.Forall₂ (Means Clause.holds .literal) parts (truthsAt path 0 args)) :
    Means Clause.holds (Predicate.mk op args field value values).level
      (joined (if op = "and" then .and else .or) parts)
      ((Predicate.mk op args field value values).holdsAt path) := by
  have hconj : Forall₂ (Means Clause.holds .conj) parts (truthsAt path 0 args) :=
    hparts.imp fun _ _ h => h.literal
  have hlen : parts.length = args.length := by
    have h := hparts.length_eq
    rwa [truthsAt, length_map, length_truths] at h
  have hparts' : parts ≠ [] := by
    rintro rfl
    exact hne (length_eq_zero_iff.mp hlen.symm)
  rcases hop with rfl | rfl
  · refine (Means.all hconj hparts').congr fun v => ?_
    simp [Predicate.holdsAt, Predicate.holds, truthsAt, comp_def]
  · have hvalue (v : Label → Bool) : (Predicate.mk "or" args field value values).holdsAt path v =
        (truthsAt path 0 args).any (· v) := by
      simp [Predicate.holdsAt, Predicate.holds, truthsAt, comp_def]
    by_cases htwo : 2 ≤ args.length
    · obtain ⟨ts, tss, rfl⟩ := exists_cons_of_ne_nil hparts'
      obtain ⟨b, bs, hb, hbs, htruths⟩ := forall₂_cons_left_iff.mp hconj
      rw [Predicate.level, if_pos ⟨rfl, htwo⟩]
      refine (Means.any hb.conj hbs).congr fun v => ?_
      rw [hvalue, htruths, any_cons]
    · have hpos : 0 < args.length := length_pos_iff.mpr hne
      obtain ⟨p, rfl⟩ := length_eq_one_iff.mp (by omega : args.length = 1)
      obtain ⟨ts, tss, hb, hbs, rfl⟩ := forall₂_cons_right_iff.mp hconj
      cases hbs
      refine hb.congr fun v => ?_
      rw [hvalue, truthsAt, truths, truths]
      simp

/-- **The text of a predicate means the predicate.** -/
theorem means_predicateToks (hp : p.Shaped) {s s' : List Arg} {ts : Toks}
    (h : (predicateToks d path p).run s = .ok (ts, s')) :
    Means Clause.holds p.level ts (p.holdsAt path) := by
  induction hp generalizing path s s' ts with
  | connective hop hne _ ih =>
    rw [predicateToks, if_pos hop] at h
    obtain ⟨parts, s₁, hparts, h⟩ := Build.run_bind_ok h
    cases h
    exact means_connective hop hne (means_partToks (fun p hp _ _ _ _ => ih p hp) hparts)
  | @negation arg field value values _ ih =>
    rw [predicateToks] at h
    obtain ⟨us, s₁, hus, h⟩ := Build.run_bind_ok h
    cases h
    refine ((disj_of_level (ih hus)).paren.not.literal).congr fun v => ?_
    simp [Predicate.holdsAt, Predicate.holds, truths]
  | @comparison op args field value values hop hnot =>
    rw [predicateToks, if_neg hop, if_neg hnot] at h
    obtain ⟨text, s₁, -, h⟩ := Build.run_bind_ok h
    cases h
    obtain ⟨hand, hor⟩ := not_or.mp hop
    rw [Predicate.level, if_neg fun h => hor h.1]
    refine (Means.atom _).literal.congr fun v => ?_
    simp [Predicate.holdsAt, Predicate.holds, Clause.holds, hand, hor, hnot]

end Predicates

/-! ## The other clauses -/

/-- The scope clauses, as statements about the comparisons of the query. -/
def baseTruths (baseClauses : List String) : List ((Label → Bool) → Bool) :=
  baseClauses.zipIdx.map fun c v => v (.base c.2)

theorem means_baseToks (baseClauses : List String) :
    List.Forall₂ (Means Clause.holds .conj) (baseToks baseClauses) (baseTruths baseClauses) := by
  rw [baseToks, baseTruths, forall₂_map_left_iff, forall₂_map_right_iff, forall₂_same]
  intro c _
  exact (Means.atom _).literal

theorem means_timeToks {lib : GoLib} {now : Instant} {b : ArgBuilder} {expr : String}
    {t : TimeRange} {s s' : List Arg} {ts : Toks}
    (h : (timeToks lib now b expr t).run s = .ok (ts, s')) :
    Means Clause.holds .conj ts t.holds := by
  rw [timeToks] at h
  split at h
  · next hkind =>
    split at h
    · cases h
    split at h
    · cases h
    cases h
    refine ((Means.atom _).literal.and (Means.atom _)).congr fun v => ?_
    simp [TimeRange.holds, Clause.holds, hkind]
  · next hkind =>
    split at h
    · split at h
      · cases h
      cases h
      refine (Means.atom _).literal.congr fun v => ?_
      simp [TimeRange.holds, Clause.holds, hkind]
    · cases h

/-- An optional clause has the tokens of the clause. -/
theorem means_toksOf {ι : Type} {toks : ι → Build Toks} {l : Level} {b : ι → (Label → Bool) → Bool}
    {x : Option ι} {s s' : List Arg} {tss : List Toks}
    (ih : ∀ y, x = some y → ∀ {ts : Toks}, (toks y).run s = .ok (ts, s') →
      Means Clause.holds l ts (b y))
    (h : (toksOf toks x).run s = .ok (tss, s')) :
    List.Forall₂ (Means Clause.holds l) tss (x.toList.map b) := by
  cases x with
  | none =>
    cases h
    exact .nil
  | some y =>
    obtain ⟨ts, s₁, hts, h⟩ := Build.run_bind_ok h
    cases h
    exact .cons (ih y rfl hts) .nil

/-! ## Every predicate can be made true and false -/

theorem forall_mem_truths {P : ((List ℕ → Bool) → Bool) → Prop} {ps : List Predicate} :
    ∀ {i : ℕ}, (∀ (k : ℕ) (hk : k < ps.length), P fun u => ps[k].holds fun q => u ((i + k) :: q)) →
      ∀ t ∈ truths i ps, P t := by
  induction ps with
  | nil => simp [truths]
  | cons p ps ih =>
    intro i h
    rw [truths, forall_mem_cons]
    refine ⟨h 0 (by simp), ih fun k hk => ?_⟩
    have hstep := h (k + 1) (by simpa using hk)
    rwa [← Nat.add_assoc, Nat.add_right_comm] at hstep

/-- The leaves below different arguments are different, so their values can be chosen apart. -/
theorem exists_truths {ps : List Predicate} {b : Bool} (h : ∀ p ∈ ps, ∃ u, p.holds u = b) :
    ∃ u, ∀ t ∈ truths 0 ps, t u = b := by
  choose! u hu using h
  refine ⟨fun | [] => false | k :: q => (ps[k]?.map fun p => u p q).getD false, ?_⟩
  refine forall_mem_truths fun k hk => ?_
  simpa [getElem?_eq_getElem hk] using hu ps[k] (getElem_mem hk)

theorem exists_holds {p : Predicate} (hp : p.Shaped) (b : Bool) : ∃ u, p.holds u = b := by
  induction hp generalizing b with
  | @connective op args field value values hop hne _ ih =>
    obtain ⟨u, hu⟩ := exists_truths fun p hp => ih p hp b
    refine ⟨u, ?_⟩
    have htruths : truths 0 args ≠ [] := by
      rwa [ne_eq, ← length_eq_zero_iff, length_truths, length_eq_zero_iff]
    obtain ⟨t, ts, hts⟩ := exists_cons_of_ne_nil htruths
    rw [hts, forall_mem_cons] at hu
    obtain ⟨ht, hrest⟩ := hu
    rcases hop with rfl | rfl <;> cases b <;>
      simp +contextual [Predicate.holds, hts, ht, hrest]
  | negation _ ih =>
    obtain ⟨u, hu⟩ := ih (!b)
    refine ⟨fun q => u q.tail, ?_⟩
    simp [Predicate.holds, truths, hu]
  | @comparison op args field value values hop hnot =>
    refine ⟨fun _ => b, ?_⟩
    simp [Predicate.holds, hnot, not_or.mp hop]

/-! ## The whole condition -/

section Whole

variable {lib : GoLib} {now : Instant} {cfg : FilterPlanConfig} {baseClauses : List String}
  {q : Query} {s s' : List Arg} {toks : Toks} {p : Predicate}

theorem baseToks_ne_nil (hbase : baseClauses ≠ []) : baseToks baseClauses ≠ [] := by
  simpa [baseToks] using hbase

/-- The predicate can be put next to other conditions as it is. -/
def Query.Wrapped (q : Query) : Prop :=
  ∀ p, q.filter = some p → p.op = "or" → p.args.length < 2

theorem shaped_args (h : p.Shaped) (hor : p.op = "or") : ∀ arg ∈ p.args, arg.Shaped := by
  cases h with
  | connective _ _ hargs => exact hargs
  | negation _ => exact absurd (show "not" = "or" from hor) (by decide)
  | comparison hop _ => exact absurd (Or.inr hor) hop

/-- **A wrapped condition means what the query asks for.** -/
theorem means_whereToks (hbase : baseClauses ≠ [])
    (hshape : ∀ p, q.filter = some p → p.Shaped) (hwrapped : q.Wrapped)
    (h : (whereToks lib now cfg baseClauses q).run s = .ok (toks, s')) :
    Means Clause.holds .conj toks (q.selects baseClauses) := by
  obtain ⟨filter, s₁, hfilter, h⟩ := Build.run_bind_ok h
  obtain ⟨time, s₂, htime, h⟩ := Build.run_bind_ok h
  cases h
  have hfilter := means_toksOf (l := .conj) (b := fun p => p.holdsAt []) (fun p hp ts hts => by
    have hp' := means_predicateToks (hshape p hp) hts
    rwa [Predicate.level, if_neg fun h => absurd h.2 (hwrapped p hp h.1).not_ge] at hp') hfilter
  have htime := means_toksOf (fun t _ ts hts => means_timeToks hts) htime
  have hall := Means.all (rel_append (means_baseToks baseClauses)
    (rel_append hfilter htime)) (append_ne_nil_of_left_ne_nil (baseToks_ne_nil hbase) _)
  refine hall.congr fun v => ?_
  rw [Query.selects, baseTruths]
  cases q.filter <;> cases q.timeRange <;> simp [comp_def, Predicate.holdsAt]

/-- A row out of scope: no base clause holds, the time range does, and the leaves are as `u`
says. -/
def outOfScope (u : List ℕ → Bool) : Label → Bool
  | .base _ => false
  | .leaf path => u path
  | .time _ => true

/-- **A bare disjunction lets rows out of scope through.** -/
theorem exists_torn (hbase : baseClauses ≠ []) (hp : q.filter = some p) (hshape : p.Shaped)
    (hor : p.op = "or") (htwo : 2 ≤ p.args.length)
    (h : (whereToks lib now cfg baseClauses q).run s = .ok (toks, s')) :
    ∃ v f, read toks = some f ∧ f.eval (Clause.holds v) = true ∧ ∀ i, v (.base i) = false := by
  obtain ⟨op, args, field, value, values⟩ := p
  obtain rfl : op = "or" := hor
  have hargs : ∀ p ∈ args, p.Shaped := shaped_args hshape rfl
  rw [whereToks, hp] at h
  obtain ⟨filter, s₁, hfilter, h⟩ := Build.run_bind_ok h
  obtain ⟨time, s₂, htime, h⟩ := Build.run_bind_ok h
  cases h
  obtain ⟨ts, s₃, hts, hfilter⟩ := Build.run_bind_ok hfilter
  cases hfilter
  rw [predicateToks] at hts
  obtain ⟨parts, s₄, hparts, hts⟩ := Build.run_bind_ok hts
  cases hts
  have hparts := means_partToks (fun p hp _ _ _ _ => means_predicateToks (hargs p hp)) hparts
  have htime := means_toksOf (fun t _ ts hts => means_timeToks hts) htime
  have hlen : 2 ≤ (truthsAt [] 0 args).length := by
    rw [truthsAt, length_map, length_truths]
    exact htwo
  obtain ⟨a, b, hb, hmeans⟩ := Means.torn (means_baseToks baseClauses) (baseToks_ne_nil hbase)
    (hparts.imp fun _ _ h => h.literal) hlen htime
  obtain ⟨f, hread, hf⟩ := hmeans.read
  -- every argument and the time range are true, and no scope clause is
  obtain ⟨u, hu⟩ := exists_truths fun p hp => exists_holds (hargs p hp) true
  refine ⟨outOfScope u, f, hread, ?_, fun i => rfl⟩
  obtain ⟨t, ht, rfl⟩ := List.mem_map.mp hb
  have htrue : t (fun q => outOfScope u (.leaf ([] ++ q))) = true := hu t ht
  have hall : (q.timeRange.toList.map TimeRange.holds).all (· (outOfScope u)) = true := by
    simp [TimeRange.holds, outOfScope]
  rw [hf (outOfScope u), Bool.or_eq_true]
  exact Or.inr (Bool.and_eq_true_iff.mpr ⟨htrue, hall⟩)

theorem base_of_selects {v : Label → Bool} (h : q.selects baseClauses v = true) {i : ℕ}
    (hi : i < baseClauses.length) : v (.base i) = true := by
  rw [Query.selects, Bool.and_eq_true, List.all_eq_true] at h
  exact h.1 (baseClauses[i], i) (by simp [mem_zipIdx_iff_getElem?])

/-- **Wrapped queries stay in scope**: the engine reads no row for which a clause of the scope is
false. -/
theorem buildFetchSQL_within_scope {src : Source} {q₀ : Query} {cost : CostEstimate}
    {limit n : ℤ} {text : String} (hvalid : validateQuery lib q₀ = .ok (q, cost))
    (hwrapped : q.Wrapped) (h : (buildFetchSQL src lib now q limit).run [] = .ok ((text, n), s')) :
    ∃ scope s₁ toks t order, (scopeClauses q.scope).run [] = .ok (scope, s₁) ∧
      (whereToks lib now (src.config lib) (src.clause :: scope) q).run s₁ = .ok (toks, t) ∧
      text = src.base ++ " WHERE " ++ renderAll toks ++ order ∧
      ∀ v, (read toks).map (·.eval (Clause.holds v)) = some true →
        ∀ i < scope.length + 1, v (.base i) = true := by
  obtain ⟨scope, s₁, hscope, h⟩ := Build.run_bind_ok h
  obtain ⟨plan, s₂, hplan, h⟩ := Build.run_bind_ok h
  cases h
  obtain ⟨toks, t, htoks, htext⟩ := renderAll_whereToks hplan (src.clause :: scope)
  obtain ⟨f, hread, hf⟩ := (means_whereToks (cons_ne_nil _ _)
    (fun p => shaped_of_validateQuery hvalid) hwrapped htoks).conj.read
  refine ⟨scope, s₁, toks, t,
    " ORDER BY " ++ plan.orderClause ++ " LIMIT " ++ plan.limitPlaceholder,
    hscope, htoks, ?_, fun v hv i hi => ?_⟩
  · simp only [assembleSQL, htext, String.append_assoc]
  · rw [hread, map_some, hf, some_inj] at hv
    exact base_of_selects hv hi

/-- **The condition means what the query asks for if and only if the predicate is wrapped.** -/
theorem where_scoped_iff {q₀ : Query} {cost : CostEstimate} {limit : ℤ} {plan : FilterPlan}
    (hvalid : validateQuery lib q₀ = .ok (q, cost)) (hbase : baseClauses ≠ [])
    (hplan : (planFilter lib now cfg q limit).run s = .ok (plan, s')) :
    ∃ toks t, (whereToks lib now cfg baseClauses q).run s = .ok (toks, t) ∧
      renderAll toks = whereText baseClauses plan ∧
      ((∀ v, (read toks).map (·.eval (Clause.holds v)) = some (q.selects baseClauses v)) ↔
        q.Wrapped) := by
  obtain ⟨toks, t, htoks, htext⟩ := renderAll_whereToks hplan baseClauses
  refine ⟨toks, t, htoks, htext, fun hmeans p hp hor => ?_, fun hwrapped v => ?_⟩
  · by_contra! htwo
    obtain ⟨v, f, hread, htrue, hfalse⟩ :=
      exists_torn hbase hp (shaped_of_validateQuery hvalid hp) hor htwo htoks
    have hv := hmeans v
    rw [hread, map_some, htrue, Query.selects] at hv
    obtain ⟨c, cs, rfl⟩ := exists_cons_of_ne_nil hbase
    simp [hfalse] at hv
  · have hmeans := means_whereToks hbase (fun p => shaped_of_validateQuery hvalid) hwrapped htoks
    obtain ⟨f, hread, hf⟩ := hmeans.conj.read
    rw [hread, map_some, hf]

end Whole

/-- A search in the issues of one project. -/
def search (filter : Predicate) : Query where
  version := 1
  dataset := "issues"
  scope := { kind := "project", projectId := "p1" }
  filter := some filter

/-- The predicate of a search for one word: it may stand in the title or in the culprit. -/
def anywhere (word : String) : Predicate :=
  .mk "or" [.mk "contains" [] "title" word [], .mk "contains" [] "culprit" word []] "" "" []

/-- A search for two words. -/
def twoWords : Query := search (.mk "and" [anywhere "time", anywhere "out"] "" "" [])

theorem validateQuery_of_errors {lib : GoLib} {q : Query}
    (h : validationErrors lib (preparedQuery lib q) = []) :
    validateQuery lib q = .ok (preparedQuery lib q, estimateCost (preparedQuery lib q)) :=
  if_pos h

/-- The scope of a search for two words is kept. -/
theorem twoWords_scoped :
    ∃ plan s toks, (planFilter asciiLib .midnight (Source.issues.config asciiLib)
        (preparedQuery asciiLib twoWords) 50).run [.text "p1"] = .ok (plan, s) ∧
      renderAll toks = whereText ["1=1", "p.id = ?"] plan ∧
      ∀ v, (read toks).map (·.eval (Clause.holds v)) =
        some ((preparedQuery asciiLib twoWords).selects ["1=1", "p.id = ?"] v) := by
  have hok : ((planFilter asciiLib .midnight (Source.issues.config asciiLib)
      (preparedQuery asciiLib twoWords) 50).run [.text "p1"]).isOk = true := by decide +kernel
  rcases hplan : (planFilter asciiLib .midnight (Source.issues.config asciiLib)
    (preparedQuery asciiLib twoWords) 50).run [.text "p1"] with e | ⟨plan, s⟩
  · rw [hplan] at hok
    exact nomatch hok
  · have hbase : ["1=1", "p.id = ?"] ≠ [] := by decide
    obtain ⟨toks, t, -, htext, hiff⟩ :=
      where_scoped_iff (validateQuery_of_errors (by decide +kernel)) hbase hplan
    refine ⟨plan, s, toks, rfl, htext, hiff.mpr fun p hp hor => ?_⟩
    have hop : (preparedQuery asciiLib twoWords).filter.map (·.op) = some "and" := by
      decide +kernel
    rw [hp, map_some, hor] at hop
    exact absurd hop (by decide)

theorem twoWords_within_scope : ∃ text n s' toks t order,
    (buildFetchSQL .issues asciiLib .midnight (preparedQuery asciiLib twoWords) 50).run [] =
        .ok ((text, n), s') ∧
      (whereToks asciiLib .midnight (Source.issues.config asciiLib) ["1=1", "p.id = ?"]
        (preparedQuery asciiLib twoWords)).run [.text "p1"] = .ok (toks, t) ∧
      text = Source.issues.base ++ " WHERE " ++ renderAll toks ++ order ∧
      ∀ v, (read toks).map (·.eval (Clause.holds v)) = some true → v (.base 1) = true := by
  have hrun :
    (buildFetchSQL .issues asciiLib .midnight (preparedQuery asciiLib twoWords) 50).run [] =
    .ok ((_, _), _) := rfl
  obtain ⟨scope, s₁, toks, t, order, hscope, htoks, htext, hv⟩ := buildFetchSQL_within_scope
    (validateQuery_of_errors (by decide +kernel))
      (fun _ => by rintro ⟨⟩ h; exact absurd h (by decide +kernel)) hrun
  cases hscope
  exact ⟨_, _, _, toks, t, order, hrun, htoks, htext, fun v h => hv v h 1 (by decide)⟩

/-- **A search for one word leaves the project.** The condition is
`1=1 AND p.id = ? AND (g.title LIKE ?) OR (g.culprit LIKE ?)`, and it is true of an issue of another
project whose culprit has the word. -/
theorem oneWord_leaves_scope :
    ∃ cost plan s toks t v,
      validateQuery asciiLib (search (anywhere "timeout")) =
        .ok (preparedQuery asciiLib (search (anywhere "timeout")), cost) ∧
      (planFilter asciiLib .midnight (Source.issues.config asciiLib)
        (preparedQuery asciiLib (search (anywhere "timeout"))) 50).run [.text "p1"] =
          .ok (plan, s) ∧ (whereToks asciiLib .midnight (Source.issues.config asciiLib)
        ["1=1", "p.id = ?"] (preparedQuery asciiLib (search (anywhere "timeout")))).run
          [.text "p1"] = .ok (toks, t) ∧
      renderAll toks = whereText ["1=1", "p.id = ?"] plan ∧
      v (.base 1) = false ∧ (read toks).map (·.eval (Clause.holds v)) = some true ∧
      (preparedQuery asciiLib (search (anywhere "timeout"))).selects ["1=1", "p.id = ?"] v =
        false := by
  refine ⟨_, _, _, _, _, fun l => l ≠ .base 1, validateQuery_of_errors (by decide +kernel), rfl,
    rfl, ?_, by decide, ?_, ?_⟩
  · decide +kernel
  · decide +kernel
  · decide +kernel

end Urgentry.Discover
