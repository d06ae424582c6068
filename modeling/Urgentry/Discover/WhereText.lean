import Urgentry.Discover.Sql
import Urgentry.Internal.BoolText

/-!
# The `WHERE` text as tokens

What a piece of SQL text says depends on how it is read, and reading starts from tokens. The
condition of a discover statement is given here as the list of its tokens (`whereToks`), in which
the comparisons are atoms: an atom carries the text that the compiler writes, and a label that says
which comparison of the query it is.

The tokens are built by functions of the same shape as the ones that write the text, so that the two
can be compared function by function.

## Main results

* `renderAll_whereToks`: the tokens are those of the text that `planFilter` and `assembleSQL` write.
-/

namespace Urgentry.Discover

open BoolText List

/-- Which comparison of a query an atom of the text is: a scope clause, a leaf of the predicate
tree by its path from the root, or a bound of the time range. -/
inductive Label
  | base (i : ℕ)
  | leaf (path : List ℕ)
  | time (i : ℕ)
deriving DecidableEq

/-- An atom of the text. -/
structure Clause where
  label : Label
  text : String
deriving DecidableEq

/-- The text as tokens. -/
abbrev Toks := List (Tok Clause)

/-- The text of a token. -/
def render : Tok Clause → String
  | .atom c => c.text
  | .lpar => "("
  | .rpar => ")"
  | .and => " AND "
  | .or => " OR "
  | .not => "NOT "

/-- The text of a list of tokens. -/
def renderAll (ts : Toks) : String := String.join (ts.map render)

@[simp] theorem renderAll_nil : renderAll [] = "" := rfl

@[simp] theorem renderAll_cons (t : Tok Clause) (ts : Toks) :
    renderAll (t :: ts) = render t ++ renderAll ts := by
  rw [renderAll, map_cons, String.join_cons, renderAll]

@[simp] theorem renderAll_append (ts us : Toks) :
    renderAll (ts ++ us) = renderAll ts ++ renderAll us := by
  rw [renderAll, map_append, String.join_append, renderAll, renderAll]

theorem renderAll_joined (t : Tok Clause) :
    ∀ tss : List Toks, renderAll (joined t tss) = (render t).intercalate (tss.map renderAll)
  | [] => by rw [joined, renderAll_nil, map_nil]; rfl
  | [ts] => by rw [map_singleton]; rfl
  | ts :: us :: rest => by
    rw [joined, renderAll_append, renderAll_cons, renderAll_joined t (us :: rest)]
    simp only [map_cons, String.intercalate_cons_cons, String.append_assoc]

/-! ## The tokens -/

section Tokens

variable (d : Dialect)

mutual

/-- The tokens of `compilePredicate`, for the predicate at a path. -/
def predicateToks (path : List ℕ) : Predicate → Build Toks
  | .mk op args field value values =>
    if op = "and" ∨ op = "or" then do
      let parts ← partToks path 0 args
      return joined (if op = "and" then .and else .or) parts
    else if op = "not" then do
      let ts ← firstToks path args
      return .not :: (.lpar :: ts ++ [.rpar])
    else do
      let text ← compileComparison d (.mk op args field value values)
      return [.atom ⟨.leaf path, text⟩]

/-- The tokens of `compileFirst`. -/
def firstToks (path : List ℕ) : List Predicate → Build Toks
  | [] => throw "index out of range [0] with length 0"
  | p :: _ => predicateToks (path ++ [0]) p

/-- The tokens of `compileParts`, for the arguments from position `i` on. -/
def partToks (path : List ℕ) (i : ℕ) : List Predicate → Build (List Toks)
  | [] => return []
  | p :: ps => do
    let ts ← predicateToks (path ++ [i]) p
    let parts ← partToks path (i + 1) ps
    return (.lpar :: ts ++ [.rpar]) :: parts

end

/-- The tokens of `timeRangeClause`. -/
def timeToks (lib : GoLib) (now : Instant) (b : ArgBuilder) (expr : String) (t : TimeRange) :
    Build Toks :=
  if t.kind = "absolute" then
    match lib.parseRFC3339 t.start with
    | none => throw ("parsing time " ++ t.start.quote)
    | some start =>
      match lib.parseRFC3339 t.stop with
      | none => throw ("parsing time " ++ t.stop.quote)
      | some stop => do
        let lower ← b.add (b.ofTime start)
        let upper ← b.add (b.ofTime stop)
        return [.atom ⟨.time 0, expr ++ " >= " ++ lower⟩, .and,
          .atom ⟨.time 1, expr ++ " <= " ++ upper⟩]
  else if t.kind = "relative" then
    match parseRelativeRange now t.value with
    | .error e => throw e
    | .ok start => do
      let lower ← b.add (b.ofTime start)
      return [.atom ⟨.time 0, expr ++ " >= " ++ lower⟩]
  else throw ("unsupported time range kind " ++ t.kind.quote)

/-- The tokens of an optional clause. -/
def toksOf {ι : Type} (compile : ι → Build Toks) : Option ι → Build (List Toks)
  | none => return []
  | some x => do return [← compile x]

/-- The scope clauses, one atom each. -/
def baseToks (baseClauses : List String) : List Toks :=
  baseClauses.zipIdx.map fun (text, i) => [.atom ⟨.base i, text⟩]

/-- The tokens of the condition that `assembleSQL` writes for a plan of the query. -/
def whereToks (lib : GoLib) (now : Instant) (cfg : FilterPlanConfig) (baseClauses : List String)
    (q : Query) : Build Toks := do
  let filter ← toksOf (predicateToks cfg.toDialect []) q.filter
  let time ← toksOf (timeToks lib now cfg.builder cfg.timestampExpr) q.timeRange
  return joined .and (baseToks baseClauses ++ (filter ++ time))

end Tokens

/-! ## The tokens are those of the text -/

section Text

variable {d : Dialect}

mutual

theorem compilePredicate_eq :
    ∀ (p : Predicate) (path : List ℕ),
      compilePredicate d p = renderAll <$> predicateToks d path p
  | .mk op args field value values, path => by
    rw [compilePredicate, predicateToks]
    split
    · next hop =>
      rw [compileParts_eq args path 0]
      simp only [bind_map_left, map_bind, map_pure, renderAll_joined]
      congr 1
      funext parts
      split <;> rfl
    · split
      · have htext : "NOT (" = "NOT " ++ "(" := rfl
        rw [compileFirst_eq args path, htext]
        simp only [bind_map_left, map_bind, map_pure, renderAll_cons, renderAll_append, render,
          renderAll_nil, String.append_empty, String.append_assoc]
      · simp [render]

theorem compileFirst_eq :
    ∀ (ps : List Predicate) (path : List ℕ), compileFirst d ps = renderAll <$> firstToks d path ps
  | [], _ => rfl
  | p :: _, path => compilePredicate_eq p (path ++ [0])

theorem compileParts_eq :
    ∀ (ps : List Predicate) (path : List ℕ) (i : ℕ),
      compileParts d ps = List.map renderAll <$> partToks d path i ps
  | [], path, i => by rw [compileParts, partToks, map_pure, map_nil]
  | p :: ps, path, i => by
    rw [compileParts, partToks, compilePredicate_eq p (path ++ [i]),
      compileParts_eq ps path (i + 1)]
    simp [render, String.append_assoc]

end

theorem timeRangeClause_eq (lib : GoLib) (now : Instant) (b : ArgBuilder) (expr : String)
    (t : TimeRange) :
    timeRangeClause lib now b expr t = renderAll <$> timeToks lib now b expr t := by
  rw [timeRangeClause, timeToks]
  split
  · rcases lib.parseRFC3339 t.start with _ | start
    · rfl
    · rcases lib.parseRFC3339 t.stop with _ | stop
      · rfl
      · simp [render, String.append_assoc]
  · split
    · rcases parseRelativeRange now t.value with e | start
      · rfl
      · simp [render]
    · rfl

theorem clauseOf_eq {ι : Type} {compile : ι → Build String} {toks : ι → Build Toks}
    (h : ∀ x, compile x = renderAll <$> toks x) (x : Option ι) :
    clauseOf compile x = List.map renderAll <$> toksOf toks x := by
  cases x with
  | none => rw [clauseOf, toksOf, map_pure, map_nil]
  | some x => simp [clauseOf, toksOf, h]

theorem map_renderAll_baseToks (baseClauses : List String) :
    (baseToks baseClauses).map renderAll = baseClauses := by
  simp [baseToks, Function.comp_def, render]

/-- **The tokens are those of the text**, whenever a plan is made. -/
theorem renderAll_whereToks {lib : GoLib} {now : Instant} {cfg : FilterPlanConfig} {q : Query}
    {limit : ℤ} {args args' : List Arg} {plan : FilterPlan}
    (hplan : (planFilter lib now cfg q limit).run args = .ok (plan, args'))
    (baseClauses : List String) :
    ∃ toks args'', (whereToks lib now cfg baseClauses q).run args = .ok (toks, args'') ∧
      renderAll toks = whereText baseClauses plan := by
  obtain ⟨filter, args₁, hfilter, hrest⟩ := Build.run_bind_ok hplan
  obtain ⟨time, args₂, htime, hrest⟩ := Build.run_bind_ok hrest
  rw [clauseOf_eq fun p => compilePredicate_eq p []] at hfilter
  rw [clauseOf_eq (timeRangeClause_eq lib now _ _)] at htime
  obtain ⟨filterToks, hfilterToks, rfl⟩ := Build.run_map_ok hfilter
  obtain ⟨timeToks, htimeToks, rfl⟩ := Build.run_map_ok htime
  cases hrest
  refine ⟨joined .and (baseToks baseClauses ++ (filterToks ++ timeToks)), args₂, ?_, ?_⟩
  · rw [whereToks, Build.run_bind_of_ok _ hfilterToks, Build.run_bind_of_ok _ htimeToks]
    rfl
  · rw [renderAll_joined, map_append, map_append, map_renderAll_baseToks]
    rfl

end Text

end Urgentry.Discover
