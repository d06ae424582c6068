import Urgentry.Search.Filter

/-!
# What a filter keeps of its tokens, and what its clauses say

The loop of `ParseTokens` and the clauses of `ToSQL`, place by place. A token writes at most one
place that holds a single value (`write`), and the last write stays (`slot_parseTokens`). The lists
of the filter only grow (`mem_parseTokens`).

The clauses are read in the same way: `Meets` says of each place what its clauses ask of a group.
For a filter with one token in it, this is what the token asks on its own (`Asks`).

## Main results

* `slot_parseTokens`, `mem_parseTokens`: the filter after any number of tokens;
* `satisfies_iff_meets`: the clauses, place by place;
* `keeps_iff_asks`: a group satisfies a token on its own, and not what it excludes, when it has what
  is asked. -/

namespace Urgentry.Search

open List Function

variable {lib : GoLib} {escapeLike : String → String} {db : SearchDb} {f : Filter} {g : GroupState}
  (tokens : List Token)

/-! ## Places of the filter -/

/-- A place of the filter that holds one value. -/
inductive Slot
  | status
  | value (c : Field)
  | negValue (c : Field)
  | seen (c : SeenColumn)
deriving DecidableEq

/-- What the filter has in a place. -/
def Filter.slot (f : Filter) : Slot → String
  | .status => f.status
  | .value c => f.value c
  | .negValue c => f.negValue c
  | .seen c => f.seen c

/-- The write of a token with a key. -/
def keyWrite (lib : GoLib) (key value : String) (negated : Bool) : Option (Slot × String) :=
  match keyOf (lib.lower key) with
  | .field c => some (if negated then .negValue c else .value c, storedValue lib c value)
  | .seen c => some (.seen c, value)
  | .bookmarks | .tag => none

/-- The place that a token writes, with the value. -/
def write (lib : GoLib) (tok : Token) : Option (Slot × String) :=
  match tok.type with
  | .is =>
    if normalizeStatus lib tok.value ≠ "" then
      some (.status, normalizeStatus lib tok.value) else none
  | .keyValue => keyWrite lib tok.key tok.value false
  | .negatedKeyValue => keyWrite lib tok.key tok.value true
  | .text | .has | .notHas | .notIs => none

/-- The last value that the tokens write in a place. -/
def lastWrite (lib : GoLib) (tokens : List Token) (s : Slot) : String :=
  ((tokens.filterMap (write lib)).reverse.lookup s).getD ""

@[simp]
theorem getD_lookup_cons (s s' : Slot) (v d : String) (ws : List (Slot × String)) :
    (((s', v) :: ws).lookup s).getD d = if s = s' then v else (ws.lookup s).getD d := by
  by_cases h : s = s'
  · rw [if_pos h, lookup_cons, h, beq_self_eq_true]
    rfl
  · rw [if_neg h, lookup_cons, beq_false_of_ne h]

theorem slot_assignKeyValue (f : Filter) (key value : String) (negated : Bool) (s : Slot) :
    (assignKeyValue lib f key value negated).slot s =
      ((keyWrite lib key value negated).toList.lookup s).getD (f.slot s) := by
  rw [assignKeyValue, keyWrite]
  cases keyOf (lib.lower key) with
  | field c =>
    rw [Option.toList_some, getD_lookup_cons]
    cases negated <;> cases s <;> simp [Filter.slot, update_apply]
  | seen c =>
    rw [Option.toList_some, getD_lookup_cons]
    cases s <;> simp [Filter.slot, update_apply]
  | bookmarks => cases s <;> rfl
  | tag => cases negated <;> cases s <;> rfl

/-- One token writes its place and leaves the others. -/
theorem slot_assignToken (f : Filter) (tok : Token) (s : Slot) :
    (assignToken lib f tok).slot s = ((write lib tok).toList.lookup s).getD (f.slot s) := by
  rw [assignToken, write]
  cases tok.type with
  | is =>
    by_cases h : normalizeStatus lib tok.value ≠ ""
    · simp only [if_pos h, Option.toList_some, getD_lookup_cons]
      cases s <;> simp [Filter.slot]
    · cases s <;> simp [h]
  | notIs =>
    by_cases h : normalizeStatus lib tok.value ≠ "" <;> cases s <;> simp [Filter.slot, h]
  | keyValue | negatedKeyValue => exact slot_assignKeyValue f _ _ _ s
  | has | notHas | text => cases s <;> rfl

@[simp]
theorem parseTokens_concat (tok : Token) :
    parseTokens lib (tokens ++ [tok]) = assignToken lib (parseTokens lib tokens) tok := by
  unfold parseTokens
  exact foldl_concat ..

/-- **The last write of a place** is what the filter has there. -/
theorem slot_parseTokens (s : Slot) : (parseTokens lib tokens).slot s = lastWrite lib tokens s := by
  induction tokens using reverseRecOn with
  | nil => cases s <;> rfl
  | append_singleton tokens tok ih =>
    rw [parseTokens_concat, slot_assignToken, ih, lastWrite, lastWrite, filterMap_append,
      reverse_append]
    cases h : write lib tok with
    | none => simp [h]
    | some w =>
      obtain ⟨s', v⟩ := w
      rw [filterMap_cons_some h, filterMap_nil, reverse_singleton, singleton_append,
        getD_lookup_cons, Option.toList_some, getD_lookup_cons]
      rfl

theorem status_assignKeyValue (f : Filter) (key value : String) (negated : Bool) :
    (assignKeyValue lib f key value negated).status = f.status := by
  unfold assignKeyValue
  cases keyOf (lib.lower key) <;> cases negated <;> rfl

/-- A token leaves a status in the filter, or asks for one. -/
theorem status_assignToken_ne (f : Filter) (tok : Token)
    (h : f.status ≠ "" ∨ tok.type = .is ∧ normalizeStatus lib tok.value ≠ "") :
    (assignToken lib f tok).status ≠ "" := by
  unfold assignToken
  cases htype : tok.type with
  | is =>
    by_cases hknown : normalizeStatus lib tok.value = ""
    · simpa [hknown] using h
    · simp [hknown]
  | notIs => by_cases hknown : normalizeStatus lib tok.value = "" <;> simpa [hknown, htype] using h
  | keyValue | negatedKeyValue => simpa [status_assignKeyValue, htype] using h
  | has | notHas | text => simpa [htype] using h

/-- A status that was asked for leaves some status in the filter. -/
theorem status_parseTokens_ne {tokens : List Token} {tok : Token} (htok : tok ∈ tokens)
    (htype : tok.type = .is) (hknown : normalizeStatus lib tok.value ≠ "") :
    (parseTokens lib tokens).status ≠ "" := by
  induction tokens using reverseRecOn with
  | nil => cases htok
  | append_singleton tokens last ih =>
    rw [parseTokens_concat]
    refine status_assignToken_ne _ last ?_
    rcases mem_append.mp htok with h | h
    · exact .inl (ih h)
    · rw [mem_singleton.mp h] at htype hknown
      exact .inr ⟨htype, hknown⟩

/-- A list of the filter that each token only extends. -/
def Additive {α : Type} (lib : GoLib) (proj : Filter → List α) : Prop :=
  proj {} = [] ∧ ∀ f tok, proj (assignToken lib f tok) = proj f ++ proj (assignToken lib {} tok)

/-- **The lists only grow**: what one token puts there is there at the end, and nothing else. -/
theorem mem_parseTokens {α : Type} {proj : Filter → List α} (h : Additive lib proj)
    (tokens : List Token) (x : α) :
    x ∈ proj (parseTokens lib tokens) ↔ ∃ tok ∈ tokens, x ∈ proj (parseTokens lib [tok]) := by
  induction tokens using reverseRecOn with
  | nil => simp [parseTokens, h.1]
  | append_singleton tokens tok ih =>
    have hround : proj (parseTokens lib (tokens ++ [tok])) =
        proj (parseTokens lib tokens) ++ proj (parseTokens lib [tok]) := by
      rw [parseTokens_concat]
      exact h.2 _ tok
    rw [hround, mem_append, ih]
    simp

section Additive

theorem assignKeyValue_lists (f : Filter) (key value : String) (negated : Bool) :
    let one := assignKeyValue lib {} key value negated
    let all := assignKeyValue lib f key value negated
    all.negatedStatuses = f.negatedStatuses ++ one.negatedStatuses ∧
      all.hasFields = f.hasFields ++ one.hasFields ∧
      all.notHasFields = f.notHasFields ++ one.notHasFields ∧
      all.tags = f.tags ++ one.tags ∧ all.negTags = f.negTags ++ one.negTags ∧
      all.terms = f.terms ++ one.terms := by
  simp only [assignKeyValue]
  cases keyOf (lib.lower key) <;> cases negated <;> simp

theorem assignToken_lists (f : Filter) (tok : Token) :
    let one := assignToken lib {} tok
    let all := assignToken lib f tok
    all.negatedStatuses = f.negatedStatuses ++ one.negatedStatuses ∧
      all.hasFields = f.hasFields ++ one.hasFields ∧
      all.notHasFields = f.notHasFields ++ one.notHasFields ∧
      all.tags = f.tags ++ one.tags ∧ all.negTags = f.negTags ++ one.negTags ∧
      all.terms = f.terms ++ one.terms := by
  simp only [assignToken]
  cases tok.type with
  | keyValue | negatedKeyValue => exact assignKeyValue_lists f _ _ _
  | is | notIs => by_cases h : normalizeStatus lib tok.value = "" <;> simp [h]
  | has | notHas | text => simp

theorem additive_negatedStatuses : Additive lib Filter.negatedStatuses :=
  ⟨rfl, fun f tok => (assignToken_lists f tok).1⟩

theorem additive_notHasFields : Additive lib Filter.notHasFields :=
  ⟨rfl, fun f tok => (assignToken_lists f tok).2.2.1⟩

theorem additive_tags : Additive lib Filter.tags :=
  ⟨rfl, fun f tok => (assignToken_lists f tok).2.2.2.1⟩

theorem additive_negTags : Additive lib Filter.negTags :=
  ⟨rfl, fun f tok => (assignToken_lists f tok).2.2.2.2.1⟩

theorem additive_terms : Additive lib Filter.terms :=
  ⟨rfl, fun f tok => (assignToken_lists f tok).2.2.2.2.2⟩

end Additive

/-! ## The clauses, place by place -/

/-- A comparison holds of a group; an empty one asks nothing. -/
def SeenHolds (db : SearchDb) (g : GroupState) (c : SeenColumn) (raw : String) : Prop :=
  raw ≠ "" → SearchClause.holds db g
    (.seen c (parseComparisonValue raw).1 (parseComparisonValue raw).2) = true

/-- What the clauses of a filter say of a group. -/
structure Meets (lib : GoLib) (escapeLike : String → String) (db : SearchDb) (f : Filter)
    (g : GroupState) : Prop where
  status : f.status ≠ "" → g.status = some f.status
  negatedStatuses : ∀ s ∈ f.negatedStatuses, (SearchClause.status true s).holds db g = true
  value : ∀ c, f.value c ≠ "" → g.fieldMatches c (boundValue lib c (f.value c)) = true
  negValue : ∀ c, f.negValue c ≠ "" → g.fieldMatches c (boundValue lib c (f.negValue c)) = false
  seen : ∀ c, SeenHolds db g c (f.seen c)
  hasFields : ∀ x ∈ f.hasFields, ∀ col, hasFieldToColumn x = some col → g.presence col ≠ ""
  notHasFields : ∀ x ∈ f.notHasFields, ∀ col, hasFieldToColumn x = some col → g.presence col = ""
  tags : ∀ tf ∈ f.tags, (SearchClause.tag false tf).holds db g = true
  negTags : ∀ tf ∈ f.negTags, (SearchClause.tag true tf).holds db g = true
  terms : ∀ x ∈ f.terms, (SearchClause.term ("%" ++ escapeLike x ++ "%")).holds db g = true

theorem forall_mem_fieldClauses (c : Field) :
    (∀ clause ∈ fieldClauses lib f c, clause.holds db g = true) ↔
      (f.value c ≠ "" → g.fieldMatches c (boundValue lib c (f.value c)) = true) ∧
        (f.negValue c ≠ "" → g.fieldMatches c (boundValue lib c (f.negValue c)) = false) := by
  rw [fieldClauses]
  by_cases hv : f.value c = "" <;> by_cases hn : f.negValue c = "" <;>
    simp [hv, SearchClause.holds]

theorem forall_mem_seenClauses (c : SeenColumn) :
    (∀ clause ∈ seenClauses f c, clause.holds db g = true) ↔ SeenHolds db g c (f.seen c) := by
  rw [seenClauses, SeenHolds]
  by_cases h : f.seen c = "" <;> simp [h]

theorem forall_mem_hasClauses (negated : Bool) (fields : List String) :
    (∀ clause ∈ fields.filterMap fun x => (hasFieldToColumn x).map (SearchClause.has negated),
        clause.holds db g = true) ↔
      ∀ x ∈ fields, ∀ col, hasFieldToColumn x = some col →
        (SearchClause.has negated col).holds db g = true := by
  constructor
  · intro h x hx col hcol
    exact h _ (mem_filterMap.mpr ⟨x, hx, by rw [hcol]; rfl⟩)
  · intro h clause hclause
    obtain ⟨x, hx, hmap⟩ := mem_filterMap.mp hclause
    obtain ⟨col, hcol, rfl⟩ := Option.map_eq_some_iff.mp hmap
    exact h x hx col hcol

theorem holds_has (c : HasColumn) :
    (SearchClause.has false c).holds db g = true ↔ g.presence c ≠ "" := by
  simp [SearchClause.holds]

theorem holds_notHas (c : HasColumn) :
    (SearchClause.has true c).holds db g = true ↔ g.presence c = "" := by
  simp [SearchClause.holds]

theorem forall_mem_statusClauses :
    (∀ clause ∈ (if f.status ≠ "" then [SearchClause.status false f.status] else []),
      clause.holds db g = true) ↔ (f.status ≠ "" → g.status = some f.status) := by
  by_cases h : f.status = "" <;> simp [SearchClause.holds]

/-- The clauses of a filter are satisfied when every place of it is. -/
theorem satisfies_iff_meets : Satisfies lib escapeLike db f g ↔ Meets lib escapeLike db f g := by
  unfold Satisfies toSQL
  simp only [forall_mem_append]
  simp only [forall_mem_map, forall_mem_fieldClauses, forall_mem_seenClauses, and_assoc]
  simp only [forall_mem_hasClauses, holds_has, holds_notHas, forall_mem_statusClauses]
  constructor
  · rintro ⟨h1, h2, l1, l2, e1, e2, r1, r2, t1, t2, p1, p2, a1, a2, s1, s2, s3, h3, h4, h5, h6, h7⟩
    refine ⟨h1, h2, ?_, ?_, ?_, h3, h4, h5, h6, h7⟩
    · rintro (_ | _)
      exacts [l1, e1, r1, t1, p1, a1]
    · rintro (_ | _)
      exacts [l2, e2, r2, t2, p2, a2]
    · rintro (_ | _)
      exacts [s1, s2, s3]
  · intro h
    exact ⟨h.status, h.negatedStatuses, h.value .level, h.negValue .level, h.value .environment,
      h.negValue .environment, h.value .release, h.negValue .release, h.value .eventType,
      h.negValue .eventType, h.value .platform, h.negValue .platform, h.value .assigned,
      h.negValue .assigned, h.seen .firstSeen, h.seen .lastSeen, h.seen .timesSeen, h.hasFields,
      h.notHasFields, h.tags, h.negTags, h.terms⟩

/-! ## What a token asks

The clauses of a filter with one token in it. -/

/-- The tokens that are filters: a status that is known, a key other than `bookmarks`, or a word. -/
def Recognised (lib : GoLib) (tok : Token) : Prop :=
  match tok.type with
  | .is | .notIs => normalizeStatus lib tok.value ≠ ""
  | .keyValue | .negatedKeyValue => keyOf (lib.lower tok.key) ≠ .bookmarks
  | .text => True
  | .has | .notHas => False

/-- A token written with `!`. -/
def Token.negated (tok : Token) : Prop := tok.type = .negatedKeyValue ∨ tok.type = .notIs

/-- The token without its `!`. -/
def Token.positive (tok : Token) : Token :=
  match tok.type with
  | .negatedKeyValue => { tok with type := .keyValue }
  | .notIs => { tok with type := .is }
  | _ => tok

/-- The group satisfies the token on its own, and not what the token excludes. -/
def Keeps (lib : GoLib) (escapeLike : String → String) (db : SearchDb) (tok : Token)
    (g : GroupState) : Prop :=
  Satisfies lib escapeLike db (parseTokens lib [tok]) g ∧
    (tok.negated → ¬ Satisfies lib escapeLike db (parseTokens lib [tok.positive]) g)

/-- The value of a token as it is bound in the clause of its key. -/
def boundText (lib : GoLib) (c : Field) (value : String) : String :=
  boundValue lib c (storedValue lib c value)

/-- What a token with a key asks of a group. -/
def KeyAsks (lib : GoLib) (db : SearchDb) (key value : String) (negated : Bool)
    (g : GroupState) : Prop :=
  match keyOf (lib.lower key), negated with
  | .field c, false => value ≠ "" → g.fieldMatches c (boundText lib c value) = true
  | .field c, true => value ≠ "" ∧ g.fieldMatches c (boundText lib c value) = false
  | .seen c, false => SeenHolds db g c value
  | .seen _, true => False
  | .tag, negated => (SearchClause.tag negated ⟨key, value⟩).holds db g = true
  | .bookmarks, _ => True

/-- What a token asks of a group. -/
def Asks (lib : GoLib) (escapeLike : String → String) (db : SearchDb) (tok : Token)
    (g : GroupState) : Prop :=
  match tok.type with
  | .is => g.status = some (normalizeStatus lib tok.value)
  | .notIs => (SearchClause.status true (normalizeStatus lib tok.value)).holds db g = true
  | .keyValue => KeyAsks lib db tok.key tok.value false g
  | .negatedKeyValue => KeyAsks lib db tok.key tok.value true g
  | .text => (SearchClause.term ("%" ++ escapeLike tok.value ++ "%")).holds db g = true
  | .has | .notHas => True

section Single

variable (s : String) (c : Field) (key value : String)

@[simp]
theorem lower_eq_empty : lib.lower s = "" ↔ s = "" := by
  rw [GoLib.lower]
  simp

variable (v : String)

theorem storedValue_eq_empty : storedValue lib c v = "" ↔ v = "" := by
  cases c <;> simp [storedValue]

@[simp]
theorem boundValue_eq_empty : boundValue lib c v = "" ↔ v = "" := by
  cases c <;> simp [boundValue]

theorem boundText_eq_empty : boundText lib c v = "" ↔ v = "" := by
  rw [boundText, boundValue_eq_empty, storedValue_eq_empty]

/-- A filter that asks for something in one place. -/
theorem satisfies_iff_of_empty {P : Prop} (hp : Meets lib escapeLike db f g → P)
    (hmeets : P → Meets lib escapeLike db {} g → Meets lib escapeLike db f g) :
    Satisfies lib escapeLike db f g ↔ P :=
  satisfies_iff_meets.trans ⟨hp, fun h => hmeets h (by constructor <;> simp [SeenHolds])⟩

theorem satisfies_status :
    Satisfies lib escapeLike db { status := s } g ↔ (s ≠ "" → g.status = some s) :=
  satisfies_iff_of_empty (fun h => h.status) fun h hempty => { hempty with status := h }

theorem satisfies_negatedStatus : Satisfies lib escapeLike db { negatedStatuses := [s] } g ↔
      (SearchClause.status true s).holds db g = true :=
  satisfies_iff_of_empty (fun h => h.negatedStatuses s (mem_singleton_self s)) fun h hempty =>
    { hempty with negatedStatuses := forall_mem_singleton.mpr h }

/-- A filter with one value in it: the other places ask nothing. -/
theorem forall_update_empty {ι : Type} [DecidableEq ι] (P : ι → String → Prop)
    (hempty : ∀ c, P c "") (c : ι) (v : String) :
    (∀ c', P c' (update (fun _ => "") c v c')) ↔ P c v := by
  rw [forall_update_iff _ P]
  exact ⟨And.left, fun h => ⟨h, fun c' _ => hempty c'⟩⟩

theorem satisfies_value : Satisfies lib escapeLike db { value := update (fun _ => "") c v } g ↔
      (v ≠ "" → g.fieldMatches c (boundValue lib c v) = true) :=
  Iff.trans (satisfies_iff_of_empty (fun h => h.value) fun h hempty => { hempty with value := h })
    (forall_update_empty (fun c v => v ≠ "" → g.fieldMatches c (boundValue lib c v) = true)
      (fun _ h => absurd rfl h) c v)

theorem satisfies_negValue :
    Satisfies lib escapeLike db { negValue := update (fun _ => "") c v } g ↔
      (v ≠ "" → g.fieldMatches c (boundValue lib c v) = false) :=
  Iff.trans
    (satisfies_iff_of_empty (fun h => h.negValue) fun h hempty => { hempty with negValue := h })
    (forall_update_empty (fun c v => v ≠ "" → g.fieldMatches c (boundValue lib c v) = false)
      (fun _ h => absurd rfl h) c v)

theorem satisfies_seen (c : SeenColumn) (v : String) :
    Satisfies lib escapeLike db { seen := update (fun _ => "") c v } g ↔ SeenHolds db g c v :=
  Iff.trans (satisfies_iff_of_empty (fun h => h.seen) fun h hempty => { hempty with seen := h })
    (forall_update_empty (SeenHolds db g) (fun _ h => absurd rfl h) c v)

theorem satisfies_tag (tf : TagFilter) :
    Satisfies lib escapeLike db { tags := [tf] } g ↔
      (SearchClause.tag false tf).holds db g = true :=
  satisfies_iff_of_empty (fun h => h.tags tf (mem_singleton_self tf)) fun h hempty =>
    { hempty with tags := forall_mem_singleton.mpr h }

theorem satisfies_negTag (tf : TagFilter) :
    Satisfies lib escapeLike db { negTags := [tf] } g ↔
      (SearchClause.tag true tf).holds db g = true :=
  satisfies_iff_of_empty (fun h => h.negTags tf (mem_singleton_self tf)) fun h hempty =>
    { hempty with negTags := forall_mem_singleton.mpr h }

theorem satisfies_term (x : String) :
    Satisfies lib escapeLike db { terms := [x] } g ↔
      (SearchClause.term ("%" ++ escapeLike x ++ "%")).holds db g = true :=
  satisfies_iff_of_empty (fun h => h.terms x (mem_singleton_self x)) fun h hempty =>
    { hempty with terms := forall_mem_singleton.mpr h }

/-- What a token with a key says of a group when it is not negated. -/
theorem satisfies_keyValue (hkey : keyOf (lib.lower key) ≠ .bookmarks) :
    Satisfies lib escapeLike db (assignKeyValue lib {} key value false) g ↔
      KeyAsks lib db key value false g := by
  unfold assignKeyValue KeyAsks
  cases hk : keyOf (lib.lower key) with
  | field c =>
    exact (satisfies_value c (storedValue lib c value)).trans
      (imp_congr (not_congr (storedValue_eq_empty c value)) Iff.rfl)
  | seen c => exact satisfies_seen c value
  | bookmarks => exact absurd hk hkey
  | tag => exact satisfies_tag ⟨key, value⟩

/-- What a negated token with a key says of a group, with what it excludes. -/
theorem satisfies_negatedKeyValue (hkey : keyOf (lib.lower key) ≠ .bookmarks) :
    (Satisfies lib escapeLike db (assignKeyValue lib {} key value true) g ∧
        ¬ Satisfies lib escapeLike db (assignKeyValue lib {} key value false) g) ↔
      KeyAsks lib db key value true g := by
  rw [satisfies_keyValue key value hkey]
  unfold assignKeyValue KeyAsks
  cases hk : keyOf (lib.lower key) with
  | field c =>
    have h : Satisfies lib escapeLike db
        { negValue := update (fun _ => "") c (storedValue lib c value) } g ↔ _ :=
      satisfies_negValue c (storedValue lib c value)
    show Satisfies lib escapeLike db
        { negValue := update (fun _ => "") c (storedValue lib c value) } g ∧ _ ↔ _
    rw [h, Classical.not_imp, Bool.not_eq_true]
    exact ⟨fun h => h.2, fun h => ⟨fun _ => h.2, h⟩⟩
  | seen c =>
    refine iff_of_false ?_ id
    rintro ⟨h, hnot⟩
    exact hnot ((satisfies_seen c value).mp h)
  | bookmarks => exact absurd hk hkey
  | tag =>
    refine ⟨fun h => (satisfies_negTag ⟨key, value⟩).mp h.1,
      fun h => ⟨(satisfies_negTag ⟨key, value⟩).mpr h, ?_⟩⟩
    simp only [SearchClause.holds] at h ⊢
    simpa using h

theorem parseTokens_is (key : String) {value : String} (hknown : normalizeStatus lib value ≠ "") :
    parseTokens lib [⟨.is, key, value⟩] = { status := normalizeStatus lib value } := by
  simp only [parseTokens, foldl_cons, foldl_nil, assignToken, if_pos hknown]

theorem parseTokens_notIs (key : String) {value : String}
    (hknown : normalizeStatus lib value ≠ "") :
    parseTokens lib [⟨.notIs, key, value⟩] =
    { negatedStatuses := [normalizeStatus lib value] } := by
  simp only [parseTokens, foldl_cons, foldl_nil, assignToken, if_pos hknown, nil_append]

theorem not_status_of_negated {s : String} (h : (SearchClause.status true s).holds db g = true) :
    g.status ≠ some s := by
  intro hs
  simp [SearchClause.holds, hs] at h

/-- **A token on its own** is satisfied, and what it excludes is not, when the group has what it
asks. -/
theorem keeps_iff_asks (tok : Token) (hrec : Recognised lib tok) :
    Keeps lib escapeLike db tok g ↔ Asks lib escapeLike db tok g := by
  obtain ⟨type, key, value⟩ := tok
  cases type with
  | text =>
    refine Iff.trans (and_iff_left ?_) (satisfies_term value)
    simp [Token.negated]
  | keyValue =>
    refine Iff.trans (and_iff_left ?_) (satisfies_keyValue key value hrec)
    simp [Token.negated]
  | negatedKeyValue =>
    refine Iff.trans (and_congr_right fun _ => ?_) (satisfies_negatedKeyValue key value hrec)
    exact forall_prop_of_true (.inl rfl)
  | has | notHas => exact absurd hrec id
  | is =>
    unfold Keeps
    rw [parseTokens_is key hrec, satisfies_status]
    refine ⟨fun h => h.1 hrec, fun h => ⟨fun _ => h, ?_⟩⟩
    simp [Token.negated]
  | notIs =>
    have hpos : Token.positive ⟨.notIs, key, value⟩ = ⟨.is, key, value⟩ := rfl
    unfold Keeps
    rw [hpos, parseTokens_is key hrec, parseTokens_notIs key hrec, satisfies_status,
      satisfies_negatedStatus]
    exact ⟨And.left, fun h => ⟨h, fun _ hstatus => not_status_of_negated h (hstatus hrec)⟩⟩

end Single

end Urgentry.Search
