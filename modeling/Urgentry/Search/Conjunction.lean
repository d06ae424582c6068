import Urgentry.Search.Clauses
import Urgentry.Discover.Stored

/-!
# Which tokens of a search are kept

A search reads as a conjunction: a group that is found should satisfy every token on its own, and
should not have what a negated token excludes. The clauses of a filter are joined with `AND`, so
this is a question about `ParseTokens` alone: which tokens are still in the filter when the loop is
over.

Statuses to exclude, tags and words are always kept, since their lists only grow. Each other token
writes one place, and a later token on the same key overwrites it. A token that was overwritten can
still be implied by what stays: it is when the last token on its key asks the same. For a negated
token there are two further ways. A group has one level and one assignee, so that asking for another
one excludes the token's; and a group that is asked to have no assignee has none of the excluded
ones.

Two kinds of token are never kept. A comparison forgets its negation, and so asks for what it should
exclude. A negated key with an empty value writes no clause.

That these are all the tokens that are lost is shown by changing a group that the search finds in
the one column that the token is about (`exists_fieldMatches`, `exists_not_fieldMatches`,
`Meets.withSeen`).

## Main results

* `asks_of_kept`: a kept token is satisfied by every group that the search finds;
* `kept_of_asks`: a token that every group found satisfies is kept;
* `tokens_conjunctive_iff`: the search is a conjunction of its tokens exactly when each of them is
  kept. -/

namespace Urgentry

open List Option Function

/-- No lower case letter of Go's is an upper case letter of ASCII. -/
def GoLib.NoCapitals (lib : GoLib) : Prop := ∀ c, (lib.toLower c).toLower = lib.toLower c

namespace Search

variable {lib : GoLib} {escapeLike : String → String} {db : SearchDb} {f : Filter} {g : GroupState}

/-! ## Tokens that are kept -/

/-- A column of the group, of which a group has one value. -/
def Field.ofGroup : Field → Bool
  | level | assigned => true
  | environment | release | eventType | platform => false

/-- A token asks for groups without an assignee. -/
def AsksUnassigned (lib : GoLib) (tokens : List Token) : Prop :=
  ∃ tok ∈ tokens, tok.type = .notHas ∧ hasFieldToColumn (lib.lower tok.key) = some .assignee

/-- The tokens exclude a value of a key: the last negated one on the key does, or the last one that
asks for a value of a column of the group asks for another, or no assignee is asked for at all. -/
def Excluded (lib : GoLib) (tokens : List Token) (c : Field) (b : String) : Prop :=
  boundValue lib c (lastWrite lib tokens (.negValue c)) = b ∨
    (c.ofGroup = true ∧ lastWrite lib tokens (.value c) ≠ "" ∧
      boundValue lib c (lastWrite lib tokens (.value c)) ≠ b) ∨
    (c = .assigned ∧ AsksUnassigned lib tokens)

/-- `Kept` for a token with a key. -/
def KeyKept (lib : GoLib) (db : SearchDb) (tokens : List Token) (key value : String)
    (negated : Bool) : Prop :=
  match keyOf (lib.lower key), negated with
  | .field c, false =>
    value ≠ "" → boundValue lib c (lastWrite lib tokens (.value c)) = boundText lib c value
  | .field c, true => value ≠ "" ∧ Excluded lib tokens c (boundText lib c value)
  | .seen c, false =>
    ∀ g, SeenHolds db g c (lastWrite lib tokens (.seen c)) → SeenHolds db g c value
  | .seen _, true => False
  | .tag, _ | .bookmarks, _ => True

/-- **A token is kept**: what the last tokens on its key ask implies what it asks. -/
def Kept (lib : GoLib) (db : SearchDb) (tokens : List Token) (tok : Token) : Prop :=
  match tok.type with
  | .is => lastWrite lib tokens .status = normalizeStatus lib tok.value
  | .keyValue => KeyKept lib db tokens tok.key tok.value false
  | .negatedKeyValue => KeyKept lib db tokens tok.key tok.value true
  | .text | .has | .notHas | .notIs => True

section Kept

variable {tokens : List Token}

theorem parseTokens_status : (parseTokens lib tokens).status = lastWrite lib tokens .status :=
  slot_parseTokens tokens .status

@[simp]
theorem parseTokens_value (c : Field) :
    (parseTokens lib tokens).value c = lastWrite lib tokens (.value c) :=
  slot_parseTokens tokens (.value c)

theorem parseTokens_negValue (c : Field) :
    (parseTokens lib tokens).negValue c = lastWrite lib tokens (.negValue c) :=
  slot_parseTokens tokens (.negValue c)

theorem parseTokens_seen (c : SeenColumn) :
    (parseTokens lib tokens).seen c = lastWrite lib tokens (.seen c) :=
  slot_parseTokens tokens (.seen c)

theorem mem_notHasFields_single (tok : Token) (x : String) :
    x ∈ (parseTokens lib [tok]).notHasFields ↔ tok.type = .notHas ∧ lib.lower tok.key = x := by
  obtain ⟨type, key, value⟩ := tok
  simp only [parseTokens, foldl_cons, assignToken, assignKeyValue]
  cases type with
  | is | notIs => by_cases h : normalizeStatus lib value = "" <;> simp [h]
  | keyValue | negatedKeyValue => cases keyOf (lib.lower key) <;> simp
  | notHas => simp [eq_comm]
  | has | text => simp

theorem asksUnassigned_iff :
    AsksUnassigned lib tokens ↔
      ∃ x ∈ (parseTokens lib tokens).notHasFields, hasFieldToColumn x = some .assignee := by
  have hmem (x : String) : x ∈ (parseTokens lib tokens).notHasFields ↔
      ∃ tok ∈ tokens, tok.type = .notHas ∧ lib.lower tok.key = x := by
    rw [mem_parseTokens additive_notHasFields]
    simp only [mem_notHasFields_single]
  simp only [hmem]
  constructor
  · rintro ⟨tok, htok, htype, hcol⟩
    exact ⟨_, ⟨tok, htok, htype, rfl⟩, hcol⟩
  · rintro ⟨x, ⟨tok, htok, htype, rfl⟩, hcol⟩
    exact ⟨tok, htok, htype, hcol⟩

/-- A group has one value in a column of its own. -/
theorem fieldMatches_unique {c : Field} (hc : c.ofGroup = true) {v w : String}
    (hv : g.fieldMatches c v = true) (hne : v ≠ w) : g.fieldMatches c w = false := by
  cases c <;> simp_all [Field.ofGroup, GroupState.fieldMatches]

theorem fieldMatches_assigned_of_none (h : g.presence .assignee = "") {b : String} (hb : b ≠ "") :
    g.fieldMatches .assigned b = false := by
  simp only [GroupState.presence] at h
  simp only [GroupState.fieldMatches, h]
  exact decide_eq_false fun he => hb he.symm

variable (h : Meets lib escapeLike db (parseTokens lib tokens) g)

include h

/-- What excludes a value keeps it from the groups that are found. -/
theorem fieldMatches_of_excluded {c : Field}
    {b : String} (hb : b ≠ "") (hex : Excluded lib tokens c b) : g.fieldMatches c b = false := by
  rcases hex with rfl | ⟨hc, hne, hother⟩ | ⟨rfl, hun⟩
  · have hneg := h.negValue c
    rw [parseTokens_negValue] at hneg
    exact hneg (mt (boundValue_eq_empty c _).mpr hb)
  · have hval := h.value c
    rw [parseTokens_value] at hval
    exact fieldMatches_unique hc (hval hne) hother
  · obtain ⟨x, hx, hcol⟩ := asksUnassigned_iff.mp hun
    exact fieldMatches_assigned_of_none (h.notHasFields x hx _ hcol) hb

theorem keyAsks_of_kept {key value : String} {negated : Bool}
    (htag : keyOf (lib.lower key) = .tag →
      (SearchClause.tag negated ⟨key, value⟩).holds db g = true)
    (hkept : KeyKept lib db tokens key value negated) : KeyAsks lib db key value negated g := by
  unfold KeyKept at hkept
  unfold KeyAsks
  cases hk : keyOf (lib.lower key) with
  | field c =>
    rw [hk] at hkept
    cases negated with
    | false =>
      intro hne
      have hval := h.value c
      rw [parseTokens_value, hkept hne] at hval
      refine hval fun hempty => hne ?_
      rw [← boundText_eq_empty c, ← hkept hne, hempty, boundValue_eq_empty]
    | true =>
      exact ⟨hkept.1,
        fieldMatches_of_excluded h (mt (boundText_eq_empty c value).mp hkept.1) hkept.2⟩
  | seen c =>
    rw [hk] at hkept
    cases negated with
    | false =>
      have hseen := h.seen c
      rw [parseTokens_seen] at hseen
      exact hkept g hseen
    | true => exact hkept
  | bookmarks => trivial
  | tag => exact htag hk

/-- **A kept token is satisfied** by every group that the search finds. -/
theorem asks_of_kept {tok : Token} (htok : tok ∈ tokens)
    (hrec : Recognised lib tok) (hkept : Kept lib db tokens tok) :
    Asks lib escapeLike db tok g := by
  obtain ⟨type, key, value⟩ := tok
  cases type with
  | text =>
    refine h.terms value ((mem_parseTokens additive_terms tokens value).mpr ⟨_, htok, ?_⟩)
    exact mem_singleton_self value
  | keyValue =>
    refine keyAsks_of_kept h (fun hk => h.tags _ ?_) hkept
    refine (mem_parseTokens additive_tags tokens _).mpr ⟨_, htok, ?_⟩
    simp [parseTokens, assignToken, assignKeyValue, hk]
  | negatedKeyValue =>
    refine keyAsks_of_kept h (fun hk => h.negTags _ ?_) hkept
    refine (mem_parseTokens additive_negTags tokens _).mpr ⟨_, htok, ?_⟩
    simp [parseTokens, assignToken, assignKeyValue, hk]
  | has | notHas => trivial
  | is =>
    have hkept' : lastWrite lib tokens .status = normalizeStatus lib value := hkept
    have hstatus := h.status
    rw [parseTokens_status, hkept'] at hstatus
    exact hstatus hrec
  | notIs =>
    refine h.negatedStatuses _
      ((mem_parseTokens additive_negatedStatuses tokens _).mpr ⟨_, htok, ?_⟩)
    rw [parseTokens_notIs key hrec]
    exact mem_singleton_self _

end Kept

/-! ## Groups that a search still finds

For a token that is not kept, a group that the search finds is changed in the one column that the
token is about. The clauses on other columns do not see the change. -/

section Change

variable {c c' : Field} {u b : String}

/-- The group with another value in a column of its own. -/
def GroupState.setColumn (g : GroupState) (c : Field) (u : String) : GroupState :=
  match c with
  | .level => { g with level := some u }
  | .assigned => { g with assignee := some u }
  | .environment | .release | .eventType | .platform => g

theorem fieldMatches_setColumn (hc : c.ofGroup = true) (hu : sqlLower u = u) (b : String) :
    (g.setColumn c u).fieldMatches c b = decide (u = b) := by
  cases c <;> simp_all [Field.ofGroup, GroupState.setColumn, GroupState.fieldMatches]

theorem Meets.setColumn (h : Meets lib escapeLike db f g) (hc : c.ofGroup = true) (hne : u ≠ "")
    (hu : sqlLower u = u) (hv : f.value c ≠ "" → u = boundValue lib c (f.value c))
    (hn : u ≠ boundValue lib c (f.negValue c))
    (hun : c = .assigned → ∀ y ∈ f.notHasFields, hasFieldToColumn y ≠ some .assignee) :
    Meets lib escapeLike db f (g.setColumn c u) := by
  have hother {c' : Field} (hcc : c' ≠ c) (b : String) :
      (g.setColumn c u).fieldMatches c' b = g.fieldMatches c' b := by
    cases c <;> cases c' <;> first | rfl | exact absurd rfl hcc
  constructor
  case value =>
    intro c' hv'
    by_cases hcc : c' = c
    · subst hcc
      rw [fieldMatches_setColumn hc hu]
      exact decide_eq_true (hv hv')
    · rw [hother hcc]
      exact h.value c' hv'
  case negValue =>
    intro c' hn'
    by_cases hcc : c' = c
    · subst hcc
      rw [fieldMatches_setColumn hc hu]
      exact decide_eq_false hn
    · rw [hother hcc]
      exact h.negValue c' hn'
  case hasFields =>
    intro y hy col hcol
    have hold := h.hasFields y hy col hcol
    cases c <;> cases col <;> first | exact hold | exact hne
  case notHasFields =>
    intro y hy col hcol
    have hold := h.notHasFields y hy col hcol
    cases c <;> cases col <;> first | exact hold | exact absurd hcol (hun rfl y hy)
  case seen => exact fun c' => by cases c <;> cases c' <;> exact h.seen _
  case status => cases c <;> exact h.status
  case negatedStatuses => cases c <;> exact h.negatedStatuses
  case tags => cases c <;> exact h.tags
  case negTags => cases c <;> exact h.negTags
  case terms => cases c <;> exact h.terms

/-- The group with one column of another one. -/
def GroupState.withSeen (g : GroupState) (c : SeenColumn) (g' : GroupState) : GroupState :=
  match c with
  | .firstSeen => { g with firstSeen := g'.firstSeen }
  | .lastSeen => { g with lastSeen := g'.lastSeen }
  | .timesSeen => { g with timesSeen := g'.timesSeen }

theorem seenHolds_withSeen (g' : GroupState) (c : SeenColumn) (raw : String) :
    SeenHolds db (g.withSeen c g') c raw ↔ SeenHolds db g' c raw := by
  cases c <;> exact Iff.rfl

theorem Meets.withSeen (h : Meets lib escapeLike db f g) {c : SeenColumn} {g' : GroupState}
    (hseen : SeenHolds db g' c (f.seen c)) : Meets lib escapeLike db f (g.withSeen c g') := by
  have hfield (c' : Field) (v : String) :
      (g.withSeen c g').fieldMatches c' v = g.fieldMatches c' v := by
    cases c <;> cases c' <;> rfl
  have hpresence (col : HasColumn) : (g.withSeen c g').presence col = g.presence col := by
    cases c <;> cases col <;> rfl
  constructor
  case value => exact fun c' => by rw [hfield]; exact h.value c'
  case negValue => exact fun c' => by rw [hfield]; exact h.negValue c'
  case hasFields => exact fun y hy col hcol => by rw [hpresence]; exact h.hasFields y hy col hcol
  case notHasFields =>
    exact fun y hy col hcol => by rw [hpresence]; exact h.notHasFields y hy col hcol
  case seen =>
    intro c'
    by_cases hc : c' = c
    · rw [hc, seenHolds_withSeen]
      exact hseen
    · have hother := h.seen c'
      cases c <;> cases c' <;> first | exact hother | exact absurd rfl hc
  case status => cases c <;> exact h.status
  case negatedStatuses => cases c <;> exact h.negatedStatuses
  case tags => cases c <;> exact h.tags
  case negTags => cases c <;> exact h.negTags
  case terms => cases c <;> exact h.terms

/-! ### The events of a group -/

theorem fieldMatches_of_event (hc : c.ofGroup = false) (g : GroupState) (v : String) :
    g.fieldMatches c v = true ↔ ∃ e ∈ g.events, eventValue c e = some v := by
  cases c <;> simp_all [Field.ofGroup, GroupState.fieldMatches]

theorem fieldMatches_of_event_false (hc : c.ofGroup = false) (g : GroupState) (v : String) :
    g.fieldMatches c v = false ↔ ∀ e ∈ g.events, eventValue c e ≠ some v := by
  rw [← Bool.not_eq_true, fieldMatches_of_event hc]
  simp

/-- The group with other events. -/
theorem Meets.setEvents (h : Meets lib escapeLike db f g) (es : List EventState)
    (hv : ∀ c, c.ofGroup = false → f.value c ≠ "" → ∃ e ∈ es,
      eventValue c e = some (boundValue lib c (f.value c)))
    (hn : ∀ c, c.ofGroup = false → f.negValue c ≠ "" →
      ∀ e ∈ es, eventValue c e ≠ some (boundValue lib c (f.negValue c)))
    (htags : ∀ tf ∈ f.tags, (SearchClause.tag false tf).holds db { g with events := es } = true)
    (hnegTags : ∀ tf ∈ f.negTags,
      (SearchClause.tag true tf).holds db { g with events := es } = true)
    (hterms : ∀ x ∈ f.terms,
      (SearchClause.term ("%" ++ escapeLike x ++ "%")).holds db { g with events := es } = true) :
    Meets lib escapeLike db f { g with events := es } := by
  refine { h with
    value := fun c hne => ?_, negValue := fun c hne => ?_, seen := fun c => ?_, hasFields := ?_,
    notHasFields := ?_, tags := htags, negTags := hnegTags, terms := hterms }
  · cases hc : c.ofGroup with
    | false => exact (fieldMatches_of_event hc _ _).mpr (hv c hc hne)
    | true =>
      have hsame := h.value c hne
      cases c <;> first | exact hsame | cases hc
  · cases hc : c.ofGroup with
    | false => exact (fieldMatches_of_event_false hc _ _).mpr (hn c hc hne)
    | true =>
      have hsame := h.negValue c hne
      cases c <;> first | exact hsame | cases hc
  · cases c <;> exact h.seen _
  · rintro y hy (_ | _) hcol <;> exact h.hasFields y hy _ hcol
  · rintro y hy (_ | _) hcol <;> exact h.notHasFields y hy _ hcol

/-- The event with another value of a key. -/
def setField (c : Field) (u : String) (e : EventState) : EventState :=
  match c with
  | .environment => { e with environment := some u }
  | .release => { e with release := some u }
  | .eventType => { e with eventType := some u }
  | .platform => { e with platform := some u }
  | .level | .assigned => e

theorem eventValue_setField_ne (h : c' ≠ c) (u : String) (e : EventState) :
    eventValue c' (setField c u e) = eventValue c' e := by
  cases c <;> cases c' <;> first | rfl | exact absurd rfl h

theorem setField_texts (c : Field) (u : String) (e : EventState) :
    (setField c u e).tags = e.tags ∧ (setField c u e).title = e.title ∧
      (setField c u e).message = e.message ∧ (setField c u e).culprit = e.culprit := by
  cases c <;> exact ⟨rfl, rfl, rfl, rfl⟩

/-- The event with `u` in place of `b`. -/
def replaceField (c : Field) (b u : String) (e : EventState) : EventState :=
  if eventValue c e = some b then setField c u e else e

theorem replaceField_texts (c : Field) (b u : String) (e : EventState) :
    (replaceField c b u e).tags = e.tags ∧ (replaceField c b u e).title = e.title ∧
      (replaceField c b u e).message = e.message ∧ (replaceField c b u e).culprit = e.culprit := by
  unfold replaceField
  split
  · exact setField_texts c u e
  · exact ⟨rfl, rfl, rfl, rfl⟩

theorem eventValue_replaceField_ne (h : c' ≠ c) (b u : String) (e : EventState) :
    eventValue c' (replaceField c b u e) = eventValue c' e := by
  unfold replaceField
  split
  · exact eventValue_setField_ne h u e
  · rfl

theorem eventValue_replaceField_self (hc : c.ofGroup = false) (hu : sqlLower u = u)
    (e : EventState) :
    eventValue c (replaceField c b u e) = if eventValue c e = some b then some u
      else eventValue c e := by
  unfold replaceField
  split
  · cases c <;> simp_all [Field.ofGroup, eventValue, setField]
  · rfl

/-- **A value taken out of a group**: no event has it, and the search still finds the group. -/
theorem Meets.replace (h : Meets lib escapeLike db f g) (hc : c.ofGroup = false)
    (hu : sqlLower u = u) (hv : f.value c ≠ "" → boundValue lib c (f.value c) ≠ b)
    (hn : u ≠ boundValue lib c (f.negValue c)) :
    Meets lib escapeLike db f { g with events := g.events.map (replaceField c b u) } := by
  refine h.setEvents _ (fun c' hc' hne => ?_) (fun c' hc' hne => ?_) (fun tf htf => ?_)
    (fun tf htf => ?_)
    fun x hx => ?_
  · obtain ⟨e, he, hval⟩ := (fieldMatches_of_event hc' g _).mp (h.value c' hne)
    refine ⟨_, List.mem_map_of_mem he, ?_⟩
    by_cases hcc : c' = c
    · subst hcc
      rw [eventValue_replaceField_self hc hu, hval, if_neg]
      exact fun heq => hv hne (some.inj heq)
    · rw [eventValue_replaceField_ne hcc, hval]
  · have hold := (fieldMatches_of_event_false hc' g _).mp (h.negValue c' hne)
    rw [List.forall_mem_map]
    intro e he
    by_cases hcc : c' = c
    · subst hcc
      rw [eventValue_replaceField_self hc hu]
      split
      · exact fun heq => hn (some.inj heq)
      · exact hold e he
    · rw [eventValue_replaceField_ne hcc]
      exact hold e he
  · have hold := h.tags tf htf
    simp only [SearchClause.holds, List.any_map, comp_def, (replaceField_texts c b u _).1] at hold ⊢
    exact hold
  · have hold := h.negTags tf htf
    simp only [SearchClause.holds, List.any_map, comp_def, (replaceField_texts c b u _).1] at hold ⊢
    exact hold
  · have hold := h.terms x hx
    simp only [SearchClause.holds, List.any_map, comp_def, (replaceField_texts c b u _).2.1,
      (replaceField_texts c b u _).2.2.1, (replaceField_texts c b u _).2.2.2] at hold ⊢
    exact hold

/-- **An event put into a group**: it has nothing that the search excludes. -/
theorem Meets.addEvent (h : Meets lib escapeLike db f g) {e : EventState} (htags : e.tags = [])
    (hn : ∀ c, f.negValue c ≠ "" → eventValue c e ≠ some (boundValue lib c (f.negValue c))) :
    Meets lib escapeLike db f { g with events := e :: g.events } := by
  refine h.setEvents _ (fun c hc hne => ?_) (fun c hc hne => ?_) (fun tf htf => ?_)
    (fun tf htf => ?_)
    fun x hx => ?_
  · obtain ⟨e', he', hval⟩ := (fieldMatches_of_event hc g _).mp (h.value c hne)
    exact ⟨e', mem_cons_of_mem e he', hval⟩
  · exact forall_mem_cons.mpr ⟨hn c hne, (fieldMatches_of_event_false hc g _).mp (h.negValue c hne)⟩
  · have hold := h.tags tf htf
    simp only [SearchClause.holds, any_cons, htags] at hold ⊢
    simpa using hold
  · have hold := h.negTags tf htf
    simp only [SearchClause.holds, any_cons, htags] at hold ⊢
    simpa using hold
  · have hold := h.terms x hx
    simp only [SearchClause.holds, any_cons, Bool.or_eq_true] at hold ⊢
    exact hold.imp_right .inr

/-- A text that is neither of two, in lower case. -/
theorem exists_fresh (a b : String) : ∃ u : String, u ≠ "" ∧ u ≠ a ∧ u ≠ b ∧ sqlLower u = u := by
  have hlen (s : String) (hs : s.toList.length ≤ a.toList.length + b.toList.length) :
      String.ofList (replicate (a.toList.length + b.toList.length + 1) 'x') ≠ s := by
    intro heq
    have := congrArg (fun t : String => t.toList.length) heq
    simp only [String.toList_ofList, length_replicate] at this
    omega
  refine ⟨_, hlen "" (by simp), hlen a (by omega), hlen b (by omega), ?_⟩
  rw [sqlLower, String.toList_ofList, map_replicate]
  rfl

end Change

/-! ## The search as a conjunction -/

section Conjunction

theorem sqlLower_lower (hlib : lib.NoCapitals) (s : String) :
    sqlLower (lib.lower s) = lib.lower s := by
  rw [sqlLower, GoLib.lower, String.toList_ofList, List.map_map]
  exact congrArg String.ofList (map_congr_left fun c _ => hlib c)

theorem eventValue_setField_boundText (hlib : lib.NoCapitals) {c : Field} (hc : c.ofGroup = false)
    (v : String) (e : EventState) :
    eventValue c (setField c (boundText lib c v) e) = some (boundText lib c v) := by
  cases c with
  | level | assigned => cases hc
  | environment | release => rfl
  | eventType | platform => exact congrArg some (sqlLower_lower hlib v)

/-- A value that the last token on the key does not ask for: some group without it is found. -/
theorem exists_not_fieldMatches (h : Meets lib escapeLike db f g) {c : Field} {b : String}
    (hb : b ≠ "") (hw : boundValue lib c (f.value c) ≠ b) :
    ∃ g', Meets lib escapeLike db f g' ∧ g'.fieldMatches c b = false := by
  cases hm : g.fieldMatches c b with
  | false => exact ⟨g, h, hm⟩
  | true =>
    obtain ⟨u, hu, hub, hun, hlow⟩ := exists_fresh b (boundValue lib c (f.negValue c))
    -- a group has one level and one assignee, so the filter asks for none of them here
    have hnone (hc : c.ofGroup = true) : f.value c = "" := by
      by_contra hne
      have := fieldMatches_unique hc (h.value c hne) hw
      rw [hm] at this
      cases this
    cases hc : c.ofGroup with
    | false =>
      refine ⟨_, h.replace hc (b := b) hlow (fun _ => hw) hun, ?_⟩
      rw [fieldMatches_of_event_false hc, List.forall_mem_map]
      intro e _
      rw [eventValue_replaceField_self hc hlow]
      split
      · exact fun heq => hub (some.inj heq)
      · assumption
    | true =>
      refine ⟨_, h.setColumn hc hu hlow (fun hne => absurd (hnone hc) hne) hun ?_, ?_⟩
      · rintro rfl y hy hcol
        have := fieldMatches_assigned_of_none (h.notHasFields y hy _ hcol) hb
        rw [hm] at this
        cases this
      · rw [fieldMatches_setColumn hc hlow]
        exact decide_eq_false hub

/-- A value that nothing excludes: some group with it is found. -/
theorem exists_fieldMatches (hlib : lib.NoCapitals) (h : Meets lib escapeLike db f g) {c : Field}
    {v : String} (hv : v ≠ "") (hn : boundValue lib c (f.negValue c) ≠ boundText lib c v)
    (hw : c.ofGroup = true → f.value c ≠ "" → boundValue lib c (f.value c) = boundText lib c v)
    (hun : c = .assigned → ∀ y ∈ f.notHasFields, hasFieldToColumn y ≠ some .assignee) :
    ∃ g', Meets lib escapeLike db f g' ∧ g'.fieldMatches c (boundText lib c v) = true := by
  cases hc : c.ofGroup with
  | false =>
    obtain ⟨u, -, -, hu, hlow⟩ :=
      exists_fresh "" (boundValue lib .eventType (f.negValue .eventType))
    -- the type of the new event is a fresh one, since an event without a type counts as an error
    refine ⟨_, h.addEvent (e := setField c (boundText lib c v) { eventType := some u }) ?_ ?_, ?_⟩
    · exact (setField_texts c _ _).1
    · intro c' hne
      by_cases hcc : c' = c
      · subst hcc
        rw [eventValue_setField_boundText hlib hc]
        exact fun heq => hn (some.inj heq).symm
      · rw [eventValue_setField_ne hcc]
        cases c' with
        | level | assigned | environment | release => exact some_ne_none _ |>.symm
        | eventType =>
          intro heq
          have htype : sqlLower u = boundValue lib .eventType (f.negValue .eventType) :=
            some.inj heq
          exact hu (hlow ▸ htype)
        | platform =>
          intro heq
          have hempty : "" = boundValue lib .platform (f.negValue .platform) := some.inj heq
          exact hne ((boundValue_eq_empty .platform _).mp hempty.symm)
    · rw [fieldMatches_of_event hc]
      exact ⟨_, mem_cons_self, eventValue_setField_boundText hlib hc v _⟩
  | true =>
    have hlow : sqlLower (boundText lib c v) = boundText lib c v := by
      cases c with
      | level | assigned => exact sqlLower_lower hlib v
      | _ => cases hc
    have hne : boundText lib c v ≠ "" := mt (boundText_eq_empty c v).mp hv
    refine ⟨_, h.setColumn hc hne hlow (fun hw' => (hw hc hw').symm) hn.symm hun, ?_⟩
    rw [fieldMatches_setColumn hc hlow, decide_eq_true_eq]

variable {tokens : List Token}

theorem keyKept_of_asks (hlib : lib.NoCapitals)
    (h : Meets lib escapeLike db (parseTokens lib tokens) g) {key value : String} {negated : Bool}
    (hall : ∀ g, Meets lib escapeLike db (parseTokens lib tokens) g →
      KeyAsks lib db key value negated g) :
    KeyKept lib db tokens key value negated := by
  unfold KeyAsks at hall
  unfold KeyKept
  cases hk : keyOf (lib.lower key) with
  | field c =>
    rw [hk] at hall
    cases negated with
    | false =>
      intro hne
      by_contra hw
      rw [← parseTokens_value] at hw
      obtain ⟨g', h', hnot⟩ := exists_not_fieldMatches h (mt (boundText_eq_empty c value).mp hne) hw
      have := hall g' h' hne
      rw [hnot] at this
      cases this
    | true =>
      have hne : value ≠ "" := (hall g h).1
      refine ⟨hne, ?_⟩
      by_contra hex
      simp only [Excluded, not_or, not_and, not_not] at hex
      obtain ⟨hn, hw, hun⟩ := hex
      rw [← parseTokens_negValue] at hn
      simp only [← parseTokens_value] at hw
      have hunassigned (hc : c = .assigned) (y : String)
        (hy : y ∈ (parseTokens lib tokens).notHasFields) :
          hasFieldToColumn y ≠ some .assignee :=
        fun hcol => hun hc (asksUnassigned_iff.mpr ⟨y, hy, hcol⟩)
      obtain ⟨g', h', hmatch⟩ := exists_fieldMatches hlib h hne hn hw hunassigned
      have := (hall g' h').2
      rw [hmatch] at this
      cases this
  | seen c =>
    rw [hk] at hall
    cases negated with
    | false =>
      intro g' hseen
      rw [← parseTokens_seen] at hseen
      exact (seenHolds_withSeen g' c value).mp (hall _ (h.withSeen hseen))
    | true => exact hall g h
  | bookmarks | tag => trivial

/-- **A token that every group found satisfies is kept**, if a group is found. -/
theorem kept_of_asks (hlib : lib.NoCapitals)
    (h : Meets lib escapeLike db (parseTokens lib tokens) g) {tok : Token} (htok : tok ∈ tokens)
    (hrec : Recognised lib tok) (hall : ∀ g, Meets lib escapeLike db (parseTokens lib tokens) g →
      Asks lib escapeLike db tok g) :
    Kept lib db tokens tok := by
  obtain ⟨type, key, value⟩ := tok
  cases type with
  | text | has | notHas | notIs => trivial
  | keyValue | negatedKeyValue => exact keyKept_of_asks hlib h hall
  | is =>
    have hasked : g.status = some (normalizeStatus lib value) := hall g h
    rw [h.status (status_parseTokens_ne htok rfl hrec)] at hasked
    exact parseTokens_status.symm.trans (some.inj hasked)

/-- **A search is the conjunction of its tokens** exactly when each of its filters is kept, or when
it finds no group whatever. -/
theorem tokens_conjunctive_iff (hlib : lib.NoCapitals) (escapeLike : String → String)
    (db : SearchDb) (tokens : List Token) :
    (∀ g, Satisfies lib escapeLike db (parseTokens lib tokens) g →
        ∀ tok ∈ tokens, Recognised lib tok → Keeps lib escapeLike db tok g) ↔
      (∀ g, ¬ Satisfies lib escapeLike db (parseTokens lib tokens) g) ∨
        ∀ tok ∈ tokens, Recognised lib tok → Kept lib db tokens tok := by
  simp only [satisfies_iff_meets]
  constructor
  · intro hall
    by_cases hex : ∃ g, Meets lib escapeLike db (parseTokens lib tokens) g
    · obtain ⟨g, hg⟩ := hex
      refine .inr fun tok htok hrec => kept_of_asks hlib hg htok hrec fun g' hg' => ?_
      exact (keeps_iff_asks tok hrec).mp (hall g' hg' tok htok hrec)
    · exact .inl fun g hg => hex ⟨g, hg⟩
  · rintro (hnone | hkept) g hg tok htok hrec
    · exact absurd hg (hnone g)
    · exact (keeps_iff_asks tok hrec).mpr (asks_of_kept hg htok hrec (hkept tok htok hrec))

/-- A database for searches without words and numbers. -/
def plainDb : SearchDb where
  like _ _ := false
  compareNumber _ _ := .eq

/-- `level:error !level:debug !Level:INFO`: the second token is overwritten, but the first one
implies it. -/
def keptLevels : List Token :=
  [⟨.keyValue, "level", "error"⟩, ⟨.negatedKeyValue, "level", "debug"⟩,
    ⟨.negatedKeyValue, "Level", "INFO"⟩]

theorem keptLevels_conjunctive : asciiLib.NoCapitals ∧
    ∀ g, Satisfies asciiLib id plainDb (parseTokens asciiLib keptLevels) g →
      ∀ tok ∈ keptLevels, Recognised asciiLib tok → Keeps asciiLib id plainDb tok g := by
  have hlib : asciiLib.NoCapitals := Discover.asciiLib_lawful.toLower_toLower
  refine ⟨hlib, (tokens_conjunctive_iff hlib id plainDb keptLevels).mpr (.inr ?_)⟩
  simp only [keptLevels, forall_mem_cons]
  refine ⟨fun _ _ => ?_, fun _ => ⟨by decide, .inr (.inl ⟨rfl, ?_, ?_⟩)⟩,
    fun _ => ⟨by decide, .inl ?_⟩, forall_mem_nil _⟩
  all_goals decide +kernel

/-- `level:error level:warning`. -/
def twoLevels : List Token := [⟨.keyValue, "level", "error"⟩, ⟨.keyValue, "level", "warning"⟩]

/-- **The first of two levels is lost**: a group of the second one is found. -/
theorem twoLevels_not_conjunctive :
    Satisfies asciiLib id plainDb (parseTokens asciiLib twoLevels) { level := some "warning" } ∧
      ¬ Satisfies asciiLib id plainDb (parseTokens asciiLib [⟨.keyValue, "level", "error"⟩])
        { level := some "warning" } := by
  decide +kernel

end Conjunction

end Search

end Urgentry
