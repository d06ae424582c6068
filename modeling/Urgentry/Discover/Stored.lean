import Urgentry.Discover.Validate

/-!
# Stored queries

A query is validated when a client sends it, when it is stored, when it is read back, and by the
engine that executes it. Each time it is normalised again. So a query that was accepted once has to
be accepted again, as the same query at the same cost.

That normalising twice is normalising once comes down to the functions on texts: trimming a trimmed
text changes nothing, and neither does lower-casing a lower-case one. The second is a property of
the tables of the library, and so is that lower-casing makes no spaces; they are the assumption of
this module (`GoLib.Lawful`). The other rules fill in defaults that are left alone the next time.

## Main results

* `normalizeQuery_normalizeQuery`: normalising is idempotent;
* `accepted_query_stable`: an accepted query is a fixed point of validation, and is read back from
  storage. -/

namespace Urgentry

open GoText List

/-- What is assumed of `unicode.ToLower`. -/
structure GoLib.Lawful (lib : GoLib) : Prop where
  toLower_toLower : ∀ c, lib.toLower (lib.toLower c) = lib.toLower c
  isSpace_toLower : ∀ c, isSpace (lib.toLower c) = isSpace c
  toLower_of_isLower : ∀ c : Char, c.isLower = true → lib.toLower c = c

namespace GoLib.Lawful

variable {lib : GoLib} (h : lib.Lawful) (s : String)

include h

theorem lower_lower : lib.lower (lib.lower s) = lib.lower s := by
  rw [GoLib.lower, GoLib.lower, String.toList_ofList, map_map]
  exact congrArg String.ofList (map_congr_left fun c _ => h.toLower_toLower c)

theorem trimSpace_lower : trimSpace (lib.lower s) = lib.lower (trimSpace s) := by
  have hspace : isSpace ∘ lib.toLower = isSpace := funext h.isSpace_toLower
  rw [GoLib.lower, trimSpace, trimSpace, GoLib.lower, String.toList_ofList, String.toList_ofList,
    trim, trim, dropWhile_map, ← map_reverse, dropWhile_map, hspace, map_reverse]

theorem canonical_canonical : lib.canonical (lib.canonical s) = lib.canonical s := by
  rw [GoLib.canonical, GoLib.canonical, h.trimSpace_lower, trimSpace_trimSpace, h.lower_lower]

/-- A word of lower-case letters is canonical. -/
theorem canonical_of_isLower {s : String} (hs : s.toList.all Char.isLower = true)
    (htrim : trimSpace s = s) : lib.canonical s = s := by
  rw [all_eq_true] at hs
  rw [GoLib.canonical, htrim, GoLib.lower,
    map_congr_left fun c hc => h.toLower_of_isLower c (hs c hc),
    map_id', String.ofList_toList]

end GoLib.Lawful

namespace Discover

open GoText (trimSpace trimSpace_trimSpace)

section Normalize

variable {lib : GoLib}

mutual

theorem normalizeExpr_normalizeExpr (hlib : lib.Lawful) :
    ∀ e : Expression, normalizeExpr lib (normalizeExpr lib e) = normalizeExpr lib e
  | .mk field call args aliasName => by
    rw [normalizeExpr, normalizeExpr, hlib.canonical_canonical, hlib.canonical_canonical,
      normalizeExprs_normalizeExprs hlib args, trimSpace_trimSpace]

theorem normalizeExprs_normalizeExprs (hlib : lib.Lawful) :
    ∀ es : List Expression, normalizeExprs lib (normalizeExprs lib es) = normalizeExprs lib es
  | [] => by rw [normalizeExprs, normalizeExprs]
  | e :: es => by
    rw [normalizeExprs, normalizeExprs, normalizeExpr_normalizeExpr hlib e,
      normalizeExprs_normalizeExprs hlib es]

end

mutual

theorem normalizePredicate_normalizePredicate (hlib : lib.Lawful) :
    ∀ p : Predicate, normalizePredicate lib (normalizePredicate lib p) = normalizePredicate lib p
  | .mk op args field value values => by
    have hvalues : (values.map trimSpace).map trimSpace = values.map trimSpace := by
      rw [map_map]
      exact map_congr_left fun s _ => trimSpace_trimSpace s
    rw [normalizePredicate, normalizePredicate, hlib.canonical_canonical, hlib.canonical_canonical,
      normalizePredicates_normalizePredicates hlib args, trimSpace_trimSpace, hvalues]

theorem normalizePredicates_normalizePredicates (hlib : lib.Lawful) :
    ∀ ps : List Predicate,
      normalizePredicates lib (normalizePredicates lib ps) = normalizePredicates lib ps
  | [] => by rw [normalizePredicates, normalizePredicates]
  | p :: ps => by
    rw [normalizePredicates, normalizePredicates, normalizePredicate_normalizePredicate hlib p,
      normalizePredicates_normalizePredicates hlib ps]

end

/-- A default that is canonical is left alone the next time. -/
theorem orDefault_canonical (hlib : lib.Lawful) {default : String}
    (hdefault : lib.canonical default = default) (s : String) :
    orDefault (lib.canonical (orDefault (lib.canonical s) default)) default =
      orDefault (lib.canonical s) default := by
  by_cases hs : lib.canonical s = ""
  · rw [orDefault, orDefault, if_pos hs, hdefault, ite_self]
  · rw [orDefault, orDefault, if_neg hs, hlib.canonical_canonical, if_neg hs]

end Normalize

/-- The project ids are trimmed, not empty, distinct and in order, so doing that again changes
nothing. -/
theorem normalizeProjectIds_normalizeProjectIds (ids : List String) :
    normalizeProjectIds (normalizeProjectIds ids) = normalizeProjectIds ids := by
  have hmem : ∀ s ∈ normalizeProjectIds ids, trimSpace s = s ∧ s ≠ "" := by
    intro s hs
    rw [normalizeProjectIds, mem_mergeSort, mem_dedup, mem_filter] at hs
    obtain ⟨hs, hne⟩ := hs
    obtain ⟨t, -, rfl⟩ := mem_map.mp hs
    exact ⟨trimSpace_trimSpace t, of_decide_eq_true hne⟩
  have htrim : (normalizeProjectIds ids).map trimSpace = normalizeProjectIds ids := by
    rw [map_congr_left fun s hs => (hmem s hs).1, map_id']
  have hfilter : (normalizeProjectIds ids).filter (· ≠ "") = normalizeProjectIds ids :=
    filter_eq_self.mpr fun s hs => decide_eq_true (hmem s hs).2
  have hnodup : (normalizeProjectIds ids).Nodup :=
    (mergeSort_perm _ _).nodup_iff.mpr (nodup_dedup _)
  have hsorted : (normalizeProjectIds ids).Pairwise fun a b => decide (a ≤ b) = true := by
    refine pairwise_mergeSort ?_ ?_ _
    · intro a b c hab hbc
      exact decide_eq_true (le_trans (of_decide_eq_true hab) (of_decide_eq_true hbc))
    · intro a b
      rw [Bool.or_eq_true, decide_eq_true_iff, decide_eq_true_iff]
      exact le_total a b
  rw [normalizeProjectIds, htrim, hfilter, hnodup.dedup, mergeSort_of_pairwise hsorted]

section Query

variable {lib : GoLib} (hlib : lib.Lawful)

include hlib

/-- **Normalising is idempotent.** -/
theorem normalizeQuery_normalizeQuery (q : Query) :
    normalizeQuery lib (normalizeQuery lib q) = normalizeQuery lib q := by
  have hasc := hlib.canonical_of_isLower (s := "asc") (by decide) (by decide)
  have hlast := hlib.canonical_of_isLower (s := "last") (by decide) (by decide)
  simp only [normalizeQuery, hlib.canonical_canonical, trimSpace_trimSpace,
    normalizeProjectIds_normalizeProjectIds, map_map, Option.map_map, Function.comp_def,
    normalizeExpr_normalizeExpr hlib, normalizePredicate_normalizePredicate hlib,
    orDefault_canonical hlib hasc, orDefault_canonical hlib hlast]
  congr 1
  split_ifs <;> omega

/-- So is filling in the limit. -/
theorem preparedQuery_preparedQuery (q : Query) :
    preparedQuery lib (preparedQuery lib q) = preparedQuery lib q := by
  -- the limit is the only thing that the two functions both set
  have hother : ∀ (n : Query) (limit : ℤ), normalizeQuery lib { n with limit } =
      { normalizeQuery lib n with limit := if limit = 0 then 50 else limit } := fun _ _ => rfl
  unfold preparedQuery
  dsimp only
  rw [hother, normalizeQuery_normalizeQuery hlib]
  congr 1
  dsimp only
  split_ifs <;> omega

/-- **An accepted query is a fixed point** of validation. -/
theorem validateQuery_validateQuery {q q' : Query} {cost : CostEstimate}
    (h : validateQuery lib q = .ok (q', cost)) : validateQuery lib q' = .ok (q', cost) := by
  obtain ⟨hq', hcost, herrs⟩ := (validateQuery_eq_ok lib).mp h
  refine (validateQuery_eq_ok lib).mpr ⟨?_, hcost, herrs⟩
  rw [hq', preparedQuery_preparedQuery hlib]

end Query

/-! ## Storage -/

/-- The part of `encoding/json` that is used: a query that is written is read back. Slices are lists
here, so `nil` and an empty slice are the same. -/
structure QueryCodec where
  Bytes : Type
  marshal : Query → Except String Bytes
  decode : Bytes → Except String Query
  decode_marshal : ∀ q, ∃ data, marshal q = .ok data ∧ decode data = .ok q

/-- The errors of `MarshalQuery` and `UnmarshalQuery`. -/
inductive QueryError
  | invalid (errs : List ValidationError)
  | failed (message : String)

section Storage

variable (lib : GoLib) (codec : QueryCodec)

/-- `MarshalQuery`. -/
def marshalQuery (q : Query) : Except QueryError codec.Bytes :=
  match validateQuery lib q with
  | .error errs => .error (.invalid errs)
  | .ok (normalized, _) => (codec.marshal normalized).mapError .failed

/-- `UnmarshalQuery`. -/
def unmarshalQuery (data : codec.Bytes) : Except QueryError (Query × CostEstimate) :=
  match codec.decode data with
  | .error e => .error (.failed ("decode discover query: " ++ e))
  | .ok q => (validateQuery lib q).mapError .invalid

variable {lib codec}

/-- **Accepted queries are stable.** Validating the result of a validation gives the same query at
the same cost, and so does reading back what was stored. -/
theorem accepted_query_stable (hlib : lib.Lawful) {q q' : Query} {cost : CostEstimate}
    (h : validateQuery lib q = .ok (q', cost)) :
    validateQuery lib q' = .ok (q', cost) ∧
      (marshalQuery lib codec q >>= unmarshalQuery lib codec) = .ok (q', cost) := by
  have hagain := validateQuery_validateQuery hlib h
  obtain ⟨data, hmarshal, hdecode⟩ := codec.decode_marshal q'
  have hstore : marshalQuery lib codec q = .ok data := by
    rw [marshalQuery, h]
    dsimp only
    rw [hmarshal]
    rfl
  have hload : unmarshalQuery lib codec data = .ok (q', cost) := by
    rw [unmarshalQuery, hdecode]
    dsimp only
    rw [hagain]
    rfl
  refine ⟨hagain, ?_⟩
  rw [hstore]
  exact hload

end Storage

/-! ## A query as a client may write it -/

/-- A property of the capital letters, checked one by one. -/
theorem capital_forall {P : Char → Prop} (h : ∀ n < 26, P (Char.ofNat (65 + n))) {c : Char}
    (hc : c.val ≥ 'A'.val ∧ c.val ≤ 'Z'.val) : P c := by
  have hlow : 65 ≤ c.toNat := UInt32.le_iff_toNat_le.mp hc.1
  have hhigh : c.toNat ≤ 90 := UInt32.le_iff_toNat_le.mp hc.2
  have hchar := h (c.toNat - 65) (by omega)
  rwa [Nat.add_sub_cancel' hlow, Char.ofNat_toNat] at hchar

theorem asciiLib_lawful : asciiLib.Lawful where
  toLower_toLower c := by
    show c.toLower.toLower = c.toLower
    by_cases hc : c.val ≥ 'A'.val ∧ c.val ≤ 'Z'.val
    · exact capital_forall (P := fun c => c.toLower.toLower = c.toLower) (by decide) hc
    · have hsame : c.toLower = c := dif_neg hc
      rw [hsame, hsame]
  isSpace_toLower c := by
    show isSpace c.toLower = isSpace c
    by_cases hc : c.val ≥ 'A'.val ∧ c.val ≤ 'Z'.val
    · exact capital_forall (P := fun c => isSpace c.toLower = isSpace c) (by decide) hc
    · have hsame : c.toLower = c := dif_neg hc
      rw [hsame]
  toLower_of_isLower c hc := by
    refine dif_neg fun hcapital => ?_
    exact capital_forall (P := fun c => c.isLower = true → False) (by decide) hcapital hc

/-- Keeping the query itself. -/
def sameQuery : QueryCodec := ⟨Query, .ok, .ok, fun q => ⟨q, rfl, rfl⟩⟩

/-- A search with capitals, blanks and no limit. -/
def untidy : Query where
  dataset := " Logs"
  scope := { kind := "Organization", organization := "acme ", projectIds := [" p1"] }
  filter := some (.mk "AND" [.mk "contains" [] "Message" " timeout" []] "" "" [])
  orderBy := []
  timeRange := some { kind := "Relative", value := " 24h" }

theorem untidy_stable :
    ∃ q cost, validateQuery asciiLib untidy = .ok (q, cost) ∧
      validateQuery asciiLib q = .ok (q, cost) ∧
      (marshalQuery asciiLib sameQuery untidy >>= unmarshalQuery asciiLib sameQuery) =
        .ok (q, cost) := by
  have h : validateQuery asciiLib untidy = .ok (preparedQuery asciiLib untidy, _) :=
    (validateQuery_eq_ok asciiLib).mpr ⟨rfl, rfl, by decide +kernel⟩
  exact ⟨_, _, h, accepted_query_stable asciiLib_lawful h⟩

end Discover

end Urgentry
