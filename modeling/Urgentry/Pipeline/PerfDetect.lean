import Mathlib.Data.List.SplitBy
import Urgentry.GoLib

/-!
# Repeated spans

Two detectors look through the spans of a transaction for runs: database queries of one template,
and requests to one host. They go through the spans with two indices, one at the start of a run and
one that moves to its end. A run that is too short is passed over as a whole, and the span that ends
a run is looked at again as the start of the next one.

The runs are those of `List.splitBy`, which cuts a list into the longest pieces whose neighbours are
related. A span of another kind is related to none, so it is a piece of its own, too short for both
detectors.

## Main results

* `detectRuns_reports`: the loop reports the maximal runs of spans with an op and a common part;
* `issues_of_runs`: what that says of the two detectors.
-/

namespace Urgentry.PerfDetect

open GoText List

/-- The library functions that the detectors use. -/
structure PerfLib extends GoLib where
  /-- `reQueryLiterals.ReplaceAllString(s, "?")`. -/
  replaceLiterals : String → String
  /-- The host of `url.Parse(s)`, if it returns no error. -/
  urlHost : String → Option String

/-- The fields of `normalize.Span` that the detectors read. -/
structure Span where
  (spanID parentSpanID op description : String)

structure PerfIssue where
  (type description : String)
  spanIDs : List String
  parentSpanID : String
deriving DecidableEq

variable (lib : PerfLib)

/-- `queryTemplate`. -/
def queryTemplate (desc : String) : String :=
  trimSpace (lib.replaceLiterals (lib.lower desc))

/-- What follows the first `//`. -/
def afterSlashes : List Char → Option (List Char)
  | '/' :: '/' :: rest => some rest
  | _ :: rest => afterSlashes rest
  | [] => none

/-- `extractHost`. -/
def extractHost (rawURL : String) : String :=
  match (lib.urlHost rawURL).filter (· ≠ "") with
  | some host => host
  | none =>
    match afterSlashes rawURL.toList with
    | some rest => String.ofList (rest.takeWhile (· ≠ '/'))
    | none => rawURL

/-- The loop of a detector. The key of a span is what the spans of a run have in common; a span of
another kind has none. -/
def detectRuns (key : Span → Option String) (threshold : ℕ) (issue : Span → List Span → PerfIssue) :
    List Span → List PerfIssue
  | [] => []
  | s :: rest =>
    match key s with
    | none => detectRuns key threshold issue rest
    | some k =>
      let run := s :: rest.takeWhile (key · = some k)
      let issues := detectRuns key threshold issue (rest.dropWhile (key · = some k))
      if threshold ≤ run.length then issue s run :: issues else issues
termination_by spans => spans.length
decreasing_by
  · simp
  · exact Nat.lt_succ_of_le (List.dropWhile_sublist _).length_le

variable (s : Span)

/-- The key of a span with an op: what its description has in common with others. -/
def spanKey (op : String) (common : String → String) : Option String :=
  if s.op = op then some (common s.description) else none

/-- The key of a database span. -/
def dbKey : Option String := spanKey s "db" (queryTemplate lib)

/-- The issue of a run that starts with `s`. -/
def nPlusOneIssue (run : List Span) : PerfIssue where
  type := "n_plus_one_db"
  description := trimSpace (" ".intercalate
    ["N+1 DB query detected:", s.description, "repeated", toString run.length, "times"])
  spanIDs := run.map (·.spanID)
  parentSpanID := s.parentSpanID

/-- `detectNPlusOneDB`. -/
def detectNPlusOneDB : List Span → List PerfIssue :=
  detectRuns (dbKey lib) 5 nPlusOneIssue

/-- The key of a request. -/
def httpKey : Option String := spanKey s "http.client" (extractHost lib)

/-- The issue of a run that starts with `s`. -/
def consecutiveHTTPIssue (run : List Span) : PerfIssue where
  type := "consecutive_http"
  description := trimSpace (" ".intercalate ["Consecutive HTTP requests to",
    extractHost lib s.description, "could be parallelized (", toString run.length, "spans)"])
  spanIDs := run.map (·.spanID)
  parentSpanID := s.parentSpanID

/-- `detectConsecutiveHTTP`. -/
def detectConsecutiveHTTP : List Span → List PerfIssue :=
  detectRuns (httpKey lib) 3 (consecutiveHTTPIssue lib)

/-! ## Maximal runs -/

/-- The spans can be neighbours in a run: both have the key. -/
def sameRun (key : Span → Option String) (s s' : Span) : Bool := (key s).isSome && key s = key s'

/-- The issue of a run, if it is long enough. -/
def report (threshold : ℕ) (issue : Span → List Span → PerfIssue) : List Span → Option PerfIssue
  | [] => none
  | s :: rest => if threshold ≤ rest.length + 1 then some (issue s (s :: rest)) else none

variable {key : Span → Option String} {threshold : ℕ} {issue : Span → List Span → PerfIssue}

/-- The first maximal run. -/
theorem splitBy_sameRun_cons (key : Span → Option String) (s : Span) (rest : List Span) :
    (s :: rest).splitBy (sameRun key) = (s :: rest.takeWhile (sameRun key s)) ::
      (rest.dropWhile (sameRun key s)).splitBy (sameRun key) := by
  have hrun (x : Span) (hx : x ∈ s :: rest.takeWhile (sameRun key s)) : key x = key s := by
    rcases mem_cons.mp hx with rfl | hx
    · rfl
    · have hsame := mem_takeWhile_imp hx
      simp only [sameRun, Bool.and_eq_true, decide_eq_true_eq] at hsame
      exact hsame.2.symm
  have hchain : (s :: rest.takeWhile (sameRun key s)).IsChain fun x y => sameRun key x y := by
    refine List.Pairwise.isChain (pairwise_cons.mpr ⟨fun y hy => mem_takeWhile_imp hy, ?_⟩)
    refine pairwise_of_forall_mem_list fun x hx y hy => ?_
    have hsome := mem_takeWhile_imp hy
    simp only [sameRun, hrun x (.tail _ hx)] at hsome ⊢
    exact hsome
  have hend : ∀ x ∈ (s :: rest.takeWhile (sameRun key s)).getLast?,
      ∀ y ∈ (rest.dropWhile (sameRun key s)).head?, sameRun key x y = false := by
    intro x hx y hy
    have hnot := head?_dropWhile_not (sameRun key s) rest
    rw [Option.mem_def.mp hy] at hnot
    simpa only [sameRun, hrun x (mem_of_getLast? hx)] using hnot
  conv_lhs => rw [← takeWhile_append_dropWhile (p := sameRun key s) (l := rest), ← cons_append]
  rw [splitBy_append hend, splitBy_of_isChain (cons_ne_nil _ _) hchain, singleton_append]

/-- **The loop finds the maximal runs.** -/
theorem detectRuns_eq (hthreshold : 2 ≤ threshold) (spans : List Span) :
    detectRuns key threshold issue spans =
      (spans.splitBy (sameRun key)).filterMap (report threshold issue) := by
  have hsame {s : Span} {k : String} (hkey : key s = some k) :
      sameRun key s = fun s' => decide (key s' = some k) := by
    funext s'
    simp [sameRun, hkey, eq_comm]
  fun_induction detectRuns key threshold issue spans with
  | case1 => rfl
  | case2 s rest hkey ih =>
    -- a span of another kind is a run of one, and no detector reports it
    have hnone : sameRun key s = fun _ => false := by
      funext s'
      simp [sameRun, hkey]
    have hshort : report threshold issue (s :: rest.takeWhile fun _ => false) = none := by
      cases rest <;> exact if_neg (Nat.not_le.mpr hthreshold)
    rw [splitBy_sameRun_cons, hnone, filterMap_cons_none hshort, ih]
    cases rest <;> rfl
  | case3 s rest k hkey run issues hlong ih =>
    have hreport : report threshold issue run = some (issue s run) := if_pos hlong
    rw [splitBy_sameRun_cons, hsame hkey, filterMap_cons_some hreport, ← ih]
  | case4 s rest k hkey run issues hshort ih =>
    have hreport : report threshold issue run = none := if_neg hshort
    rw [splitBy_sameRun_cons, hsame hkey, filterMap_cons_none hreport, ← ih]

/-- A span is in one issue at most. -/
theorem spanIDs_sublist (hids : ∀ s run, (issue s run).spanIDs = run.map (·.spanID))
    (spans : List Span) :
    ((detectRuns key threshold issue spans).flatMap (·.spanIDs)).Sublist
      (spans.map (·.spanID)) := by
  fun_induction detectRuns key threshold issue spans with
  | case1 => exact .slnil
  | case2 s rest hkey ih => exact ih.cons _
  | case3 s rest k hkey run issues hlong ih =>
    have hspans : s :: rest = run ++ rest.dropWhile (key · = some k) := by simp [run]
    rw [flatMap_cons, hids, hspans, map_append]
    exact (Sublist.refl _).append ih
  | case4 s rest k hkey run issues hshort ih =>
    exact ih.trans (((dropWhile_sublist _).map _).cons _)

/-! ## What is reported -/

/-- Two spans can be neighbours in a run: both have the op, and their descriptions have the same in
common. -/
def related (op : String) (common : String → String) (s s' : Span) : Bool :=
  s.op = op ∧ s'.op = op ∧ common s.description = common s'.description

/-- **The maximal runs** of at least some length: the list is cut into the longest pieces whose
neighbours are related. -/
def maximalRuns (op : String) (common : String → String) (least : ℕ) (spans : List Span) :
    List (List Span) :=
  (spans.splitBy (related op common)).filter (least ≤ ·.length)

/-- **An issue reports a run**: it has the ids of the run, in order, and the parent of its first
span. -/
structure Reports (type : String) (issue : PerfIssue) (run : List Span) : Prop where
  type : issue.type = type
  spanIDs : issue.spanIDs = run.map (·.spanID)
  parentSpanID : ∀ s ∈ run.head?, issue.parentSpanID = s.parentSpanID

variable {op type : String} {common : String → String} {least : ℕ} {spans run : List Span}

theorem sameRun_spanKey : sameRun (spanKey · op common) = related op common := by
  funext s s'
  by_cases hs : s.op = op <;> by_cases hs' : s'.op =
    op <;> simp [sameRun, spanKey, related, hs, hs']

/-- All spans of a run have the op, and their descriptions the same in common. -/
theorem exists_common (hleast : 2 ≤ least) (h : run ∈ maximalRuns op common least spans) :
    ∃ part, ∀ s ∈ run, s.op = op ∧ common s.description = part := by
  obtain ⟨hrun, hlength⟩ := mem_filter.mp h
  have hchain := isChain_of_mem_splitBy hrun
  have htrans : IsTrans Span fun s s' => related op common s s' = true :=
    ⟨fun a b c hab hbc => by grind [related]⟩
  have hpairs := hchain.pairwise
  match run, hlength, hpairs with
  | [], hlength, _ => exact absurd (hleast.trans (of_decide_eq_true hlength)) (by simp)
  | [_], hlength, _ => exact absurd (hleast.trans (of_decide_eq_true hlength)) (by simp)
  | a :: b :: rest, _, hpairs =>
    have hfirst := (pairwise_cons.mp hpairs).1
    simp only [related, decide_eq_true_eq] at hfirst
    refine ⟨common a.description, forall_mem_cons.mpr ⟨⟨(hfirst b mem_cons_self).1, rfl⟩, ?_⟩⟩
    exact fun s hs => ⟨(hfirst s hs).2.1, (hfirst s hs).2.2.symm⟩

/-- **The loop reports the maximal runs.** -/
theorem detectRuns_reports (hissue : ∀ s rest, Reports type (issue s (s :: rest)) (s :: rest))
    (hthreshold : 2 ≤ threshold) (spans : List Span) :
    Forall₂ (Reports type) (detectRuns (spanKey · op common) threshold issue spans)
      (maximalRuns op common threshold spans) := by
  rw [detectRuns_eq hthreshold, sameRun_spanKey, maximalRuns]
  induction spans.splitBy (related op common) with
  | nil => exact .nil
  | cons run runs ih =>
    cases run with
    | nil =>
      rw [filterMap_cons_none rfl, filter_cons_of_neg (by simp; omega)]
      exact ih
    | cons s rest =>
      by_cases hlong : threshold ≤ rest.length + 1
      · have hreport : report threshold issue (s :: rest) = some (issue s (s :: rest)) :=
          if_pos hlong
        rw [filterMap_cons_some hreport, filter_cons_of_pos (by simpa using hlong)]
        exact .cons (hissue s rest) ih
      · have hreport : report threshold issue (s :: rest) = none := if_neg hlong
        rw [filterMap_cons_none hreport, filter_cons_of_neg (by simpa using hlong)]
        exact ih

/-- **The issues are the maximal runs**, in order: of at least five spans with op `db` and one query
template, and of at least three spans with op `http.client` and one host. Each issue has the ids of
its run, in order. No span is in two issues of one detector: their spans, put together, are some of
the spans of the list, in order. -/
theorem issues_of_runs (lib : PerfLib) (spans : List Span) :
    Forall₂ (Reports "n_plus_one_db") (detectNPlusOneDB lib spans)
        (maximalRuns "db" (queryTemplate lib) 5 spans) ∧
      Forall₂ (Reports "consecutive_http") (detectConsecutiveHTTP lib spans)
        (maximalRuns "http.client" (extractHost lib) 3 spans) ∧
      (∀ run ∈ maximalRuns "db" (queryTemplate lib) 5 spans,
        ∃ template, ∀ s ∈ run, s.op = "db" ∧ queryTemplate lib s.description = template) ∧
      (∀ run ∈ maximalRuns "http.client" (extractHost lib) 3 spans,
        ∃ host, ∀ s ∈ run, s.op = "http.client" ∧ extractHost lib s.description = host) ∧
      ((detectNPlusOneDB lib spans).flatMap (·.spanIDs)).Sublist (spans.map (·.spanID)) ∧
      ((detectConsecutiveHTTP lib spans).flatMap (·.spanIDs)).Sublist (spans.map (·.spanID)) := by
  have hdb (s : Span) (rest : List Span) :
      Reports "n_plus_one_db" (nPlusOneIssue s (s :: rest)) (s :: rest) :=
    ⟨rfl, rfl, fun x hx => by cases hx; rfl⟩
  have hhttp (s : Span) (rest : List Span) :
      Reports "consecutive_http" (consecutiveHTTPIssue lib s (s :: rest)) (s :: rest) :=
    ⟨rfl, rfl, fun x hx => by cases hx; rfl⟩
  exact ⟨detectRuns_reports hdb (by decide) spans, detectRuns_reports hhttp (by decide) spans,
    fun run => exists_common (by decide), fun run => exists_common (by decide),
    spanIDs_sublist (fun _ _ => rfl) spans, spanIDs_sublist (fun _ _ => rfl) spans⟩

end Urgentry.PerfDetect
