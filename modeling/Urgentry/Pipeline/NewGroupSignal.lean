import Urgentry.Pipeline.DurableWorkers

/-!
# One signal for a new group

`Process` reports a new group when its own lookup found none. The lookup and the upsert are separate
steps, so two calls can both find no group, and a call that created the group can fail before it
reports anything. `run_signals_once` says what is enough for exactly one report: a lookup does not
run while a call that found no group has yet to create it, the call that creates the group does not
end before it returns, and no other call returns before it.

The argument needs five numbers for a key: the calls that are about to create the group, the calls
that created it, the calls that know it, and the results, with and without a report.
-/

namespace Urgentry

open SqlTable Trace List

namespace Call

/-- The call found no group and is about to create it. -/
def creating (c : Call) : Bool :=
  match c.phase with
  | .upsert none _ => true
  | _ => false

/-- The call found no group, and has created it. -/
def creator (c : Call) : Bool :=
  match c.phase with
  | .adjust _ none _ | .save _ true _ => true
  | _ => false

/-- The call found the group or has created it. -/
def knows (c : Call) : Bool :=
  match c.phase with
  | .upsert (some _) _ | .adjust .. | .save .. => true
  | _ => false

theorem knows_of_creator {c : Call} (h : c.creator = true) : c.knows = true := by
  unfold creator at h
  unfold knows
  split at h
  · next hphase => rw [hphase]
  · next hphase => rw [hphase]
  · cases h

end Call

namespace DurableWorkers

variable (k : GroupKey) (s : DurableWorkers)

/-- The number of calls for a key in some state of progress. -/
def count (p : Call → Bool) : ℕ :=
  s.calls.countP fun c => decide (c.groupKey = k) && p c

/-- The number of results for a key. -/
def returned : ℕ := s.results.countP fun r => r.1 = k

/-- The number of results for a key that report a new group. -/
def signals : ℕ := s.results.countP fun r => r.1 = k && r.2.isNewGroup

/-- The group exists. -/
def Has : Prop := ∃ g ∈ s.groups, g.groupKey = k

/-- **One report**, once a call has returned. -/
def SignalsExact : Prop := 0 < s.returned k → s.signals k = 1

/-- The condition on a step. -/
def SignalsOnce : WorkersAction → Prop
  | .call worker (.lookup _) => ∀ c ∈ s.callOf worker, c.groupKey = k →
      ∀ c' ∈ s.calls, c'.groupKey = k → c'.creating = false
  | .call worker (.save ..) => ∀ c ∈ s.callOf worker, c.groupKey = k → c.creator = false →
      ∀ c' ∈ s.calls, c'.groupKey = k → c'.creator = false
  | .call worker (.fail _) => ∀ c ∈ s.callOf worker, c.groupKey = k → c.creator = false
  | _ => True

instance (s : DurableWorkers) : (a : WorkersAction) → Decidable (s.SignalsOnce k a)
  | .call _ (.lookup _) => inferInstanceAs (Decidable (∀ c ∈ _, _ → ∀ c' ∈ _, _ → _))
  | .call _ (.save ..) => inferInstanceAs (Decidable (∀ c ∈ _, _ → _ → ∀ c' ∈ _, _ → _))
  | .call _ (.fail _) => inferInstanceAs (Decidable (∀ c ∈ _, _ → _))
  | .claim .. | .call _ (.check _) | .call _ .filter | .call _ .upsert | .call _ (.adjust ..)
  | .call _ .markDone => inferInstanceAs (Decidable True)

/-- What holds along every run that meets the condition. -/
structure SignalValid : Prop where
  absent : ¬ s.Has k → s.count k Call.creating ≤ 1 ∧ s.count k Call.knows = 0 ∧ s.returned k = 0
  present : s.Has k → s.count k Call.creating = 0 ∧ s.count k Call.creator + s.signals k = 1 ∧
    (0 < s.returned k → s.count k Call.creator = 0)

variable {k} {s t : DurableWorkers} {c : Call}

theorem count_creator_le : s.count k Call.creator ≤ s.count k Call.knows := by
  refine countP_mono_left fun c _ h => ?_
  simp only [Bool.and_eq_true] at h ⊢
  exact ⟨h.1, Call.knows_of_creator h.2⟩

theorem SignalValid.signalsExact (h : s.SignalValid k) : s.SignalsExact k := by
  intro hreturned
  by_cases hhas : s.Has k
  · obtain ⟨-, hone, hcreator⟩ := h.present hhas
    omega
  · obtain ⟨-, -, hzero⟩ := h.absent hhas
    omega

/-! ## How steps change the counts -/

theorem count_moveTo (hc : c ∈ s.calls) (hk : c.groupKey = k) (phase : Phase) (p : Call → Bool) :
    (s.moveTo c phase).count k p + (if p c then 1 else 0) =
      s.count k p + if p { c with phase } then 1 else 0 := by
  have h := countP_moveTo hc phase fun c => decide (c.groupKey = k) && p c
  have hk' : ({ c with phase } : Call).groupKey = k := hk
  simpa [hk, hk', count] using h

theorem count_moveTo_of_ne (hc : c ∈ s.calls) (hk : c.groupKey ≠ k) (phase : Phase)
    (p : Call → Bool) : (s.moveTo c phase).count k p = s.count k p := by
  have h := countP_moveTo hc phase fun c => decide (c.groupKey = k) && p c
  have hk' : ({ c with phase } : Call).groupKey ≠ k := hk
  simpa [hk, hk', count] using h

variable {p : Call → Bool} {isRegression : Bool} {phase : Phase} {events : Table EventRow}
  {existing : Option GroupRow}

theorem count_moveTo_of_eq (hc : c ∈ s.calls) (hp : p { c with phase } = p c) :
    (s.moveTo c phase).count k p = s.count k p := by
  by_cases hk : c.groupKey = k
  · have h := count_moveTo hc hk phase p
    rw [hp] at h
    exact Nat.add_right_cancel h
  · exact count_moveTo_of_ne hc hk phase p

theorem count_pos (hc : c ∈ s.calls) (hk : c.groupKey = k) (hp : p c = true) : 0 < s.count k p :=
  countP_pos_iff.mpr ⟨c, hc, by simp [hk, hp]⟩

theorem count_eq_zero (h : ∀ c ∈ s.calls, c.groupKey = k → p c = false) : s.count k p = 0 := by
  rw [count, countP_eq_zero]
  intro c hc hp
  simp only [Bool.and_eq_true, decide_eq_true_eq] at hp
  rw [h c hc hp.1] at hp
  exact absurd hp.2 Bool.false_ne_true

/-- A step that changes none of the numbers. -/
theorem SignalValid.congr (h : s.SignalValid k) (hhas : t.Has k ↔ s.Has k)
    (hcreating : t.count k Call.creating = s.count k Call.creating)
    (hcreator : t.count k Call.creator = s.count k Call.creator)
    (hknows : t.count k Call.knows = s.count k Call.knows)
    (hreturned : t.returned k = s.returned k) (hsignals : t.signals k = s.signals k) :
    t.SignalValid k := by
  refine ⟨fun hno => ?_, fun hyes => ?_⟩
  · rw [hcreating, hknows, hreturned]
    exact h.absent (hhas.not.mp hno)
  · rw [hcreating, hcreator, hreturned, hsignals]
    exact h.present (hhas.mp hyes)

variable {groups : Table GroupRow}

/-- A call of another group changes none of the numbers. -/
theorem SignalValid.congr_of_ne (h : s.SignalValid k) (hc : c ∈ s.calls) (hk : c.groupKey ≠ k)
    {results : List (GroupKey × ProcessResult)} (hhas : (∃ g ∈ groups, g.groupKey = k) ↔ s.Has k)
    (hresults : ∀ p : GroupKey × ProcessResult → Bool, (∀ r, p r = true → r.1 = k) →
      results.countP p = s.results.countP p) :
    ({ s.moveTo c phase with groups, events, results } : DurableWorkers).SignalValid k := by
  refine h.congr hhas (count_moveTo_of_ne hc hk phase _) (count_moveTo_of_ne hc hk phase _)
    (count_moveTo_of_ne hc hk phase _) (hresults _ fun r hr => by simpa using hr)
    (hresults _ fun r hr => ?_)
  simp only [Bool.and_eq_true, decide_eq_true_eq] at hr
  exact hr.1

theorem SignalValid.lookup (h : s.SignalValid k) (hc : c ∈ s.calls) (hphase : c.phase = .lookup)
    (honce : c.groupKey = k → ∀ c' ∈ s.calls, c'.groupKey = k → c'.creating = false) :
    (s.moveTo c (.upsert (getGroupByKey s.groups c.groupKey) isRegression)).SignalValid k := by
  by_cases hk : c.groupKey = k
  · have hzero := count_eq_zero (honce hk)
    rcases hfound : getGroupByKey s.groups c.groupKey with _ | g
    · have hno : ¬ s.Has k := by
        rintro ⟨g, hg, hkey⟩
        exact getGroupByKey_eq_none.mp hfound g hg (hkey.trans hk.symm)
      obtain ⟨-, hknows, hreturned⟩ := h.absent hno
      have hcreating := count_moveTo hc hk (.upsert none isRegression) Call.creating
      simp only [Call.creating, hphase, hzero] at hcreating
      refine ⟨fun _ => ⟨hcreating.le, ?_, hreturned⟩, fun hyes => absurd hyes hno⟩
      rw [count_moveTo_of_eq hc (by simp only [Call.knows, hphase]), hknows]
    · have hyes : s.Has k := ⟨g, (getGroupByKey_eq_some hfound).1,
        (getGroupByKey_eq_some hfound).2.trans hk⟩
      obtain ⟨-, hone, hcreator⟩ := h.present hyes
      refine ⟨fun hno => absurd hyes hno, fun _ => ?_⟩
      rw [count_moveTo_of_eq hc (by simp only [Call.creating, hphase]),
        count_moveTo_of_eq hc (by simp only [Call.creator, hphase])]
      exact ⟨hzero, hone, hcreator⟩
  · exact h.congr_of_ne hc hk Iff.rfl fun _ _ => rfl

variable {groupId : String}

/-- An upsert of another group neither adds nor removes the group. -/
theorem has_upsert_iff {g : Group}
    (hgroups : upsertGroup g s.groups = some (groups, groupId)) (hk : g.groupKey ≠ k) :
    (∃ g ∈ groups, g.groupKey = k) ↔ s.Has k := by
  constructor
  · rintro ⟨r', hr', hkey⟩
    rcases upsertGroup_cases hgroups with ⟨row, -, -, -, hrows⟩ | ⟨-, -, -, hrows⟩
    · rw [Table.mem_def, hrows] at hr'
      obtain ⟨r, hr, rfl⟩ := mem_map.mp hr'
      refine ⟨r, hr, ?_⟩
      rw [← hkey]
      split <;> rfl
    · rw [Table.mem_def, hrows] at hr'
      rcases mem_append.mp hr' with hr' | hr'
      · exact ⟨r', hr', hkey⟩
      · rw [mem_singleton.mp hr'] at hkey
        exact absurd hkey hk
  · rintro ⟨r, hr, hkey⟩
    obtain ⟨r', hr', -, hsame⟩ := exists_of_mem_upsertGroup hgroups hr
    exact ⟨r', hr', hsame.trans hkey⟩

theorem SignalValid.upsert (h : s.SignalValid k) (hc : c ∈ s.calls)
    (hphase : c.phase = .upsert existing isRegression)
    (hgroups : upsertGroup (c.evt.group c.projectId c.groupId) s.groups = some (groups, groupId)) :
    ({ s.moveTo c (.adjust groupId existing isRegression) with groups } :
      DurableWorkers).SignalValid k := by
  by_cases hk : c.groupKey = k
  · obtain ⟨g, hg, -, hkey⟩ := exists_upsertGroup hgroups
    have hhas : ({ s.moveTo c (.adjust groupId existing isRegression) with groups } :
      DurableWorkers).Has k := ⟨g, hg, hkey.trans hk⟩
    refine ⟨fun hno => absurd hhas hno, fun _ => ?_⟩
    have hcreating := count_moveTo hc hk (.adjust groupId existing isRegression) Call.creating
    have hcreator := count_moveTo hc hk (.adjust groupId existing isRegression) Call.creator
    have hle : s.count k Call.creator ≤ s.count k Call.knows := count_creator_le
    have hsignals : s.signals k ≤ s.returned k :=
      countP_mono_left fun r _ h => (Bool.and_eq_true_iff.mp h).1
    change (s.moveTo c (.adjust groupId existing isRegression)).count k Call.creating = 0 ∧
      (s.moveTo c (.adjust groupId existing isRegression)).count k Call.creator + s.signals k = 1 ∧
      (0 < s.returned k →
        (s.moveTo c (.adjust groupId existing isRegression)).count k Call.creator = 0)
    cases existing with
    | none =>
      -- the call is the only one that found no group, and the group does not exist yet
      have hpos := count_pos (p := Call.creating) hc hk (by rw [Call.creating, hphase])
      have hno : ¬ s.Has k := fun hyes => absurd (h.present hyes).1 hpos.ne'
      obtain ⟨hcreating₀, hknows, hreturned⟩ := h.absent hno
      simp only [Call.creating, Call.creator, hphase] at hcreating hcreator
      grind
    | some row =>
      have hpos := count_pos (p := Call.knows) hc hk (by rw [Call.knows, hphase])
      have hyes : s.Has k := by
        by_contra hno
        exact absurd (h.absent hno).2.1 hpos.ne'
      have hpresent := h.present hyes
      simp only [Call.creating, Call.creator, hphase] at hcreating hcreator
      grind
  · exact h.congr_of_ne hc hk (has_upsert_iff hgroups hk) fun _ _ => rfl

theorem SignalValid.adjust (h : s.SignalValid k) (hc : c ∈ s.calls)
    (hphase : c.phase = .adjust groupId existing isRegression)
    (hgroups : SameCounts s.groups groups) :
    ({ s.moveTo c (.save groupId existing.isNone isRegression) with groups } :
      DurableWorkers).SignalValid k := by
  have hhas : (∃ g ∈ groups, g.groupKey = k) ↔ s.Has k := by
    constructor
    · rintro ⟨g, hg, hkey⟩
      obtain ⟨g₀, hg₀, hmatch⟩ := hgroups.back g hg
      exact ⟨g₀, hg₀, hmatch.groupKey.symm.trans hkey⟩
    · rintro ⟨g₀, hg₀, hkey⟩
      obtain ⟨g, hg, hmatch⟩ := hgroups.forth g₀ hg₀
      exact ⟨g, hg, hmatch.groupKey.trans hkey⟩
  refine h.congr hhas (count_moveTo_of_eq hc ?_) (count_moveTo_of_eq hc ?_)
    (count_moveTo_of_eq hc ?_) rfl rfl
  · simp only [Call.creating, hphase]
  · cases existing <;> simp only [Call.creator, hphase, Option.isNone_none, Option.isNone_some]
  · simp only [Call.knows, hphase]

theorem SignalValid.save (h : s.SignalValid k) (hc : c ∈ s.calls) {isNew : Bool}
    (hphase : c.phase = .save groupId isNew isRegression)
    (honce : c.groupKey = k → c.creator = false →
      ∀ c' ∈ s.calls, c'.groupKey = k → c'.creator = false) :
    ({ s.moveTo c .returned with
        events
        results := (c.groupKey, c.result groupId isNew isRegression) :: s.results } :
      DurableWorkers).SignalValid k := by
  by_cases hk : c.groupKey = k
  · have hpos := count_pos (p := Call.knows) hc hk (by rw [Call.knows, hphase])
    have hyes : s.Has k := by
      by_contra hno
      exact absurd (h.absent hno).2.1 hpos.ne'
    obtain ⟨hcreating₀, hone, hreturned⟩ := h.present hyes
    refine ⟨fun hno => absurd hyes hno, fun _ => ?_⟩
    have hcreating := count_moveTo hc hk .returned Call.creating
    have hcreator := count_moveTo hc hk .returned Call.creator
    have hsignals : ({ s.moveTo c .returned with
        events
        results := (c.groupKey, c.result groupId isNew isRegression) :: s.results } :
        DurableWorkers).signals k = s.signals k + if isNew then 1 else 0 := by
      simp [signals, countP_cons, hk, Call.result]
    change (s.moveTo c .returned).count k Call.creating = 0 ∧
      (s.moveTo c .returned).count k Call.creator + _ = 1 ∧
      (_ → (s.moveTo c .returned).count k Call.creator = 0)
    simp only [Call.creating, Call.creator, hphase] at hcreating hcreator
    cases isNew with
    | true => grind
    | false =>
      have hzero := count_eq_zero (honce hk (by rw [Call.creator, hphase]))
      grind
  · refine h.congr_of_ne hc hk Iff.rfl fun p hp => countP_cons_of_neg fun htrue => ?_
    exact hk (hp _ htrue)

theorem SignalValid.drop (h : s.SignalValid k) (hc : c ∈ s.calls) {done : List ℕ}
    (hcreator : c.groupKey = k → c.creator = false) :
    ({ s with calls := s.calls.erase c, done } : DurableWorkers).SignalValid k := by
  have hle (p : Call → Bool) :
      ({ s with calls := s.calls.erase c, done } : DurableWorkers).count k p ≤ s.count k p :=
    Sublist.countP_le erase_sublist
  have hsame : ({ s with calls := s.calls.erase c, done } : DurableWorkers).count k Call.creator =
      s.count k Call.creator := by
    have herase := countP_erase hc fun c => decide (c.groupKey = k) && c.creator
    rw [if_neg] at herase
    · exact herase.symm
    · rw [Bool.and_eq_true, decide_eq_true_eq]
      rintro ⟨hk, hc⟩
      rw [hcreator hk] at hc
      exact Bool.false_ne_true hc
  refine ⟨fun hno => ?_, fun hyes => ?_⟩
  · obtain ⟨hcreating, hknows, hreturned⟩ := h.absent hno
    exact ⟨(hle _).trans hcreating, Nat.le_zero.mp (hknows ▸ hle _), hreturned⟩
  · obtain ⟨hcreating, hone, hreturned⟩ := h.present hyes
    rw [hsame]
    exact ⟨Nat.le_zero.mp (hcreating ▸ hle _), hone, hreturned⟩

theorem SignalValid.step {a : WorkersAction} (h : s.SignalValid k) (honce : s.SignalsOnce k a)
    (hstep : s.step a = some t) : t.SignalValid k := by
  rcases step_cases hstep with ⟨worker, job, evt, groupId, j, rfl, -, -, -, rfl⟩ |
    ⟨worker, c, cs, rfl, hc, hcall, hmoved⟩
  · have hcount (p : Call → Bool)
      (hp : p ⟨worker, job, j.projectId, evt, groupId, .check⟩ = false) :
        ({ s with calls := ⟨worker, job, j.projectId, evt, groupId, .check⟩ :: s.calls } :
          DurableWorkers).count k p = s.count k p :=
      countP_cons_of_neg (by simp [hp])
    exact h.congr Iff.rfl (hcount _ rfl) (hcount _ rfl) (hcount _ rfl) rfl rfl
  · cases hmoved with
    | stored hphase _ | unstored hphase =>
      exact h.congr Iff.rfl
        (count_moveTo_of_eq hc (by simp only [Call.creating, hphase]))
        (count_moveTo_of_eq hc (by simp only [Call.creator, hphase]))
        (count_moveTo_of_eq hc (by simp only [Call.knows, hphase])) rfl rfl
    | lookedUp hphase => exact h.lookup hc hphase (honce c hcall)
    | upserted hphase hgroups => exact h.upsert hc hphase hgroups
    | adjusted hphase => exact h.adjust hc hphase (sameCounts_adjusted ..)
    | saved hphase _ => exact h.save hc hphase (honce c hcall)
    | failed => exact h.drop hc (honce c hcall)
    | filtered hphase | marked hphase => exact h.drop hc fun _ => by rw [Call.creator, hphase]

theorem signalValid_start (hnew : getGroupByKey groups k = none)
    (events : Table EventRow) (jobs : List EventJob) :
    (start groups events jobs).SignalValid k := by
  refine ⟨fun _ => ⟨Nat.zero_le _, rfl, rfl⟩, fun hyes => ?_⟩
  obtain ⟨g, hg, hkey⟩ := hyes
  exact absurd hkey (getGroupByKey_eq_none.mp hnew g hg)

/-- **One signal.** From stores without the group, in every run in which no lookup runs while a call
that found no group has yet to create it, the call that creates the group does not end before it
returns, and no other call saves before that, exactly one result reports a new group as soon as
there is a result. -/
theorem run_signals_once {groups : Table GroupRow} {events : Table EventRow} {jobs : List EventJob}
    {trace : List (DurableWorkers × WorkersAction)} (hnew : getGroupByKey groups k = none)
    (run : Run step (start groups events jobs) trace t)
    (honce : ∀ p ∈ trace, p.1.SignalsOnce k p.2) : ∀ u ∈ visited trace t, u.SignalsExact k := by
  intro u hu
  have hvalid := run.invariant (signalValid_start hnew events jobs) SignalValid.step honce u hu
  exact hvalid.signalsExact

/-- The steps of a call up to the lookup, for the event whose id is the worker's number. -/
def lookupSteps (worker : ℕ) : List WorkersAction :=
  let evt : NormalizedEvent :=
    { eventId := toString worker, groupingVersion := "v1", groupingKey := "k" }
  [.claim worker worker evt (toString worker), .call worker (.check true),
    .call worker (.lookup none)]

/-- The steps of a call after the lookup. -/
def saveSteps (worker : ℕ) : List WorkersAction :=
  [.call worker .upsert, .call worker (.adjust none true true),
    .call worker (.save (toString worker) ⟨0⟩)]

/-- Two events of a new group, one after the other, give one signal. -/
theorem two_events_one_signal :
    ∃ trace t, Run step (start .empty .empty [⟨"p", "0"⟩, ⟨"p", "1"⟩]) trace t ∧
      t.returned ⟨"p", "v1", "k"⟩ = 2 ∧
      ∀ u ∈ visited trace t, u.SignalsExact ⟨"p", "v1", "k"⟩ :=
  exists_run_and (SignalsOnce ⟨"p", "v1", "k"⟩)
    (lookupSteps 0 ++ saveSteps 0 ++ lookupSteps 1 ++ saveSteps 1) (by decide +kernel)
    fun hrun honce => run_signals_once rfl hrun honce

/-- **Two signals for one group.** Both calls look the group up before one of them creates it. -/
theorem two_lookups_two_signals :
    ∃ trace t, Run step (start .empty .empty [⟨"p", "0"⟩, ⟨"p", "1"⟩]) trace t ∧
      t.returned ⟨"p", "v1", "k"⟩ = 2 ∧ t.signals ⟨"p", "v1", "k"⟩ = 2 :=
  exists_run (lookupSteps 0 ++ lookupSteps 1 ++ saveSteps 0 ++ saveSteps 1) (by decide +kernel)

end DurableWorkers

end Urgentry
