import Urgentry.Pipeline.DurableWorkers

/-!
# Counting events once

`Process` counts an event in `UpsertGroup` and stores it in `SaveEvent`. Nothing ties the two
together: when the second fails, the retry finds no stored event and counts again.

The invariant that carries the result says where every count comes from. The count of a group is the
number of its completed events plus the number of calls that have counted and not saved yet, and no
event has two sources. It holds along every run in which no call ends between counting and saving,
no event is counted that is stored or that another call has counted, and no event is dropped while
another call is at its job.

## Main results

* `run_counts_exact`: under this condition, `times_seen` of every group is the number of its
  completed events as soon as all jobs are done.
-/

namespace Urgentry

open SqlTable Trace List Table

/-- A completed event of a group. -/
def EventRow.completedOf (groupId : String) (r : EventRow) : Bool :=
  r.groupId = some groupId ∧ r.processingStatus = .completed

namespace DurableWorkers

/-- Every group was counted once for each of its completed events, and every event of a group has
its group. -/
structure Consistent (groups : Table GroupRow) (events : Table EventRow) : Prop where
  counts : ∀ g ∈ groups, g.timesSeen = events.rows.countP (EventRow.completedOf g.id)
  groups : ∀ r ∈ events, ∀ groupId ∈ r.groupId, ∃ g ∈ groups, g.id = groupId

variable (s : DurableWorkers)

/-- All jobs are marked done. -/
def AllDone : Prop := ∀ j < s.jobs.length, j ∈ s.done

/-- **Exact counts**, once all jobs are done. -/
def CountsExact : Prop :=
  s.AllDone → ∀ g ∈ s.groups, g.timesSeen = s.events.rows.countP (EventRow.completedOf g.id)

/-- The event is stored. -/
def Stored (e : EventJob) : Prop := ∃ r ∈ s.events, r.event = e
deriving Decidable

/-- No other call is at the job. -/
def Alone (c : Call) : Prop := ∀ c' ∈ s.calls.erase c, c'.job ≠ c.job
deriving Decidable

/-- The condition on a step: a call does not end between counting and saving, it does not count an
event that is stored or that another call has counted and not saved, and it does not drop the event
of a job that another call is at. -/
def CountsOnce : WorkersAction → Prop
  | .call worker .upsert => ∀ c ∈ s.callOf worker, ¬ s.Stored c.event ∧
      ∀ c' ∈ s.calls, c'.counted?.isSome → c'.event ≠ c.event
  | .call worker .filter => ∀ c ∈ s.callOf worker, s.Alone c
  | .call worker (.fail permanent) => ∀ c ∈ s.callOf worker, c.counted? = none ∧
      (permanent = true → s.Alone c)
  | _ => True

instance (s : DurableWorkers) : (a : WorkersAction) → Decidable (s.CountsOnce a)
  | .call _ .upsert => inferInstanceAs (Decidable (∀ c ∈ _, _ ∧ ∀ c' ∈ _, _ → _))
  | .call _ .filter => inferInstanceAs (Decidable (∀ c ∈ _, _))
  | .call _ (.fail _) => inferInstanceAs (Decidable (∀ c ∈ _, _ ∧ (_ → _)))
  | .claim .. | .call _ (.check _) | .call _ (.lookup _) | .call _ (.adjust ..)
  | .call _ (.save ..) | .call _ .markDone => inferInstanceAs (Decidable True)

/-- What holds of a call in progress. -/
structure CallValid (c : Call) : Prop where
  group : ∀ groupId ∈ c.counted?, ∃ g ∈ s.groups, g.id = groupId
  unsaved : c.counted?.isSome → ¬ s.Stored c.event
  returned : c.phase = .returned → s.Stored c.event
  job : s.jobs[c.job]? = some c.event

/-- The event of the job is stored. -/
def JobStored (j : ℕ) : Prop := ∃ e, s.jobs[j]? = some e ∧ s.Stored e

/-- The number of calls that have counted for a group and not saved yet. -/
def unsaved (groupId : String) : ℕ :=
  s.calls.countP fun c => c.counted? = some groupId

/-- Two calls do not have counted the same event. -/
def Apart (c c' : Call) : Prop := c.counted?.isSome → c'.counted?.isSome → c.event ≠ c'.event

/-- **Where the counts come from.** -/
structure Balanced : Prop where
  counts : ∀ g ∈ s.groups,
    g.timesSeen = s.events.rows.countP (EventRow.completedOf g.id) + s.unsaved g.id
  groups : ∀ r ∈ s.events, ∀ groupId ∈ r.groupId, ∃ g ∈ s.groups, g.id = groupId
  calls : ∀ c ∈ s.calls, s.CallValid c
  apart : s.calls.Pairwise Apart
  done : ∀ j ∈ s.done, s.JobStored j ∨ ∀ c ∈ s.calls, c.job ≠ j

variable {groups : Table GroupRow}

theorem balanced_start {events : Table EventRow}
    (h : Consistent groups events) (jobs : List EventJob) :
    (start groups events jobs).Balanced where
  counts := by simpa [start, unsaved] using h.counts
  groups := h.groups
  calls := forall_mem_nil _
  apart := .nil
  done := forall_mem_nil _

variable {s t : DurableWorkers} {c : Call}

/-- When all jobs are done no call has counted without saving. -/
theorem Balanced.countsExact (h : s.Balanced) : s.CountsExact := by
  intro hdone g hg
  have hnone : s.unsaved g.id = 0 := by
    rw [unsaved, countP_eq_zero]
    intro c hc hcounted
    have hvalid := h.calls c hc
    obtain ⟨hlt, -⟩ := List.getElem?_eq_some_iff.mp hvalid.job
    obtain ⟨e, hjob, hstored⟩ := (h.done c.job (hdone c.job hlt)).resolve_right fun hne =>
      hne c hc rfl
    rw [hvalid.job, Option.some_inj] at hjob
    rw [decide_eq_true_eq] at hcounted
    exact hvalid.unsaved (by rw [hcounted]; rfl) (hjob ▸ hstored)
  rw [h.counts g hg, hnone, Nat.cast_zero, add_zero]

theorem Apart.symm {c c' : Call} (h : Apart c c') : Apart c' c :=
  fun hc' hc heq => h hc hc' heq.symm

theorem apart_of_uncounted {c' : Call} (hc : c.counted? = none) : Apart c c' := by
  intro hcounted
  rw [hc] at hcounted
  exact nomatch hcounted

/-- The calls apart from the one that moves. -/
theorem Balanced.rest (h : s.Balanced) (hc : c ∈ s.calls) :
    (∀ c' ∈ s.calls.erase c, s.CallValid c' ∧ Apart c c') ∧ (s.calls.erase c).Pairwise Apart := by
  obtain ⟨hc', hrest⟩ :=
    pairwise_cons.mp ((perm_cons_erase hc).pairwise h.apart Apart.symm)
  exact ⟨fun c' hmem => ⟨h.calls c' (mem_of_mem_erase hmem), hc' c' hmem⟩, hrest⟩

theorem unsaved_moveTo (hc : c ∈ s.calls) (phase : Phase) (groupId : String) :
    (s.moveTo c phase).unsaved groupId + (if c.counted? = some groupId then 1 else 0) =
      s.unsaved groupId + if ({ c with phase } : Call).counted? = some groupId then 1 else 0 := by
  simpa [unsaved] using countP_moveTo hc phase fun c => c.counted? = some groupId

/-! ## Steps keep the balance -/

variable {groupId : String}

section

variable (h : s.Balanced) {done : List ℕ}

include h

theorem Balanced.unsaved_of_new (hfresh : ∀ g ∈ s.groups, g.id ≠ groupId) :
    s.unsaved groupId = 0 := by
  rw [unsaved, countP_eq_zero]
  intro c hc hcounted
  rw [decide_eq_true_eq] at hcounted
  obtain ⟨g, hg, hid⟩ := (h.calls c hc).group groupId hcounted
  exact hfresh g hg hid

/-- Steps that leave the stores alone and count nothing. -/
theorem Balanced.reshape {calls : List Call} (hcalls : ∀ c ∈ calls, s.CallValid c)
    (hapart : calls.Pairwise Apart)
    (hcount : ∀ groupId,
      ({ s with calls, done } : DurableWorkers).unsaved groupId = s.unsaved groupId)
    (hdone : ∀ j ∈ done, s.JobStored j ∨ ∀ c ∈ calls, c.job ≠ j) :
    ({ s with calls, done } : DurableWorkers).Balanced where
  counts := by
    intro g hg
    rw [hcount]
    exact h.counts g hg
  groups := h.groups
  calls := fun c hc => ⟨(hcalls c hc).group, (hcalls c hc).unsaved, (hcalls c hc).returned,
    (hcalls c hc).job⟩
  apart := hapart
  done := hdone

/-- A call keeps its job. -/
theorem Balanced.done_moveTo (hc : c ∈ s.calls) {phase : Phase} :
    ∀ j ∈ s.done, s.JobStored j ∨ ∀ c' ∈ (s.moveTo c phase).calls, c'.job ≠ j := by
  intro j hj
  refine (h.done j hj).imp_right fun hne => ?_
  exact forall_mem_cons.mpr ⟨hne c hc, fun c' hc' => hne c' (mem_of_mem_erase hc')⟩

/-- A call that has counted nothing moves to a phase in which it has counted nothing. -/
theorem Balanced.move (hc : c ∈ s.calls) (hcounted : c.counted? = none) {phase : Phase}
    (hphase : ({ c with phase } : Call).counted? = none)
    (hreturned : phase = .returned → s.Stored c.event) : (s.moveTo c phase).Balanced := by
  obtain ⟨hrest, hapart⟩ := h.rest hc
  refine h.reshape (forall_mem_cons.mpr ⟨⟨?_, ?_, hreturned, (h.calls c hc).job⟩,
    fun c' hc' => (hrest c' hc').1⟩) (pairwise_cons.mpr ⟨fun c' _ => ?_,
      hapart⟩) ?_ (h.done_moveTo hc)
  · rw [hphase]
    exact nofun
  · rw [hphase]
    exact nofun
  · exact apart_of_uncounted hphase
  · intro groupId
    have hmove := unsaved_moveTo hc phase groupId
    rwa [hcounted, hphase] at hmove

/-- A call that has counted nothing ends. -/
theorem Balanced.finish (hc : c ∈ s.calls) (hcounted : c.counted? = none) {markDone : Bool}
    (hdone : markDone = true → s.JobStored c.job ∨ s.Alone c) : (s.finish c markDone).Balanced := by
  obtain ⟨hrest, hapart⟩ := h.rest hc
  refine h.reshape (fun c' hc' => (hrest c' hc').1) hapart (fun groupId => ?_) fun j hj => ?_
  · rw [unsaved, unsaved, countP_erase hc]
    simp [hcounted]
  · have hbefore : j ∈ s.done → s.JobStored j ∨ ∀ c' ∈ s.calls.erase c, c'.job ≠ j := fun hj =>
      (h.done j hj).imp_right fun hne c' hc' => hne c' (mem_of_mem_erase hc')
    cases markDone with
    | false => exact hbefore hj
    | true =>
      rcases mem_cons.mp hj with rfl | hj
      · exact hdone rfl
      · exact hbefore hj

theorem Balanced.claim {worker job : ℕ} {j : EventJob} {evt : NormalizedEvent}
    (hjob : s.jobs[job]? = some j) (hnew : job ∉ s.done) (hevent : evt.eventId = j.eventId) :
    ({ s with calls := ⟨worker, job, j.projectId, evt, groupId, .check⟩ :: s.calls } :
      DurableWorkers).Balanced := by
  have hj : Call.event ⟨worker, job, j.projectId, evt, groupId, .check⟩ = j := by
    rw [Call.event, hevent]
  refine h.reshape (forall_mem_cons.mpr ⟨⟨nofun, nofun, nofun, ?_⟩, h.calls⟩)
    (pairwise_cons.mpr ⟨fun c' _ => apart_of_uncounted rfl, h.apart⟩) (fun groupId => ?_)
    fun j' hj' => (h.done j' hj').imp_right fun hne => forall_mem_cons.mpr ⟨?_, hne⟩
  · rw [hj]
    exact hjob
  · rw [unsaved]
    rfl
  · rintro rfl
    exact hnew hj'

end

theorem stored_of_isCompleted (h : s.isCompleted c = true) : s.Stored c.event := by
  rw [isCompleted, Option.any_eq_true] at h
  obtain ⟨r, hr, -⟩ := h
  have hkey := find?_some hr
  simp only [Bool.and_eq_true, beq_iff_eq] at hkey
  exact ⟨r, mem_of_find?_eq_some hr, by rw [EventRow.event, hkey.1, hkey.2, Call.event]⟩

variable {existing : Option GroupRow} {isRegression : Bool}

/-- A call has counted for a group, and the groups were added to or changed. -/
theorem Balanced.count (h : s.Balanced) (hc : c ∈ s.calls) {phase : Phase}
    (hphase : ({ c with phase } : Call).counted? = some groupId) (hstored : ¬ s.Stored c.event)
    (hother : ∀ c' ∈ s.calls.erase c, c'.counted?.isSome → c.event ≠ c'.event)
    (hgroup : ∃ g ∈ groups, g.id = groupId) (hkept : ∀ g ∈ s.groups, ∃ g' ∈ groups, g'.id = g.id)
    (hcounts : ∀ g ∈ groups, g.timesSeen =
      (s.events.rows.countP (EventRow.completedOf g.id) : ℤ) + (s.moveTo c phase).unsaved g.id) :
    ({ s.moveTo c phase with groups } : DurableWorkers).Balanced := by
  obtain ⟨hrest, hapart⟩ := h.rest hc
  refine ⟨hcounts, fun r hr gid hgid => ?_, forall_mem_cons.mpr ⟨⟨?_, fun _ => hstored, ?_,
    (h.calls c hc).job⟩, fun c' hc' => ?_⟩, pairwise_cons.mpr ⟨fun c' hc' _ => hother c' hc',
      hapart⟩, h.done_moveTo hc⟩
  · obtain ⟨g, hg, rfl⟩ := h.groups r hr gid hgid
    exact hkept g hg
  · rw [hphase]
    rintro _ ⟨⟩
    exact hgroup
  · rintro rfl
    cases hphase
  · obtain ⟨hvalid, -⟩ := hrest c' hc'
    refine ⟨fun groupId hid => ?_, hvalid.unsaved, hvalid.returned, hvalid.job⟩
    obtain ⟨g, hg, rfl⟩ := hvalid.group groupId hid
    exact hkept g hg

theorem Balanced.upsert (h : s.Balanced) (hc : c ∈ s.calls)
    (hphase : c.phase = .upsert existing isRegression)
    (hgroups : upsertGroup (c.evt.group c.projectId c.groupId) s.groups = some (groups, groupId))
    (hstored : ¬ s.Stored c.event)
    (hother : ∀ c' ∈ s.calls, c'.counted?.isSome → c'.event ≠ c.event) :
    Balanced { s.moveTo c (.adjust groupId existing isRegression) with groups } := by
  have hcounted : c.counted? = none := by rw [Call.counted?, hphase]
  refine h.count hc rfl hstored (fun c' hc' hcounted' heq =>
    hother c' (mem_of_mem_erase hc') hcounted' heq.symm) ?_ (fun g hg => ?_) fun g hg => ?_
  · obtain ⟨g, hg, hid, -⟩ := exists_upsertGroup hgroups
    exact ⟨g, hg, hid⟩
  · obtain ⟨g', hg', hid, -⟩ := exists_of_mem_upsertGroup hgroups hg
    exact ⟨g', hg', hid⟩
  · have hmove := unsaved_moveTo hc (.adjust groupId existing isRegression) g.id
    rw [hcounted, Call.counted?] at hmove
    simp only [reduceCtorEq, if_false, Option.some_inj] at hmove
    rcases timesSeen_upsertGroup hgroups rfl hg with ⟨r, hr, hid, htimes⟩ | ⟨hid, htimes, hfresh⟩
    · have hbefore := h.counts r hr
      rw [htimes]
      split <;> grind
    · have hevents : s.events.rows.countP (EventRow.completedOf g.id) = 0 := by
        rw [countP_eq_zero]
        intro r hr hcompleted
        rw [EventRow.completedOf, decide_eq_true_eq] at hcompleted
        obtain ⟨g', hg', hid'⟩ := h.groups r hr g.id hcompleted.1
        exact hfresh g' hg' (hid'.trans hid)
      rw [hevents]
      rw [h.unsaved_of_new (hid ▸ hfresh), if_pos hid.symm] at hmove
      omega

theorem Balanced.adjust (h : s.Balanced) (hc : c ∈ s.calls)
    (hphase : c.phase = .adjust groupId existing isRegression)
    (hgroups : SameCounts s.groups groups) :
    ({ s.moveTo c (.save groupId existing.isNone isRegression) with groups } :
      DurableWorkers).Balanced := by
  have hcounted : c.counted? = some groupId := by rw [Call.counted?, hphase]
  have hvalid := h.calls c hc
  have hkept : ∀ g ∈ s.groups, ∃ g' ∈ groups, g'.id = g.id := by
    intro g hg
    obtain ⟨g', hg', hmatch⟩ := hgroups.forth g hg
    exact ⟨g', hg', hmatch.id⟩
  refine h.count hc rfl (hvalid.unsaved (by rw [hcounted]; rfl))
    (fun c' hc' => ((h.rest hc).1 c' hc').2 (by rw [hcounted]; rfl)) ?_ hkept fun g hg => ?_
  · obtain ⟨g, hg, rfl⟩ := hvalid.group groupId hcounted
    exact hkept g hg
  · obtain ⟨g₀, hg₀, hmatch⟩ := hgroups.back g hg
    have hmove := unsaved_moveTo hc (.save groupId existing.isNone isRegression) g.id
    rw [hcounted] at hmove
    rw [Nat.add_right_cancel hmove, hmatch.timesSeen, h.counts g₀ hg₀, hmatch.id]

/-- An event that is not stored is added by `SaveEvent`. -/
theorem rows_saveEvent {rowId groupId : String} {now : Time} (hstored : ¬ s.Stored c.event)
    (hfresh : ∀ r ∈ s.events, r.id ≠ rowId) :
    (saveEvent s.events (c.evt.storedEvent c.projectId rowId groupId) now).rows =
      s.events.rows ++ [(c.evt.storedEvent c.projectId rowId groupId).row now] := by
  have hclash : s.events.clashes ((c.evt.storedEvent c.projectId rowId groupId).row now) =
      false := by
    rw [clashes_eq_false]
    intro r hr
    have hid := hfresh r hr
    have hevent : ¬ (c.projectId = r.projectId ∧ c.evt.eventId = r.eventId) := by
      rintro ⟨hproject, hevent⟩
      exact hstored ⟨r, hr, by rw [EventRow.event, ← hproject, ← hevent, Call.event]⟩
    rw [← Bool.not_eq_true]
    intro hconf
    simp only [Schema.conflict, Bool.or_eq_true, Bool.and_eq_true, beq_iff_eq] at hconf
    exact hconf.elim (fun heq => hid heq.symm) hevent
  rw [saveEvent, rows_insertOrIgnore, hclash]
  rfl

theorem Balanced.save (h : s.Balanced) (hc : c ∈ s.calls) {rowId groupId : String} {now : Time}
    {isNew : Bool} {results : List (GroupKey × ProcessResult)}
    (hphase : c.phase = .save groupId isNew isRegression) (hfresh : ∀ r ∈ s.events, r.id ≠ rowId) :
    ({ s.moveTo c .returned with
        events := saveEvent s.events (c.evt.storedEvent c.projectId rowId groupId) now
        results } : DurableWorkers).Balanced := by
  obtain ⟨hrest, hapart⟩ := h.rest hc
  have hcounted : c.counted? = some groupId := by rw [Call.counted?, hphase]
  have hvalid := h.calls c hc
  have hrows : (saveEvent s.events (c.evt.storedEvent c.projectId rowId groupId) now).rows =
      s.events.rows ++ [(c.evt.storedEvent c.projectId rowId groupId).row now] :=
    rows_saveEvent (hvalid.unsaved (by rw [hcounted]; rfl)) hfresh
  have hmem (r : EventRow) :
      r ∈ saveEvent s.events (c.evt.storedEvent c.projectId rowId groupId) now ↔
        r ∈ s.events ∨ r = (c.evt.storedEvent c.projectId rowId groupId).row now := by
    rw [mem_def, hrows, mem_append, mem_singleton, mem_def]
  have hstored : ∀ e, s.Stored e → ∃ r ∈ saveEvent s.events
      (c.evt.storedEvent c.projectId rowId groupId) now, r.event = e := by
    rintro e ⟨r, hr, rfl⟩
    exact ⟨r, (hmem r).mpr (.inl hr), rfl⟩
  have hnew : ∃ r ∈ saveEvent s.events (c.evt.storedEvent c.projectId rowId groupId) now,
      r.event = c.event := ⟨_, (hmem _).mpr (.inr rfl), rfl⟩
  refine ⟨fun g hg => ?_, fun r hr gid hgid => ?_, forall_mem_cons.mpr ⟨?_, fun c' hc' => ?_⟩,
    pairwise_cons.mpr ⟨fun c' _ => apart_of_uncounted rfl, hapart⟩, fun j hj => ?_⟩
  · have hmove := unsaved_moveTo hc .returned g.id
    have hnow : ({ c with phase := .returned } : Call).counted? = none := rfl
    rw [hcounted] at hmove
    change g.timesSeen = ((saveEvent s.events (c.evt.storedEvent c.projectId rowId groupId)
      now).rows.countP (EventRow.completedOf g.id) : ℤ) + ((s.moveTo c .returned).unsaved g.id : ℤ)
    have hrow : ((c.evt.storedEvent c.projectId rowId groupId).row now).completedOf g.id =
        decide (groupId = g.id) := by
      simp [EventRow.completedOf, StoredEvent.row, NormalizedEvent.storedEvent]
    rw [hrows, countP_append, h.counts g hg]
    split at hmove <;> grind
  · rcases (hmem r).mp hr with hr | rfl
    · exact h.groups r hr gid hgid
    · cases hgid
      exact hvalid.group groupId hcounted
  · exact ⟨nofun, nofun, fun _ => hnew, hvalid.job⟩
  · obtain ⟨hvalid', hapart'⟩ := hrest c' hc'
    refine ⟨hvalid'.group, fun hc'counted => ?_, fun hret => hstored _ (hvalid'.returned hret),
      hvalid'.job⟩
    rintro ⟨r, hr, hevent⟩
    rcases (hmem r).mp hr with hr | rfl
    · exact hvalid'.unsaved hc'counted ⟨r, hr, hevent⟩
    · exact hapart' (by rw [hcounted]; rfl) hc'counted hevent
  · refine (h.done_moveTo hc j hj).imp_left ?_
    rintro ⟨e, hjob, he⟩
    exact ⟨e, hjob, hstored e he⟩

theorem Balanced.step {a : WorkersAction} (h : s.Balanced) (honce : s.CountsOnce a)
    (hstep : s.step a = some t) : t.Balanced := by
  rcases step_cases hstep with ⟨worker, job, evt, groupId, j, rfl, hj, hnew, hevent, rfl⟩ |
    ⟨worker, c, cs, rfl, hc, hcall, hmoved⟩
  · exact h.claim hj hnew hevent
  · cases hmoved with
    | stored hphase hstored =>
      exact h.move hc (by rw [Call.counted?, hphase]) rfl fun _ => stored_of_isCompleted hstored
    | unstored hphase => exact h.move hc (by rw [Call.counted?, hphase]) rfl nofun
    | filtered hphase =>
      exact h.finish hc (by rw [Call.counted?, hphase]) fun _ => .inr (honce c hcall)
    | lookedUp hphase => exact h.move hc (by rw [Call.counted?, hphase]) rfl nofun
    | upserted hphase hgroups =>
      obtain ⟨hstored, hother⟩ := honce c hcall
      exact h.upsert hc hphase hgroups hstored hother
    | adjusted hphase => exact h.adjust hc hphase (sameCounts_adjusted ..)
    | saved hphase hfresh => exact h.save hc hphase hfresh
    | failed =>
      obtain ⟨hcounted, halone⟩ := honce c hcall
      exact h.finish hc hcounted fun hpermanent => .inr (halone hpermanent)
    | marked hphase =>
      have hvalid := h.calls c hc
      refine h.finish hc (by rw [Call.counted?, hphase]) fun _ => .inl ?_
      exact ⟨c.event, hvalid.job, hvalid.returned hphase⟩

/-- **Exact counts.** In every run in which no call ends between counting and saving, no event is
counted that is stored or that another call has counted, and no event is dropped while another call
is at its job, the counts are exact in every state in which all jobs are done. -/
theorem run_counts_exact {groups : Table GroupRow} {events : Table EventRow} {jobs : List EventJob}
    {trace : List (DurableWorkers × WorkersAction)} (hstart : Consistent groups events)
    (run : Run step (start groups events jobs) trace t)
    (honce : ∀ p ∈ trace, p.1.CountsOnce p.2) : ∀ u ∈ visited trace t, u.CountsExact := by
  intro u hu
  exact (run.invariant (balanced_start hstart jobs) Balanced.step honce u hu).countsExact

/-- An event of a group. -/
def sampleEvent : NormalizedEvent := { eventId := "e", groupingVersion := "v1", groupingKey := "k" }

/-- The steps of a call up to, and not including, `SaveEvent`. -/
def countSteps (worker : ℕ) (groupId : String) : List WorkersAction :=
  [.claim worker 0 sampleEvent groupId, .call worker (.check true), .call worker (.lookup none),
    .call worker .upsert, .call worker (.adjust none true true)]

/-- An event that is processed at the first attempt is counted once. -/
theorem processed_event_counted_once :
    ∃ trace t, Run step (start .empty .empty [⟨"p", "e"⟩]) trace t ∧ t.AllDone ∧
      t.groups.rows.length = 1 ∧ ∀ u ∈ visited trace t, u.CountsExact := by
  obtain ⟨trace, t, hrun, hdone, hjobs, hgroups, honce⟩ : ∃ trace t,
      Run step (start .empty .empty [⟨"p", "e"⟩]) trace t ∧ t.done = [0] ∧ t.jobs.length = 1 ∧
      t.groups.rows.length = 1 ∧ ∀ x ∈ trace, x.1.CountsOnce x.2 :=
    exists_run (countSteps 0 "g" ++ [.call 0 (.save "r" ⟨0⟩), .call 0 .markDone])
      (by decide +kernel)
  refine ⟨trace, t, hrun, fun j hj => ?_, hgroups,
    run_counts_exact ⟨fun _ h => absurd h not_mem_nil, fun _ h => absurd h not_mem_nil⟩ hrun honce⟩
  rw [hdone]
  simpa [hjobs] using hj

/-- **An event counted twice.** `SaveEvent` fails, the job is put back, and the second attempt
counts the event again. -/
theorem retried_event_counted_twice :
    ∃ trace t, Run step (start .empty .empty [⟨"p", "e"⟩]) trace t ∧ t.AllDone ∧
      ∃ g ∈ t.groups, g.timesSeen = 2 ∧
        t.events.rows.countP (EventRow.completedOf g.id) = 1 := by
  obtain ⟨trace, t, hrun, hdone, hjobs, hcount⟩ : ∃ trace t,
      Run step (start .empty .empty [⟨"p", "e"⟩]) trace t ∧ t.done = [0] ∧ t.jobs.length = 1 ∧
      ∃ g ∈ t.groups.rows, g.timesSeen = 2 ∧ t.events.rows.countP (EventRow.completedOf g.id) = 1 :=
    exists_run
      (countSteps 0 "g" ++ [.call 0 (.fail false)] ++ countSteps 0 "g'" ++
        [.call 0 (.save "r" ⟨0⟩), .call 0 .markDone]) (by decide +kernel)
  refine ⟨trace, t, hrun, fun j hj => ?_, hcount⟩
  rw [hdone]
  simpa [hjobs] using hj

end DurableWorkers

end Urgentry
