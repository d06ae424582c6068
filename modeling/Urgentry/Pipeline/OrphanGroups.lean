import Urgentry.Pipeline.DurableWorkers
import Urgentry.Sqlite.RetentionEvents

/-!
# Groups that retention collects

`Process` upserts the group of an event first and saves the event afterwards. Retention deletes, at
the end of its work on a project, the groups that no event refers to. A new group has no event
between the two steps of `Process`, which is just what retention looks for: it collects the group,
and the event that is saved then refers to a group that is gone.

## Runs

The workers take the steps of `DurableWorkers`. Retention takes its own in between: it lists the
events that are too old, deletes the listed events in one statement or archives and deletes them one
by one, and collects the groups of a project. Any number of passes run at the same time.

## Main results

* `run_grouped`: in every run in which no group is collected while a call has upserted it, has not
  saved its event and no other event is in it, every event of every state reached has its group.
-/

namespace Urgentry

open SqlTable Trace List Table

/-- A retention pass on the events of a project, by the rows that it listed. -/
structure RetentionPass where
  projectId : String
  listed : List String
deriving DecidableEq

/-- The workers and the retention passes. -/
structure Retaining where
  workers : DurableWorkers
  passes : List RetentionPass

/-- What can happen. -/
inductive RetainingAction
  | worker (a : WorkersAction)
  /-- A pass lists the events that are older than its cutoff. -/
  | list (projectId cutoff : String) (eventTypes : List String)
  /-- A pass deletes the events that it listed, in one statement. -/
  | deleteListed (pass : RetentionPass)
  /-- A pass has archived an event that it listed, and deletes it. -/
  | deleteArchived (pass : RetentionPass) (rowId : String)
  /-- `deleteOrphanGroups`, at the end of the work on a project. -/
  | deleteOrphanGroups (projectId : String)

namespace Retaining

/-- The stores with the jobs to do. -/
def start (groups : Table GroupRow) (events : Table EventRow) (jobs : List EventJob) : Retaining :=
  ⟨.start groups events jobs, []⟩

variable (s : Retaining)

def groups : Table GroupRow := s.workers.groups

def events : Table EventRow := s.workers.events

/-- Some rows of `events` are deleted. -/
def deleteEvents (p : EventRow → Bool) : Retaining :=
  { s with workers := { s.workers with events := s.workers.events.deleteWhere p } }

/-- One step. -/
def step : RetainingAction → Option Retaining
  | .worker a => (s.workers.step a).map fun workers => { s with workers }
  | .list projectId cutoff eventTypes =>
    let old := s.events.rows.filter (EventRow.expired cutoff projectId eventTypes)
    some { s with passes := ⟨projectId, old.map (·.id)⟩ :: s.passes }
  | .deleteListed pass =>
    if pass ∈ s.passes then some (s.deleteEvents fun r => pass.listed.contains r.id) else none
  | .deleteArchived pass rowId =>
    if pass ∈ s.passes ∧ rowId ∈ pass.listed then some (s.deleteEvents (·.id == rowId)) else none
  | .deleteOrphanGroups projectId =>
    some { s with workers := { s.workers with
      groups := Urgentry.deleteOrphanGroups projectId s.events s.groups } }

/-- **The property.** Every completed event that names a group has it. -/
def Grouped : Prop :=
  ∀ r ∈ s.events, r.processingStatus = .completed → ∀ groupId, r.groupId = some groupId →
    groupId ≠ "" → ∃ g ∈ s.groups, g.id = groupId

/-- **The condition.** When the groups of a project are collected, the group of a call that has
upserted it and not saved its event yet has another event. -/
def SparesNewGroups : RetainingAction → Prop
  | .deleteOrphanGroups projectId =>
    ∀ c ∈ s.workers.calls, c.projectId = projectId → ∀ groupId ∈ c.counted?, groupId ≠ "" →
      ∃ r ∈ s.events.rows, r.inGroup projectId groupId = true
  | _ => True

/-! ## Steps -/

variable (groups : Table GroupRow)

/-- The project has the group. -/
def HasGroup (projectId groupId : String) : Prop :=
  groupId = "" ∨ ∃ g ∈ groups, g.id = groupId ∧ g.projectId = projectId

/-- Every completed event has its group, in its own project. -/
def EventsGrouped (events : Table EventRow) : Prop :=
  ∀ r ∈ events, r.processingStatus = .completed → ∀ groupId, r.groupId = some groupId →
    HasGroup groups r.projectId groupId

/-- The call will save its event in a group that is there. -/
def CallGrouped (c : Call) : Prop :=
  ∀ groupId, c.counted? = some groupId → HasGroup groups c.projectId groupId

/-- What is carried along a run: the events have their groups, and so will the events that are about
to be saved. -/
structure Kept : Prop where
  events : EventsGrouped s.groups s.events
  calls : ∀ c ∈ s.workers.calls, CallGrouped s.groups c

variable {s t : Retaining} {a : RetainingAction}

theorem Kept.grouped (h : s.Kept) : s.Grouped := by
  intro r hr hstatus groupId hgroup hne
  obtain ⟨g, hg, hid, -⟩ := (h.events r hr hstatus groupId hgroup).resolve_left hne
  exact ⟨g, hg, hid⟩

variable {groups groups' : Table GroupRow} {w : DurableWorkers}

theorem HasGroup.mono {projectId groupId : String}
    (hmono : ∀ g ∈ groups, ∃ g' ∈ groups', g'.id = g.id ∧ g'.projectId = g.projectId)
    (h : HasGroup groups projectId groupId) : HasGroup groups' projectId groupId := by
  refine h.imp_right ?_
  rintro ⟨g, hg, hid, hproject⟩
  obtain ⟨g', hg', hid', hproject'⟩ := hmono g hg
  exact ⟨g', hg', hid'.trans hid, hproject'.trans hproject⟩

/-- Groups that keep their ids and projects keep what hangs on them. -/
theorem Kept.mono (h : s.Kept)
    (hmono : ∀ g ∈ s.groups, ∃ g' ∈ groups, g'.id = g.id ∧ g'.projectId = g.projectId) :
    EventsGrouped groups s.events ∧ ∀ c ∈ s.workers.calls, CallGrouped groups c := by
  refine ⟨fun r hr hstatus groupId hgroup => ?_, fun c hc groupId hcounted => ?_⟩
  · exact (h.events r hr hstatus groupId hgroup).mono hmono
  · exact (h.calls c hc groupId hcounted).mono hmono

theorem exists_of_sameCounts (h : SameCounts groups groups') :
    ∀ g ∈ groups, ∃ g' ∈ groups', g'.id = g.id ∧ g'.projectId = g.projectId := by
  intro g hg
  obtain ⟨g', hg', hmatch⟩ := h.forth g hg
  exact ⟨g', hg', hmatch.id, congrArg GroupKey.projectId hmatch.groupKey⟩

/-- An upsert keeps the groups, and there is a group of its project with the id that it returns. -/
theorem hasGroup_of_upsertGroup {g : Group} {groupId : String}
    (h : upsertGroup g groups = some (groups', groupId)) :
    (∀ r ∈ groups, ∃ r' ∈ groups', r'.id = r.id ∧ r'.projectId = r.projectId) ∧
      HasGroup groups' g.projectId groupId := by
  rcases upsertGroup_cases h with ⟨row, hrow, hkey, hid, hrows⟩ | ⟨-, -, hid, hrows⟩
  · have hmem : ∀ r ∈ groups, ∃ r' ∈ groups', r'.id = r.id ∧ r'.projectId = r.projectId := by
      intro r hr
      refine ⟨if r.id = groupId then g.seenAgain r else r, ?_, ?_⟩
      · rw [mem_def, hrows]
        exact mem_map_of_mem hr
      · split <;> exact ⟨rfl, rfl⟩
    obtain ⟨r', hr', hid', hproject'⟩ := hmem row hrow
    exact ⟨hmem, .inr ⟨r', hr', hid'.trans hid, hproject'.trans (congrArg GroupKey.projectId hkey)⟩⟩
  · refine ⟨fun r hr => ⟨r, ?_, rfl, rfl⟩, .inr ⟨g.newRow groups, ?_, hid.symm, rfl⟩⟩
    · rw [mem_def, hrows]
      exact mem_append_left _ hr
    · rw [mem_def, hrows]
      exact mem_append_right _ mem_cons_self

theorem callGrouped_moveTo {c : Call} {phase : Phase} (h : ∀ c' ∈ w.calls, CallGrouped groups c')
    (hnew : CallGrouped groups { c with phase }) :
    ∀ c' ∈ (w.moveTo c phase).calls, CallGrouped groups c' := by
  rintro c' (_ | ⟨_, hc'⟩)
  · exact hnew
  · exact h c' (mem_of_mem_erase hc')

/-- **A step of a call.** -/
theorem Kept.moved {c : Call} {cs : CallStep} (h : s.Kept) (hc : c ∈ s.workers.calls)
    (hmoved : DurableWorkers.Moved s.workers c cs w) :
    ({ s with workers := w } : Retaining).Kept := by
  cases hmoved with
  | stored | unstored | lookedUp =>
    exact ⟨h.events, callGrouped_moveTo h.calls nofun⟩
  | upserted hphase hgroups =>
    obtain ⟨hmono, hnew⟩ := hasGroup_of_upsertGroup hgroups
    obtain ⟨hevents, hcalls⟩ := h.mono hmono
    refine ⟨hevents, callGrouped_moveTo hcalls ?_⟩
    rintro _ ⟨⟩
    exact hnew
  | @adjusted existing isRegression groupId ownership statusSaved assigneeSaved hphase =>
    have hmono := exists_of_sameCounts (DurableWorkers.sameCounts_adjusted groupId existing
      isRegression ownership statusSaved assigneeSaved s.groups)
    obtain ⟨hevents, hcalls⟩ := h.mono hmono
    refine ⟨hevents, callGrouped_moveTo hcalls ?_⟩
    rintro _ ⟨⟩
    exact hcalls c hc _ (by rw [Call.counted?, hphase])
  | saved hphase hfresh =>
    refine ⟨?_, callGrouped_moveTo h.calls nofun⟩
    intro r hr hstatus groupId hgroup
    rw [mem_def] at hr
    change r ∈ (saveEvent s.workers.events _ _).rows at hr
    rw [saveEvent, rows_insertOrIgnore] at hr
    split at hr
    · exact h.events r hr hstatus groupId hgroup
    · rcases mem_append.mp hr with hr | hr
      · exact h.events r hr hstatus groupId hgroup
      · cases mem_singleton.mp hr
        cases hgroup
        refine h.calls c hc _ ?_
        rw [Call.counted?, hphase]
        rfl
  | filtered | failed | marked =>
    exact ⟨h.events, fun c' hc' => h.calls c' (mem_of_mem_erase hc')⟩

theorem Kept.deleteEvents (h : s.Kept) (p : EventRow → Bool) : (s.deleteEvents p).Kept :=
  ⟨fun r hr => h.events r (mem_of_mem_filter hr), h.calls⟩

/-- **Collecting groups** spares those that events refer to, and by the condition those that events
are about to refer to. -/
theorem Kept.deleteOrphanGroups {projectId : String} (h : s.Kept)
    (hspares : s.SparesNewGroups (.deleteOrphanGroups projectId)) :
    ({ s with workers := { s.workers with
      groups := Urgentry.deleteOrphanGroups projectId s.events s.groups } } : Retaining).Kept := by
  have hkeep : ∀ project groupId, HasGroup s.groups project groupId →
      (project = projectId → groupId ≠ "" → ∃ r ∈ s.events.rows,
        r.inGroup projectId groupId = true) →
      HasGroup (Urgentry.deleteOrphanGroups projectId s.events s.groups) project groupId := by
    rintro project groupId (hempty | ⟨g, hg, rfl, rfl⟩) hused
    · exact .inl hempty
    · by_cases hempty : g.id = ""
      · exact .inl hempty
      · exact .inr
          ⟨g, mem_deleteOrphanGroups.mpr ⟨hg, fun hproject => hused hproject hempty⟩, rfl, rfl⟩
  refine ⟨fun r hr hstatus groupId hgroup => ?_, fun c hc groupId hcounted => ?_⟩
  · refine hkeep _ _ (h.events r hr hstatus groupId hgroup) fun hproject hne => ⟨r, hr, ?_⟩
    simp [EventRow.inGroup, hproject, hgroup, hne]
  · exact hkeep _ _ (h.calls c hc groupId hcounted) fun hproject hne =>
      hspares c hc hproject groupId hcounted hne

theorem Kept.step (h : s.Kept) (hspares : s.SparesNewGroups a) (hstep : s.step a = some t) :
    t.Kept := by
  cases a with
  | worker a =>
    obtain ⟨w, hw, rfl⟩ := Option.map_eq_some_iff.mp hstep
    rcases DurableWorkers.step_cases hw with
      ⟨worker, job, evt, groupId, j, -, -, -, -, rfl⟩ | ⟨worker, c, cs, -, hc, -, hmoved⟩
    · refine ⟨h.events, ?_⟩
      rintro c (_ | ⟨_, hc⟩)
      · exact nofun
      · exact h.calls c hc
    · exact h.moved hc hmoved
  | list projectId cutoff eventTypes =>
    cases hstep
    exact ⟨h.events, h.calls⟩
  | deleteListed pass =>
    obtain ⟨-, ⟨⟩⟩ := Option.ite_none_right_eq_some.mp hstep
    exact h.deleteEvents _
  | deleteArchived pass rowId =>
    obtain ⟨-, ⟨⟩⟩ := Option.ite_none_right_eq_some.mp hstep
    exact h.deleteEvents _
  | deleteOrphanGroups projectId =>
    cases hstep
    exact h.deleteOrphanGroups hspares

/-- **Every event has its group**, in every state of every run that starts with grouped events and
never collects a group whose first event is about to be saved. -/
theorem run_grouped {groups : Table GroupRow} {events : Table EventRow} {jobs : List EventJob}
    {trace : List (Retaining × RetainingAction)} (hstart : EventsGrouped groups events)
    (run : Run step (start groups events jobs) trace t)
    (hspares : ∀ p ∈ trace, p.1.SparesNewGroups p.2) : ∀ u ∈ visited trace t, u.Grouped := by
  have hkept : (start groups events jobs).Kept :=
    ⟨hstart, fun c hc => absurd hc not_mem_nil⟩
  intro u hu
  exact (run.invariant hkept Kept.step hspares u hu).grouped

/-! ### A new group -/

/-- The steps of a call up to its upsert. -/
def upsertSteps : List RetainingAction :=
  [.worker (.claim 0 0 { eventId := "e", groupingVersion := "v", groupingKey := "k" } "g"),
    .worker (.call 0 (.check true)), .worker (.call 0 (.lookup none)), .worker (.call 0 .upsert)]

/-- The steps of a call after its upsert. -/
def saveSteps : List RetainingAction :=
  [.worker (.call 0 (.adjust none true true)), .worker (.call 0 (.save "r" ⟨0⟩)),
    .worker (.call 0 .markDone)]

instance (s : Retaining) (a : RetainingAction) : Decidable (s.SparesNewGroups a) :=
  match a with
  | .deleteOrphanGroups _ =>
    inferInstanceAs (Decidable (∀ c ∈ _, _ → ∀ groupId ∈ _, _ → ∃ r ∈ _, _))
  | .worker _ | .list _ _ _ | .deleteListed _ | .deleteArchived _ _ => .isTrue trivial

theorem collected_later_grouped : ∃ trace t,
    Run step (start .empty .empty [⟨"p", "e"⟩]) trace t ∧ t.events.rows.length = 1 ∧
      ∀ u ∈ visited trace t, u.Grouped := by
  have hstart : EventsGrouped .empty .empty := fun r hr => absurd hr not_mem_nil
  exact exists_run_and SparesNewGroups (upsertSteps ++ saveSteps ++ [.deleteOrphanGroups "p"])
    (by decide +kernel) fun hrun hspares => run_grouped hstart hrun hspares

/-- **A group collected too early.** Retention runs between the upsert of the group and the save of
its first event. In the end no call is in progress, and the event is in a group that is gone. -/
theorem collected_early_ungrouped : ∃ trace t,
    Run step (start .empty .empty [⟨"p", "e"⟩]) trace t ∧ t.workers.calls = [] ∧
      t.events.rows.map (·.groupId) = [some "g"] ∧ t.groups.rows = [] ∧ ¬t.Grouped := by
  obtain ⟨trace, t, hrun, hcalls, hgroups, r, hr, hrows, hstatus, hgroup⟩ : ∃ trace t,
      Run step (start .empty .empty [⟨"p", "e"⟩]) trace t ∧ t.workers.calls = [] ∧
      t.groups.rows = [] ∧ ∃ r ∈ t.events.rows, t.events.rows = [r] ∧
      r.processingStatus = .completed ∧ r.groupId = some "g" :=
    exists_run (upsertSteps ++ [.deleteOrphanGroups "p"] ++ saveSteps) (by decide +kernel)
  refine ⟨trace, t, hrun, hcalls, ?_, hgroups, fun h => ?_⟩
  · rw [hrows, map_singleton, hgroup]
  · obtain ⟨g, hg, -⟩ := h r hr hstatus "g" hgroup (by decide)
    rw [mem_def, hgroups] at hg
    exact absurd hg not_mem_nil

end Retaining

end Urgentry
