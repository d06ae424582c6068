import Urgentry.Issue.Processor

/-!
# First and last seen

`UpsertGroup` writes the time of the event that makes a group into `first_seen`, and the time of
every later one into `last_seen` without a look at what is there. So the columns tell of the first
and the last event that were *delivered*. They are the earliest and the latest time exactly when
those two events are the earliest and the latest (`deliver_spans_iff`). The count is right in any
order. -/

namespace Urgentry.GroupTimes

open SqlTable List Table

/-- The events are upserted in this order, each with the id that a new group would get. -/
def deliver (projectId : String) : List (NormalizedEvent × String) → Table GroupRow →
    Option (Table GroupRow)
  | [], groups => some groups
  | (evt, id) :: rest, groups =>
    (upsertGroup (evt.group projectId id) groups).bind fun r => deliver projectId rest r.1

/-- The row of the group tells these times and this count. -/
structure Tells (groups : Table GroupRow) (k : GroupKey) (first last : Time) (count : ℕ)
    (r : GroupRow) : Prop where
  mem : r ∈ groups
  groupKey : r.groupKey = k
  firstSeen : r.firstSeen = first.rfc3339
  lastSeen : r.lastSeen = last.rfc3339
  timesSeen : r.timesSeen = count

/-- **The property.** The group has the number of the events and their earliest and latest time. -/
def Spans (groups : Table GroupRow) (k : GroupKey) (times : List Time) : Prop :=
  ∃ s ∈ times, ∃ t ∈ times, (∀ u ∈ times, s.secs ≤ u.secs ∧ u.secs ≤ t.secs) ∧
    ∃ r, Tells groups k s t times.length r

variable {projectId id gid : String} {evt : NormalizedEvent} {groups groups' : Table GroupRow}
  {k : GroupKey} {first last : Time} {count : ℕ} {events : List (NormalizedEvent × String)}

theorem tells_again {r : GroupRow} (hr : Tells groups k first last count r)
    (hk : evt.groupKey projectId = k)
    (h : upsertGroup (evt.group projectId id) groups = some (groups', gid)) :
    ∃ r', Tells groups' k first evt.timestamp (count + 1) r' := by
  rcases upsertGroup_cases h with ⟨row, hrow, hkey, rfl, hrows⟩ | ⟨hnone, -⟩
  · have hkey : row.groupKey = k := hkey.trans hk
    obtain rfl := eq_of_conflict hrow hr.mem (by simp [Schema.conflict, hr.groupKey, hkey])
    refine ⟨(evt.group projectId id).seenAgain row, ?_, hr.groupKey, hr.firstSeen, rfl, ?_⟩
    · rw [mem_def, hrows, mem_map]
      exact ⟨row, hrow, if_pos rfl⟩
    · exact congrArg (· + 1) hr.timesSeen
  · exact absurd (hr.groupKey.trans hk.symm) (hnone r hr.mem)

/-- The later events, one after the other. -/
theorem tells_deliver {r : GroupRow} (hr : Tells groups k first last count r)
    (hkeys : ∀ e ∈ events, e.1.groupKey projectId = k)
    (h : deliver projectId events groups = some groups') :
    ∃ r', Tells groups' k first ((last :: events.map (·.1.timestamp)).getLast (cons_ne_nil _ _))
      (count + events.length) r' := by
  induction events generalizing groups r last count with
  | nil =>
    cases h
    exact ⟨r, hr⟩
  | cons e rest ih =>
    obtain ⟨hk, hkeys⟩ := forall_mem_cons.mp hkeys
    obtain ⟨⟨groups₁, gid⟩, hupsert, h⟩ := Option.bind_eq_some_iff.mp h
    obtain ⟨r₁, hr₁⟩ := tells_again hr hk hupsert
    have hrest := ih hr₁ hkeys h
    rwa [Nat.add_assoc, Nat.add_comm 1] at hrest

/-- **The times of a group** are those of its events exactly when the first delivered event is the
earliest and the last delivered one the latest, to the second. -/
theorem deliver_spans_iff (hnew : ∀ r ∈ groups, r.groupKey ≠ k)
    (hkeys : ∀ e ∈ (evt, id) :: events, e.1.groupKey projectId = k)
    (h : deliver projectId ((evt, id) :: events) groups = some groups') {times : List Time}
    (htimes : times = evt.timestamp :: events.map (·.1.timestamp)) :
    Spans groups' k times ↔
      ∃ t ∈ times.getLast?, ∀ u ∈ times, evt.timestamp.secs ≤ u.secs ∧ u.secs ≤ t.secs := by
  subst htimes
  obtain ⟨hk, hrest⟩ := forall_mem_cons.mp hkeys
  obtain ⟨⟨groups₁, gid⟩, hupsert, h⟩ := Option.bind_eq_some_iff.mp h
  obtain ⟨r₁, hr₁⟩ : ∃ r, Tells groups₁ k evt.timestamp evt.timestamp 1 r := by
    rcases upsertGroup_cases hupsert with ⟨row, hrow, hkey, -⟩ | ⟨-, -, -, hrows⟩
    · exact absurd (hkey.trans hk) (hnew row hrow)
    · exact ⟨_, (mem_of_rows hrows).mpr (.inr rfl), hk, rfl, rfl, rfl⟩
  obtain ⟨r, hr⟩ := tells_deliver hr₁ hrest h
  constructor
  · rintro ⟨s, hs, t, ht, hspan, r', hr'⟩
    obtain rfl := eq_of_conflict hr.mem hr'.mem (by
      simp [Schema.conflict, hr.groupKey, hr'.groupKey])
    have hfirst := Time.rfc3339_inj.mp (hr.firstSeen.symm.trans hr'.firstSeen)
    have hlast := Time.rfc3339_inj.mp (hr.lastSeen.symm.trans hr'.lastSeen)
    exact ⟨_, rfl, fun u hu => ⟨hfirst ▸ (hspan u hu).1, hlast ▸ (hspan u hu).2⟩⟩
  · rintro ⟨t, ⟨⟩, hspan⟩
    refine ⟨_, mem_cons_self, _, getLast_mem _, hspan, r, ?_⟩
    simpa [Nat.add_comm] using hr

/-- An event of the second `n` of a day. -/
def eventAt (n : Fin 86400) : NormalizedEvent :=
  { eventId := "e", groupingVersion := "v", groupingKey := "k",
    timestamp := (Instant.ofDaySeconds n).toTime }

theorem delivered_in_order :
    ∃ groups, deliver "p" [(eventAt 0, "g"), (eventAt 1, "h")] .empty = some groups ∧
      Spans groups ⟨"p", "v", "k"⟩ [(eventAt 0).timestamp, (eventAt 1).timestamp] := by
  obtain ⟨groups, h⟩ := Option.isSome_iff_exists.mp (by decide +kernel :
    (deliver "p" [(eventAt 0, "g"), (eventAt 1, "h")] .empty).isSome)
  exact ⟨groups, h,
    (deliver_spans_iff (by rintro r ⟨⟩) (by decide) h rfl).mpr ⟨_, rfl, by decide +kernel⟩⟩

/-- **The earlier event comes later**, and the group was last seen before it was first seen. -/
theorem last_seen_first :
    ((deliver "p" [(eventAt 1, "g"), (eventAt 0, "h")] .empty).map fun groups =>
    groups.rows.map fun r => (r.firstSeen, r.lastSeen)) =
      some [("2026-03-29T00:00:01Z", "2026-03-29T00:00:00Z")] := by
  decide +kernel

end Urgentry.GroupTimes
