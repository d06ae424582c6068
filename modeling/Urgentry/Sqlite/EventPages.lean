import Urgentry.Sqlite.EventStore
import Mathlib.Data.List.Sort

/-!
# Event pages

`listEvents` returns a page of a project's events, latest first, and continues after an event that
the client names. The continuation keeps the events whose ingestion time is *smaller* than that of
the named one, and times are texts to the second. So of the events that share the time of the last
one of a page, those that did not fit on the page are on no other.

A client that goes through the pages sees every event once, for every page size, exactly when no two
events have one time and no event has the empty id, from which a client starts anew
(`walk_perm_iff`). How the database orders equal times does not matter. -/

namespace Urgentry.EventPages

open SqlTable List

/-- The time of an event; `NULL` comes last. -/
def time (r : EventRow) : String := r.ingestedAt.getD ""

/-- A table, what is asked of it, and the database's `ORDER BY ingested_at DESC`. -/
structure Listing where
  table : Table EventRow
  (projectID eventType : String)
  order : List EventRow → List EventRow
  perm : ∀ rows, (order rows).Perm rows
  sorted : ∀ rows, (order rows).Pairwise fun r s => time s ≤ time r

namespace Listing

variable (q : Listing)

/-- The events of the project, or those of one type. -/
def events : List EventRow :=
  q.table.rows.filter fun r =>
    r.projectId = q.projectID ∧ (q.eventType ≠ "" → r.eventType = q.eventType)

/-- `ingested_at < (SELECT ingested_at FROM events WHERE event_id = ? AND project_id = ?)`. -/
def IngestedBefore (cursor : String) (r : EventRow) : Prop :=
  ∃ c ∈ q.table.rows.find? fun c => c.eventId == cursor && c.projectId == q.projectID,
    ∃ bound ∈ c.ingestedAt, ∃ ingested ∈ r.ingestedAt, ingested < bound
deriving Decidable

/-- `listEvents`, in the default order. -/
def listEvents (limit : ℤ) (cursor : String) : List EventRow :=
  (q.order (q.events.filter fun r => cursor = "" ∨ q.IngestedBefore cursor r)).take
    (if limit ≤ 0 then 100 else limit.toNat)

/-- The events on the pages, from a cursor until a page is empty. -/
def walk (limit : ℤ) : ℕ → String → List EventRow
  | 0, _ => []
  | fuel + 1, cursor =>
    match (q.listEvents limit cursor).getLast? with
    | none => []
    | some last => q.listEvents limit cursor ++ walk limit fuel last.eventId

def Timed : Prop := ∀ r ∈ q.events, r.ingestedAt.isSome
deriving Decidable

/-- Every event can be a cursor. -/
def Named : Prop := ∀ r ∈ q.events, r.eventId ≠ ""
deriving Decidable

/-- The events that are left after an event. -/
def left (c : Option EventRow) : List EventRow :=
  q.events.filter fun r => ∀ last ∈ c, time r < time last

variable {q} {limit : ℤ} {c : Option EventRow} {last : EventRow}

/-- A page is the first of the events that are left. -/
theorem listEvents_eq (htimed : q.Timed) (hnamed : q.Named) (hlimit : 0 < limit)
    (hc : ∀ last ∈ c, last ∈ q.events) :
    q.listEvents limit (c.elim "" EventRow.eventId) = (q.order (q.left c)).take limit.toNat := by
  rw [listEvents, if_neg hlimit.not_ge]
  congr 2
  refine filter_congr fun r hr => ?_
  cases c with
  | none => simp
  | some last =>
    have hlast := hc last rfl
    obtain ⟨hmem, hproject, -⟩ := by simpa [events] using hlast
    have hfind :
      (q.table.rows.find? fun r => r.eventId == last.eventId && r.projectId == q.projectID) =
        some last := by
      refine Table.find?_of_mem hmem (by simp [hproject]) fun s hs => ?_
      simp_all [Schema.conflict]
    obtain ⟨bound, hbound⟩ := Option.isSome_iff_exists.mp (htimed last hlast)
    obtain ⟨ingested, hingested⟩ := Option.isSome_iff_exists.mp (htimed r hr)
    simp [IngestedBefore, hfind, hbound, hingested, time, hnamed last hlast]

theorem left_some (hmem : last ∈ q.left c) :
    q.left (some last) = (q.left c).filter fun r => time r < time last := by
  have hbefore : ∀ x ∈ c, time last < time x := by simpa using (mem_filter.mp hmem).2
  rw [left, left, filter_filter]
  refine filter_congr fun r _ => ?_
  simpa using fun h x hx => lt_trans h (hbefore x hx)

/-- What is left after the last event of a page is what is left after the page, if times differ. -/
theorem page_append_perm (hne : q.events.Pairwise fun r s => time r ≠ time s) {n : ℕ}
    (hlast : ((q.order (q.left c)).take n).getLast? = some last) :
    last ∈ q.left c ∧ ((q.order (q.left c)).take n ++ q.left (some last)).Perm (q.left c) := by
  have hperm := q.perm (q.left c)
  have hmem : last ∈ q.left c := hperm.mem_iff.mp (mem_of_mem_take (mem_of_getLast? hlast))
  have hstrict : (q.order (q.left c)).Pairwise fun r s => time s < time r :=
    ((q.sorted _).and ((hperm.pairwise_iff Ne.symm).mpr (hne.filter _))).imp
      fun h => lt_of_le_of_ne h.1 h.2.symm
  have hfilter := hperm.filter fun r => decide (time r < time last)
  obtain ⟨init, hinit⟩ := getLast?_eq_some_iff.mp hlast
  rw [← take_append_drop n (q.order _), hinit] at hstrict hfilter
  obtain ⟨hpage, -, hrest⟩ := pairwise_append.mp hstrict
  have hnone : (init ++ [last]).filter (fun r => decide (time r < time last)) = [] :=
    filter_eq_nil_iff.mpr fun r hr hlt => by
      grind
  rw [filter_append, hnone, nil_append, ← left_some hmem,
    filter_eq_self.mpr fun r hr => decide_eq_true (hrest last (by simp) r hr)] at hfilter
  refine ⟨hmem, (hfilter.symm.append_left _).trans ?_⟩
  rwa [take_append_drop]

/-- From any event on, a walk visits the events that are left, if times differ. -/
theorem walk_perm (htimed : q.Timed) (hnamed : q.Named)
    (hne : q.events.Pairwise fun r s => time r ≠ time s) (hlimit : 0 < limit) (fuel : ℕ)
    (hc : ∀ last ∈ c, last ∈ q.events) (hfuel : (q.left c).length < fuel) :
    (q.walk limit fuel (c.elim "" EventRow.eventId)).Perm (q.left c) := by
  induction fuel generalizing c with
  | zero => exact absurd hfuel (Nat.not_lt_zero _)
  | succ fuel ih =>
    rw [walk, listEvents_eq htimed hnamed hlimit hc]
    cases h : ((q.order (q.left c)).take limit.toNat).getLast? with
    | none =>
      have hnil : q.order (q.left c) = [] := by simpa [hlimit.not_ge] using h
      simpa [hnil] using q.perm (q.left c)
    | some last =>
      obtain ⟨hmem, hperm⟩ := page_append_perm hne h
      have hlength := hperm.length_eq
      have hpos := length_pos_of_mem (mem_of_getLast? h)
      rw [length_append] at hlength
      refine ((ih (c := some last) ?_ (by omega)).append_left _).trans hperm
      simpa using (mem_filter.mp hmem).1

/-- With pages of one event, the times of a walk go down. -/
theorem walk_one (htimed : q.Timed) (hnamed : q.Named) (fuel : ℕ)
    (hc : ∀ last ∈ c, last ∈ q.events) :
    (q.walk 1 fuel (c.elim "" EventRow.eventId)).Pairwise (fun r s => time s < time r) ∧
      ∀ r ∈ q.walk 1 fuel (c.elim "" EventRow.eventId), r ∈ q.left c := by
  induction fuel generalizing c with
  | zero => simp [walk]
  | succ fuel ih =>
    rw [walk, listEvents_eq htimed hnamed one_pos hc]
    cases h : q.order (q.left c) with
    | nil => simp
    | cons last rest =>
      have hmem : last ∈ q.left c := (q.perm _).mem_iff.mp (h ▸ mem_cons_self)
      obtain ⟨hdown, hleft⟩ := ih (c := some last) (by simpa using (mem_filter.mp hmem).1)
      have hafter : ∀ r ∈ q.walk 1 fuel last.eventId, r ∈ q.left c ∧ time r < time last := by
        simpa [left_some hmem] using hleft
      change (last :: _).Pairwise _ ∧ ∀ r ∈ last :: _, _
      exact ⟨pairwise_cons.mpr ⟨fun r hr => (hafter r hr).2, hdown⟩,
        forall_mem_cons.mpr ⟨hmem, fun r hr => (hafter r hr).1⟩⟩

/-- With pages of one event, a walk goes on from each event as from its id. -/
theorem walk_split {r : EventRow} {fuel : ℕ} {cursor : String} (h : r ∈ q.walk 1 fuel cursor) :
    ∃ before, before.length < fuel ∧
      q.walk 1 fuel cursor = before ++ r :: q.walk 1 (fuel - (before.length + 1)) r.eventId := by
  induction fuel generalizing cursor with
  | zero => simp [walk] at h
  | succ fuel ih =>
    rw [walk] at h ⊢
    have hone : (q.listEvents 1 cursor).length ≤ 1 := length_take_le _ _
    match hpage : q.listEvents 1 cursor with
    | [] => simp [hpage] at h
    | _ :: _ :: _ => simp [hpage] at hone
    | [first] =>
      simp only [hpage, getLast?_singleton, singleton_append, mem_cons] at h ⊢
      rcases h with rfl | h
      · exact ⟨[], by simp⟩
      · obtain ⟨before, hlt, heq⟩ := ih h
        exact ⟨first :: before, by simpa using hlt, by simp [heq]⟩

/-- **Every event once**, for every page size, exactly when every event can be a cursor and no two
events have one time. -/
theorem walk_perm_iff (htimed : q.Timed) :
    (∀ limit fuel, 0 < limit → q.events.length < fuel → (q.walk limit fuel "").Perm q.events) ↔
      q.Named ∧ q.events.Pairwise fun r s => time r ≠ time s := by
  have hall : q.left none = q.events := by simp [left]
  constructor
  · intro h
    have hnamed : q.Named := by
      intro r hr hid
      have hwalk := h 1 (2 * q.events.length + 2) one_pos (by omega)
      obtain ⟨before, -, heq⟩ := walk_split (hwalk.mem_iff.mpr hr)
      have hlength := congrArg length heq
      rw [hwalk.length_eq, hid, length_append, length_cons] at hlength
      rw [(h 1 _ one_pos (by omega)).length_eq] at hlength
      omega
    have hdown := (walk_one htimed hnamed (q.events.length + 1) (c := none) (by simp)).1
    exact ⟨hnamed, ((h 1 _ one_pos (by omega)).pairwise_iff Ne.symm).mp (hdown.imp fun h => h.ne')⟩
  · intro ⟨hnamed, hne⟩ limit fuel hlimit hfuel
    have hwalk := walk_perm htimed hnamed hne hlimit fuel (c := none) (by simp) (by rwa [hall])
    rwa [hall] at hwalk

end Listing

/-- Two events of project `p`, and a database that sorts stably. -/
def twoEvents (i j : Instant) : Listing where
  table := saveAll [⟨{ id := "1", projectId := "p", eventId := "a" }, i⟩,
    ⟨{ id := "2", projectId := "p", eventId := "b" }, j⟩]
  projectID := "p"
  eventType := ""
  order rows := rows.insertionSort fun r s => time s ≤ time r
  perm := perm_insertionSort _
  sorted rows :=
    have : Std.Total fun r s => time s ≤ time r := ⟨fun r s => le_total (time s) (time r)⟩
    have : IsTrans EventRow fun r s => time s ≤ time r := ⟨fun _ _ _ h h' => h'.trans h⟩
    pairwise_insertionSort _ rows

theorem twoEvents_visited : ((twoEvents .midnight (.ofDaySeconds 1)).walk 1 3 "").Perm
    (twoEvents .midnight (.ofDaySeconds 1)).events :=
  (Listing.walk_perm_iff (by decide +kernel)).mpr (by decide +kernel) 1 3 (by decide) (by decide)

/-- **An event on no page.** Two events of one second, on pages of one. -/
theorem second_event_skipped : ((twoEvents .midnight .midnight).walk 1 3 "").length = 1 ∧
    (twoEvents .midnight .midnight).events.length = 2 := by
  decide +kernel

end Urgentry.EventPages
