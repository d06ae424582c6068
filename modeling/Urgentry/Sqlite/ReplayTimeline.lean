import Urgentry.Sqlite.ReplayIndex

/-!
# The order of a timeline

The last part of `buildReplayTimeline`, in `replay_store_index.go`. The timeline is sorted by time,
and items of one time by a provisional index. Within a recording that is the place of the event,
counted from a base. But the base grows with the items of the recordings before, and not with their
events: events that are skipped let the indexes of two recordings overlap.

## Main results

* `ReplayIndex.timelineRows_eq_iff`: the timeline always has the items of all recordings, and it is
  their stable sort by time exactly when no item lies too far behind in its recording.
* `ReplayIndex.skipped_events_swap`: two skipped events and two items.
-/

namespace Urgentry

open List

/-! ## Sorting by time -/

section Sorting

variable {α β : Type*} {l : List α}

/-- An insertion sort compares an element only with those behind it. -/
theorem insertionSort_congr {r s : α → α → Prop} [DecidableRel r] [DecidableRel s]
    (h : l.Pairwise fun a b => (r a b ↔ s a b)) : l.insertionSort r = l.insertionSort s := by
  have hinsert : ∀ (a : α) (l : List α), (∀ b ∈ l, (r a b ↔ s a b)) →
      l.orderedInsert r a = l.orderedInsert s a := by
    intro a l h
    induction l with
    | nil => rfl
    | cons b l ih =>
      rw [forall_mem_cons] at h
      rw [orderedInsert_cons, orderedInsert_cons, ih h.2]
      exact if_congr h.1 rfl rfl
  induction h with
  | nil => rfl
  | cons hhead _ ih =>
    rw [insertionSort_cons, insertionSort_cons, ih]
    exact hinsert _ _ fun b hb => hhead b ((mem_insertionSort s).mp hb)

/-- By time, and at one time by a key. -/
def Before (time : α → ℤ) (key : α → ℕ) (x y : α) : Prop :=
  time x < time y ∨ time x = time y ∧ key x ≤ key y

variable {time : β → ℤ} {key : β → ℕ} {f : α → β} {index : α → ℕ}

instance : DecidableRel (Before time key) :=
  fun x y => inferInstanceAs (Decidable (time x < time y ∨ _))

instance : Std.Total (Before time key) := ⟨fun x y => by unfold Before; omega⟩

instance : IsTrans β (Before time key) := ⟨fun x y z => by unfold Before; omega⟩

/-- Where the key grows along a list, it does not matter to a stable sort. -/
theorem insertionSort_before {l : List β}
    (h : l.Pairwise fun x y => time x = time y → key x ≤ key y) :
    l.insertionSort (Before time key) = l.insertionSort fun x y => time x ≤ time y := by
  refine insertionSort_congr (h.imp fun {x y} hkey => ?_)
  unfold Before
  omega

/-- **Ties by an index.** Elements that come in the order of a key are sorted by time and an index.
That is the stable sort by time exactly when the index grows at every time, if it does so among
elements with one key. -/
theorem map_insertionSort_eq_iff (time : β → ℤ) (key : β → ℕ) (hkey : l.Pairwise fun x y =>
      key (f x) < key (f y) ∨ key (f x) = key (f y) ∧ index x < index y) :
    (l.insertionSort (Before (fun x => time (f x)) index)).map f =
        (l.map f).insertionSort (fun x y => time x ≤ time y) ↔
      l.Pairwise fun x y => time (f x) = time (f y) → index x ≤ index y := by
  have hperm := perm_insertionSort (Before (fun x => time (f x)) index) l
  constructor
  · intro h
    -- the stable sort is sorted by time and key; the same list is sorted by time and index
    have hstable : ((l.map f).insertionSort fun x y => time x ≤ time y).Pairwise
        (Before time key) := by
      have hgrows : (l.map f).Pairwise fun x y => time x = time y → key x ≤ key y :=
        pairwise_map.mpr (hkey.imp fun {x y} hle _ => by omega)
      rw [← insertionSort_before hgrows]
      exact pairwise_insertionSort _ _
    rw [← h, pairwise_map] at hstable
    have hboth : (l.insertionSort (Before (fun x => time (f x)) index)).Pairwise fun x y =>
        time (f x) = time (f y) → key (f x) ≤ key (f y) ∧ index x ≤ index y ∨
          key (f y) ≤ key (f x) ∧ index y ≤ index x := by
      refine (hstable.and (pairwise_insertionSort _ l)).imp fun {x y} hle => ?_
      simp only [Before] at hle
      omega
    rw [hperm.pairwise_iff fun h htime => (h htime.symm).symm] at hboth
    refine (hkey.and hboth).imp fun {x y} hle htime => ?_
    have := hle.2 htime
    omega
  · intro h
    rw [insertionSort_before h]
    exact map_insertionSort _ _ _ _ fun _ _ _ _ => Iff.rfl

end Sorting

namespace ReplayIndex

variable (lib : ReplayLib) (bodies : List AssetBody)

/-! ## Timelines -/

/-- The rows of `replay_timeline_items`: `buildReplayTimeline` numbers the items in the end. -/
def timelineRows : List ((ReplayAsset × TimelineItem) × ℕ) :=
  (buildReplayTimeline lib bodies).zipIdx

/-- **The order of a timeline**: by time, and items of one time in the order of their assets and
events. -/
def orderedRows : List ((ReplayAsset × TimelineItem) × ℕ) :=
  ((parsedItems lib bodies).insertionSort fun x y => x.2.tsMs ≤ y.2.tsMs).zipIdx

/-- The place of an asset among those of its replay. -/
def place : ReplayAsset → ℕ
  | .segment id => id
  | .attachment i => i

/-- **The condition.** Of two items with one time, in different assets, the earlier one comes after
no more events of its recording than there are items from its asset up to the other one, and events
before the other item. -/
def InOrder : Prop :=
  ∀ before a mid b after, bodies = before ++ a :: (mid ++ b :: after) →
    ∀ x ∈ kept lib a, ∀ y ∈ kept lib b, x.2.tsMs = y.2.tsMs →
      x.1 ≤ (parsedItems lib (a :: mid)).length + y.1

section Order

variable {lib : ReplayLib} {bodies : List AssetBody}

/-! ## Collected items -/

/-- The indexes grow along a recording. -/
theorem pairwise_extractReplayTimeline {body : List UInt8} {items : List (ℕ × TimelineItem)}
    {n : ℕ} (h : extractReplayTimeline lib body n = some items) :
    items.Pairwise fun x y => x.1 < y.1 := by
  obtain ⟨rawEvents, -, rfl⟩ := Option.map_eq_some_iff.mp h
  have hindexes : ((rawEvents.zipIdx n).map Prod.snd).Pairwise (· < ·) := by
    rw [zipIdx_map_snd]
    exact pairwise_lt_range' 1
  refine (pairwise_map.mp hindexes).filterMap _ fun x y hlt a ha b hb => ?_
  obtain ⟨_, -, rfl⟩ := Option.map_eq_some_iff.mp ha
  obtain ⟨_, -, rfl⟩ := Option.map_eq_some_iff.mp hb
  exact hlt

theorem pairwise_kept (body : AssetBody) : (kept lib body).Pairwise fun x y => x.1 < y.1 := by
  unfold kept
  cases h : body.2.bind (extractReplayTimeline lib · 0) with
  | none => exact .nil
  | some items =>
    obtain ⟨_, -, hextract⟩ := Option.bind_eq_some_iff.mp h
    exact pairwise_extractReplayTimeline hextract

theorem mem_collectItems {n : ℕ} {entry : ReplayAsset × ℕ × TimelineItem} :
    entry ∈ collectItems lib n bodies ↔ ∃ before body after, bodies = before ++ body :: after ∧
      ∃ item ∈ kept lib body,
        (body.1, n + (parsedItems lib before).length + item.1, item.2) = entry := by
  induction bodies generalizing n with
  | nil => simp [collectItems]
  | cons head rest ih =>
    rw [collectItems_cons, mem_append, mem_map, ih]
    constructor
    · rintro (⟨item, hitem, rfl⟩ | ⟨before, body, after, rfl, item, hitem, rfl⟩)
      · exact ⟨[], head, rest, rfl, item, hitem, rfl⟩
      · refine ⟨head :: before, body, after, rfl, item, hitem, ?_⟩
        simp [parsedItems, Nat.add_assoc]
    · rintro ⟨before, body, after, hbodies, item, hitem, rfl⟩
      cases before with
      | nil =>
        obtain ⟨rfl, rfl⟩ := cons.inj hbodies
        exact .inl ⟨item, hitem, rfl⟩
      | cons first before =>
        obtain ⟨rfl, rfl⟩ := cons.inj hbodies
        refine .inr ⟨before, body, after, rfl, item, hitem, ?_⟩
        simp [parsedItems, Nat.add_assoc]

/-- The provisional indexes are in order just when the condition holds. -/
theorem pairwise_collectItems_iff (n : ℕ) :
    ((collectItems lib n bodies).Pairwise fun x y => x.2.2.tsMs = y.2.2.tsMs → x.2.1 ≤ y.2.1) ↔
      InOrder lib bodies := by
  induction bodies generalizing n with
  | nil => simp [collectItems, InOrder]
  | cons head rest ih =>
    have hlength : ∀ mid, (parsedItems lib (head :: mid)).length =
        (kept lib head).length + (parsedItems lib mid).length := by simp [parsedItems]
    rw [collectItems_cons, pairwise_append, ih]
    constructor
    · rintro ⟨-, hrest, hcross⟩ before a mid b after hbodies x hx y hy htime
      cases before with
      | nil =>
        obtain ⟨rfl, rfl⟩ := cons.inj hbodies
        have hle := hcross _ (mem_map_of_mem hx) _
          (mem_collectItems.mpr ⟨mid, b, after, rfl, y, hy, rfl⟩) htime
        rw [hlength]
        dsimp only at hle
        omega
      | cons first before =>
        obtain ⟨rfl, rfl⟩ := cons.inj hbodies
        exact hrest before a mid b after rfl x hx y hy htime
    · intro h
      refine ⟨pairwise_map.mpr ((pairwise_kept head).imp fun hlt _ => ?_), ?_, ?_⟩
      · exact Nat.add_le_add_left hlt.le n
      · intro before a mid b after hrest
        exact h (head :: before) a mid b after (congrArg (head :: ·) hrest)
      · intro entry hentry other hother htime
        obtain ⟨x, hx, rfl⟩ := mem_map.mp hentry
        obtain ⟨mid, b, after, rfl, y, hy, rfl⟩ := mem_collectItems.mp hother
        have hle := h [] head mid b after rfl x hx y hy htime
        rw [hlength] at hle
        dsimp only
        omega

/-- Along the collected items the places grow, and in one asset the indexes. -/
theorem pairwise_place_collectItems (n : ℕ)
    (hindex : bodies.Pairwise fun a b => place a.1 < place b.1) :
    (collectItems lib n bodies).Pairwise fun x y =>
      place x.1 < place y.1 ∨ place x.1 = place y.1 ∧ x.2.1 < y.2.1 := by
  induction hindex generalizing n with
  | nil => exact .nil
  | cons hhead _ ih =>
    rw [collectItems_cons, pairwise_append]
    refine ⟨pairwise_map.mpr ((pairwise_kept _).imp fun hlt => ?_), ih _, ?_⟩
    · exact .inr ⟨rfl, Nat.add_lt_add_left hlt n⟩
    · intro entry hentry other hother
      obtain ⟨x, -, rfl⟩ := mem_map.mp hentry
      obtain ⟨before, body, after, rfl, y, -, rfl⟩ := mem_collectItems.mp hother
      exact .inl (hhead body (mem_append_right _ mem_cons_self))

/-- **Replay timelines are stably ordered** just under this condition, for assets in index order:
the timeline always has the items of all assets, and it has them by time, and at one time in the
order of the assets and their events, if and only if the items are in order. -/
theorem timelineRows_eq_iff (lib : ReplayLib) (bodies : List AssetBody)
    (hindex : bodies.Pairwise fun a b => place a.1 < place b.1) :
    (timelineRows lib bodies).map Prod.fst ~ parsedItems lib bodies ∧
      (timelineRows lib bodies = orderedRows lib bodies ↔ InOrder lib bodies) := by
  have hbuild : buildReplayTimeline lib bodies = ((collectItems lib 0 bodies).insertionSort
      (Before (fun entry => entry.2.2.tsMs) fun entry => entry.2.1)).map
        fun entry => (entry.1, entry.2.2) := rfl
  have hinj := Function.LeftInverse.injective (zipIdx_map_fst (α := ReplayAsset × TimelineItem) 0)
  rw [timelineRows, orderedRows, zipIdx_map_fst, hinj.eq_iff, hbuild, ← map_collectItems 0,
    ← pairwise_collectItems_iff 0]
  exact ⟨(perm_insertionSort _ _).map _,
    map_insertionSort_eq_iff (fun entry : ReplayAsset × TimelineItem => entry.2.tsMs)
      (fun entry => place entry.1) (pairwise_place_collectItems 0 hindex)⟩

end Order

/-! ## Skipped events -/

/-- Recordings whose bytes are their events. A byte `0` is no item; the others are items of one
time. -/
def oneTime : ReplayLib where
  decode payload := some (payload.map ([·]))
  parseItem raw := if raw = [0] then none else some ⟨5, ""⟩
  attachments := []

/-- The item of a segment. -/
def itemOf (id : ℕ) : ReplayAsset × TimelineItem := (.segment id, ⟨5, ""⟩)

/-- A first recording, and a second one with an item. -/
def twoSegments (first : List UInt8) : List AssetBody :=
  [(.segment 0, some first), (.segment 1, some [1])]

theorem skippedLast_inOrder :
    timelineRows oneTime (twoSegments [1, 0, 0]) = [(itemOf 0, 0), (itemOf 1, 1)] ∧
      InOrder oneTime (twoSegments [1, 0, 0]) :=
  ⟨by decide, (timelineRows_eq_iff oneTime (twoSegments [1, 0, 0]) (by decide)).2.mp (by decide)⟩

/-- **The item of the second asset comes first**: its index is 1, and that of the other one is 2. -/
theorem skipped_events_swap :
    timelineRows oneTime (twoSegments [0, 0, 1]) = [(itemOf 1, 0), (itemOf 0, 1)] ∧
      orderedRows oneTime (twoSegments [0, 0, 1]) = [(itemOf 0, 0), (itemOf 1, 1)] ∧
      ¬InOrder oneTime (twoSegments [0, 0, 1]) := by
  refine ⟨by decide, by decide, fun h => ?_⟩
  have hle := h [] _ [] _ [] rfl (2, ⟨5, ""⟩) (by decide) (0, ⟨5, ""⟩) (by decide) rfl
  exact absurd hle (by decide)

end ReplayIndex

end Urgentry
