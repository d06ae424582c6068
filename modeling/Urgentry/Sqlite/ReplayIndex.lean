import Urgentry.Internal.Pool
import Urgentry.Internal.Run
import Mathlib.Data.List.Sort

/-!
# The index of a replay

`replay_store_index.go`, `replay_store_write.go` and `replay_store_segments.go`, for one replay: its
recording comes in segments, with any number of envelopes. A request saves the segments of its
envelope, each as a blob and then as a row, and at the end it runs `IndexReplay`. That loads the
rows, reads the blobs one after another, builds a timeline of all their items, and replaces the
manifest and the timeline in one transaction. A replay without segments is indexed by the
attachments of its receipt, as older clients send it; these do not change in a run.

An envelope may also bring the receipt of the replay. Saving it replaces the index as well, by an
empty one, which is why the request has to index all segments and not only its own.

## What is lost

The transaction at the end writes what the run has read, and that may be long ago. A run that has
read one segment may be overtaken by a request that saves a second one and indexes both; then it
replaces their index by its own. Both requests succeed, and the second segment is not in the
timeline.

So the question is which run *covers* the replay: one that has not loaded the rows yet, or that has
read, or is about to read, just what is stored. As long as some request in flight covers the replay,
the index may be anything. The condition `Orderly` says that a run that does not cover the replay
only replaces the index while another request does.

## Main results

* `ReplayIndex.run_loses_no_segment`: in a run with this condition, whenever all requests have
  succeeded, the manifest counts all segments and the timeline has all their items.
* `ReplayIndex.overtaken_run`: two envelopes, one segment each, and one segment in the index.
-/

namespace Urgentry

open Trace List

/-! ## Tables -/

/-- An item of a timeline: its time and its content. -/
structure TimelineItem where
  tsMs : ℤ
  metaJson : String
deriving DecidableEq

/-- A row of `replay_manifests`, as far as the segments are concerned. -/
structure ReplayManifest where
  (id assetCount : ℕ)
deriving DecidableEq

/-- What a recording is kept in: a segment, or an attachment by its place among those of the
receipt. -/
inductive ReplayAsset
  | segment (id : ℕ)
  | attachment (i : ℕ)
deriving DecidableEq

/-- What is stored about one replay. -/
structure ReplayTables where
  /-- The event that is the receipt of the replay exists. -/
  receipt : Bool
  /-- The blobs of the segments. -/
  blobs : ℕ → Option (List UInt8)
  /-- `replay_segments`. -/
  segments : List ℕ
  manifest : Option ReplayManifest
  /-- `replay_timeline_items` of the manifest, with the asset that an item is from. -/
  timeline : List (ReplayAsset × TimelineItem)
  /-- The next id that `generateID` returns. -/
  nextID : ℕ

/-- What an envelope brings for the replay. -/
inductive ReplayWrite
  | receipt
  | segment (id : ℕ) (payload : List UInt8)
deriving DecidableEq

/-- An asset and its payload. An attachment that is no recording is not read. -/
abbrev AssetBody := ReplayAsset × Option (List UInt8)

/-- Where a request stands. -/
inductive ReplayRequest
  /-- These writes are to come, and then `IndexReplay`. -/
  | writing (todo : List ReplayWrite)
  /-- The blob of a segment is written, its row is not. -/
  | segmentRow (id : ℕ) (todo : List ReplayWrite)
  /-- The receipt is written, the manifest is not looked up. -/
  | receiptManifest (todo : List ReplayWrite)
  /-- The manifest was looked up, and the index is to be emptied. -/
  | emptying (manifestID : Option ℕ) (todo : List ReplayWrite)
  /-- `IndexReplay` has found the receipt. -/
  | loading
  /-- It has found no segments. -/
  | loadingLegacy
  /-- The blobs of some assets are to be read, others have been read. -/
  | reading (left : List ReplayAsset) (bodies : List AssetBody)
  /-- The timeline is built and the manifest looked up. -/
  | replacing (manifestID : Option ℕ) (bodies : List AssetBody)
  | done
  | failed
deriving DecidableEq

/-- `replayAssetKind`. -/
inductive ReplayAssetKind
  | snapshot | video | recording | asset
deriving DecidableEq

/-- An attachment of the receipt, with the blob that is stored for it. -/
structure LegacyAsset where
  kind : ReplayAssetKind
  blob : Option (List UInt8)

/-- What the index asks of the recordings and of the attachments. -/
structure ReplayLib where
  /-- `DecodeReplayRecording`. -/
  decode : List UInt8 → Option (List (List UInt8))
  /-- `parseReplayTimelineItem`, but for the number of the item. -/
  parseItem : List UInt8 → Option TimelineItem
  /-- `loadLegacyReplayAssets`. -/
  attachments : List LegacyAsset

namespace ReplayIndex

/-! ## Steps -/

section Steps

variable (lib : ReplayLib)

/-- `extractReplayTimeline`. -/
def extractReplayTimeline (body : List UInt8) (startIndex : ℕ) : Option (List (ℕ × TimelineItem)) :=
  (lib.decode body).map fun rawEvents =>
    (rawEvents.zipIdx startIndex).filterMap fun raw => (lib.parseItem raw.1).map (raw.2, ·)

/-- The loop of `buildReplayTimeline`. It goes on after a recording that cannot be decoded. -/
def collectItems : ℕ → List AssetBody → List (ReplayAsset × ℕ × TimelineItem)
  | _, [] => []
  | indexBase, (asset, body) :: rest =>
    match body.bind (extractReplayTimeline lib · indexBase) with
    | none => collectItems indexBase rest
    | some items => items.map (asset, ·) ++ collectItems (indexBase + items.length) rest

/-- `buildReplayTimeline`. -/
def buildReplayTimeline (bodies : List AssetBody) : List (ReplayAsset × TimelineItem) :=
  ((collectItems lib 0 bodies).insertionSort fun (_, i, a) (_, j, b) =>
    a.tsMs < b.tsMs ∨ a.tsMs = b.tsMs ∧ i ≤ j).map fun (asset, _, item) => (asset, item)

/-- The transaction of `upsertManifest`. A manifest that exists keeps its id. If that is not the id
that was looked up before, the items cannot refer to a manifest, and the transaction fails unless
there are none; the items of the manifest that exists are then not deleted. -/
def replaceIndex (manifestID : Option ℕ) (bodies : List AssetBody) (t : ReplayTables) :
    Option ReplayTables :=
  let id := manifestID.getD t.nextID
  let timeline := buildReplayTimeline lib bodies
  let next := { t with nextID := t.nextID + 1 }
  match t.manifest with
  | none => some { next with manifest := some ⟨id, bodies.length⟩, timeline }
  | some old =>
    if id = old.id then some { next with manifest := some ⟨id, bodies.length⟩, timeline }
    else if timeline = [] then some { next with manifest := some ⟨old.id, bodies.length⟩ }
    else none

/-- The row of a segment: `INSERT ... ON CONFLICT(project_id, replay_id, segment_id) DO UPDATE`. -/
def insertSegment (id : ℕ) (t : ReplayTables) : ReplayTables :=
  if id ∈ t.segments then t else { t with segments := t.segments ++ [id] }

/-- `ORDER BY segment_id`. -/
def sortedSegments (t : ReplayTables) : List ℕ := t.segments.insertionSort (· ≤ ·)

/-- `loadReplayAssets`, when nothing is written between its two queries. -/
def assets (t : ReplayTables) : List ReplayAsset :=
  if t.segments = [] then (range lib.attachments.length).map .attachment
  else (sortedSegments t).map .segment

/-- The blob of an asset, as far as it is read: `none` when it cannot be loaded. -/
def load (t : ReplayTables) : ReplayAsset → Option (Option (List UInt8))
  | .segment id => (t.blobs id).map some
  | .attachment i => lib.attachments[i]?.bind fun a =>
    if a.kind = .recording ∨ a.kind = .snapshot then a.blob.map some else some none

/-- One access of a request to the database or the blob store. -/
def advance (_ : Unit) (t : ReplayTables) : ReplayRequest → Option (ReplayRequest × ReplayTables)
  -- `SaveReplayRecording`
  | .writing (.segment id payload :: todo) =>
    some (.segmentRow id todo, { t with blobs := Function.update t.blobs id (some payload) })
  | .segmentRow id todo => some (.writing todo, insertSegment id t)
  -- `SaveEnvelopeReplay`
  | .writing (.receipt :: todo) => some (.receiptManifest todo, { t with receipt := true })
  | .receiptManifest todo => some (.emptying (t.manifest.map (·.id)) todo, t)
  | .emptying manifestID todo =>
    match replaceIndex lib manifestID [] t with
    | some t' => some (.writing todo, t')
    | none => some (.failed, t)
  -- `IndexReplay`
  | .writing [] => some (if t.receipt then .loading else .done, t)
  | .loading =>
    if t.segments = [] then some (.loadingLegacy, t)
    else some (.reading ((sortedSegments t).map .segment) [], t)
  | .loadingLegacy => some (.reading ((range lib.attachments.length).map .attachment) [], t)
  | .reading (asset :: left) bodies =>
    match load lib t asset with
    | some body => some (.reading left (bodies ++ [(asset, body)]), t)
    | none => some (.failed, t)
  | .reading [] bodies => some (.replacing (t.manifest.map (·.id)) bodies, t)
  | .replacing manifestID bodies =>
    match replaceIndex lib manifestID bodies t with
    | some t' => some (.done, t')
    | none => some (.failed, t)
  | .done | .failed => none

end Steps

/-- A request begins with its writes. -/
def initial : ReplayRequest → Bool
  | .writing _ => true
  | _ => false

/-- The requests for a replay and what is stored. -/
abbrev ReplaySystem := Pool.State ReplayTables ReplayRequest

abbrev ReplayAction := Pool.Action ReplayRequest Unit

variable (lib : ReplayLib)

/-- The steps of all requests. -/
def step : ReplaySystem → ReplayAction → Option ReplaySystem :=
  Pool.step initial (advance lib)

/-! ## Completeness -/

variable (t : ReplayTables)

/-- What is stored: the assets in order, with their blobs. -/
def stored : List (ReplayAsset × Option (Option (List UInt8))) :=
  (assets lib t).map fun asset => (asset, load lib t asset)

/-- The items of a recording. -/
def items (body : List UInt8) : List TimelineItem :=
  ((lib.decode body).getD []).filterMap lib.parseItem

/-- The items of an asset, each with the place of its event. -/
def kept (body : AssetBody) : List (ℕ × TimelineItem) :=
  (body.2.bind (extractReplayTimeline lib · 0)).getD []

/-- The items of all assets, in the order of their assets and events. -/
def parsedItems (bodies : List AssetBody) : List (ReplayAsset × TimelineItem) :=
  bodies.flatMap fun body => (kept lib body).map fun item => (body.1, item.2)

/-- **The index is complete**: the manifest counts the assets, which are the segments if there are
any, and the timeline has the items of each of them. -/
def Complete : Prop :=
  (∃ m, t.manifest = some m ∧ m.assetCount = (assets lib t).length) ∧
    ∀ asset ∈ assets lib t, ∀ body, load lib t asset = some (some body) → ∀ item ∈ items lib body,
      (asset, item) ∈ t.timeline

/-- What a request has read and is about to read. -/
def view (left : List ReplayAsset) (bodies : List AssetBody) :
    List (ReplayAsset × Option (Option (List UInt8))) :=
  bodies.map (fun body => (body.1, some body.2)) ++ left.map fun asset => (asset, load lib t asset)

/-- **A request covers the replay** when it has yet to load the segments, or when it has read, or is
about to read, just what is stored. -/
def Covers : ReplayRequest → Prop
  | .writing _ | .segmentRow _ _ | .receiptManifest _ | .emptying _ _ | .loading => True
  | .loadingLegacy => t.segments = []
  | .reading left bodies => view lib t left bodies = stored lib t
  | .replacing _ bodies => view lib t [] bodies = stored lib t
  | .done | .failed => False

instance (lib : ReplayLib) (t : ReplayTables) (r : ReplayRequest) : Decidable (Covers lib t r) :=
  match r with
  | .writing _ | .segmentRow _ _ | .receiptManifest _ | .emptying _ _ | .loading => isTrue trivial
  | .loadingLegacy => inferInstanceAs (Decidable (t.segments = []))
  | .reading left bodies => inferInstanceAs (Decidable (view lib t left bodies = stored lib t))
  | .replacing _ bodies => inferInstanceAs (Decidable (view lib t [] bodies = stored lib t))
  | .done | .failed => isFalse id

/-- The request is about to replace the index. -/
def ReplayRequest.Replacing : ReplayRequest → Prop
  | .replacing _ _ => True
  | _ => False

/-- **The condition.** A request that replaces the index covers the replay, or another one does. -/
def Orderly (s : ReplaySystem) : ReplayAction → Prop
  | .begin _ => True
  | .step i _ => ∀ r ∈ s.workers[i]?, ReplayRequest.Replacing r →
      ∃ r' ∈ s.workers, Covers lib s.shared r'

instance : DecidablePred ReplayRequest.Replacing
  | .replacing _ _ => isTrue trivial
  | .writing _ | .segmentRow _ _ | .receiptManifest _ | .emptying _ _ | .loading | .loadingLegacy
  | .reading _ _ | .done | .failed => isFalse id

instance (lib : ReplayLib) (s : ReplaySystem) (a : ReplayAction) : Decidable (Orderly lib s a) :=
  match a with
  | .begin _ => isTrue trivial
  | .step i _ => inferInstanceAs (Decidable (∀ r ∈ s.workers[i]?, _ → ∃ r' ∈ s.workers, _))

/-- **The property.** Once all requests have succeeded, the index of a replay that has its receipt
is complete. -/
def CompleteWhenDone (s : ReplaySystem) : Prop :=
  (∀ r ∈ s.workers, r = .done) → s.shared.receipt = true → Complete lib s.shared

/-! ## Coverage -/

section Coverage

variable {lib : ReplayLib} {t t' : ReplayTables} {r : ReplayRequest} {manifestID : Option ℕ}
  {bodies : List AssetBody}

/-- What is stored is about the segments and their blobs. -/
theorem assets_congr (hsegments : t'.segments = t.segments) : assets lib t' = assets lib t := by
  rw [assets, assets, sortedSegments, sortedSegments, hsegments]

theorem load_congr (hblobs : t'.blobs = t.blobs) : load lib t' = load lib t := by
  funext asset
  cases asset with
  | segment id => rw [load, load, hblobs]
  | attachment i => rfl

/-- Coverage is about the segments and their blobs. -/
theorem Covers.congr (hsegments : t'.segments = t.segments) (hblobs : t'.blobs = t.blobs)
    (h : Covers lib t r) : Covers lib t' r := by
  have hstored : stored lib t' = stored lib t := by
    rw [stored, stored, assets_congr hsegments, load_congr hblobs]
  have hview : ∀ left bodies, view lib t' left bodies = view lib t left bodies := by
    intro left bodies
    rw [view, view, load_congr hblobs]
  cases r with
  | loadingLegacy => exact hsegments.trans h
  | reading left bodies =>
    show view lib t' left bodies = stored lib t'
    rw [hview, hstored]
    exact h
  | replacing manifestID bodies =>
    show view lib t' [] bodies = stored lib t'
    rw [hstored]
    exact h
  | _ => exact h

/-- The indexes are the places of the events, counted from the base. -/
theorem extractReplayTimeline_eq (body : List UInt8) (n : ℕ) :
    extractReplayTimeline lib body n =
      (extractReplayTimeline lib body 0).map (map fun item => (n + item.1, item.2)) := by
  unfold extractReplayTimeline
  rw [Option.map_map]
  refine congrArg (Option.map · _) (funext fun rawEvents => ?_)
  rw [zipIdx_eq_map_add, filterMap_map, Function.comp_apply, map_filterMap]
  refine filterMap_congr fun raw _ => ?_
  simp [Function.comp_def]

theorem collectItems_cons (n : ℕ) (body : AssetBody) (rest : List AssetBody) :
    collectItems lib n (body :: rest) =
      (kept lib body).map (fun item => (body.1, n + item.1, item.2)) ++
        collectItems lib (n + (kept lib body).length) rest := by
  obtain ⟨asset, body⟩ := body
  rw [collectItems, kept]
  cases body with
  | none => rfl
  | some body =>
    simp only [Option.bind_some]
    rw [extractReplayTimeline_eq]
    cases extractReplayTimeline lib body 0 with
    | none => rfl
    | some items => simp [Function.comp_def]

/-- The loop collects the items of all assets. -/
theorem map_collectItems (n : ℕ) :
    (collectItems lib n bodies).map (fun entry => (entry.1, entry.2.2)) =
      parsedItems lib bodies := by
  induction bodies generalizing n with
  | nil => rfl
  | cons body rest ih =>
    rw [collectItems_cons, map_append, ih, map_map]
    rfl

theorem map_kept (asset : ReplayAsset) (body : List UInt8) :
    (kept lib (asset, some body)).map Prod.snd = items lib body := by
  unfold kept items extractReplayTimeline
  rw [Option.bind_some]
  cases lib.decode body with
  | none => rfl
  | some rawEvents =>
    simp only [Option.map_some, Option.getD_some, map_filterMap, Option.map_map]
    conv_rhs => rw [← zipIdx_map_fst 0 rawEvents, filterMap_map]
    exact filterMap_congr fun _ _ => Option.map_id_apply

theorem mem_buildReplayTimeline {asset : ReplayAsset} {body : List UInt8} {item : TimelineItem}
    (hbody : (asset, some body) ∈ bodies) (hitem : item ∈ items lib body) :
    (asset, item) ∈ buildReplayTimeline lib bodies := by
  rw [← map_kept asset] at hitem
  obtain ⟨⟨i, item⟩, hkept, rfl⟩ := mem_map.mp hitem
  have hparsed : (asset, item) ∈ parsedItems lib bodies :=
    mem_flatMap.mpr ⟨_, hbody, mem_map_of_mem hkept⟩
  rw [← map_collectItems 0] at hparsed
  obtain ⟨entry, hentry, heq⟩ := mem_map.mp hparsed
  exact mem_map.mpr ⟨entry, (mem_insertionSort _).mpr hentry, heq⟩

/-- Replacing the index leaves the segments alone. -/
theorem segments_replaceIndex (h : replaceIndex lib manifestID bodies t = some t') :
    t'.segments = t.segments ∧ t'.blobs = t.blobs := by
  simp only [replaceIndex] at h
  split at h
  · cases h
    exact ⟨rfl, rfl⟩
  · split at h
    · cases h
      exact ⟨rfl, rfl⟩
    · split at h
      · cases h
        exact ⟨rfl, rfl⟩
      · cases h

/-- The new index counts the segments that were read and has their items. -/
theorem index_replaceIndex (h : replaceIndex lib manifestID bodies t = some t') :
    (∃ m, t'.manifest = some m ∧ m.assetCount = bodies.length) ∧
      ∀ entry ∈ buildReplayTimeline lib bodies, entry ∈ t'.timeline := by
  simp only [replaceIndex] at h
  split at h
  · cases h
    exact ⟨⟨_, rfl, rfl⟩, fun _ hentry => hentry⟩
  · split at h
    · cases h
      exact ⟨⟨_, rfl, rfl⟩, fun _ hentry => hentry⟩
    · split at h
      · next hnone =>
        cases h
        refine ⟨⟨_, rfl, rfl⟩, ?_⟩
        rw [hnone]
        exact forall_mem_nil _
      · cases h

/-- A run that covers the replay leaves a complete index. -/
theorem complete_replaceIndex (hcovers : view lib t [] bodies = stored lib t)
    (h : replaceIndex lib manifestID bodies t = some t') : Complete lib t' := by
  obtain ⟨hsegments, hblobs⟩ := segments_replaceIndex h
  obtain ⟨⟨m, hm, hcount⟩, htimeline⟩ := index_replaceIndex h
  have hbodies : bodies.map (fun body => (body.1, some body.2)) = stored lib t := by
    rw [← hcovers, view, map_nil, append_nil]
  refine ⟨⟨m, hm, ?_⟩, ?_⟩
  · have hlength := congrArg List.length hbodies
    rw [stored, length_map, length_map] at hlength
    rw [hcount, assets_congr hsegments, hlength]
  · intro asset hasset body hbody item hitem
    rw [assets_congr hsegments] at hasset
    rw [load_congr hblobs] at hbody
    have hmem : (asset, some (some body)) ∈ stored lib t := by
      rw [← hbody]
      exact mem_map_of_mem hasset
    rw [← hbodies, mem_map] at hmem
    obtain ⟨⟨asset', body'⟩, hread, ⟨⟩⟩ := hmem
    exact htimeline _ (mem_buildReplayTimeline hread hitem)

/-- **What one access of a request does**: afterwards it covers the replay, or it has failed, or it
covers the replay if it did before and nothing is stored, or it has found no receipt, or it has
replaced the index. -/
theorem advance_cases {r r' : ReplayRequest} (h : advance lib () t r = some (r', t')) :
    Covers lib t' r' ∨ r' = .failed ∨ (t' = t ∧ (Covers lib t r → Covers lib t' r')) ∨
      (t' = t ∧ t.receipt = false) ∨
      ∃ manifestID bodies, r = .replacing manifestID bodies ∧
        replaceIndex lib manifestID bodies t = some t' := by
  cases r with
  | writing todo =>
    cases todo with
    | nil =>
      rw [advance] at h
      cases h
      by_cases hreceipt : t.receipt = true
      · rw [if_pos hreceipt]
        exact .inl trivial
      · exact .inr (.inr (.inr (.inl ⟨rfl, by simpa using hreceipt⟩)))
    | cons write todo => cases write <;> cases h <;> exact .inl trivial
  | segmentRow id todo =>
    cases h
    exact .inl trivial
  | receiptManifest todo =>
    cases h
    exact .inl trivial
  | emptying manifestID todo =>
    rw [advance] at h
    split at h <;> cases h
    · exact .inl trivial
    · exact .inr (.inl rfl)
  | loading =>
    rw [advance] at h
    refine .inl ?_
    split at h <;> cases h
    · next hnone => exact hnone
    · next hsome =>
      show view lib t _ [] = stored lib t
      rw [stored, assets, if_neg hsome]
      rfl
  | loadingLegacy =>
    cases h
    refine .inr (.inr (.inl ⟨rfl, fun hnone => ?_⟩))
    show view lib t _ [] = stored lib t
    rw [stored, assets, if_pos (show t.segments = [] from hnone)]
    rfl
  | reading left bodies =>
    cases left with
    | nil =>
      cases h
      exact .inr (.inr (.inl ⟨rfl, fun hcovers => hcovers⟩))
    | cons asset left =>
      rw [advance] at h
      split at h <;> cases h
      · next body hbody =>
        refine .inr (.inr (.inl ⟨rfl, fun hcovers => ?_⟩))
        have hview :
            view lib t left (bodies ++ [(asset, body)]) = view lib t (asset :: left) bodies := by
          simp [view, hbody]
        exact hview.trans hcovers
      · exact .inr (.inl rfl)
  | replacing manifestID bodies =>
    rw [advance] at h
    split at h <;> cases h
    · next hreplace => exact .inr (.inr (.inr (.inr ⟨manifestID, bodies, rfl, hreplace⟩)))
    · exact .inr (.inl rfl)
  | done => cases h
  | failed => cases h

end Coverage

/-! ## Runs -/

section Runs

variable {lib : ReplayLib} {s t : ReplaySystem} {a : ReplayAction}

/-- The index is complete, or there is no receipt, or a request has failed, or a request is on its
way that covers the replay. -/
def Inv (lib : ReplayLib) (s : ReplaySystem) : Prop :=
  s.shared.receipt = false ∨ Complete lib s.shared ∨ .failed ∈ s.workers ∨
    ∃ r ∈ s.workers, Covers lib s.shared r

theorem Inv.step (h : Inv lib s) (hok : Orderly lib s a) (hstep : step lib s a = some t) :
    Inv lib t := by
  obtain ⟨r, rfl, hinitial, rfl⟩
      | ⟨before, r, after, choice, r', x, rfl, hworkers, hadvance, rfl⟩ :=
    Pool.of_step hstep
  · have hcovers : Covers lib s.shared r := by
      cases r with
      | writing todo => trivial
      | _ => cases hinitial
    exact .inr (.inr (.inr ⟨r, mem_append_right _ (mem_singleton_self r), hcovers⟩))
  have hself : r' ∈ before ++ r' :: after := mem_append_right _ mem_cons_self
  -- a request other than the one that moves stands in both lists
  have hother : ∀ w ∈ s.workers, w ≠ r → w ∈ before ++ r' :: after := by
    intro w hw hne
    rw [hworkers, mem_append, mem_cons] at hw
    rw [mem_append, mem_cons]
    rcases hw with hw | rfl | hw
    · exact .inl hw
    · exact absurd rfl hne
    · exact .inr (.inr hw)
  rcases advance_cases hadvance with hcovers | hfailed | ⟨rfl, hkeep⟩ | ⟨rfl, hreceipt⟩ |
    ⟨manifestID, bodies, rfl, hreplace⟩
  · exact .inr (.inr (.inr ⟨r', hself, hcovers⟩))
  · exact .inr (.inr (.inl (hfailed ▸ hself)))
  · rcases h with hreceipt | hcomplete | hfailed | ⟨w, hw, hcovers⟩
    · exact .inl hreceipt
    · exact .inr (.inl hcomplete)
    · refine .inr (.inr (.inl (hother _ hfailed ?_)))
      rintro rfl
      cases hadvance
    · by_cases hne : w = r
      · exact .inr (.inr (.inr ⟨r', hself, hkeep (hne ▸ hcovers)⟩))
      · exact .inr (.inr (.inr ⟨w, hother w hw hne, hcovers⟩))
  · exact .inl hreceipt
  · obtain ⟨hsegments, hblobs⟩ := segments_replaceIndex hreplace
    have hat : s.workers[before.length]? = some (.replacing manifestID bodies) := by
      rw [hworkers]
      simp
    obtain ⟨w, hw, hcovers⟩ := hok _ hat trivial
    by_cases hne : w = .replacing manifestID bodies
    · subst hne
      exact .inr (.inl (complete_replaceIndex hcovers hreplace))
    · exact .inr (.inr (.inr ⟨w, hother w hw hne, hcovers.congr hsegments hblobs⟩))

theorem Inv.completeWhenDone (h : Inv lib s) : CompleteWhenDone lib s := by
  intro hdone hreceipt
  rcases h with hnone | hcomplete | hfailed | ⟨r, hr, hcovers⟩
  · rw [hreceipt] at hnone
    cases hnone
  · exact hcomplete
  · cases hdone _ hfailed
  · rw [hdone r hr] at hcovers
    exact hcovers.elim

end Runs

/-! ## Two requests -/

/-- A replay about which nothing is stored. -/
def newReplay : ReplayTables := ⟨false, fun _ => none, [], none, [], 0⟩

/-- Every byte of a recording is an item, at that time. There are no attachments. -/
def oneItem : ReplayLib where
  decode payload := some (payload.map ([·]))
  parseItem raw := raw.head?.map fun byte => ⟨byte.toNat, "\x7b\x7d"⟩
  attachments := []

/-- An access of the request with this number. -/
def access (i : ℕ) : ReplayAction := .step i ()

/-- The first request brings the receipt and segment 0, the second one segment 1. They come one
after the other. -/
def oneByOne : List ReplayAction :=
  .begin (.writing [.receipt, .segment 0 [5]]) :: List.replicate 10 (access 0) ++
    .begin (.writing [.segment 1 [3]]) :: List.replicate 8 (access 1)

/-- The second request comes when the first one has read its segment, and is done before the first
one replaces the index. -/
def overtaking : List ReplayAction :=
  .begin (.writing [.receipt, .segment 0 [5]]) :: List.replicate 9 (access 0) ++
    .begin (.writing [.segment 1 [3]]) :: List.replicate 8 (access 1) ++ [access 0]

end ReplayIndex

end Urgentry
