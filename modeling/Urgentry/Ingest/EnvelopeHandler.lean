import Urgentry.Internal.Effect
import Urgentry.Pipeline.SpikeThrottle
import Urgentry.Sqlite.JobStore
import Urgentry.Sqlite.Sampling

/-!
# The envelope handler

`envelope_handler.go` and `envelope_side_effects.go`: an envelope is a list of items. The handler
works in two phases. First it goes through the items once and puts the events and transactions into
the queue; then it goes through them again and writes everything else: attachments, replays,
sessions, check-ins, metrics.

The first phase can end the request. The spike throttle answers 429 and a full queue answers 503,
and the comment in the source says what this is for: "If the queue rejects, we return 503 without
writing attachments, replays, sessions, etc." But the items are put into the queue one after
another, and the outcome of a transaction that sampling drops is stored on the way. So an item that
is refused in the middle of the envelope leaves behind what was done for the items before it.

## The stores

The handler sees its stores and the queue through the calls it makes. So the world is a type `σ`,
and a store is an operation on it; what a store answers, and what other requests and workers do to
the world in the meantime, is up to the operation. An operation answers two things: whether
something was written, and its result. The two are independent: a queue behind a network may have
stored a message whose publication then fails. What was written is noted at the operation, before
the handler looks at the result.

Functions of a payload alone (the identifiers in a replay, the scrubbing of a recording) are a
parameter, because the control flow passes payloads through them and looks at nothing else.

## Main results

* `exec_admitItem`: what the first phase does with an item, given what the stores, the throttle and
  the queue answer;
* `handleEnvelope_leaves_nothing_iff`: a request that is refused leaves nothing behind, if and only
  if nothing was stored for the refused item and for the items before it. -/

namespace Urgentry

open Effect SqlTable List

/-! ## Envelopes -/

/-- The kinds of items that the handler tells apart. -/
inductive ItemKind
  | event
  | transaction
  | userReport
  | attachment
  | replayEvent
  | replayRecording
  | replayVideo
  | profile
  | clientReport
  | session
  | sessions
  | checkIn
  | statsd
  | unknown
deriving DecidableEq

/-- The kind that a header names. -/
def ItemKind.ofType : String → ItemKind
  | "event" => .event
  | "transaction" => .transaction
  | "user_report" => .userReport
  | "attachment" => .attachment
  | "replay_event" => .replayEvent
  | "replay_recording" | "replay_recording_not_chunked" => .replayRecording
  | "replay_video" => .replayVideo
  | "profile" => .profile
  | "client_report" => .clientReport
  | "session" => .session
  | "sessions" => .sessions
  | "check_in" => .checkIn
  | "statsd" | "metric_buckets" => .statsd
  | _ => .unknown

/-- An item of a parsed envelope. -/
structure EnvelopeItem where
  type : String
  contentType : String := ""
  filename : String := ""
  payload : List UInt8
deriving DecidableEq

def EnvelopeItem.kind (item : EnvelopeItem) : ItemKind := .ofType item.type

/-- The item goes to the queue. -/
def EnvelopeItem.queued (item : EnvelopeItem) : Bool :=
  item.kind = .event || item.kind = .transaction

/-- The item belongs to a replay. -/
def EnvelopeItem.ofReplay (item : EnvelopeItem) : Bool :=
  item.kind = .replayEvent || item.kind = .replayRecording || item.kind = .replayVideo

/-! ## Calls -/

/-- `pipeline.Item`. -/
structure PipelineItem where
  projectID : String
  rawEvent : List UInt8
deriving DecidableEq

/-- `Outcome`: an event that was dropped, and why. An empty id is replaced by a fresh one. -/
structure Outcome where
  id : String := ""
  (projectID eventID category reason : String)
  quantity : ℤ
  source : String
  payload : List UInt8 := []
  recordedAt : Time
deriving DecidableEq

/-- What the handler asks the queue and the stores to write. -/
inductive StoreCall
  | enqueue (item : PipelineItem)
  | saveOutcome (o : Outcome)
  | saveFeedback (projectID : String) (payload : List UInt8)
  | saveAttachment (projectID eventID attachmentID : String) (item : EnvelopeItem)
  | saveReplayEvent (projectID eventID : String) (payload : List UInt8)
  | saveReplayRecording (projectID eventID : String) (segmentID : ℤ) (payload : List UInt8)
  | saveReplayAttachment (projectID eventID : String) (item : EnvelopeItem)
  | saveProfileEvent (projectID : String) (payload : List UInt8)
  | saveClientReport (projectID eventID : String) (payload : List UInt8)
  | saveSession (projectID : String) (payload : List UInt8)
  | saveSessionAggregates (projectID : String) (payload : List UInt8)
  | saveCheckIn (projectID : String) (payload : List UInt8)
  | saveStatsdMetrics (projectID : String) (payload : List UInt8)
  | indexReplay (projectID replayID : String)
deriving DecidableEq

/-- What a store answers: whether something was written, and its result. A call may fail after it
wrote something. -/
structure Reply where
  wrote : Bool
  result : Except String String

/-- What the queue answers: whether the item is in the queue, and what `EnqueueContext` returns. A
message may be stored although its publication fails. -/
structure QueueReply where
  (stored ok : Bool)
deriving DecidableEq

/-- `ReplayIngestPolicy`. -/
structure ReplayIngestPolicy where
  sampleRate : ℚ
  maxBytes : ℤ
  (scrubFields scrubSelectors : List String)
deriving DecidableEq

/-- The functions of a payload that the handler uses. -/
structure PayloadLib where
  extractTransactionSamplingFields : List UInt8 → SamplingFields
  replayEnvelopeIDs : List UInt8 → String → String × String
  (replayEventSegmentID replayRecordingSegmentID : List UInt8 → Option ℤ)
  replayIncludedBySample : ReplayIngestPolicy → String → Bool
  annotateReplayReceiptPayload : List UInt8 → ReplayIngestPolicy → String → List UInt8
  scrubReplayRecordingPayload : List UInt8 → ReplayIngestPolicy → List UInt8
  stableEnvelopeAttachmentID : String → String → EnvelopeItem → ℕ → String
  /-- The id and the payload of an outcome that a replay policy causes. -/
  replayPolicyOutcome : String → String → String → ReplayIngestPolicy → String × List UInt8

/-- `IngestDeps`. The optional parts may be missing. -/
structure IngestDeps (σ : Type) where
  lib : PayloadLib
  now : σ → Time
  /-- `Pipeline.EnqueueContext`. -/
  pipeline : Option (PipelineItem → σ → QueueReply × σ)
  /-- `SamplingRules.EvaluateSampling`. -/
  samplingRules : Option (String → SamplingFields → σ → Except String Bool × σ)
  /-- `SpikeThrottle.Allow`. -/
  spikeThrottle : Option (String → σ → Bool × σ)
  /-- `ReplayPolicies.GetReplayIngestPolicy`. -/
  replayPolicies : Option (String → σ → Except String ReplayIngestPolicy × σ)
  /-- `ReplayStore.ProjectedReplayRecordingBytes`. -/
  projectedReplayRecordingBytes :
    Option (String → String → ℤ → ℤ → σ → Except String ℤ × σ)
  hasOutcomeStore : Bool
  /-- A call to one of the stores. A store that is missing writes nothing. -/
  perform : StoreCall → σ → Reply × σ

/-- `ReplayStore` is there. -/
def IngestDeps.hasReplayStore {σ : Type} (deps : IngestDeps σ) : Bool :=
  deps.projectedReplayRecordingBytes.isSome

/-- The world, and the calls of this request that wrote something. -/
structure Request (σ : Type) where
  world : σ
  written : List StoreCall

/-- The answer to a request. -/
structure Response where
  status : ℕ
  message : String
deriving DecidableEq

namespace EnvelopeHandler

variable {σ : Type} (deps : IngestDeps σ) (projectID eventID : String)

/-! ## Operations -/

/-- A question to the world. -/
def ask {ε α : Type} (op : σ → α × σ) : Action (Request σ) ε α := fun s =>
  let (a, w) := op s.world
  (.ok a, { s with world := w })

/-- A call to a store. What it wrote is noted, whatever it answers. -/
def perform {ε : Type} (call : StoreCall) : Action (Request σ) ε (Except String String) := fun s =>
  let (reply, w) := deps.perform call s.world
  (.ok reply.result, ⟨w, if reply.wrote then s.written ++ [call] else s.written⟩)

/-- A call whose error is only logged. -/
def writeLogged {ε : Type} (call : StoreCall) : Action (Request σ) ε Unit := do
  let _ ← perform deps call

/-- A call to the queue. What it stored is noted, whatever it answers. -/
def enqueueContext {ε : Type} (enqueue : PipelineItem → σ → QueueReply × σ) (item : PipelineItem) :
    Action (Request σ) ε Bool := fun s =>
  let (reply, w) := enqueue item s.world
  (.ok reply.ok, ⟨w, if reply.stored then s.written ++ [.enqueue item] else s.written⟩)

/-! ## The first phase -/

/-- Server-side sampling drops the item. A failed evaluation admits it. -/
def sampledOut (item : EnvelopeItem) (w : σ) : Bool × σ :=
  if item.kind = .transaction then
    match deps.samplingRules with
    | none => (false, w)
    | some evaluate =>
      match evaluate projectID (deps.lib.extractTransactionSamplingFields item.payload) w with
      | (.ok admitted, w) => (!admitted, w)
      | (.error _, w) => (false, w)
  else (false, w)

/-- The outcome of a transaction that sampling drops. -/
def samplingOutcome (now : Time) : Outcome where
  projectID := projectID
  eventID := eventID
  category := "transaction"
  reason := "sample_rate"
  quantity := 1
  source := "server_sampling"
  recordedAt := now

/-- The outcome is stored; an error is ignored. -/
def saveSamplingOutcome : Action (Request σ) Response Unit :=
  if deps.hasOutcomeStore then do
    let s ← get
    writeLogged deps (.saveOutcome (samplingOutcome projectID eventID (deps.now s.world)))
  else pure ()

def tooManyRequests : Response := ⟨429, "event rate exceeded, spike protection active"⟩

def queueFull : Response := ⟨503, "ingest queue is full, retry later"⟩

/-- The throttle lets the item pass. -/
def spikeAllows (w : σ) : Bool × σ :=
  match deps.spikeThrottle with
  | none => (true, w)
  | some allow => allow projectID w

variable (enqueue : PipelineItem → σ → QueueReply × σ) (item : EnvelopeItem)

/-- The throttle, and then the queue. -/
def enqueueItem : Action (Request σ) Response Unit := do
  if ← ask (spikeAllows deps projectID) then
    if ← enqueueContext enqueue ⟨projectID, item.payload⟩ then pure () else throw queueFull
  else throw tooManyRequests

/-- One iteration of the first phase. -/
def admitItem : Action (Request σ) Response Unit :=
  if item.queued then do
    if ← ask (sampledOut deps projectID item) then saveSamplingOutcome deps projectID eventID
    else enqueueItem deps projectID enqueue item
  else pure ()

variable (items : List EnvelopeItem)

/-- The first phase, if there is a pipeline. -/
def admitItems : Action (Request σ) Response Unit :=
  match deps.pipeline with
  | none => pure ()
  | some enqueue => items.forM (admitItem deps projectID eventID enqueue)

/-! ## The second phase -/

/-- A call whose error ends the phase. -/
def write (call : StoreCall) : Action (Request σ) String String := do
  match ← perform deps call with
  | .ok id => pure id
  | .error e => throw e

/-- A call that reads. -/
def read {α : Type} (op : σ → Except String α × σ) : Action (Request σ) String α := fun s =>
  let (result, w) := op s.world
  (result, { s with world := w })

/-- `fmt.Errorf("what: %w", err)`. -/
def wrapError {α : Type} (what : String) (m : Action (Request σ) String α) :
    Action (Request σ) String α := fun s =>
  match m s with
  | (.error e, s) => (.error (what ++ ": " ++ e), s)
  | (.ok a, s) => (.ok a, s)

/-- `saveReplayPolicyOutcome`. -/
def saveReplayPolicyOutcome (replayID reason : String) (policy : ReplayIngestPolicy) :
    Action (Request σ) String Unit := do
  let s ← get
  let (id, payload) := deps.lib.replayPolicyOutcome projectID replayID reason policy
  if deps.hasOutcomeStore then
    writeLogged deps (.saveOutcome {
      id
      projectID
      eventID := replayID
      category := "replay"
      reason
      quantity := 1
      source := "replay_ingest_policy"
      payload
      recordedAt := deps.now s.world })
  else pure ()

/-- `envelopeReplayIDs`, of which the handler uses the first. -/
def envelopeReplayID : String :=
  match items.find? (·.kind = .replayEvent) with
  | some item => (deps.lib.replayEnvelopeIDs item.payload eventID).1
  | none => GoText.trimSpace eventID

/-- The policy of the project, and whether the replay is in the sample. -/
structure ReplayGate where
  policy : Option ReplayIngestPolicy
  allowed : Bool

variable (gate : ReplayGate)

/-- Replay items are skipped. -/
def ReplayGate.skips : Bool := gate.policy.isSome && !gate.allowed

/-- The variables of the loop. -/
structure ReplayProgress where
  indexes : List String := []
  dropReason : String := ""
  activeEventID : String
  activeSegmentID : Option ℤ := none
  receiptPayload : List UInt8 := []

variable (p : ReplayProgress)

/-- A replay is to be indexed once. -/
def ReplayProgress.index (replayID : String) : ReplayProgress :=
  if replayID ∈ p.indexes then p else { p with indexes := p.indexes ++ [replayID] }

/-- The policy is loaded if the envelope has a replay item. -/
def loadReplayPolicy : Action (Request σ) String (ReplayGate × String) :=
  if items.any (·.ofReplay) then do
    let replayID := envelopeReplayID deps eventID items
    match deps.replayPolicies with
    | none => pure (⟨none, true⟩, replayID)
    | some getPolicy => do
      let policy ← wrapError "load replay ingest policy" (read (getPolicy projectID))
      let allowed := deps.lib.replayIncludedBySample policy replayID
      if allowed then pure (⟨some policy, true⟩, replayID)
      else do
        saveReplayPolicyOutcome deps projectID replayID "sample_rate" policy
        pure (⟨some policy, false⟩, replayID)
  else pure (⟨none, true⟩, eventID)

/-- `saveReplayEvent` for a receipt. -/
def saveReceipt (payload : List UInt8) (p : ReplayProgress) :
    Action (Request σ) String ReplayProgress := do
  let replayID ← write deps (.saveReplayEvent projectID p.activeEventID payload)
  pure (if replayID = "" then p else { p.index replayID with activeEventID := replayID })

/-- A `replay_event` item. -/
def replayEvent (item : EnvelopeItem) : Action (Request σ) String ReplayProgress :=
  let p := { p with
    activeSegmentID := (deps.lib.replayEventSegmentID item.payload).orElse fun _ =>
      p.activeSegmentID }
  wrapError "save replay metadata" <| match gate.policy with
    | none => saveReceipt deps projectID item.payload p
    | some policy =>
      saveReceipt deps projectID
        (deps.lib.annotateReplayReceiptPayload item.payload policy p.dropReason)
        { p with receiptPayload := item.payload }

def overLimit : String := "replay attachment exceeds max_bytes policy"

/-- The size limit of the policy: the reason to drop the recording, if it exceeds the limit. -/
def enforceMaxBytes (policy : ReplayIngestPolicy) (segmentID : ℤ) (payload : List UInt8)
    (p : ReplayProgress) : Action (Request σ) String ReplayProgress :=
  if p.dropReason = "" then
    match deps.projectedReplayRecordingBytes with
    | none => throw "save replay recording: replay store is unavailable"
    | some projected => do
      let bytes ← wrapError "enforce replay ingest policy"
        (read (projected projectID p.activeEventID segmentID payload.length))
      if policy.maxBytes < bytes then do
        saveReplayPolicyOutcome deps projectID p.activeEventID "max_bytes" policy
        pure { p with dropReason := overLimit }
      else pure p
  else pure p

/-- The recording is stored, unless it is dropped. -/
def storeRecording (segmentID : ℤ) (payload : List UInt8) (p : ReplayProgress) :
    Action (Request σ) String ReplayProgress :=
  if p.dropReason = "" then
    if deps.hasReplayStore then do
      let _ ← wrapError "save replay recording"
        (write deps (.saveReplayRecording projectID p.activeEventID segmentID payload))
      pure (if GoText.trimSpace p.activeEventID = "" then p else p.index p.activeEventID)
    else throw "save replay recording: replay store is unavailable"
  else pure p

/-- A `replay_recording` item. -/
def replayRecording (idx : ℕ) (item : EnvelopeItem) : Action (Request σ) String ReplayProgress :=
  let segmentID : ℤ := ((deps.lib.replayRecordingSegmentID item.payload).orElse fun _ =>
    p.activeSegmentID).getD idx
  match gate.policy with
  | none => storeRecording deps projectID segmentID item.payload p
  | some policy => do
    let payload := deps.lib.scrubReplayRecordingPayload item.payload policy
    let p ← enforceMaxBytes deps projectID policy segmentID payload p
    storeRecording deps projectID segmentID payload p

/-- The call for an item that does not belong to a replay. -/
def plainCall (idx : ℕ) (item : EnvelopeItem) : Option StoreCall :=
  match item.kind with
  | .userReport => some (.saveFeedback projectID item.payload)
  | .attachment =>
    some (.saveAttachment projectID eventID
      (deps.lib.stableEnvelopeAttachmentID projectID eventID item idx) item)
  | .profile => some (.saveProfileEvent projectID item.payload)
  | .clientReport => some (.saveClientReport projectID eventID item.payload)
  | .session => some (.saveSession projectID item.payload)
  | .sessions => some (.saveSessionAggregates projectID item.payload)
  | .checkIn => some (.saveCheckIn projectID item.payload)
  | .statsd => some (.saveStatsdMetrics projectID item.payload)
  | _ => none

/-- One iteration of the second phase. -/
def sideEffect (entry : EnvelopeItem × ℕ) : Action (Request σ) String ReplayProgress :=
  let (item, idx) := entry
  if item.ofReplay then
    if gate.skips then pure p
    else if item.kind = .replayEvent then replayEvent deps projectID gate p item
    else if item.kind = .replayRecording then replayRecording deps projectID gate p idx item
    else do
      let _ ← wrapError "save replay video"
        (write deps (.saveReplayAttachment projectID p.activeEventID item))
      pure p
  else
    match plainCall deps projectID eventID idx item with
    | none => pure p
    | some call => do
      writeLogged deps call
      pure p

/-- The receipt is saved again, with the reason why the recording was dropped. -/
def saveDropReason : Action (Request σ) String ReplayProgress :=
  match gate.policy with
  | none => pure p
  | some policy =>
    if gate.allowed && p.dropReason ≠ "" && p.receiptPayload ≠ [] then do
      let replayID ← wrapError "save replay policy outcome" (write deps
        (.saveReplayEvent projectID p.activeEventID
          (deps.lib.annotateReplayReceiptPayload p.receiptPayload policy p.dropReason)))
      pure (if replayID = "" then p else p.index replayID)
    else pure p

/-- `persistEnvelopeSideEffects`. The replays are indexed in the order in which they came up; the
source leaves the order open. -/
def persistEnvelopeSideEffects : Action (Request σ) String Unit := do
  let (gate, replayID) ← loadReplayPolicy deps projectID eventID items
  let p ← items.zipIdx.foldlM (sideEffect deps projectID eventID gate)
    { activeEventID := replayID }
  let p ← saveDropReason deps projectID gate p
  if deps.hasReplayStore then
    p.indexes.forM fun replayID => do
      let _ ← wrapError "index replay" (write deps (.indexReplay projectID replayID))
  else pure ()

/-! ## The handler -/

def sideEffectsFailed : Response := ⟨500, "failed to process envelope side effects"⟩

/-- The handler, for an envelope that was parsed and given its event id. -/
def handleEnvelope (s : Request σ) : Response × Request σ :=
  match (admitItems deps projectID eventID items).exec s with
  | (.error r, s) => (r, s)
  | (.ok _, s) =>
    match (persistEnvelopeSideEffects deps projectID eventID items).exec s with
    | (.error _, s) => (sideEffectsFailed, s)
    | (.ok _, s) => (⟨200, eventID⟩, s)

/-! ## What a refused request leaves behind -/

/-- **What the world answers** when an item has its turn: the item is none for the queue; sampling
drops it, and its outcome is stored or not; the throttle refuses it; or the queue answers. -/
inductive Answer
  | skipped
  | dropped (stored : Bool)
  | throttled
  | queued (reply : QueueReply)

/-- Something is stored for the item. -/
def Answer.stored : Answer → Bool
  | .dropped stored => stored
  | .queued reply => reply.stored
  | _ => false

/-- The item is refused. -/
def Answer.refusal : Answer → Option Response
  | .throttled => some tooManyRequests
  | .queued ⟨_, false⟩ => some queueFull
  | _ => none

/-- The answers to the questions about an item, in the order in which they can be asked. -/
def answer (w : σ) : Answer × σ :=
  if item.queued then
    match sampledOut deps projectID item w with
    | (true, w) =>
      if deps.hasOutcomeStore then
        let (reply, w) :=
          deps.perform (.saveOutcome (samplingOutcome projectID eventID (deps.now w))) w
        (.dropped reply.wrote, w)
      else (.dropped false, w)
    | (false, w) =>
      match spikeAllows deps projectID w with
      | (true, w) =>
        let (reply, w) := enqueue ⟨projectID, item.payload⟩ w
        (.queued reply, w)
      | (false, w) => (.throttled, w)
  else (.skipped, w)

/-- The answers for the items, up to the first refusal. -/
def answers : List EnvelopeItem → σ → List Answer
  | [], _ => []
  | item :: items, w =>
    let (a, w) := answer deps projectID eventID enqueue item w
    a :: if a.refusal.isSome then [] else answers items w

/-- **The condition.** If an item is refused, nothing is stored for it and for the items before
it. -/
def Orderly (w : σ) : Prop :=
  ∀ enqueue, deps.pipeline = some enqueue →
    (∃ a ∈ answers deps projectID eventID enqueue items w, a.refusal.isSome) →
      ∀ a ∈ answers deps projectID eventID enqueue items w, a.stored = false

/-- **The property.** A request that is answered with 429 or 503 wrote nothing. -/
def LeavesNothing (w : σ) : Prop :=
  ∀ r s, handleEnvelope deps projectID eventID items ⟨w, []⟩ = (r, s) →
    r.status = 429 ∨ r.status = 503 → s.written = []

theorem status_of_refusal {a : Answer} {r : Response} (h : a.refusal = some r) :
    r.status = 429 ∨ r.status = 503 := by
  unfold Answer.refusal at h
  split at h <;> cases h
  · exact .inl rfl
  · exact .inr rfl

/-- What is noted of an operation. -/
theorem append_noted (written : List StoreCall) (wrote : Bool) (call : StoreCall) :
    ∃ calls, (calls = [] ↔ wrote = false) ∧
      (if wrote then written ++ [call] else written) = written ++ calls := by
  cases wrote
  · exact ⟨[], by simp⟩
  · exact ⟨[call], by simp⟩

@[simp]
theorem exec_ask {ε α : Type} (op : σ → α × σ) (s : Request σ) :
    (ask op : Action (Request σ) ε α).exec s =
      (.ok (op s.world).1, { s with world := (op s.world).2 }) := rfl

/-- **What the first phase does with an item**: it goes by the answers, and notes a call exactly if
something was stored. -/
theorem exec_admitItem (s : Request σ) :
    ∃ calls, (calls = [] ↔ (answer deps projectID eventID enqueue item s.world).1.stored = false) ∧
      (admitItem deps projectID eventID enqueue item).exec s =
        ((answer deps projectID eventID enqueue item s.world).1.refusal.elim (.ok ()) .error,
          ⟨(answer deps projectID eventID enqueue item s.world).2, s.written ++ calls⟩) := by
  rw [admitItem, answer]
  by_cases hqueued : item.queued
  swap
  · exact ⟨[], by simp [hqueued, Answer.stored], by simp [hqueued, Answer.refusal]; rfl⟩
  rw [if_pos hqueued, if_pos hqueued, exec_bind, exec_ask]
  rcases sampledOut deps projectID item s.world with ⟨_ | _, w⟩
  · -- the throttle, and then the queue
    dsimp only
    rw [if_neg Bool.false_ne_true, enqueueItem, exec_bind, exec_ask]
    dsimp only
    rcases spikeAllows deps projectID w with ⟨_ | _, w⟩
    · exact ⟨[], by simp [Answer.stored], by rw [append_nil]; rfl⟩
    · dsimp only
      rw [if_pos rfl, exec_bind]
      rcases hreply : enqueue ⟨projectID, item.payload⟩ w with ⟨⟨stored, ok⟩, w'⟩
      obtain ⟨calls, hcalls, hnoted⟩ :=
        append_noted s.written stored (.enqueue ⟨projectID, item.payload⟩)
      refine ⟨calls, hcalls, ?_⟩
      have hexec :
        (enqueueContext enqueue ⟨projectID, item.payload⟩ : Action (Request σ) Response Bool).exec
          ⟨w, s.written⟩ = (.ok ok, ⟨w', s.written ++ calls⟩) := by
        rw [← hnoted]
        simp only [enqueueContext, Action.exec, ExceptT.run, StateT.run, hreply]
      rw [hexec]
      cases ok <;> rfl
  · dsimp only
    rw [if_pos rfl, saveSamplingOutcome]
    by_cases hstore : deps.hasOutcomeStore
    swap
    · exact ⟨[], by simp [hstore, Answer.stored], by simp [hstore, Answer.refusal]; rfl⟩
    rw [if_pos hstore, if_pos hstore]
    obtain ⟨calls, hcalls, hnoted⟩ := append_noted s.written
      (deps.perform (.saveOutcome (samplingOutcome projectID eventID (deps.now w))) w).1.wrote
      (.saveOutcome (samplingOutcome projectID eventID (deps.now w)))
    exact ⟨calls, hcalls, by rw [← hnoted]; rfl⟩

/-- **The first phase goes by the answers**: it ends with the refusal, if there is one, and notes a
call exactly if something was stored. -/
theorem exec_admitItems (items : List EnvelopeItem) (s : Request σ) :
    ∃ calls r w,
      (calls = [] ↔ ∀ a ∈ answers deps projectID eventID enqueue items s.world, a.stored = false) ∧
      (∀ response, r = .error response → response.status = 429 ∨ response.status = 503) ∧
      ((∃ response, r = .error response) ↔
        ∃ a ∈ answers deps projectID eventID enqueue items s.world, a.refusal.isSome) ∧
      (items.forM (admitItem deps projectID eventID enqueue)).exec s =
        (r, ⟨w, s.written ++ calls⟩) := by
  induction items generalizing s with
  | nil =>
    exact ⟨[], .ok (), s.world, by simp [answers], nofun, by simp [answers],
      by rw [append_nil]; rfl⟩
  | cons item items ih =>
    obtain ⟨calls, hcalls, hexec⟩ := exec_admitItem deps projectID eventID enqueue item s
    rw [List.forM, exec_bind, hexec, answers]
    generalize answer deps projectID eventID enqueue item s.world = answered at hcalls
    obtain ⟨a, w⟩ := answered
    dsimp only at hcalls ⊢
    rcases hrefusal : a.refusal with _ | response
    · obtain ⟨calls', r, w', hcalls', hstatus, hrefused, hrest⟩ := ih ⟨w, s.written ++ calls⟩
      refine ⟨calls ++ calls', r, w', ?_, hstatus, ?_, ?_⟩
      · simp [hcalls, hcalls']
      · simp [hrefused, hrefusal]
      · rw [← append_assoc]
        exact hrest
    · refine ⟨calls, .error response, w, by simp [hcalls], ?_, by simp [hrefusal], rfl⟩
      rintro _ ⟨⟩
      exact status_of_refusal hrefusal

/-- **A refused envelope.** It leaves nothing behind, if and only if nothing is stored for the
refused item and for the items before it. -/
theorem handleEnvelope_leaves_nothing_iff (deps : IngestDeps σ) (projectID eventID : String)
    (items : List EnvelopeItem) (w : σ) :
    LeavesNothing deps projectID eventID items w ↔ Orderly deps projectID eventID items w := by
  have hpersist : ∀ s r s', (match (persistEnvelopeSideEffects deps projectID eventID items).exec s
      with
      | (.error _, s) => (sideEffectsFailed, s)
      | (.ok _, s) => (⟨200, eventID⟩, s)) = (r, s') → ¬(r.status = 429 ∨ r.status = 503) := by
    intro s r s' h
    split at h <;> cases h <;> simp [sideEffectsFailed]
  cases hpipeline : deps.pipeline with
  | none =>
    refine iff_of_true ?_ fun enqueue h => absurd (hpipeline.symm.trans h) nofun
    intro r s h hrefused
    simp only [handleEnvelope, admitItems, hpipeline] at h
    exact absurd hrefused (hpersist _ _ _ h)
  | some enqueue =>
    obtain ⟨calls, end₁, w', hcalls, hstatus, hrefused, hexec⟩ :=
      exec_admitItems deps projectID eventID enqueue items ⟨w, []⟩
    simp only [LeavesNothing, Orderly, handleEnvelope, admitItems, hpipeline,
      Option.some.injEq, forall_eq',
      ← hrefused, ← hcalls, hexec, nil_append]
    rcases end₁ with response | _
    · constructor
      · rintro h -
        exact h response _ rfl (hstatus response rfl)
      · rintro h r s ⟨⟩ -
        exact h ⟨response, rfl⟩
    · refine iff_of_true (fun r s h hstatus => absurd hstatus (hpersist _ _ _ h)) ?_
      rintro ⟨response, ⟨⟩⟩

/-! ## An installation with a durable queue -/

/-- The tables of a small installation. -/
structure Installation where
  jobs : Table JobRow
  /-- Ids drawn so far. -/
  drawn : ℕ
  throttle : SpikeThrottle.State
  /-- What the other stores were asked to write. -/
  stored : List StoreCall

/-- `EnqueueContext` on the job table. Nobody drains the queue while the call waits, so what counts
is one attempt. -/
def Installation.enqueueContext (queueSize : ℤ) (now : Instant) (item : PipelineItem)
    (w : Installation) : QueueReply × Installation :=
  match JobStore.enqueue (toString w.drawn) "event" item.projectID item.rawEvent
    queueSize now w.jobs
  with
  | some jobs => (⟨true, true⟩, { w with jobs, drawn := w.drawn + 1 })
  | none => (⟨false, false⟩, w)

/-- No payload is looked into. -/
def blindLib : PayloadLib where
  extractTransactionSamplingFields _ := ⟨"", "", ""⟩
  replayEnvelopeIDs _ fallback := (fallback, fallback)
  replayEventSegmentID _ := none
  replayRecordingSegmentID _ := none
  replayIncludedBySample _ _ := true
  annotateReplayReceiptPayload payload _ _ := payload
  scrubReplayRecordingPayload payload _ := payload
  stableEnvelopeAttachmentID _ _ item _ := item.filename
  replayPolicyOutcome _ _ _ _ := ("", [])

/-- The dependencies of the installation, at midnight. -/
def Installation.dependencies (queueSize : ℤ) (rules : List SamplingRule)
    (spikeProtection : String → Option ℤ) : IngestDeps Installation where
  lib := blindLib
  now _ := Instant.midnight.toTime
  pipeline := some (enqueueContext queueSize .midnight)
  samplingRules := some fun projectID fields w =>
    (.ok (evaluateSampling asciiLib (fun _ => 0) rules projectID fields), w)
  spikeThrottle := some fun projectID w =>
    let now := Instant.midnight.toTime
    let (allowed, throttle) :=
      SpikeThrottle.allow spikeProtection projectID ⟨now, now, now⟩ w.throttle
    (allowed, { w with throttle })
  replayPolicies := none
  projectedReplayRecordingBytes := none
  hasOutcomeStore := true
  perform call w := (⟨true, .ok ""⟩, { w with stored := w.stored ++ [call] })

/-- Nothing is stored yet. -/
def Installation.empty : Installation := ⟨⟨[], .nil⟩, 0, .empty, []⟩

/-- Two events and an attachment. -/
def twoEvents : List EnvelopeItem :=
  [{ type := "event", payload := [1] }, { type := "attachment", payload := [2] },
    { type := "event", payload := [3] }]

/-- **Half an envelope.** The queue has room for one job. The second event is answered with 503, and
the first one is in the queue. -/
theorem twoEvents_half_enqueued : ∃ r s,
    handleEnvelope (Installation.dependencies 1 [] fun _ => none) "p" "e" twoEvents
        ⟨Installation.empty, []⟩ = (r, s) ∧
      r.status = 503 ∧ s.world.jobs.rows.map (·.payload) = [[1]] ∧ s.written ≠ [] := by
  refine ⟨_, _, rfl, ?_⟩
  decide +kernel

end EnvelopeHandler

end Urgentry
