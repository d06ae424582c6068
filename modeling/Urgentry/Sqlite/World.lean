import Urgentry.Internal.Effect
import Urgentry.Sqlite.EventStore

/-!
# The world a store works in

The stores of the `sqlite` package hold a database handle and a blob store, and call them one
statement and one object at a time without a surrounding transaction. A `World` is what those calls
see: the tables, the objects by key, and a count of the calls made so far. The count is what lets
any call fail: an `Oracle` says for each position in the sequence of calls whether the call made
there ends in an error, so a theorem about every oracle is a theorem about every pattern of
failures.

A call that fails has no effect. What the calls before it did stays done.

Of the tables that retention sweeps beside `events` and `event_attachments`, the rows keep the
columns by which the sweep selects them, and carry the other ones along.
-/

namespace Urgentry

open SqlTable Effect Function

/-- The contents of a stored object. -/
abbrev Body := List UInt8

/-- A row of `event_attachments`. -/
structure AttachmentRow where
  (id projectId eventId name : String)
  contentType : Option String
  sizeBytes : ℤ
  objectKey : String
  createdAt : Option String
deriving DecidableEq

instance : Schema AttachmentRow := .ofKey (·.id)

/-- A row of `transactions`. -/
structure TransactionRow where
  (id projectId eventId endTimestamp : String)
  payloadKey : Option String
  columns : List String
deriving DecidableEq

instance : Schema TransactionRow := .ofKey (·.id)

/-- A row of `spans`. -/
structure SpanRow where
  (id projectId transactionEventId : String)
  columns : List String
deriving DecidableEq

instance : Schema SpanRow := .ofKey (·.id)

/-- A row of `outcomes`. -/
structure OutcomeRow where
  (id projectId recordedAt : String)
  columns : List String
deriving DecidableEq

instance : Schema OutcomeRow := .ofKey (·.id)

/-- A row of `debug_files`. -/
structure DebugFileRow where
  (id projectId releaseVersion uuid : String)
  codeId : Option String
  (name objectKey : String)
  sizeBytes : ℤ
  (checksum createdAt : Option String)
  kind : String
  contentType : Option String
deriving DecidableEq

instance : Schema DebugFileRow := .ofKey (·.id)

/-- `store.TelemetrySurface`. -/
inductive Surface
  | errors
  | logs
  | replays
  | profiles
  | traces
  | outcomes
  | attachments
  | debugFiles
deriving DecidableEq

/-- The text of a surface. -/
def Surface.text : Surface → String
  | errors => "errors"
  | logs => "logs"
  | replays => "replays"
  | profiles => "profiles"
  | traces => "traces"
  | outcomes => "outcomes"
  | attachments => "attachments"
  | debugFiles => "debug_files"

/-- `archivedEvent`: the columns of an event that go into its archive record, with `NULL` replaced
as the query replaces it. -/
structure ArchivedEvent where
  (id projectId eventId groupId release environment platform level eventType title culprit
    message tagsJson
    payloadJson occurredAt ingestedAt userIdentifier payloadKey : String)
deriving DecidableEq

/-- The columns that the archiving query selects. -/
def EventRow.archived (r : EventRow) : ArchivedEvent where
  id := r.id
  projectId := r.projectId
  eventId := r.eventId
  groupId := r.groupId.getD ""
  release := r.release.getD ""
  environment := r.environment.getD ""
  platform := r.platform.getD ""
  level := r.level.getD ""
  eventType := r.eventType
  title := r.title.getD ""
  culprit := r.culprit.getD ""
  message := r.message.getD ""
  tagsJson := r.tagsJson.getD "{}"
  payloadJson := r.payloadJson.getD "{}"
  occurredAt := r.occurredAt.getD ""
  ingestedAt := r.ingestedAt.getD ""
  userIdentifier := r.userIdentifier.getD ""
  payloadKey := r.payloadKey.getD ""

/-- What `metadata_json` of an archive record encodes. -/
inductive ArchivedRecord
  | event (item : ArchivedEvent)
  | attachment (item : AttachmentRow)
  | transaction (item : TransactionRow)
  | span (item : SpanRow)
  | outcome (item : OutcomeRow)
  | debugFile (item : DebugFileRow)
deriving DecidableEq

namespace ArchivedRecord

/-- `record_type`. -/
def recordType : ArchivedRecord → String
  | event _ => "event"
  | attachment _ => "attachment"
  | transaction _ => "transaction"
  | span _ => "span"
  | outcome _ => "outcome"
  | debugFile _ => "debug_file"

/-- `record_id`. -/
def recordId : ArchivedRecord → String
  | event item => item.id
  | attachment item => item.id
  | transaction item => item.id
  | span item => item.id
  | outcome item => item.id
  | debugFile item => item.id

/-- The object that is moved into the archive with the record; empty when there is none. -/
def objectKey : ArchivedRecord → String
  | event item => item.payloadKey
  | attachment item => item.objectKey
  | transaction item => item.payloadKey.getD ""
  | span _ => ""
  | outcome _ => ""
  | debugFile item => item.objectKey

end ArchivedRecord

/-- A row of `telemetry_archives`. -/
structure ArchiveRow where
  (id projectId : String)
  surface : Surface
  record : ArchivedRecord
  archiveKey : Option String
  archivedAt : String
  restoredAt : Option String
deriving DecidableEq

theorem ArchiveRow.exists_archiveKey {a : ArchiveRow} (h : a.archiveKey.getD "" ≠ "") :
    ∃ key, a.archiveKey = some key := by
  cases hnone : a.archiveKey with
  | none => exact absurd (by rw [hnone]; rfl) h
  | some key => exact ⟨key, rfl⟩

/-- The primary key, and one active archive for each record of a project. -/
instance : Schema ArchiveRow where
  conflict r s := r.id == s.id || (r.restoredAt == none && s.restoredAt == none
    && r.projectId == s.projectId && r.record.recordType == s.record.recordType
    && r.record.recordId == s.record.recordId)
  conflict_comm r s := by simp only [Bool.beq_comm, Bool.and_comm]

/-- The tables, the objects by key, and the number of calls made so far. -/
structure World where
  events : Table EventRow
  attachments : Table AttachmentRow
  transactions : Table TransactionRow
  spans : Table SpanRow
  outcomes : Table OutcomeRow
  debugFiles : Table DebugFileRow
  archives : Table ArchiveRow
  /-- Whether a blob store is configured. -/
  hasBlobs : Bool
  blobs : String → Option Body
  calls : ℕ

/-- The outcome of each call: whether it fails, and the id it draws if it draws one. -/
structure Oracle where
  /-- The call at this position ends in an error. -/
  fails : ℕ → Bool
  /-- The id drawn at this position. -/
  id : ℕ → String

/-- A store action; an error is its message. -/
abbrev Act := Action World String

section Calls

variable (oracle : Oracle) (what : String)

/-- One call to the database or to the blob store. -/
def call : Act PUnit := do
  let w ← get
  modify fun w => { w with calls := w.calls + 1 }
  if oracle.fails w.calls then throw what else return ⟨⟩

/-- A query. -/
def query {α : Type} (what : String) (read : World → α) : Act α := do
  call oracle what
  return read (← get)

/-- A statement that cannot break a constraint. -/
def exec (write : World → World) : Act PUnit := do
  call oracle what
  modify write

/-- A statement that fails when it would break a constraint. -/
def execChecked (write : World → Option World) : Act PUnit := do
  call oracle what
  let w ← get
  match write w with
  | some w' => set w'
  | none => throw what

/-- `blobs.Get`. A missing object is not an error here: the callers tell the two apart. -/
def blobGet (what key : String) : Act (Option Body) :=
  query oracle what fun w => w.blobs key

/-- `blobs.Put`. -/
def blobPut (what key : String) (body : Body) : Act PUnit :=
  exec oracle what fun w => { w with blobs := Function.update w.blobs key (some body) }

/-- `_ = blobs.Delete`: every caller ignores the error. -/
def blobDelete (key : String) : Act PUnit := do
  let w ← get
  modify fun w => { w with calls := w.calls + 1 }
  if oracle.fails w.calls then return ⟨⟩
  else modify fun w => { w with blobs := Function.update w.blobs key none }

/-- `generateID`. -/
def generateID : Act String := do
  let w ← get
  modify fun w => { w with calls := w.calls + 1 }
  return oracle.id w.calls

end Calls

/-! ## What the calls leave alone -/

section Keeps

variable {oracle : Oracle} {γ : Type*} {f : World → γ}

theorem keeps_call (hcalls : ∀ w n, f { w with calls := n } = f w) (what : String) :
    Keeps f (call oracle what) := by
  refine Keeps.bind Keeps.get fun w => Keeps.bind (Keeps.modify fun w => hcalls w _) fun _ => ?_
  split
  · exact Keeps.throw _
  · exact Keeps.pure _

theorem keeps_query {α : Type} (hcalls : ∀ w n, f { w with calls := n } = f w) (what : String)
    (read : World → α) : Keeps f (query oracle what read) :=
  Keeps.bind (keeps_call hcalls what) fun _ => Keeps.bind Keeps.get fun _ => Keeps.pure _

theorem keeps_exec (hcalls : ∀ w n, f { w with calls := n } = f w) (what : String)
    {write : World → World} (h : ∀ w, f (write w) = f w) : Keeps f (exec oracle what write) :=
  Keeps.bind (keeps_call hcalls what) fun _ => Keeps.modify h

theorem keeps_execChecked (hcalls : ∀ w n, f { w with calls := n } = f w) (what : String)
    {write : World → Option World} (h : ∀ w w', write w = some w' → f w' = f w) :
    Keeps f (execChecked oracle what write) := by
  refine Keeps.bind (keeps_call hcalls what) fun _ w => ?_
  change f (Action.exec (match write w with | some w' => set w' | none => throw what) w).2 = f w
  cases hw : write w with
  | none => rfl
  | some w' => exact h w w' hw

/-- A statement either fails without an effect or does what it says. -/
theorem holds_exec (hcalls : ∀ w n, f { w with calls := n } = f w) (what : String)
    {write : World → World} {P : γ → Prop} {Q : World → Prop} (h : ∀ w, P (f w) → Q (write w)) :
    Holds (fun w => P (f w)) (exec oracle what write) (fun _ => Q) (fun w => P (f w)) :=
  Holds.bind ((keeps_call hcalls what).holds P) fun _ => Holds.modify _ h

end Keeps

/-! ## How the calls end -/

/-- One more call. -/
def World.tick (w : World) : World := { w with calls := w.calls + 1 }

section Ends

variable {oracle : Oracle} (what key : String) (w : World)

@[simp]
theorem exec_call : (call oracle what).exec w =
      (if oracle.fails w.calls then .error what else .ok ⟨⟩, w.tick) := by
  show Action.exec (if oracle.fails w.calls then _ else _) _ = _
  split <;> rfl

@[simp]
theorem exec_query {α : Type} (read : World → α) (w : World) :
    (query oracle what read).exec w =
      (if oracle.fails w.calls then .error what else .ok (read w.tick), w.tick) := by
  rw [query, exec_bind, exec_call]
  cases oracle.fails w.calls <;> rfl

/-- **A query** of something that is known. -/
theorem holds_query_bind {α β : Type} {P E : World → Prop} {R : β → World → Prop} {what : String}
    {read : World → α} {a : α} {f : α → Act β} (hknown : ∀ w, P w → P w.tick ∧ read w.tick = a)
    (herror : ∀ w, P w → E w) (hf : Holds P (f a) R E) :
    Holds P (query oracle what read >>= f) R E := by
  intro w hw
  obtain ⟨htick, rfl⟩ := hknown w hw
  rw [exec_bind, exec_query]
  cases oracle.fails w.calls with
  | true => exact herror _ htick
  | false => exact hf _ htick

@[simp]
theorem exec_exec (write : World → World) (w : World) :
    (exec oracle what write).exec w =
      if oracle.fails w.calls then (.error what, w.tick) else (.ok ⟨⟩, write w.tick) := by
  rw [exec, exec_bind, exec_call]
  cases oracle.fails w.calls <;> rfl

@[simp]
theorem exec_execChecked (write : World → Option World) (w : World) :
    (execChecked oracle what write).exec w =
      if oracle.fails w.calls then (.error what, w.tick)
      else match write w.tick with
        | some w' => (.ok ⟨⟩, w')
        | none => (.error what, w.tick) := by
  rw [execChecked, exec_bind, exec_call]
  cases oracle.fails w.calls with
  | true => rfl
  | false =>
    show Action.exec (match write w.tick with | some w' => set w' | none => throw what) w.tick = _
    cases write w.tick <;> rfl

@[simp]
theorem exec_blobGet : (blobGet oracle what key).exec w =
      (if oracle.fails w.calls then .error what else .ok (w.blobs key), w.tick) :=
  exec_query what _ w

@[simp]
theorem exec_blobPut (body : Body) (w : World) :
    (blobPut oracle what key body).exec w =
      if oracle.fails w.calls then (.error what, w.tick)
      else (.ok ⟨⟩, { w.tick with blobs := update w.blobs key (some body) }) :=
  exec_exec what _ w

@[simp]
theorem exec_blobDelete (key : String) (w : World) :
    (blobDelete oracle key).exec w = (.ok ⟨⟩, if oracle.fails w.calls then w.tick
        else { w.tick with blobs := update w.blobs key none }) := by
  show Action.exec (if oracle.fails w.calls then _ else _) _ = _
  split <;> rfl

@[simp]
theorem exec_generateID : (generateID oracle).exec w = (.ok (oracle.id w.calls), w.tick) := rfl

end Ends

end Urgentry
