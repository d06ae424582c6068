import Urgentry.Sqlite.EventStore
import Urgentry.Sqlite.GroupStore

/-!
# Processing an event

`Processor.Process` on an error event. Normalisation and grouping are functions of the payload, so a
call starts from their result (`NormalizedEvent`). What follows is a sequence of separate calls of
the stores: the group is looked up by its key, created or counted, adjusted, and the event is saved.
Each of these calls can fail, and other calls of `Process` run in between, so a call is a small
machine: its `Phase` says which store call is next and what was read so far.
-/

namespace Urgentry

open SqlTable GoText

/-- `normalize.User`, as far as it identifies a user. -/
structure EventUser where
  id : String := ""
  email : String := ""
  ipAddress : String := ""
deriving DecidableEq

/-- A normalised event with its grouping. `commit` is the tag of that name. -/
structure NormalizedEvent where
  (eventId groupingVersion groupingKey : String)
  eventType : String := "error"
  title : String := ""
  culprit : String := ""
  level : String := ""
  release : String := ""
  commit : String := ""
  environment : String := ""
  platform : String := ""
  message : String := ""
  tagsJson : String := "null"
  normalizedJson : String := ""
  summaryJson : String := ""
  timestamp : Time := ⟨0⟩
  user : Option EventUser := none
deriving DecidableEq

namespace NormalizedEvent

variable (evt : NormalizedEvent)

/-- The release of the event: the tag `commit` stands in for a missing one. -/
def releaseVersion : String :=
  if trimSpace evt.release = "" then trimSpace evt.commit else trimSpace evt.release

/-- The user identifier: the first of id, e-mail and address that is set. -/
def userIdentifier : String :=
  match evt.user with
  | none => ""
  | some u => if u.id ≠ "" then u.id else if u.email ≠ "" then u.email else u.ipAddress

/-- The key of the group of the event. -/
def groupKey (projectId : String) : GroupKey :=
  ⟨projectId, evt.groupingVersion, evt.groupingKey⟩

/-- The group that `UpsertGroup` is called with. -/
def group (projectId groupId : String) : Group where
  id := groupId
  projectId := projectId
  groupingVersion := evt.groupingVersion
  groupingKey := evt.groupingKey
  title := evt.title
  culprit := evt.culprit
  level := evt.level
  firstSeen := evt.timestamp
  lastSeen := evt.timestamp
  lastEventId := evt.eventId

/-- The event that `SaveEvent` is called with. -/
def storedEvent (projectId rowId groupId : String) : StoredEvent where
  id := rowId
  projectId := projectId
  eventId := evt.eventId
  groupId := groupId
  releaseId := evt.releaseVersion
  environment := evt.environment
  platform := evt.platform
  level := evt.level
  eventType := evt.eventType
  occurredAt := evt.timestamp
  message := evt.message
  title := evt.title
  culprit := evt.culprit
  tagsJson := evt.tagsJson
  normalizedJson := evt.normalizedJson
  summaryJson := evt.summaryJson
  payloadKey := "raw/" ++ projectId ++ "/" ++ evt.eventId ++ ".json"
  userIdentifier := evt.userIdentifier
  processingStatus := some .completed

end NormalizedEvent

/-- `issue.ProcessResult`, for an error event. -/
structure ProcessResult where
  (eventId groupId : String)
  (isNewGroup isRegression : Bool)
  (eventType status : String)
deriving DecidableEq

/-- Whether the event reopens its group. `order` is what the release store answers about the two
releases, if it can compare them. -/
def regression (existing : Option GroupRow) (releaseVersion : String)
    (order : Option (Except String Bool)) : Bool :=
  match existing with
  | none => false
  | some g =>
    if g.status ≠ "resolved" then false
    else if g.resolutionSubstatus ≠ "next_release" then true
    else
      let target := trimSpace g.resolvedInRelease
      if target ≠ "" ∧ releaseVersion ≠ "" then
        match order with
        | some (.ok atOrAfter) => atOrAfter
        | _ => releaseVersion = target
      else false

/-- `store.OwnershipResolveResult`. -/
structure OwnershipResolveResult where
  (assignee teamSlug : String)
deriving DecidableEq

/-- Who the group is assigned to, if it has no assignee yet and the ownership rules answer. -/
def newAssignee (existing : Option GroupRow)
    (ownership : Option (Except String (Option OwnershipResolveResult))) : Option String :=
  if existing.all fun g => trimSpace g.assignee = "" then
    match ownership with
    | some (.ok (some result)) =>
      if trimSpace result.assignee = "" then none
      else if trimSpace result.teamSlug ≠ "" then some ("team:" ++ result.teamSlug)
      else some result.assignee
    | _ => none
  else none

/-- Which step of a call is next. -/
inductive Phase
  /-- The check for an event that is already stored. -/
  | check
  /-- `GetGroupByKey`. -/
  | lookup
  /-- `UpsertGroup`, knowing what was found. -/
  | upsert (existing : Option GroupRow) (isRegression : Bool)
  /-- The group was counted; its status and assignee are next. -/
  | adjust (groupId : String) (existing : Option GroupRow) (isRegression : Bool)
  /-- `SaveEvent`. -/
  | save (groupId : String) (isNew isRegression : Bool)
  /-- The call returned without an error. -/
  | returned
deriving DecidableEq

/-- A call of `Process` by a worker, for a job. `groupId` is the id it would give to a new group. -/
structure Call where
  (worker job : ℕ)
  projectId : String
  evt : NormalizedEvent
  groupId : String
  phase : Phase
deriving DecidableEq

namespace Call

/-- The key of the call's group. -/
def groupKey (c : Call) : GroupKey := c.evt.groupKey c.projectId

/-- The group that the call has counted its event for, while the event is not saved. -/
def counted? (c : Call) : Option String :=
  match c.phase with
  | .adjust groupId _ _ | .save groupId _ _ => some groupId
  | _ => none

/-- What the call returns. -/
def result (c : Call) (groupId : String) (isNew isRegression : Bool) : ProcessResult where
  eventId := c.evt.eventId
  groupId := groupId
  isNewGroup := isNew
  isRegression := isRegression
  eventType := c.evt.eventType
  status := c.evt.level

end Call

end Urgentry
