import Urgentry.Sqlite.AuthStore
import Urgentry.Sqlite.AttachmentStore

/-!
# The attachment endpoints

The two routes below `/api/0/events/{event_id}/attachments` in `api/attachments.go`. The authorizer
resolves the event id to a project and checks the principal against that project; the handlers then
look attachments up by event id or by attachment id, in all projects.

A handler's work is split in two. Its *outcome* is what it decides to send: an error, a list of
attachments, or one attachment with its bytes. `render` is the HTTP response for an outcome. The
response of a download does not show the project of the attachment, while the outcome does.
-/

namespace Urgentry

namespace Api

open Auth

/-- A request to one of the two endpoints. -/
inductive AttachmentRequest
  /-- `GET /api/0/events/{event_id}/attachments/` -/
  | list (eventId : String)
  /-- `GET /api/0/events/{event_id}/attachments/{attachment_id}/` -/
  | download (eventId attachmentId : String)
deriving DecidableEq

/-- The event id in the path. -/
def AttachmentRequest.eventId : AttachmentRequest → String
  | list eventId => eventId
  | download eventId _ => eventId

/-- `r.PathValue`. -/
def AttachmentRequest.pathValue : AttachmentRequest → String → String
  | list eventId, name => if name = "event_id" then eventId else ""
  | download eventId attachmentId, name =>
    if name = "event_id" then eventId
    else if name = "attachment_id" then attachmentId
    else ""

/-- The credentials that come with a request. -/
structure Credentials where
  authorization : String := ""
  cookie : Option String := none

/-- The request as the authorizer sees it. -/
def AttachmentRequest.authRequest (req : AttachmentRequest) (creds : Credentials) :
    Auth.Request where
  authorization := creds.authorization
  cookie := creds.cookie
  pathValue := req.pathValue

/-- The policy of both routes. -/
def attachmentPolicy : Policy where
  scope := .projectRead
  resource := .eventPath

/-- What the endpoints work on. -/
structure AttachmentWorld where
  auth : AuthDb
  files : AttachmentDb

/-- The surroundings of a request: the credentials and caches of the authorization store, the
queries that fail, and whether an attachment store is configured. -/
structure AttachmentEnv where
  auth : AuthContext
  authFails : AuthCall → Bool := fun _ => false
  files : AttachmentContext
  configured : Bool := true

variable (env : AttachmentEnv) (w : AttachmentWorld)

/-- The authorization store of a world. -/
def AttachmentWorld.authStore : Auth.Store := w.auth.store env.auth env.authFails

/-! ## The handlers -/

/-- What a handler decides to send. -/
inductive Outcome
  | error (response : ErrorResponse)
  | list (attachments : List Attachment)
  | file (attachment : Attachment) (data : Body)
deriving DecidableEq

/-- `handleListEventAttachments`, once the request is authorized. -/
def listEventAttachments (eventId : String) : Outcome :=
  match listByEvent env.files w.files eventId with
  | .error _ => .error ⟨500, "Failed to list attachments."⟩
  | .ok attachments => .list attachments

/-- `handleDownloadEventAttachment`, once the request is authorized. -/
def downloadEventAttachment (eventId attachmentId : String) : Outcome × AttachmentDb :=
  match getAttachment env.files w.files attachmentId with
  | (.error _, files) => (.error ⟨500, "Failed to load attachment."⟩, files)
  | (.ok (none, _), files) => (.error ⟨404, "Attachment not found."⟩, files)
  | (.ok (some a, data), files) =>
    if a.eventId ≠ eventId then (.error ⟨404, "Attachment not found."⟩, files)
    else match data with
      | none => (.error ⟨500, "Attachment payload unavailable."⟩, files)
      | some data => (.file a data, files)

/-- An authorized request. -/
def serveAuthorized : AttachmentRequest → Outcome × AttachmentDb
  | .list eventId => (listEventAttachments env w eventId, w.files)
  | .download eventId attachmentId => downloadEventAttachment env w eventId attachmentId

/-- A request: the authorizer, the check for a store, and the handler. -/
def serve (creds : Credentials) (req : AttachmentRequest) : Outcome × AttachmentDb :=
  match api (w.authStore env) attachmentPolicy (req.authRequest creds) with
  | .error response => (.error response, w.files)
  | .ok _ =>
    if env.configured then serveAuthorized env w req
    else (.error ⟨503, "Attachment store unavailable."⟩, w.files)

/-! ## Responses -/

/-- `sanitizeAttachmentFilename`. -/
def sanitizeAttachmentFilename (name : String) : String :=
  let sanitized := name.toList.filter fun c => c ≠ '"' ∧ c ≠ '\n' ∧ c ≠ '\r'
  if sanitized.isEmpty then "attachment.bin" else String.ofList sanitized

/-- `api.Attachment`, the JSON of an attachment in a list. -/
structure AttachmentJson where
  (id eventId projectId name contentType : String)
  size : ℤ
  dateCreated : Time
deriving DecidableEq

/-- The JSON of an attachment. -/
def attachmentJson (a : Attachment) : AttachmentJson where
  id := a.id
  eventId := a.eventId
  projectId := a.projectId
  name := a.name
  contentType := a.contentType
  size := a.size
  dateCreated := a.createdAt

/-- An HTTP response. -/
inductive Response
  | error (response : ErrorResponse)
  | json (status : ℕ) (items : List AttachmentJson)
  | bytes (status : ℕ) (contentType contentLength contentDisposition : String) (data : Body)
deriving DecidableEq

/-- The response for an outcome. -/
def render : Outcome → Response
  | .error response => .error response
  | .list attachments => .json 200 (attachments.map attachmentJson)
  | .file a data =>
    .bytes 200 (if a.contentType = "" then "application/octet-stream" else a.contentType)
      (toString data.length)
        ("attachment; filename=\"" ++ sanitizeAttachmentFilename a.name ++ "\"") data

/-- The attachments that an outcome hands out. -/
def Outcome.attachments : Outcome → List Attachment
  | .error _ => []
  | .list attachments => attachments
  | .file a _ => [a]

end Api

end Urgentry
