import Urgentry.Api.Attachments

/-!
# Who can see which attachment

Access to the attachment endpoints is checked against *one* project, the one that the event id
resolves to first, while the handlers answer from the attachments of all projects. Event ids are
chosen by the senders of events and are unique within a project only, so the two can disagree.

## The property

A project is approved for a principal when the authorizer, asked about that project with the scope
of the routes, says yes. Isolation is a property of two worlds that differ only in the attachments
of projects that are not approved for the principal of the request: everything handed out in either
world belongs to an approved project, and the two responses are the same.

## The condition

Isolation is decided by the foreign attachments that the request's ids happen to name. `Clean` says
that there are none that matter: none with the event id of a list; and for a download, that a
foreign attachment with this id belongs to another event and can be loaded, because a failure to
load is reported before the event id is compared. When the foreign attachment cannot be loaded in
either world the responses agree on that error, which is the remaining case.

## Main results

* `isolated_iff`: isolation holds exactly when the request is turned down before attachments are
  read, or both worlds are clean, or both have a foreign attachment that cannot be loaded
* `foreign_attachment_listed`: a member of one organization reads the attachment of another
-/

namespace Urgentry

namespace Api

open Auth SqlTable List Option

variable (env : AttachmentEnv) (creds : Credentials) (req : AttachmentRequest)

/-! ## The property -/

variable (w : AttachmentWorld)

/-- The principal of the request. -/
def principalOf : Option Principal :=
  (authenticateAPIRequest (w.authStore env) (req.authRequest creds)
    attachmentPolicy.allowAutomation).toOption

/-- The authorizer approves the project for the principal of the request. -/
def approves (projectId : String) : Bool :=
  match w.auth.projectById projectId with
  | none => false
  | some project =>
    (authorize (w.authStore env) (principalOf env creds req w) attachmentPolicy.scope
      (some ⟨project.organizationId, project.id⟩)).isOk

/-- The worlds differ only in the attachments of projects that are not approved. -/
structure SameElsewhere (w w' : AttachmentWorld) : Prop where
  /-- Authorization reads the same tables. -/
  auth : w'.auth = w.auth
  /-- The attachments of approved projects are the same. -/
  attachments : (w'.files.attachments.rows.filter fun r => approves env creds req w r.projectId) =
    w.files.attachments.rows.filter fun r => approves env creds req w r.projectId
  /-- So are their archives, -/
  archives : (w'.files.archives.rows.filter fun r => approves env creds req w r.projectId) =
    w.files.archives.rows.filter fun r => approves env creds req w r.projectId
  /-- their objects, -/
  objects : ∀ r ∈ w.files.attachments, approves env creds req w r.projectId = true →
    w'.files.blobs r.objectKey = w.files.blobs r.objectKey
  /-- and the archived objects. -/
  archived : ∀ r ∈ w.files.archives, approves env creds req w r.projectId = true →
    ∀ key ∈ r.archiveKey, w'.files.blobs key = w.files.blobs key

/-- All that the request is given in the world belongs to approved projects. -/
def Confined : Prop :=
  ∀ a ∈ (serve env w creds req).1.attachments, approves env creds req w a.projectId = true

/-- **Isolation** for one request in two worlds. -/
structure Isolated (w w' : AttachmentWorld) : Prop where
  confined : Confined env creds req w
  confined' : Confined env creds req w'
  response_eq : render (serve env w creds req).1 = render (serve env w' creds req).1

/-! ## The condition -/

/-- The request gets as far as reading attachments: it is authorized, a store is configured, and the
query of the attachments does not fail. -/
def ReadsAttachments : Prop :=
  (∃ principal, api (w.authStore env) attachmentPolicy (req.authRequest creds) = .ok principal) ∧
    env.configured = true ∧
    match req with
    | .list _ => env.files.fails .listByEvent = false
    | .download _ _ => env.files.fails .getAttachment = false

/-- The request's ids name no attachment of a project that is not approved, or, for a download, only
one of another event whose bytes can be loaded. -/
def Clean : Prop :=
  match req with
  | .list eventId => ∀ r ∈ w.files.attachments, r.eventId = eventId →
      approves env creds req w r.projectId = true
  | .download eventId attachmentId => ∀ r ∈ w.files.attachments, r.id = attachmentId →
      approves env creds req w r.projectId = true ∨
        r.eventId ≠ eventId ∧ ∃ body, (w.files.loadBody env.files r).1 = .ok body

/-- The request is a download of an attachment of a project that is not approved, and its bytes
cannot be loaded. -/
def Broken : Prop :=
  match req with
  | .list _ => False
  | .download _ attachmentId => ∃ r ∈ w.files.attachments, r.id = attachmentId ∧
      approves env creds req w r.projectId = false ∧
        ∃ e, (w.files.loadBody env.files r).1 = .error e

/-! ## Requests that do not read attachments -/

variable {env creds req} {w w' : AttachmentWorld}

theorem SameElsewhere.approves_eq (h : SameElsewhere env creds req w w') :
    approves env creds req w' = approves env creds req w := by
  funext projectId
  simp only [approves, principalOf, AttachmentWorld.authStore, h.auth]

theorem SameElsewhere.readsAttachments (h : SameElsewhere env creds req w w') :
    ReadsAttachments env creds req w' ↔ ReadsAttachments env creds req w := by
  simp only [ReadsAttachments, AttachmentWorld.authStore, h.auth]

theorem SameElsewhere.mem_attachments (h : SameElsewhere env creds req w w') {r : AttachmentRow}
    (hr : approves env creds req w r.projectId = true) :
    r ∈ w'.files.attachments ↔ r ∈ w.files.attachments := by
  have hmem := congrArg (r ∈ ·) h.attachments
  simpa [hr, Table.mem_def] using hmem

/-- A request that does not read attachments ends in an error that does not depend on them. -/
theorem serve_of_not_reads (h : ¬ ReadsAttachments env creds req w) (hauth : w'.auth = w.auth) :
    ∃ response, (serve env w creds req).1 = .error response ∧
      (serve env w' creds req).1 = .error response := by
  have hstore : w'.authStore env = w.authStore env := by
    simp only [AttachmentWorld.authStore, hauth]
  simp only [serve, hstore]
  cases hapi : api (w.authStore env) attachmentPolicy (req.authRequest creds) with
  | error response => exact ⟨response, rfl, rfl⟩
  | ok principal =>
    by_cases hconf : env.configured = true
    · simp only [hconf]
      cases req with
      | list eventId =>
        have hfails : env.files.fails .listByEvent = true := by
          by_contra hno
          exact h ⟨⟨principal, hapi⟩, hconf, by simpa using hno⟩
        simp [serveAuthorized, listEventAttachments, listByEvent, hfails]
      | download eventId attachmentId =>
        have hfails : env.files.fails .getAttachment = true := by
          by_contra hno
          exact h ⟨⟨principal, hapi⟩, hconf, by simpa using hno⟩
        simp [serveAuthorized, downloadEventAttachment, getAttachment, hfails]
    · simp [hconf]

theorem serve_of_reads (h : ReadsAttachments env creds req w) :
    serve env w creds req = serveAuthorized env w req := by
  obtain ⟨⟨principal, hapi⟩, hconf, -⟩ := h
  simp [serve, hapi, hconf]

/-! ## Lists -/

section List

variable {eventId : String}

theorem serve_list (h : ReadsAttachments env creds (.list eventId) w) :
    (serve env w creds (.list eventId)).1 =
      .list (((w.files.attachments.rows.filter fun r => r.eventId = eventId).mergeSort
        AttachmentRow.notBefore).map fun r => r.attachment env.files) := by
  have hfails : env.files.fails .listByEvent = false := h.2.2
  rw [serve_of_reads h]
  simp [serveAuthorized, listEventAttachments, listByEvent, hfails]

/-- A list hands out approved attachments only, exactly when the world is clean. -/
theorem confined_list_iff (h : ReadsAttachments env creds (.list eventId) w) :
    Confined env creds (.list eventId) w ↔ Clean env creds (.list eventId) w := by
  rw [Confined, serve_list h]
  simp only [Outcome.attachments, List.forall_mem_map, mem_mergeSort, mem_filter,
    decide_eq_true_eq, and_imp]
  rfl

/-- In clean worlds the attachments of the event are the same. -/
theorem SameElsewhere.filter_eventId (h : SameElsewhere env creds (.list eventId) w w')
    (hclean : Clean env creds (.list eventId) w) (hclean' : Clean env creds (.list eventId) w') :
    (w'.files.attachments.rows.filter fun r => r.eventId = eventId) =
      w.files.attachments.rows.filter fun r => r.eventId = eventId := by
  have hown : ∀ u : AttachmentWorld, (∀ r ∈ u.files.attachments, r.eventId = eventId →
      approves env creds (.list eventId) w r.projectId = true) →
      (u.files.attachments.rows.filter fun r => r.eventId = eventId) =
        (u.files.attachments.rows.filter fun r =>
          approves env creds (.list eventId) w r.projectId).filter
            fun r => r.eventId = eventId := by
    intro u hu
    rw [List.filter_filter]
    refine filter_congr fun r hr => ?_
    by_cases hevent : r.eventId = eventId
    · simp [hu r hr hevent]
    · simp [hevent]
  rw [hown w hclean, hown w' (by rw [← h.approves_eq]; exact hclean'), h.attachments]

end List

/-! ## Downloads -/

section Download

variable {eventId attachmentId : String}

/-- The response when there is no such attachment. -/
def notFound : Outcome := .error ⟨404, "Attachment not found."⟩

/-- The response when the bytes cannot be loaded. -/
def loadFailed : Outcome := .error ⟨500, "Failed to load attachment."⟩

/-- The outcome for a row, by the result of loading its bytes. -/
def rowOutcome (env : AttachmentEnv) (eventId : String) (r : AttachmentRow) :
    Except String Body → Outcome
  | .error _ => loadFailed
  | .ok body => if r.eventId = eventId then .file (r.attachment env.files) body else notFound

theorem serve_download (h : ReadsAttachments env creds (.download eventId attachmentId) w) :
    (serve env w creds (.download eventId attachmentId)).1 =
      ((w.files.attachments.rows.find? fun r => r.id = attachmentId).map fun r =>
        rowOutcome env eventId r (w.files.loadBody env.files r).1).getD notFound := by
  have hfails : env.files.fails .getAttachment = false := h.2.2
  rw [serve_of_reads h]
  simp only [serveAuthorized, downloadEventAttachment, getAttachment, hfails]
  cases w.files.attachments.rows.find? fun r => r.id = attachmentId with
  | none => rfl
  | some r =>
    simp only [map_some]
    rcases w.files.loadBody env.files r with ⟨_ | body, files⟩
    · rfl
    · by_cases hevent : r.eventId = eventId
      · simp [Except.map, AttachmentRow.attachment, hevent, rowOutcome]
      · simp [Except.map, AttachmentRow.attachment, hevent, rowOutcome, notFound]

variable {r : AttachmentRow}

theorem attachments_rowOutcome {result : Except String Body} {a : Attachment}
    (ha : a ∈ (rowOutcome env eventId r result).attachments) : a = r.attachment env.files := by
  cases result with
  | error e => exact absurd ha not_mem_nil
  | ok body =>
    by_cases hevent : r.eventId = eventId
    · simpa [rowOutcome, hevent, Outcome.attachments] using ha
    · simp [rowOutcome, hevent, notFound, Outcome.attachments] at ha

theorem find?_id {t : Table AttachmentRow} (hr : r ∈ t)
    (hid : r.id = attachmentId) : (t.rows.find? fun s => s.id = attachmentId) = some r := by
  refine Table.find?_of_mem hr (by simpa using hid) fun s hs => ?_
  have hsid : s.id = attachmentId := by simpa using hs
  simp [Schema.conflict, hid, hsid]

theorem loadBody_eq (h : SameElsewhere env creds req w w')
    (hr : r ∈ w.files.attachments) (happ : approves env creds req w r.projectId = true) :
    (w'.files.loadBody env.files r).1 = (w.files.loadBody env.files r).1 := by
  have hfind : ∀ u : AttachmentWorld, u.files.latestActiveArchive r.projectId "attachment" r.id =
      (u.files.archives.rows.filter fun s => approves env creds req w s.projectId).find? fun s =>
        s.projectId = r.projectId ∧ s.record.recordType = "attachment" ∧
          s.record.recordId = r.id ∧ s.restoredAt = none := by
    intro u
    rw [AttachmentDb.latestActiveArchive, find?_filter]
    congr 1
    funext s
    by_cases hproject : s.projectId = r.projectId
    · simp [hproject, happ]
    · simp [hproject]
  refine AttachmentDb.loadBody_congr (h.objects r hr happ) ?_ ?_
  · rw [hfind, hfind, h.archives]
  · intro archive harchive key hkey
    rw [hfind, h.archives] at harchive
    obtain ⟨hmem, harchapp⟩ := mem_filter.mp (mem_of_find?_eq_some harchive)
    exact h.archived archive hmem harchapp key hkey

/-- The row that the download names, if any, belongs to a project that is not approved. -/
def Foreign (env : AttachmentEnv) (creds : Credentials) (eventId attachmentId : String)
    (w : AttachmentWorld) : Prop :=
  ∀ r ∈ w.files.attachments, r.id = attachmentId →
    approves env creds (.download eventId attachmentId) w r.projectId = false

variable (hreq : req = .download eventId attachmentId)

include hreq

/-- A download of an approved attachment: its row and its bytes are the same in both worlds. -/
theorem isolated_of_approved (h : SameElsewhere env creds req w w')
    (hreads : ReadsAttachments env creds req w) (hr : r ∈ w.files.attachments)
    (hid : r.id = attachmentId) (happ : approves env creds req w r.projectId = true) :
    Isolated env creds req w w' := by
  subst hreq
  have hr' := (h.mem_attachments happ).mpr hr
  have hserve := serve_download hreads
  have hserve' := serve_download (h.readsAttachments.mpr hreads)
  rw [find?_id hr hid, map_some, getD_some] at hserve
  rw [find?_id hr' hid, map_some, getD_some, loadBody_eq h hr happ, ← hserve] at hserve'
  have hconfined : Confined env creds (.download eventId attachmentId) w := by
    intro a ha
    rw [hserve] at ha
    rw [attachments_rowOutcome ha]
    exact happ
  refine ⟨hconfined, ?_, by rw [hserve']⟩
  rw [Confined, h.approves_eq, hserve']
  exact hconfined

/-- What a download without an approved attachment can end with. -/
theorem foreign_cases (hreads : ReadsAttachments env creds req w)
    (hforeign : Foreign env creds eventId attachmentId w) :
    (Clean env creds req w ↔ (serve env w creds req).1 = notFound) ∧
    (Broken env creds req w ↔ (serve env w creds req).1 = loadFailed) ∧ (Confined env creds req w ↔
      (serve env w creds req).1 = notFound ∨ (serve env w creds req).1 = loadFailed) := by
  subst hreq
  have hserve := serve_download hreads
  rw [Confined]
  cases hfind : w.files.attachments.rows.find? fun r => r.id = attachmentId with
  | none =>
    have hnone : ∀ r ∈ w.files.attachments, r.id ≠ attachmentId := by
      simpa [Table.mem_def] using hfind
    rw [hfind, map_none] at hserve
    rw [hserve]
    refine ⟨⟨fun _ => rfl, fun _ r hr hid => absurd hid (hnone r hr)⟩, ⟨?_, ?_⟩, ?_⟩
    · rintro ⟨r, hr, hid, -⟩
      exact absurd hid (hnone r hr)
    · exact fun h => absurd h (by decide)
    · simp [notFound, Outcome.attachments]
  | some r =>
    have hr : r ∈ w.files.attachments := mem_of_find?_eq_some hfind
    have hid : r.id = attachmentId := by simpa using find?_some hfind
    have hnot := hforeign r hr hid
    have honly : ∀ s ∈ w.files.attachments, s.id = attachmentId → s = r := by
      intro s hs hsid
      rw [find?_id hs hsid] at hfind
      exact some.inj hfind
    -- the condition and the outcome both speak of this one row
    have hclean : Clean env creds (.download eventId attachmentId) w ↔
        r.eventId ≠ eventId ∧ ∃ body, (w.files.loadBody env.files r).1 = .ok body := by
      constructor
      · intro h
        simpa [hnot] using h r hr hid
      · intro h s hs hsid
        rw [honly s hs hsid]
        exact .inr h
    have hbroken : Broken env creds (.download eventId attachmentId) w ↔
        ∃ e, (w.files.loadBody env.files r).1 = .error e := by
      constructor
      · rintro ⟨s, hs, hsid, -, he⟩
        rwa [honly s hs hsid] at he
      · exact fun he => ⟨r, hr, hid, hnot, he⟩
    rw [hfind, map_some] at hserve
    rw [hserve, hclean, hbroken]
    cases (w.files.loadBody env.files r).1 with
    | error e => simp [rowOutcome, loadFailed, notFound, Outcome.attachments]
    | ok body =>
      by_cases hevent : r.eventId = eventId
      · have hproject : (r.attachment env.files).projectId = r.projectId := rfl
        simp [rowOutcome, hevent, loadFailed, notFound, Outcome.attachments, hproject, hnot]
      · simp [rowOutcome, hevent, loadFailed, notFound, Outcome.attachments]

theorem clean_of_approved (hr : r ∈ w.files.attachments) (hid : r.id = attachmentId)
    (happ : approves env creds req w r.projectId = true) : Clean env creds req w := by
  subst hreq
  intro s hs hsid
  have hsr : s = r := some.inj ((find?_id hs hsid).symm.trans (find?_id hr hid))
  exact .inl (hsr ▸ happ)

theorem isolated_download_iff (h : SameElsewhere env creds req w w')
    (hreads : ReadsAttachments env creds req w) :
    Isolated env creds req w w' ↔ (Clean env creds req w ∧ Clean env creds req w') ∨
        (Broken env creds req w ∧ Broken env creds req w') := by
  subst hreq
  have hreads' := h.readsAttachments.mpr hreads
  by_cases hforeign : Foreign env creds eventId attachmentId w
  · have hforeign' : Foreign env creds eventId attachmentId w' := by
      intro r hr hid
      rw [h.approves_eq]
      by_contra happ
      rw [Bool.not_eq_false] at happ
      exact absurd (hforeign r ((h.mem_attachments happ).mp hr) hid) (by simp [happ])
    obtain ⟨hclean, hbroken, hconf⟩ := foreign_cases rfl hreads hforeign
    obtain ⟨hclean', hbroken', hconf'⟩ := foreign_cases rfl hreads' hforeign'
    rw [hclean, hclean', hbroken, hbroken']
    constructor
    · rintro ⟨hc, hc', hresponse⟩
      rcases hconf.mp hc with h1 | h1 <;> rcases hconf'.mp hc' with h2 | h2
      · exact .inl ⟨h1, h2⟩
      · rw [h1, h2] at hresponse
        exact absurd hresponse (by decide)
      · rw [h1, h2] at hresponse
        exact absurd hresponse (by decide)
      · exact .inr ⟨h1, h2⟩
    · rintro (⟨h1, h2⟩ | ⟨h1, h2⟩)
      · exact ⟨hconf.mpr (.inl h1), hconf'.mpr (.inl h2), by rw [h1, h2]⟩
      · exact ⟨hconf.mpr (.inr h1), hconf'.mpr (.inr h2), by rw [h1, h2]⟩
  · simp only [Foreign, not_forall, Bool.not_eq_false] at hforeign
    obtain ⟨r, hr, hid, happ⟩ := hforeign
    have hr' := (h.mem_attachments happ).mpr hr
    have happ' : approves env creds (.download eventId attachmentId) w' r.projectId = true := by
      rw [h.approves_eq]
      exact happ
    exact iff_of_true (isolated_of_approved rfl h hreads hr hid happ)
      (.inl ⟨clean_of_approved rfl hr hid happ, clean_of_approved rfl hr' hid happ'⟩)

end Download

/-! ## The theorem -/

theorem isolated_list_iff {eventId : String} (h : SameElsewhere env creds (.list eventId) w w')
    (hreads : ReadsAttachments env creds (.list eventId) w) :
    Isolated env creds (.list eventId) w w' ↔
      Clean env creds (.list eventId) w ∧ Clean env creds (.list eventId) w' := by
  have hreads' := h.readsAttachments.mpr hreads
  constructor
  · rintro ⟨hconf, hconf', -⟩
    exact ⟨(confined_list_iff hreads).mp hconf, (confined_list_iff hreads').mp hconf'⟩
  · rintro ⟨hclean, hclean'⟩
    refine ⟨(confined_list_iff hreads).mpr hclean, (confined_list_iff hreads').mpr hclean', ?_⟩
    rw [serve_list hreads, serve_list hreads', h.filter_eventId hclean hclean']

/-- **When attachments are isolated.** In two worlds that differ only in the attachments of projects
that are not approved for the principal, the request gets approved attachments only and the same
response, exactly when it is turned down before attachments are read, or both worlds are clean, or
it downloads a foreign attachment that cannot be loaded in either world. -/
theorem isolated_iff (env : AttachmentEnv) (creds : Credentials) (req : AttachmentRequest)
    (w w' : AttachmentWorld) (h : SameElsewhere env creds req w w') :
    Isolated env creds req w w' ↔
      ¬ ReadsAttachments env creds req w ∨ (Clean env creds req w ∧ Clean env creds req w') ∨
      (Broken env creds req w ∧ Broken env creds req w') := by
  by_cases hreads : ReadsAttachments env creds req w
  · simp only [hreads, not_true_eq_false, false_or]
    cases req with
    | list eventId => simpa [Broken] using isolated_list_iff h hreads
    | download eventId attachmentId => exact isolated_download_iff rfl h hreads
  · refine iff_of_true ?_ (.inl hreads)
    obtain ⟨response, hserve, hserve'⟩ := serve_of_not_reads hreads h.auth
    refine ⟨?_, ?_, by rw [hserve, hserve']⟩
    · simp [Confined, hserve, Outcome.attachments]
    · simp [Confined, hserve', Outcome.attachments]

/-! ## Two organizations with one event id -/

section Example

/-- A session of a member of the organization `oa`. -/
def memberSession : Principal where
  kind := .session
  user := some { id := "u" }

/-- Every session is that one, and nothing fails. -/
def exampleEnv : AttachmentEnv where
  auth := {
    session := fun _ => .ok memberSession
    pat := fun _ => .error "invalid credentials"
    automationToken := fun _ => .error "invalid credentials" }
  files := { parseTime := fun _ => ⟨0⟩ }

/-- A request with a session cookie. -/
def exampleCreds : Credentials where
  cookie := some "s"

/-- The event `e` of a project. -/
def exampleEvent (projectId : String) : EventRow :=
  StoredEvent.row { id := projectId ++ "-e", projectId, eventId := "e" } ⟨0⟩

/-- Two organizations with a project each. Both projects have an event `e`, and the user is a member
of the first organization. -/
def exampleAuth : AuthDb where
  organizations := ⟨[{ id := "oa", slug := "a" }, { id := "ob", slug := "b" }], by decide⟩
  projects := ⟨[{ id := "pa", organizationId := "oa", slug := "p" },
    { id := "pb", organizationId := "ob", slug := "p" }], by decide⟩
  events := ⟨[exampleEvent "pa", exampleEvent "pb"], by decide +kernel⟩
  groups := .empty
  members := ⟨[{ id := "m", organizationId := "oa", userId := "u", role := "member" }], by decide⟩
  projectMemberships := .empty

/-- An attachment. -/
def exampleAttachment (id projectId eventId : String) : AttachmentRow where
  id := id
  projectId := projectId
  eventId := eventId
  name := "log.txt"
  contentType := none
  sizeBytes := 3
  objectKey := projectId ++ "/" ++ id
  createdAt := none

variable (attachments : Table AttachmentRow)

/-- The world with these attachments. -/
def exampleWorld : AttachmentWorld where
  auth := exampleAuth
  files := { attachments, archives := .empty, blobs := fun _ => some [1, 2, 3] }

/-- An attachment of each project, the one of `pb` for another event. -/
def bothAttachments : Table AttachmentRow :=
  ⟨[exampleAttachment "1" "pa" "e", exampleAttachment "2" "pb" "x"], by decide +kernel⟩

/-- The attachment of `pa` alone. -/
def ownAttachment : Table AttachmentRow := ⟨[exampleAttachment "1" "pa" "e"], by decide +kernel⟩

/-- The attachment of `pb` for the event id that the two projects share. -/
def foreignAttachment : Table AttachmentRow :=
  ⟨[exampleAttachment "2" "pb" "e"], by decide +kernel⟩

/-- Removing a foreign attachment of another event does not show in the list of the event. -/
theorem own_attachment_listed :
    SameElsewhere exampleEnv exampleCreds (.list "e") (exampleWorld bothAttachments)
      (exampleWorld ownAttachment) ∧
    Isolated exampleEnv exampleCreds (.list "e") (exampleWorld bothAttachments)
      (exampleWorld ownAttachment) := by
  have hsame : SameElsewhere exampleEnv exampleCreds (.list "e") (exampleWorld bothAttachments)
      (exampleWorld ownAttachment) :=
    ⟨rfl, by decide +kernel, rfl, fun _ _ _ => rfl, fun _ _ _ _ _ => rfl⟩
  have hclean : ∀ r ∈ bothAttachments.rows, r.eventId = "e" →
      approves exampleEnv exampleCreds (.list "e") (exampleWorld bothAttachments) r.projectId =
        true := by decide +kernel
  have hclean' : ∀ r ∈ ownAttachment.rows, r.eventId = "e" →
      approves exampleEnv exampleCreds (.list "e") (exampleWorld ownAttachment) r.projectId =
        true := by decide +kernel
  exact ⟨hsame, (isolated_iff _ _ _ _ _ hsame).mpr (.inr (.inl ⟨hclean, hclean'⟩))⟩

/-- The user, who is no member of `ob`, lists the attachments of the event `e`, which resolves to
`pa`, and gets the one of `pb`. -/
theorem foreign_attachment_listed :
    SameElsewhere exampleEnv exampleCreds (.list "e") (exampleWorld foreignAttachment)
      (exampleWorld .empty) ∧
    ¬ Isolated exampleEnv exampleCreds (.list "e") (exampleWorld foreignAttachment)
      (exampleWorld .empty) := by
  refine ⟨⟨rfl, by decide +kernel, rfl, fun _ _ _ => rfl, fun _ _ _ _ _ => rfl⟩, fun h => ?_⟩
  have hclean := (confined_list_iff ⟨⟨memberSession, by rfl⟩, rfl, rfl⟩).mp h.confined
  have happ := hclean (exampleAttachment "2" "pb" "e") (mem_singleton.mpr rfl) rfl
  exact absurd happ (by decide +kernel)

end Example

end Api

end Urgentry
