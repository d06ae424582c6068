import Urgentry.Sqlite.IssueWorkflow
import Urgentry.Sqlite.World

/-!
# Deleting issues

`DeleteGroup` deletes an issue with everything that belongs to it: subscriptions, bookmarks,
activity and comments by the id of the group, then the attachments of its events, then the events,
then the row itself. The schema adds to this: the manifests of a deleted event go with it, and the
rows of a deleted manifest with the manifest, all by `ON DELETE CASCADE`.

## The attachments

Every statement finds its rows by the id of the group except one. Attachments know their event by
the event id that the client chose, which is unique in a project and not beyond. The statement does
not ask for the project, so it deletes the attachments of *every* event with that id, in any project
and of any issue.

## Main results

* `remains_bulkDeleteGroups`: what is left in each table.
* `onlyOwn_iff`: deleting issues touches only their own projects, issues and events exactly when the
  rows that refer to them are in order (`Local`).
-/

namespace Urgentry

open SqlTable Option

/-! ## The tables -/

/-- A row of `issue_comments`. -/
structure CommentRow where
  (id groupId projectId : String)
  userId : Option String
  body : String
deriving DecidableEq

instance : Schema CommentRow := .ofKey (·.id)

instance : Schema ActivityRow := .ofKey (·.id)

/-- A row of `issue_bookmarks` or `issue_subscriptions`. -/
structure FollowRow where
  (userId groupId createdAt : String)
deriving DecidableEq

instance : Schema FollowRow := .ofKey fun r => (r.userId, r.groupId)

/-- A row of `issue_autofix_runs`. -/
structure AutofixRow where
  runId : ℕ
  (projectId issueId : String)
  columns : List String
deriving DecidableEq

instance : Schema AutofixRow := .ofKey (·.runId)

/-- The two tables of manifests. -/
inductive ManifestTable
  | profileManifests
  | replayManifests
deriving DecidableEq

/-- A row of one of them. -/
structure ManifestRow where
  table : ManifestTable
  (id eventRowId projectId : String)
  columns : List String
deriving DecidableEq

instance : Schema ManifestRow where
  conflict r s := r.table == s.table && (r.id == s.id || r.eventRowId == s.eventRowId)
  conflict_comm r s := by simp only [Bool.beq_comm]

/-- The tables whose rows belong to a manifest. -/
inductive PartTable
  | profileThreads
  | profileFrames
  | profileStacks
  | profileStackFrames
  | profileSamples
  | replayAssets
  | replayTimelineItems
deriving DecidableEq

def PartTable.manifests : PartTable → ManifestTable
  | .profileThreads | .profileFrames | .profileStacks | .profileStackFrames | .profileSamples =>
    .profileManifests
  | .replayAssets | .replayTimelineItems => .replayManifests

/-- A row of one of them. A stack frame has no id: its key is its stack and its position there. -/
structure PartRow where
  table : PartTable
  id : Option String
  manifestId : String
  /-- The attachment of a replay asset. -/
  attachmentId : Option String := none
  /-- The stack of a stack frame. -/
  stackId : Option String := none
  position : Option ℤ := none
  /-- The rows that it refers to without `ON DELETE CASCADE`. -/
  needs : List (PartTable × String) := []
deriving DecidableEq

instance : Schema PartRow := .ofKey fun r => (r.table, r.id, r.stackId, r.position)

/-- The part belongs to the manifest. -/
def PartRow.In (q : PartRow) (m : ManifestRow) : Prop :=
  m.table = q.table.manifests ∧ m.id = q.manifestId
deriving Decidable

/-- The tables that refer to issues and events. -/
structure IssueDb where
  issues : Issues
  attachments : Table AttachmentRow
  comments : Table CommentRow
  activity : Table ActivityRow
  (bookmarks subscriptions : Table FollowRow)
  autofixRuns : Table AutofixRow
  manifests : Table ManifestRow
  parts : Table PartRow

namespace IssueDb

/-! ## The statements -/

variable (db : IssueDb) (ids : List String)

/-- The event is one of the groups'. -/
def LostEvent (e : EventRow) : Prop := ∃ id ∈ ids, e.groupId = some id
deriving Decidable

/-- The attachment has the event id of one of their events. -/
def LostAttachment (a : AttachmentRow) : Prop :=
  ∃ e ∈ db.issues.events.rows, LostEvent ids e ∧ a.eventId = e.eventId
deriving Decidable

/-- The manifest is of one of their events. -/
def LostManifest (m : ManifestRow) : Prop :=
  ∃ e ∈ db.issues.events.rows, LostEvent ids e ∧ m.eventRowId = e.id
deriving Decidable

variable (q : PartRow)

/-- The part is an asset that goes with its attachment. -/
def LostAsset : Prop :=
  q.table = .replayAssets ∧
    ∃ a ∈ db.attachments.rows, db.LostAttachment ids a ∧ q.attachmentId = some a.id
deriving Decidable

/-- The part goes with its manifest. -/
def LostContent : Prop := ∃ m ∈ db.manifests.rows, db.LostManifest ids m ∧ q.In m
deriving Decidable

/-- The part is a stack frame that goes with its stack. -/
def LostFrame : Prop :=
  q.table = .profileStackFrames ∧ ∃ stack ∈ db.parts.rows, stack.table = .profileStacks ∧
    db.LostContent ids stack ∧ q.stackId = stack.id
deriving Decidable

variable (id : String)

/-- `DELETE FROM event_attachments WHERE event_id IN (SELECT event_id FROM events WHERE
group_id = ?)`, with the assets. -/
def deleteAttachments : IssueDb :=
  { db with
    attachments := db.attachments.deleteWhere fun a => db.LostAttachment [id] a
    parts := db.parts.deleteWhere fun q => db.LostAsset [id] q }

/-- `DELETE FROM events WHERE group_id = ?`, with the manifests and what belongs to them. It fails
when a row that stays needs one that goes. -/
def deleteEvents : Option IssueDb :=
  let lost (q : PartRow) : Bool := db.LostContent [id] q ∨ db.LostFrame [id] q
  let parts := db.parts.deleteWhere lost
  if ∃ q ∈ parts.rows, ∃ need ∈ q.needs, ∃ r ∈ db.parts.rows,
      lost r ∧ r.table = need.1 ∧ r.id = some need.2 then none
  else some { db with
    issues := { db.issues with events := db.issues.events.deleteWhere fun e => LostEvent [id] e }
    manifests := db.manifests.deleteWhere fun m => db.LostManifest [id] m
    parts }

/-- `DELETE FROM … WHERE group_id = ?`, for each of the `cascadeTables`. -/
def deleteFollowing : IssueDb :=
  { db with
    subscriptions := db.subscriptions.deleteWhere (·.groupId == id)
    bookmarks := db.bookmarks.deleteWhere (·.groupId == id)
    activity := db.activity.deleteWhere (·.groupId == id)
    comments := db.comments.deleteWhere (·.groupId == id) }

/-- `DELETE FROM groups WHERE id = ?`, with the autofix runs. -/
def deleteRow : IssueDb :=
  { db with
    issues := { db.issues with groups := db.issues.groups.deleteWhere (·.id == id) }
    autofixRuns := db.autofixRuns.deleteWhere (·.issueId == id) }

/-- `deleteGroupCascadeSQLiteTx`. -/
def deleteGroupCascadeSQLiteTx : Option IssueDb := do
  let db ← ((db.deleteFollowing id).deleteAttachments id).deleteEvents id
  return db.deleteRow id

/-- `BulkDeleteGroups`, one transaction; `DeleteGroup` is the case of one id. -/
def bulkDeleteGroups : Option IssueDb := ids.foldlM deleteGroupCascadeSQLiteTx db

/-! ## What is left -/

variable {db db₁ db₂ : IssueDb} {ids : List String} {id : String} {e : EventRow}

/-- The part goes in one of the three ways. -/
def LostPart (db : IssueDb) (ids : List String) (q : PartRow) : Prop :=
  db.LostAsset ids q ∨ db.LostContent ids q ∨ db.LostFrame ids q

/-- **What deleting the groups `ids` leaves**, told from the tables before. -/
structure Remains (db : IssueDb) (ids : List String) (db' : IssueDb) : Prop where
  groups : ∀ g, g ∈ db'.issues.groups.rows ↔ g ∈ db.issues.groups.rows ∧ g.id ∉ ids
  events : ∀ e, e ∈ db'.issues.events.rows ↔ e ∈ db.issues.events.rows ∧ ¬LostEvent ids e
  attachments : ∀ a, a ∈ db'.attachments.rows ↔ a ∈ db.attachments.rows ∧ ¬db.LostAttachment ids a
  comments : ∀ r, r ∈ db'.comments.rows ↔ r ∈ db.comments.rows ∧ r.groupId ∉ ids
  activity : ∀ r, r ∈ db'.activity.rows ↔ r ∈ db.activity.rows ∧ r.groupId ∉ ids
  bookmarks : ∀ r, r ∈ db'.bookmarks.rows ↔ r ∈ db.bookmarks.rows ∧ r.groupId ∉ ids
  subscriptions : ∀ r, r ∈ db'.subscriptions.rows ↔ r ∈ db.subscriptions.rows ∧ r.groupId ∉ ids
  autofixRuns : ∀ r, r ∈ db'.autofixRuns.rows ↔ r ∈ db.autofixRuns.rows ∧ r.issueId ∉ ids
  manifests : ∀ m, m ∈ db'.manifests.rows ↔ m ∈ db.manifests.rows ∧ ¬db.LostManifest ids m
  parts : ∀ q, q ∈ db'.parts.rows ↔ q ∈ db.parts.rows ∧ ¬db.LostPart ids q

theorem lostEvent_cons : LostEvent (id :: ids) e ↔ LostEvent [id] e ∨ LostEvent ids e := by
  simp [LostEvent]

theorem remains_nil (db : IssueDb) : Remains db [] db := by
  constructor <;> intro r <;>
    simp [LostEvent, LostAttachment, LostManifest, LostPart, LostAsset, LostContent, LostFrame]

theorem mem_deleteWhere {ρ : Type*} [Schema ρ] {t : Table ρ} {P : ρ → Prop} [DecidablePred P]
    {r : ρ} : r ∈ (t.deleteWhere fun s => P s).rows ↔ r ∈ t.rows ∧ ¬P r := by
  rw [Table.rows_deleteWhere]
  simp

theorem mem_deleteWhere_key {ρ : Type*} [Schema ρ] {t : Table ρ} {key : ρ → String} {r : ρ} :
    r ∈ (t.deleteWhere fun s => key s == id).rows ↔ r ∈ t.rows ∧ key r ∉ [id] := by
  rw [Table.rows_deleteWhere]
  simp

/-- A stack is no asset: it is still there when the frames go. -/
theorem lostFrame_deleteAttachments {q : PartRow} :
    (db.deleteAttachments id).LostFrame [id] q ↔ db.LostFrame [id] q := by
  refine and_congr_right fun _ => exists_congr fun stack => ?_
  constructor
  · rintro ⟨hmem, hstack⟩
    exact ⟨(mem_deleteWhere.mp hmem).1, hstack⟩
  · rintro ⟨hmem, htable, hstack⟩
    refine ⟨mem_deleteWhere.mpr ⟨hmem, fun hlost => ?_⟩, htable, hstack⟩
    cases htable.symm.trans hlost.1

/-- **One group.** -/
theorem remains_deleteGroupCascade (h : db.deleteGroupCascadeSQLiteTx id = some db₁) :
    Remains db [id] db₁ := by
  obtain ⟨db', hevents, hrow⟩ := bind_eq_some_iff.mp h
  cases hrow
  rw [deleteEvents] at hevents
  split at hevents
  · cases hevents
  cases hevents
  constructor
  case parts =>
    intro q
    have hframe : ((db.deleteFollowing id).deleteAttachments id).LostFrame [id] q ↔
        db.LostFrame [id] q := lostFrame_deleteAttachments
    have hcontent : ((db.deleteFollowing id).deleteAttachments id).LostContent [id] q ↔
        db.LostContent [id] q := Iff.rfl
    have hasset : q ∈ ((db.deleteFollowing id).deleteAttachments id).parts.rows ↔
        q ∈ db.parts.rows ∧ ¬db.LostAsset [id] q := mem_deleteWhere
    refine mem_deleteWhere.trans ?_
    simp only [hasset, hcontent, hframe, LostPart, not_or, and_assoc]
  case groups | comments | activity | bookmarks | subscriptions | autofixRuns =>
    exact fun r => mem_deleteWhere_key
  case events | attachments | manifests =>
    exact fun r => mem_deleteWhere

/-- A row that is lost with one of the lost rows is lost with one of the first, or with one that the
first deletion left. -/
theorem exists_lost_iff {α : Type*} {rows rest : List α} {lost first later R : α → Prop}
    (hlost : ∀ x, lost x ↔ first x ∨ later x) (hrest : ∀ x, x ∈ rest ↔ x ∈ rows ∧ ¬first x) :
    (∃ x ∈ rows, lost x ∧ R x) ↔ (∃ x ∈ rows, first x ∧ R x) ∨ ∃ x ∈ rest, later x ∧ R x := by
  constructor
  · rintro ⟨x, hx, hgone, hR⟩
    by_cases hfirst : first x
    · exact .inl ⟨x, hx, hfirst, hR⟩
    · exact .inr ⟨x, (hrest x).mpr ⟨hx, hfirst⟩, ((hlost x).mp hgone).resolve_left hfirst, hR⟩
  · rintro (⟨x, hx, hfirst, hR⟩ | ⟨x, hx, hlater, hR⟩)
    · exact ⟨x, hx, (hlost x).mpr (.inl hfirst), hR⟩
    · exact ⟨x, ((hrest x).mp hx).1, (hlost x).mpr (.inr hlater), hR⟩

/-- **One group after the other.** A row is lost when it is lost with the first group, or with the
others from what the first one leaves. -/
theorem Remains.cons (h₁ : Remains db [id] db₁) (h₂ : Remains db₁ ids db₂) :
    Remains db (id :: ids) db₂ := by
  have hattachment (a : AttachmentRow) : db.LostAttachment (id :: ids) a ↔
      db.LostAttachment [id] a ∨ db₁.LostAttachment ids a :=
    exists_lost_iff (fun _ => lostEvent_cons) h₁.events
  have hmanifest (m : ManifestRow) : db.LostManifest (id :: ids) m ↔
      db.LostManifest [id] m ∨ db₁.LostManifest ids m :=
    exists_lost_iff (fun _ => lostEvent_cons) h₁.events
  have hasset (q : PartRow) : db.LostAsset (id :: ids) q ↔
      db.LostAsset [id] q ∨ db₁.LostAsset ids q := by
    rw [LostAsset, exists_lost_iff hattachment h₁.attachments, and_or_left]
    rfl
  have hcontent (q : PartRow) : db.LostContent (id :: ids) q ↔
      db.LostContent [id] q ∨ db₁.LostContent ids q :=
    exists_lost_iff hmanifest h₁.manifests
  have hframe (q : PartRow) : db.LostFrame (id :: ids) q ↔
      db.LostFrame [id] q ∨ db₁.LostFrame ids q := by
    -- A stack that the first group leaves is lost neither as an asset nor as a frame.
    have hstack (stack : PartRow) (htable : stack.table = .profileStacks) :
        stack ∈ db₁.parts.rows ↔ stack ∈ db.parts.rows ∧ ¬db.LostContent [id] stack := by
      rw [h₁.parts, LostPart, LostAsset, LostFrame, htable]
      simp
    simp only [LostFrame]
    grind
  have hpart (q : PartRow) : db.LostPart (id :: ids) q ↔
      db.LostPart [id] q ∨ db₁.LostPart ids q := by
    simp only [LostPart]
    grind
  have hkey (key : String) : key ∉ id :: ids ↔ key ∉ [id] ∧ key ∉ ids := by
    simp
  constructor <;> intro r
  case groups => rw [h₂.groups, h₁.groups, hkey, and_assoc]
  case comments => rw [h₂.comments, h₁.comments, hkey, and_assoc]
  case activity => rw [h₂.activity, h₁.activity, hkey, and_assoc]
  case bookmarks => rw [h₂.bookmarks, h₁.bookmarks, hkey, and_assoc]
  case subscriptions => rw [h₂.subscriptions, h₁.subscriptions, hkey, and_assoc]
  case autofixRuns => rw [h₂.autofixRuns, h₁.autofixRuns, hkey, and_assoc]
  case events => rw [h₂.events, h₁.events, and_assoc, ← not_or, ← lostEvent_cons]
  case attachments => rw [h₂.attachments, h₁.attachments, hattachment, not_or, and_assoc]
  case manifests => rw [h₂.manifests, h₁.manifests, hmanifest, not_or, and_assoc]
  case parts => rw [h₂.parts, h₁.parts, hpart, not_or, and_assoc]

/-- **What is left of every table.** -/
theorem remains_bulkDeleteGroups (h : db.bulkDeleteGroups ids = some db₁) : Remains db ids db₁ := by
  induction ids generalizing db with
  | nil =>
    cases h
    exact remains_nil _
  | cons id ids ih =>
    obtain ⟨db', hfirst, hrest⟩ := bind_eq_some_iff.mp h
    exact (remains_deleteGroupCascade hfirst).cons (ih hrest)

/-! ## The frame -/

section Frame

variable (db : IssueDb) (ids : List String)

/-- The project is that of a deleted group. -/
def OwnProject (projectId : String) : Prop :=
  ∃ g ∈ db.issues.groups.rows, g.id ∈ ids ∧ g.projectId = projectId
deriving Decidable

/-- The attachment is of an event of a deleted group, of its own project. -/
def OwnAttachment (a : AttachmentRow) : Prop :=
  ∃ e ∈ db.issues.events.rows, LostEvent ids e ∧ db.OwnProject ids e.projectId ∧
    a.projectId = e.projectId ∧ a.eventId = e.eventId
deriving Decidable

/-- The part is of a manifest of an event of a deleted group. -/
def OwnPart (q : PartRow) : Prop :=
  ∃ m ∈ db.manifests.rows, db.LostManifest ids m ∧ db.OwnProject ids m.projectId ∧ q.In m
deriving Decidable

/-- Nothing changes but that rows go, and those are the group's own. -/
def OnlyLoses {α : Type*} (rows rest : List α) (own : α → Prop) : Prop :=
  rest ⊆ rows ∧ ∀ r ∈ rows, r ∈ rest ∨ own r

/-- **The frame of deleting the groups**, with `db'` the tables after. -/
structure OnlyOwn (db' : IssueDb) : Prop where
  groups : OnlyLoses db.issues.groups.rows db'.issues.groups.rows fun g =>
    db.OwnProject ids g.projectId ∧ g.id ∈ ids
  events : OnlyLoses db.issues.events.rows db'.issues.events.rows fun e =>
    db.OwnProject ids e.projectId ∧ LostEvent ids e
  attachments : OnlyLoses db.attachments.rows db'.attachments.rows (db.OwnAttachment ids)
  comments : OnlyLoses db.comments.rows db'.comments.rows fun r =>
    db.OwnProject ids r.projectId ∧ r.groupId ∈ ids
  activity : OnlyLoses db.activity.rows db'.activity.rows fun r =>
    db.OwnProject ids r.projectId ∧ r.groupId ∈ ids
  bookmarks : OnlyLoses db.bookmarks.rows db'.bookmarks.rows fun r => r.groupId ∈ ids
  subscriptions : OnlyLoses db.subscriptions.rows db'.subscriptions.rows fun r => r.groupId ∈ ids
  autofixRuns : OnlyLoses db.autofixRuns.rows db'.autofixRuns.rows fun r =>
    db.OwnProject ids r.projectId ∧ r.issueId ∈ ids
  manifests : OnlyLoses db.manifests.rows db'.manifests.rows fun m =>
    db.OwnProject ids m.projectId ∧ db.LostManifest ids m
  parts : OnlyLoses db.parts.rows db'.parts.rows (db.OwnPart ids)

/-- **The rows that refer to the groups are in order.** -/
structure Local : Prop where
  events : ∀ e ∈ db.issues.events.rows, LostEvent ids e → db.OwnProject ids e.projectId
  /-- The event ids of the groups are used for attachments of their own events only. -/
  attachments : ∀ a ∈ db.attachments.rows, db.LostAttachment ids a → db.OwnAttachment ids a
  comments : ∀ r ∈ db.comments.rows, r.groupId ∈ ids → db.OwnProject ids r.projectId
  activity : ∀ r ∈ db.activity.rows, r.groupId ∈ ids → db.OwnProject ids r.projectId
  autofixRuns : ∀ r ∈ db.autofixRuns.rows, r.issueId ∈ ids → db.OwnProject ids r.projectId
  manifests : ∀ m ∈ db.manifests.rows, db.LostManifest ids m → db.OwnProject ids m.projectId
  /-- The attachments of the groups are assets of their own replays only. -/
  assets : ∀ q ∈ db.parts.rows, db.LostAsset ids q → db.OwnPart ids q
  /-- The stacks of their profiles have frames of their own profiles only. -/
  frames : ∀ q ∈ db.parts.rows, db.LostFrame ids q → db.OwnPart ids q

end Frame

variable {α : Type*} {rows rest : List α}

theorem onlyLoses_iff {lost own : α → Prop} (hrest : ∀ r, r ∈ rest ↔ r ∈ rows ∧ ¬lost r) :
    OnlyLoses rows rest own ↔ ∀ r ∈ rows, lost r → own r := by
  constructor
  · intro h r hr hlost
    exact (h.2 r hr).resolve_left fun hstays => ((hrest r).mp hstays).2 hlost
  · intro h
    refine ⟨fun r hr => ((hrest r).mp hr).1, fun r hr => ?_⟩
    by_cases hlost : lost r
    · exact .inr (h r hr hlost)
    · exact .inl ((hrest r).mpr ⟨hr, hlost⟩)

/-- The same where lost rows are the group's own as soon as the project is. -/
theorem onlyLoses_and_iff {lost own : α → Prop} (hrest : ∀ r, r ∈ rest ↔ r ∈ rows ∧ ¬lost r) :
    OnlyLoses rows rest (fun r => own r ∧ lost r) ↔ ∀ r ∈ rows, lost r → own r := by
  rw [onlyLoses_iff hrest]
  exact forall₂_congr fun r _ => ⟨fun h hlost => (h hlost).1, fun h hlost => ⟨h hlost, hlost⟩⟩

theorem Remains.onlyLoses_key {key : α → String}
    (hrest : ∀ r, r ∈ rest ↔ r ∈ rows ∧ key r ∉ ids) : OnlyLoses rows rest fun r => key r ∈ ids :=
  (onlyLoses_iff hrest).mpr fun _ _ hlost => hlost

/-- What belongs to a manifest goes with it. -/
theorem Local.part (h : Local db ids) {q : PartRow} (hq : q ∈ db.parts.rows)
    (hlost : db.LostPart ids q) : db.OwnPart ids q := by
  rcases hlost with hasset | ⟨m, hm, hgone, hin⟩ | hframe
  · exact h.assets q hq hasset
  · exact ⟨m, hm, hgone, h.manifests m hm hgone, hin⟩
  · exact h.frames q hq hframe

/-- **Deleting issues touches only their own rows exactly when `Local` holds.** -/
theorem onlyOwn_iff (h : db.bulkDeleteGroups ids = some db₁) :
    OnlyOwn db ids db₁ ↔ Local db ids := by
  have hleft := remains_bulkDeleteGroups h
  constructor
  · intro hown
    have hparts := (onlyLoses_iff hleft.parts).mp hown.parts
    exact {
      events := (onlyLoses_and_iff hleft.events).mp hown.events
      attachments := (onlyLoses_iff hleft.attachments).mp hown.attachments
      comments := (onlyLoses_and_iff hleft.comments).mp hown.comments
      activity := (onlyLoses_and_iff hleft.activity).mp hown.activity
      autofixRuns := (onlyLoses_and_iff hleft.autofixRuns).mp hown.autofixRuns
      manifests := (onlyLoses_and_iff hleft.manifests).mp hown.manifests
      assets := fun q hq hlost => hparts q hq (.inl hlost)
      frames := fun q hq hlost => hparts q hq (.inr (.inr hlost)) }
  · intro hlocal
    exact {
      groups := (onlyLoses_and_iff hleft.groups).mpr fun g hg hid => ⟨g, hg, hid, rfl⟩
      events := (onlyLoses_and_iff hleft.events).mpr hlocal.events
      attachments := (onlyLoses_iff hleft.attachments).mpr hlocal.attachments
      comments := (onlyLoses_and_iff hleft.comments).mpr hlocal.comments
      activity := (onlyLoses_and_iff hleft.activity).mpr hlocal.activity
      bookmarks := Remains.onlyLoses_key hleft.bookmarks
      subscriptions := Remains.onlyLoses_key hleft.subscriptions
      autofixRuns := (onlyLoses_and_iff hleft.autofixRuns).mpr hlocal.autofixRuns
      manifests := (onlyLoses_and_iff hleft.manifests).mpr hlocal.manifests
      parts := (onlyLoses_iff hleft.parts).mpr fun q hq hlost => hlocal.part hq hlost }

/-! ### One event id in two projects -/

/-- An issue of a project. -/
def issueOf (id projectId : String) : GroupRow :=
  { (Workflow.issue id).newRow .empty with projectId }

/-- An event of an issue, as it is saved. -/
def eventOf (id projectId eventId groupId : String) : EventRow :=
  StoredEvent.row { id, projectId, eventId, groupId } ⟨0⟩

def attachmentOf (id projectId eventId : String) : AttachmentRow :=
  ⟨id, projectId, eventId, "log", none, 0, id, none⟩

/-- The issue `a` of the project `p` and the issue `b` of `q`, with an event and an attachment
each. -/
def twoProjects (eventA eventB : String) : IssueDb where
  issues := {
    groups := (Table.empty.insertOrIgnore (issueOf "a" "p")).insertOrIgnore (issueOf "b" "q")
    events := (Table.empty.insertOrIgnore (eventOf "1" "p" eventA "a")).insertOrIgnore
      (eventOf "2" "q" eventB "b") }
  attachments := (Table.empty.insertOrIgnore (attachmentOf "x" "p" eventA)).insertOrIgnore
    (attachmentOf "y" "q" eventB)
  comments := .empty
  activity := .empty
  bookmarks := .empty
  subscriptions := .empty
  autofixRuns := .empty
  manifests := .empty
  parts := .empty

/-- Events with ids of their own. -/
theorem onlyOwn_own_event_ids : ∃ db', (twoProjects "e" "f").bulkDeleteGroups ["a"] = some db' ∧
    OnlyOwn (twoProjects "e" "f") ["a"] db' := by
  have hdone : ((twoProjects "e" "f").bulkDeleteGroups ["a"]).isSome := by decide +kernel
  obtain ⟨db', hdone⟩ := isSome_iff_exists.mp hdone
  have hlocal : Local (twoProjects "e" "f") ["a"] := by
    constructor <;> decide +kernel
  exact ⟨db', hdone, (onlyOwn_iff hdone).mpr hlocal⟩

/-- **A shared event id.** Deleting the issue of `p` deletes the attachment of `q`. -/
theorem attachment_of_other_project_deleted :
    ∃ db', (twoProjects "e" "e").bulkDeleteGroups ["a"] = some db' ∧
      attachmentOf "y" "q" "e" ∈ (twoProjects "e" "e").attachments.rows ∧
      attachmentOf "y" "q" "e" ∉ db'.attachments.rows ∧
      ¬(twoProjects "e" "e").OwnProject ["a"] "q" ∧ ¬OnlyOwn (twoProjects "e" "e") ["a"] db' := by
  have hdone : ∃ db' ∈ (twoProjects "e" "e").bulkDeleteGroups ["a"],
      attachmentOf "y" "q" "e" ∉ db'.attachments.rows := by
    decide +kernel
  obtain ⟨db', hdone, hgone⟩ := hdone
  have hthere : attachmentOf "y" "q" "e" ∈ (twoProjects "e" "e").attachments.rows := by
    decide +kernel
  have hnotown : ¬(twoProjects "e" "e").OwnAttachment ["a"] (attachmentOf "y" "q" "e") := by
    decide +kernel
  refine ⟨db', hdone, hthere, hgone, by decide +kernel, fun hown => ?_⟩
  exact (hown.attachments.2 _ hthere).elim hgone hnotown

end IssueDb

end Urgentry
