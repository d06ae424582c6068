import Urgentry.Sqlite.ImportIsolation

/-!
# What is left of an import that is undone

`ImportOrganizationPayload` undoes a failed import and `ValidateOrganizationPayload` undoes every
import. The rows come back with the transaction. The objects do not: they are put while the import
goes on, and afterwards `cleanupImportedBlobs` deletes the keys that were noted.

That undoes a put only if the key had no object before. An artifact brings its key with it, so the
key may be that of a stored object; then the put overwrites the object, and the clean-up deletes it.
And the raw payload of a profile event is put without a note, so it stays.

## Entries

To say which objects an import puts, its eight loops are read as one loop over the entries of the
payload. `reached` gives the entries that it comes to, each with the state before it, and
`ImportEntry.put` tells for an entry and a state which object is put.

## Main results

* `import_undone_iff`: a dry run, and every import that fails, leave all rows and objects as they
  were, if and only if every artifact is put to a key without an object, and every profile that is
  put to a key that is not cleaned up is the object that was there. -/

namespace Urgentry

open SqlTable Effect List Function

/-! ## Objects -/

/-- An object that an import puts, and whether its key is noted for the clean-up. -/
structure ObjectPut where
  key : String
  body : Body
  noted : Bool
deriving DecidableEq

/-- The objects by key, and the noted keys. -/
abbrev Objects := (String → Option Body) × List String

/-- The objects after a put. -/
def ObjectPut.apply (objects : Objects) (p : ObjectPut) : Objects :=
  (Function.update objects.1 p.key (some p.body),
    if p.noted then objects.2 ++ [p.key] else objects.2)

/-- The key is noted by one of the puts. -/
def Noted (puts : List ObjectPut) (key : String) : Prop := ∃ p ∈ puts, p.noted = true ∧ p.key = key

/-- **The condition.** What is noted was not there before, and what is put last to a key that is not
noted was there before. -/
structure Harmless (blobs : String → Option Body) (puts : List ObjectPut) : Prop where
  noted : ∀ key, Noted puts key → blobs key = none
  kept : ∀ before p after, puts = before ++ p :: after → (∀ q ∈ after, q.key ≠ p.key) →
    ¬Noted puts p.key → blobs p.key = some p.body

variable {puts : List ObjectPut} {key : String} {α : Type} (blobs : String → Option Body)

theorem mem_noted_foldl {objects : Objects} :
    key ∈ (puts.foldl ObjectPut.apply objects).2 ↔ key ∈ objects.2 ∨ Noted puts key := by
  induction puts generalizing objects with
  | nil => simp [Noted]
  | cons p puts ih =>
    have hcons : Noted (p :: puts) key ↔ p.noted = true ∧ p.key = key ∨ Noted puts key :=
      exists_mem_cons_iff _ _ _
    rw [foldl_cons, ih, hcons, ObjectPut.apply, ← or_assoc]
    refine or_congr_left ?_
    cases p.noted with
    | false => simp
    | true => simp [@eq_comm _ key]

theorem foldl_apply_of_ne {objects : Objects} (h : ∀ p ∈ puts, p.key ≠ key) :
    (puts.foldl ObjectPut.apply objects).1 key = objects.1 key := by
  induction puts generalizing objects with
  | nil => rfl
  | cons p puts ih =>
    rw [foldl_cons, ih fun q hq => h q (mem_cons_of_mem p hq)]
    exact update_of_ne (h p mem_cons_self).symm _ _

/-- The last put to a key decides. -/
theorem foldl_apply_last {before after : List ObjectPut} {p : ObjectPut} {objects : Objects}
    (h : ∀ q ∈ after, q.key ≠ p.key) :
    ((before ++ p :: after).foldl ObjectPut.apply objects).1 p.key = some p.body := by
  rw [foldl_append, foldl_cons, foldl_apply_of_ne h]
  exact update_self _ _ _

/-- A key to which something is put has a last put. -/
theorem exists_last_put (h : ∃ p ∈ puts, p.key = key) :
    ∃ before p after, puts = before ++ p :: after ∧ p.key = key ∧ ∀ q ∈ after, q.key ≠ key := by
  induction puts with
  | nil => exact absurd h nofun
  | cons p puts ih =>
    by_cases hrest : ∃ q ∈ puts, q.key = key
    · obtain ⟨before, q, after, rfl, hq, hafter⟩ := ih hrest
      exact ⟨p :: before, q, after, rfl, hq, hafter⟩
    · obtain ⟨q, hq, hkey⟩ := h
      rcases mem_cons.mp hq with rfl | hq
      · exact ⟨[], q, puts, rfl, hkey, fun u hu hkey' => hrest ⟨u, hu, hkey'⟩⟩
      · exact absurd ⟨q, hq, hkey⟩ hrest

@[simp]
theorem cleanupImportedBlobs_apply (keys : List String) (key : String) :
    cleanupImportedBlobs blobs keys key = if key ∈ keys then none else blobs key := by
  rw [cleanupImportedBlobs, foldl_reverse]
  induction keys with
  | nil => rfl
  | cons k keys ih =>
    rw [foldr_cons, update_apply, ih]
    by_cases hk : key = k <;> simp [hk]

/-- **Puts and the clean-up together** change nothing, if and only if the puts are harmless. -/
theorem cleanup_eq_iff (puts : List ObjectPut) :
    cleanupImportedBlobs (puts.foldl ObjectPut.apply (blobs, [])).1
        (puts.foldl ObjectPut.apply (blobs, [])).2 = blobs ↔ Harmless blobs puts := by
  have hmem : ∀ key, key ∈ (puts.foldl ObjectPut.apply (blobs, [])).2 ↔ Noted puts key := by
    intro key
    rw [mem_noted_foldl]
    simp
  constructor
  · intro h
    refine ⟨fun key hnoted => ?_, fun before p after hputs hafter hnoted => ?_⟩
    · have hkey := congrFun h key
      rwa [cleanupImportedBlobs_apply, if_pos ((hmem key).mpr hnoted), eq_comm] at hkey
    · have hkey := congrFun h p.key
      rw [cleanupImportedBlobs_apply, if_neg (mt (hmem p.key).mp hnoted)] at hkey
      rw [← hkey, hputs, foldl_apply_last hafter]
  · intro h
    funext key
    rw [cleanupImportedBlobs_apply]
    split_ifs with hkey
    · exact (h.noted key ((hmem key).mp hkey)).symm
    · by_cases hput : ∃ p ∈ puts, p.key = key
      · obtain ⟨before, p, after, hputs, rfl, hafter⟩ := exists_last_put hput
        rw [h.kept before p after hputs hafter (mt (hmem p.key).mpr hkey), hputs,
          foldl_apply_last hafter]
      · exact foldl_apply_of_ne fun p hp hpkey => hput ⟨p, hp, hpkey⟩

/-! ## Entries -/

/-- An item of a payload with its position. -/
inductive ImportEntry
  | project (index : ℕ) (p : ProjectImport)
  | release (index : ℕ) (r : ReleaseImport)
  | issue (index : ℕ) (i : IssueImport)
  | artifact (index : ℕ) (a : ArtifactImport)
  | event (index : ℕ) (e : EventImport)
  | projectKey (index : ℕ) (k : ProjectKeyImport)
  | alertRule (index : ℕ) (a : AlertRuleImport)
  | member (index : ℕ) (m : MemberImport)

/-- The items of one section. -/
def sectionEntries {α : Type} (entry : ℕ → α → ImportEntry) (items : List α) : List ImportEntry :=
  items.zipIdx.map fun x => entry x.2 x.1

/-- The items of a payload in the order of the import. -/
def ImportPayload.entries (payload : ImportPayload) : List ImportEntry :=
  sectionEntries .project payload.projects ++ sectionEntries .release payload.releases ++
  sectionEntries .issue payload.issues ++ sectionEntries .artifact payload.artifacts ++
  sectionEntries .event payload.events ++ sectionEntries .projectKey payload.projectKeys ++
  sectionEntries .alertRule payload.alertRules ++ sectionEntries .member payload.members

variable (env : ImportEnv) (orgID : String) (payload : ImportPayload)

/-- The import of one item. -/
def importEntry : ImportEntry → Import PUnit
  | .project index p => importProject env orgID ⟨.projects, index⟩ p
  | .release index r => importRelease env orgID ⟨.releases, index⟩ r
  | .issue index i => importIssue env orgID ⟨.issues, index⟩ i
  | .artifact index a => importArtifact env orgID ⟨.artifacts, index⟩ a
  | .event index e => importEvent env orgID ⟨.events, index⟩ e
  | .projectKey index k => importProjectKey env orgID ⟨.projectKeys, index⟩ k
  | .alertRule index a => importAlertRule env orgID ⟨.alertRules, index⟩ a
  | .member index m => importMember env orgID ⟨.members, index⟩ m

/-- **The import is one loop.** -/
theorem importOrganizationPayload_eq :
    importOrganizationPayload env orgID payload =
      payload.entries.foldlM (fun _ x => importEntry env orgID x) PUnit.unit := by
  simp only [ImportPayload.entries, foldlM_append, sectionEntries, foldlM_map, bind_assoc]
  rfl

/-! ## The object of an entry -/

/-- The statement that writes the row of an artifact, if it has one. -/
def artifactRow (item : ImportItem) (projectID : String) (a : ArtifactImport) : Import PUnit :=
  match a.artifactKind with
  | .attachment => upsertAttachmentArtifact (attachmentRow env item projectID a)
  | .profileRaw => pure ⟨⟩
  | .sourceMap => upsertSourceMapArtifact (sourceMapRow env item projectID a)
  | .proGuard => upsertProGuardArtifact (proGuardRow env item projectID a)
  | .debugFile => upsertDebugFileArtifact (debugFileRow env item projectID a)

/-- The key of an artifact. -/
def artifactKey (projectID : String) (a : ArtifactImport) : String :=
  match a.artifactKind with
  | .attachment => importedAttachmentObjectKey projectID a
  | .profileRaw => importedProfileRawObjectKey projectID a
  | .sourceMap => importedSourceMapObjectKey projectID a
  | .proGuard => importedProGuardObjectKey projectID a
  | .debugFile => importedDebugFileObjectKey projectID a

variable (item : ImportItem) (projectID : String) (a : ArtifactImport)

theorem importArtifactBody_eq (body : Body) :
    importArtifactBody env item projectID a body = (do
      artifactRow env item projectID a
      putArtifactBody env (artifactKey projectID a) body) := by
  rw [importArtifactBody, artifactRow, artifactKey]
  cases a.artifactKind <;> rfl

/-- The import of an artifact up to its put: the key and the body. -/
def artifactTarget (item : ImportItem) (a : ArtifactImport) : Import (String × Body) := do
  let projectID ← resolveImportedProjectID orgID a.projectSlug
  match checkArtifact env a with
  | .error e => throw e
  | .ok (a, body) => do
    artifactRow env item projectID a
    return (artifactKey projectID a, body)

/-- The import of an event up to its profile: the row. -/
def eventTarget (item : ImportItem) (e : EventImport) : Import EventRow := do
  let projectID ← resolveImportedProjectID orgID e.projectSlug
  let row := eventRow env item projectID e
  statement fun db => some { db with events := db.events.insertOrReplace row }
  return row

/-- The object of a profile event without a payload key. -/
def profilePut (item : ImportItem) (row : EventRow) : Option ObjectPut :=
  if row.eventType ≠ "profile" ∨ row.payloadKey ≠ none ∨ !env.hasBlobs then none
  else
    let raw := env.bytes (row.payloadJson.getD "")
    some ⟨"profiles/" ++ sanitizeImportKeySegment row.projectId ++ "/" ++
      sanitizeImportKeySegment (env.guessProfileID item row.eventId raw) ++ ".json", raw, false⟩

/-- **The object that an entry puts**, in the state before it. Only artifacts and events put
objects, and only if none of their calls fails before. -/
def ImportEntry.put (s : ImportState) : ImportEntry → Option ObjectPut
  | .artifact index a =>
    match env.fails ⟨.artifacts, index⟩,
      (artifactTarget env orgID ⟨.artifacts, index⟩ a).exec s with
    | none, (.ok (key, body), _) =>
      if body.isEmpty || !env.hasBlobs then none else some ⟨key, body, true⟩
    | _, _ => none
  | .event index e =>
    match env.fails ⟨.events, index⟩, (eventTarget env orgID ⟨.events, index⟩ e).exec s with
    | none, (.ok row, _) => profilePut env ⟨.events, index⟩ row
    | _, _ => none
  | _ => none

/-- The objects that an import of the payload puts, in order. -/
def objectPuts (payload : ImportPayload) (db : ImportDb) (blobs : String → Option Body) :
    List ObjectPut :=
  (reached (importEntry env orgID) payload.entries { db, blobs }).filterMap fun x =>
    x.1.put env orgID x.2

/-! ## What an entry does to the objects -/

/-- The objects of a state. -/
def ImportState.objects (s : ImportState) : Objects := (s.blobs, s.blobKeys)

variable {env orgID} (e : EventImport)

theorem keeps_importItem {item : ImportItem} {what : String} {m : Import α}
    (h : Keeps ImportState.objects m) : Keeps ImportState.objects (importItem env item what m) := by
  rw [importItem]
  split
  · exact .throw _
  · exact h.adapt

theorem keeps_statement (write : ImportDb → Option ImportDb) :
    Keeps ImportState.objects (statement write) := by
  intro s
  have hget : (get : Import ImportState).exec s = (.ok s, s) := rfl
  rw [statement, exec_bind_ok hget]
  split <;> rfl

theorem keeps_resolveImportedProjectID (projectSlug : String) :
    Keeps ImportState.objects (resolveImportedProjectID orgID projectSlug) := by
  intro s
  rw [resolveImportedProjectID]
  split
  · rfl
  · have hget : (get : Import ImportState).exec s = (.ok s, s) := rfl
    rw [exec_bind_ok hget]
    split
    · rfl
    · split <;> rfl

theorem keeps_artifactRow : Keeps ImportState.objects (artifactRow env item projectID a) := by
  rw [artifactRow]
  cases a.artifactKind with
  | profileRaw => exact .pure _
  | _ => exact keeps_statement _

theorem keeps_artifactTarget : Keeps ImportState.objects (artifactTarget env orgID item a) := by
  refine (keeps_resolveImportedProjectID _).bind fun projectID => ?_
  split
  · exact .throw _
  · exact (keeps_artifactRow _ _ _).bind fun _ => .pure _

/-- The entries other than artifacts and events. -/
theorem keeps_importProject (p : ProjectImport) :
    Keeps ImportState.objects (importProject env orgID item p) := by
  refine (keeps_importItem ?_).bind fun _ => .modify fun _ => rfl
  refine Keeps.get.bind fun s => ?_
  split
  · exact .throw _
  · refine (keeps_statement _).bind fun _ => Keeps.get.bind fun s => ?_
    split
    · exact .throw _
    · exact .pure _

/-- The import of an artifact ends with its put. -/
theorem importArtifact_eq :
    importArtifact env orgID item a = importItem env item ("artifact " ++ a.name)
      (artifactTarget env orgID item a >>= fun t => putArtifactBody env t.1 t.2) := by
  refine congrArg (importItem env item ("artifact " ++ a.name)) ?_
  rw [artifactTarget, bind_assoc]
  refine congrArg (resolveImportedProjectID orgID a.projectSlug >>= ·) (funext fun projectID => ?_)
  cases checkArtifact env a with
  | error e => rfl
  | ok t =>
    obtain ⟨a, body⟩ := t
    show importArtifactBody env item projectID a body = (do
      artifactRow env item projectID a
      return (artifactKey projectID a, body)) >>= fun t => putArtifactBody env t.1 t.2
    rw [importArtifactBody_eq, bind_assoc]
    rfl

/-- The import of an event ends with its profile. -/
theorem importEvent_eq :
    importEvent env orgID item e = importItem env item ("event " ++ e.eventId)
      (eventTarget env orgID item e >>= materializeProfile env item) := by
  rw [eventTarget, bind_assoc]
  rfl

theorem objects_putArtifactBody (key : String) (body : Body) (s : ImportState) :
    ((putArtifactBody env key body).exec s).2.objects =
      if body.isEmpty || !env.hasBlobs then s.objects
      else ObjectPut.apply s.objects ⟨key, body, true⟩ := by
  rw [putArtifactBody]
  split <;> rfl

theorem objects_materializeProfile (row : EventRow) (s : ImportState) :
    ((materializeProfile env item row).exec s).2.objects =
      ((profilePut env item row).elim s.objects (ObjectPut.apply s.objects)) := by
  rw [materializeProfile, profilePut]
  split
  · rfl
  · dsimp only
    rw [exec_bind]
    -- What follows the object changes rows only.
    refine ((keeps_statement _).bind fun _ => ?_) _
    split
    · exact .throw _
    · exact .pure _

variable (env orgID) in
/-- The objects after an entry, from the state before it. -/
def applyEntry (objects : Objects) (x : ImportEntry × ImportState) : Objects :=
  (x.1.put env orgID x.2).elim objects (ObjectPut.apply objects)

/-- **One entry.** -/
theorem objects_importEntry (x : ImportEntry) (s : ImportState) :
    ((importEntry env orgID x).exec s).2.objects = applyEntry env orgID s.objects (x, s) := by
  cases x with
  | project index p => exact keeps_importProject _ p s
  | release index r =>
    refine keeps_importItem ?_ s
    rw [upsertReleaseImport]
    split
    · exact .throw _
    · exact keeps_statement _
  | issue index i =>
    exact keeps_importItem ((keeps_resolveImportedProjectID _).bind fun _ => keeps_statement _) s
  | projectKey index k =>
    exact keeps_importItem ((keeps_resolveImportedProjectID _).bind fun _ => keeps_statement _) s
  | alertRule index a =>
    exact keeps_importItem ((keeps_resolveImportedProjectID _).bind fun _ => keeps_statement _) s
  | member index m =>
    refine keeps_importItem ?_ s
    split
    · exact .throw _
    · exact (keeps_statement _).bind fun _ => keeps_statement _
  | artifact index a =>
    rw [importEntry, importArtifact_eq, importItem, applyEntry, ImportEntry.put]
    cases env.fails ⟨.artifacts, index⟩ with
    | some e => rfl
    | none =>
      have hkeeps : Keeps ImportState.objects (artifactTarget env orgID ⟨.artifacts, index⟩ a) :=
        keeps_artifactTarget _ a
      have hs := hkeeps s
      rw [exec_adapt_snd, hkeeps.exec_bind_eq]
      rcases hend : (artifactTarget env orgID ⟨.artifacts, index⟩ a).exec s with
        ⟨e | ⟨key, body⟩, s'⟩
      · rfl
      · rw [hend] at hs
        dsimp only
        rw [objects_putArtifactBody, hs]
        split <;> rfl
  | event index e =>
    rw [importEntry, importEvent_eq, importItem, applyEntry, ImportEntry.put]
    cases env.fails ⟨.events, index⟩ with
    | some e => rfl
    | none =>
      have hkeeps : Keeps ImportState.objects (eventTarget env orgID ⟨.events, index⟩ e) :=
        (keeps_resolveImportedProjectID _).bind fun _ => (keeps_statement _).bind fun _ => .pure _
      have hs := hkeeps s
      rw [exec_adapt_snd, hkeeps.exec_bind_eq]
      rcases hend : (eventTarget env orgID ⟨.events, index⟩ e).exec s with ⟨e | row, s'⟩
      · rfl
      · rw [hend] at hs
        dsimp only
        rw [objects_materializeProfile, hs]

/-- The objects after the import, whether it succeeds or not. -/
theorem objects_importOrganizationPayload (db : ImportDb) (blobs : String → Option Body) :
    ((importOrganizationPayload env orgID payload).exec { db, blobs }).2.objects =
      (objectPuts env orgID payload db blobs).foldl ObjectPut.apply (blobs, []) := by
  rw [importOrganizationPayload_eq, foldlM_eq_foldl_reached objects_importEntry, objectPuts,
    foldl_filterMap]
  refine foldl_ext _ _ _ fun objects x _ => ?_
  rw [applyEntry]
  cases x.1.put env orgID x.2 <;> rfl

/-! ## The theorem -/

/-- **An import that is undone.** A dry run, and every import that fails, leave the rows and the
objects as they were, if and only if no transaction begins or the objects that the import puts are
harmless. -/
theorem import_undone_iff (env : ImportEnv) (orgID : String) (payload : ImportPayload)
    (db : ImportDb) (blobs : String → Option Body) :
    ((validateOrganization env orgID payload db blobs).2 = (db, blobs) ∧
      ∀ e, (importOrganization env orgID payload db blobs).1 = .error e →
        (importOrganization env orgID payload db blobs).2 = (db, blobs)) ↔
    (env.beginFails = none → Harmless blobs (objectPuts env orgID payload db blobs)) := by
  rw [validateOrganization, importOrganization]
  cases env.beginFails with
  | some e => simp
  | none =>
    rw [imp_iff_right rfl, ← cleanup_eq_iff, ← objects_importOrganizationPayload]
    rcases (importOrganizationPayload env orgID payload).exec { db, blobs } with ⟨e | _, s⟩
    · simp [ImportState.objects]
    · cases env.commitFails <;> cases env.rollbackFails <;> simp [ImportState.objects]

/-- A payload with one attachment, whose key is that of a stored object. -/
def oneAttachment : ImportPayload where
  artifacts := [{
    kind := "attachment"
    projectSlug := "web"
    eventId := "e"
    name := "log"
    objectKey := "stored"
    bodyBase64 := "x" }]

/-- One object is stored. -/
def oneObject (key : String) : Option Body := if key = "stored" then some [1] else none

/-- **A dry run deletes an object.** It reports success, and the object that was stored under the
key of the attachment is gone. -/
theorem oneAttachment_deletes_object :
    (validateOrganization quietEnv "a" oneAttachment twoOrganizations oneObject).1 =
      .ok { oneAttachment.result with dryRun := true } ∧
    oneObject "stored" = some [1] ∧
    (validateOrganization quietEnv "a" oneAttachment twoOrganizations oneObject).2.2 "stored" =
      none := by
  refine ⟨by rfl, rfl, ?_⟩
  decide +kernel

end Urgentry
