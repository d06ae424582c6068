import Urgentry.Sqlite.ImportExport

/-!
# What an import does to other organizations

The rows of others are those of projects, releases and memberships of other organizations, those of
the projects of other organizations, and the users that are not members. An import acts on them
through the keys that it *claims*: the ids of its issues, events, attachments, debug files, alert
rules and users, and its public keys. These are looked up in the whole table, so a row of another
organization is found like one of its own. A claimed row is taken over: it now belongs to a project
of the importing organization. A claimed user is overwritten.

The tables that are matched by organization or by project are out of reach.

## The two levels

`OthersRows.claim` says what one claim does to the rows of others, and a run of the import is a list
of claims that depends on the payload alone. `importOrganizationPayload_claims` connects the two:
the rows of others after a successful import are those before, with the claims of the payload
applied in order.

## Main results

* `OthersRows.claims_eq_self_iff`: when claims change nothing;
* `importOrganization_isolated_iff`: an import that fails changes nothing, and one that succeeds
  leaves the rows of others alone if and only if it claims none of them, where a claim on a user
  counts only if the last such claim changes the user.
-/

namespace Urgentry

open SqlTable Effect List Option Schema Table

/-! ## The rows of others -/

/-- The id of a project of another organization. -/
def ImportDb.otherProject (db : ImportDb) (orgID projectId : String) : Bool :=
  db.projects.rows.any fun p => p.organizationId ≠ orgID ∧ p.id = projectId

/-- The id of a user who is not a member of the organization. -/
def ImportDb.otherUser (db : ImportDb) (orgID userId : String) : Bool :=
  db.users.rows.any (fun u => u.id = userId) &&
    !db.members.rows.any fun m => m.organizationId = orgID ∧ m.userId = userId

/-- The rows of others, table by table. -/
@[ext] structure OthersRows where
  projects : List ProjectRow
  releases : List ReleaseRow
  groups : List GroupRow
  attachments : List AttachmentRow
  artifacts : List ArtifactRow
  debugFiles : List DebugFileRow
  events : List EventRow
  projectKeys : List ProjectKeyRow
  alertRules : List AlertRuleRow
  users : List UserRow
  members : List MemberRow
deriving DecidableEq

section Others

variable (start : ImportDb) (orgID : String)

/-- The rows of others in `db`. Who the others are is read off the database at the start. -/
def othersRows (db : ImportDb) : OthersRows where
  projects := db.projects.rows.filter fun p => p.organizationId ≠ orgID
  releases := db.releases.rows.filter fun r => r.organizationId ≠ orgID
  groups := db.groups.rows.filter fun g => start.otherProject orgID g.projectId
  attachments := db.attachments.rows.filter fun a => start.otherProject orgID a.projectId
  artifacts := db.artifacts.rows.filter fun a => start.otherProject orgID a.projectId
  debugFiles := db.debugFiles.rows.filter fun f => start.otherProject orgID f.projectId
  events := db.events.rows.filter fun e => start.otherProject orgID e.projectId
  projectKeys := db.projectKeys.rows.filter fun k => start.otherProject orgID k.projectId
  alertRules := db.alertRules.rows.filter fun r => start.otherProject orgID r.projectId
  users := db.users.rows.filter fun u => start.otherUser orgID u.id
  members := db.members.rows.filter fun m => m.organizationId ≠ orgID

/-- **The property.** The rows of others are the same, column by column. -/
def OthersUnchanged (after : ImportDb) : Prop :=
  othersRows start orgID after = othersRows start orgID start

end Others

/-! ## Claims -/

/-- A key that an item of a payload claims in a whole table. -/
inductive Claim
  | group (id : String)
  | attachment (id : String)
  | debugFile (id : String)
  | event (id : String)
  | projectKey (publicKey : String)
  | alertRule (id : String)
  | user (row : UserRow)
deriving DecidableEq

/-- What a claim does to a user. -/
def Claim.onUser (u : UserRow) : Claim → UserRow
  | .user row => if u.id = row.id then row.overwrite u else u
  | _ => u

/-- What a claim does to the rows of others. -/
def OthersRows.claim (o : OthersRows) (c : Claim) : OthersRows where
  projects := o.projects
  releases := o.releases
  groups := o.groups.filter fun g => c ≠ .group g.id
  attachments := o.attachments.filter fun a => c ≠ .attachment a.id
  artifacts := o.artifacts
  debugFiles := o.debugFiles.filter fun f => c ≠ .debugFile f.id
  events := o.events.filter fun e => c ≠ .event e.id
  projectKeys := o.projectKeys.filter fun k => c ≠ .projectKey k.publicKey
  alertRules := o.alertRules.filter fun r => c ≠ .alertRule r.id
  users := o.users.map c.onUser
  members := o.members

variable (o : OthersRows) (id : String) (cs : List Claim) (u : UserRow)

theorem OthersRows.claim_group :
    o.claim (.group id) = { o with groups := o.groups.filter fun g => !decide (id = g.id) } := by
  simp [claim, Claim.onUser]

theorem OthersRows.claim_attachment :
    o.claim (.attachment id) =
      { o with attachments := o.attachments.filter fun a => !decide (a.id = id) } := by
  simp [claim, Claim.onUser, eq_comm]

theorem OthersRows.claim_debugFile :
    o.claim (.debugFile id) =
    { o with debugFiles := o.debugFiles.filter fun f => !decide (f.id = id) } := by
  simp [claim, Claim.onUser, eq_comm]

theorem OthersRows.claim_event :
    o.claim (.event id) = { o with events := o.events.filter fun e => !decide (id = e.id) } := by
  simp [claim, Claim.onUser]

theorem OthersRows.claim_projectKey (key : String) :
    o.claim (.projectKey key) =
      { o with projectKeys := o.projectKeys.filter fun k => !decide (k.publicKey = key) } := by
  simp [claim, Claim.onUser, eq_comm]

theorem OthersRows.claim_alertRule :
    o.claim (.alertRule id) =
    { o with alertRules := o.alertRules.filter fun r => !decide (r.id = id) } := by
  simp [claim, Claim.onUser, eq_comm]

theorem OthersRows.claim_user (row : UserRow) :
    o.claim (.user row) =
      { o with users := o.users.map fun u => if u.id = row.id then row.overwrite u else u } := by
  simp [claim, Claim.onUser]

/-- What claims do to the rows of others. -/
def OthersRows.claims (o : OthersRows) (cs : List Claim) : OthersRows := cs.foldl OthersRows.claim o

theorem OthersRows.claims_append (cs cs' : List Claim) :
    o.claims (cs ++ cs') = (o.claims cs).claims cs' := foldl_append

/-- A table in which each claim takes the rows with one key. -/
theorem OthersRows.claims_filter {ρ : Type} (get : OthersRows → List ρ) (key : ρ → Claim)
    (hget : ∀ o c, get (o.claim c) = (get o).filter fun r => c ≠ key r) (o : OthersRows)
    (cs : List Claim) : get (o.claims cs) = (get o).filter fun r => key r ∉ cs := by
  induction cs generalizing o with
  | nil => simp [claims]
  | cons c cs ih =>
    rw [claims, foldl_cons, ← claims, ih, hget, List.filter_filter]
    refine filter_congr fun r _ => ?_
    rw [← Bool.decide_and, decide_eq_decide, mem_cons, not_or]
    exact ⟨fun h => ⟨Ne.symm h.2, h.1⟩, fun h => ⟨h.2, Ne.symm h.1⟩⟩

@[simp]
theorem OthersRows.claims_users :
    (o.claims cs).users = o.users.map fun u => cs.foldl Claim.onUser u := by
  induction cs generalizing o with
  | nil => simp [claims]
  | cons c cs ih =>
    rw [claims, foldl_cons, ← claims, ih, claim, List.map_map]
    rfl

/-- The tables that are matched by organization or by project. -/
theorem OthersRows.claims_outOfReach {γ : Type} (get : OthersRows → γ)
    (hget : ∀ o c, get (o.claim c) = get o) (o : OthersRows) (cs : List Claim) :
    get (o.claims cs) = get o := by
  induction cs generalizing o with
  | nil => rfl
  | cons c cs ih => rw [claims, foldl_cons, ← claims, ih, hget]

@[simp] theorem Claim.onUser_id (c : Claim) : (c.onUser u).id = u.id := by
  cases c with
  | user row =>
    rw [onUser]
    split <;> rfl
  | _ => rfl

@[simp]
theorem Claim.foldl_onUser_id (cs : List Claim) : (cs.foldl onUser u).id = u.id := by
  induction cs generalizing u with
  | nil => rfl
  | cons c cs ih => rw [foldl_cons, ih, onUser_id]

/-- The user row that a claim writes for this id. -/
def Claim.userWith (id : String) : Claim → Option UserRow
  | .user row => if id = row.id then some row else none
  | _ => none

theorem Claim.onUser_eq (c : Claim) : c.onUser u = (c.userWith u.id).elim u (·.overwrite u) := by
  cases c with
  | user row =>
    rw [onUser, userWith]
    split <;> rfl
  | _ => rfl

/-- **The last claim counts.** -/
theorem Claim.foldl_onUser (cs : List Claim) :
    cs.foldl onUser u = ((cs.filterMap (userWith u.id)).getLast?).elim u (·.overwrite u) := by
  induction cs using reverseRecOn with
  | nil => rfl
  | append_singleton cs c ih =>
    rw [foldl_append, foldl_cons, ih, onUser_eq]
    have hid : ((cs.filterMap (userWith u.id)).getLast?.elim u (·.overwrite u)).id = u.id := by
      rw [← ih, foldl_onUser_id]
    rw [hid, filterMap_append]
    cases hc : c.userWith u.id with
    | none => simp [hc]
    | some row =>
      rw [filterMap_cons_some hc, getLast?_append]
      cases (cs.filterMap (userWith u.id)).getLast? <;> rfl

/-- The row has what an overwrite by `row` writes. -/
structure UserRow.SameProfile (row u : UserRow) : Prop where
  email : row.email = u.email
  displayName : row.displayName = u.displayName
  isActive : row.isActive = u.isActive
  updatedAt : row.updatedAt = u.updatedAt

theorem overwrite_eq_self_iff {row u : UserRow} : row.overwrite u = u ↔ row.SameProfile u := by
  constructor
  · intro h
    rw [← h]
    exact ⟨rfl, rfl, rfl, rfl⟩
  · rintro ⟨hemail, hname, hactive, hupdated⟩
    rw [UserRow.overwrite, hemail, hname, hactive, hupdated]

theorem Claim.foldl_onUser_eq_self_iff {u : UserRow} {cs : List Claim} :
    cs.foldl onUser u = u ↔
      ∀ row ∈ (cs.filterMap (userWith u.id)).getLast?, row.SameProfile u := by
  rw [foldl_onUser]
  cases (cs.filterMap (userWith u.id)).getLast? with
  | none => simp
  | some row => simp [overwrite_eq_self_iff]

/-- The claims leave these rows of others alone. -/
structure OthersRows.Unclaimed (o : OthersRows) (cs : List Claim) : Prop where
  groups : ∀ g ∈ o.groups, .group g.id ∉ cs
  attachments : ∀ a ∈ o.attachments, .attachment a.id ∉ cs
  debugFiles : ∀ f ∈ o.debugFiles, .debugFile f.id ∉ cs
  events : ∀ e ∈ o.events, .event e.id ∉ cs
  projectKeys : ∀ k ∈ o.projectKeys, .projectKey k.publicKey ∉ cs
  alertRules : ∀ r ∈ o.alertRules, .alertRule r.id ∉ cs
  users : ∀ u ∈ o.users, ∀ row ∈ (cs.filterMap (Claim.userWith u.id)).getLast?, row.SameProfile u

theorem OthersRows.claims_eq_self_iff : o.claims cs = o ↔ o.Unclaimed cs := by
  have hgroups := claims_filter groups (fun g => .group g.id) (fun _ _ => rfl) o cs
  have hattachments := claims_filter attachments (fun a => .attachment a.id) (fun _ _ => rfl) o cs
  have hdebugFiles := claims_filter debugFiles (fun f => .debugFile f.id) (fun _ _ => rfl) o cs
  have hevents := claims_filter events (fun e => .event e.id) (fun _ _ => rfl) o cs
  have hkeys := claims_filter projectKeys (fun k => .projectKey k.publicKey) (fun _ _ => rfl) o cs
  have hrules := claims_filter alertRules (fun r => .alertRule r.id) (fun _ _ => rfl) o cs
  have husers : (o.claims cs).users = o.users ↔ ∀ u ∈ o.users,
      ∀ row ∈ (cs.filterMap (Claim.userWith u.id)).getLast?, row.SameProfile u := by
    conv_lhs => rw [claims_users, ← List.map_id o.users, List.map_map, map_inj_left]
    exact forall₂_congr fun u _ => Claim.foldl_onUser_eq_self_iff
  rw [OthersRows.ext_iff, hgroups, hattachments, hdebugFiles, hevents, hkeys, hrules, husers,
    claims_outOfReach projects fun _ _ => rfl, claims_outOfReach releases fun _ _ => rfl,
    claims_outOfReach artifacts fun _ _ => rfl, claims_outOfReach members fun _ _ => rfl]
  simp only [filter_eq_self, decide_eq_true_eq, true_and, and_true]
  constructor
  · rintro ⟨hg, ha, hd, he, hk, hr, hu⟩
    exact ⟨hg, ha, hd, he, hk, hr, hu⟩
  · rintro ⟨hg, ha, hd, he, hk, hr, hu⟩
    exact ⟨hg, ha, hd, he, hk, hr, hu⟩

/-! ## The claims of a payload -/

section Payload

variable (env : ImportEnv) (item : ImportItem)

/-- The claim of an issue. -/
def issueClaims (i : IssueImport) : List Claim := [.group (env.itemId item i.id)]

/-- The claim of an artifact: source maps are matched by project, and profiles have no row. -/
def artifactClaims (a : ArtifactImport) : List Claim :=
  match a.artifactKind with
  | .attachment => [.attachment (env.itemId item a.id)]
  | .proGuard | .debugFile => [.debugFile (env.itemId item a.id)]
  | .profileRaw | .sourceMap => []

/-- The claim of an event. -/
def eventClaims (e : EventImport) : List Claim := [.event (env.itemId item e.id)]

/-- The claim of a project key, which is its public key. -/
def projectKeyClaims (_ : ImportItem) (k : ProjectKeyImport) : List Claim :=
  [.projectKey k.publicKey]

/-- The claim of an alert rule. -/
def alertRuleClaims (a : AlertRuleImport) : List Claim :=
  [.alertRule (env.itemId item a.id)]

/-- The claim of a member. -/
def memberClaims (m : MemberImport) : List Claim := [.user (userRow env item m)]

/-- The claims of a section. -/
def sectionClaims {α : Type} (kind : ImportSection) (items : List α)
    (claims : ImportItem → α → List Claim) : List Claim :=
  items.zipIdx.flatMap fun x => claims ⟨kind, x.2⟩ x.1

/-- The claims of a payload, in the order of the import. -/
def ImportPayload.claims (payload : ImportPayload) : List Claim :=
  sectionClaims .issues payload.issues (issueClaims env) ++
  sectionClaims .artifacts payload.artifacts (artifactClaims env) ++
  sectionClaims .events payload.events (eventClaims env) ++
  sectionClaims .projectKeys payload.projectKeys projectKeyClaims ++
  sectionClaims .alertRules payload.alertRules (alertRuleClaims env) ++
  sectionClaims .members payload.members (memberClaims env)

end Payload

/-! ## Statements and items -/

section Items

-- No argument below looks into a trimmed text.
attribute [local irreducible] GoText.trimSpace

variable {env : ImportEnv} {start : ImportDb} {orgID : String} {cs : List Claim} {item : ImportItem}

theorem statement_holds {write : ImportDb → Option ImportDb} {P Q : ImportState → Prop}
    (h : ∀ s db, P s → write s.db = some db → Q { s with db }) :
    Holds P (statement write) (fun _ => Q) fun _ => True := by
  refine Holds.get_bind fun s hs => ?_
  cases hw : write s.db with
  | none => exact Holds.throw _ fun _ _ => trivial
  | some db =>
    rintro _ rfl
    exact h s db hs hw

theorem importItem_holds {α : Type} {P : ImportState → Prop} {m : Import α}
    {Q : α → ImportState → Prop} {what : String} (h : Holds P m Q fun _ => True) :
    Holds P (importItem env item what m) Q fun _ => True := by
  rw [importItem]
  split
  · exact Holds.throw _ fun _ _ => trivial
  · intro s hs
    have hm := h s hs
    have hexec : Action.exec (ExceptT.adapt (fun e => what ++ ": " ++ e) m) s =
        ((m.exec s).1.mapError fun e => what ++ ": " ++ e, (m.exec s).2) := rfl
    rw [hexec]
    rcases hend : m.exec s with ⟨e | a, s'⟩
    · trivial
    · rw [hend] at hm
      exact hm

theorem projectRow_ok {db : ImportDb} {p : ProjectImport} {row : ProjectRow}
    (h : projectRow env db orgID item p = .ok row) :
    row.organizationId = orgID ∧ row.id = env.itemId item p.id := by
  rw [projectRow] at h
  split at h
  · cases h
  · cases hteam : env.projectTeam db orgID p with
    | error e =>
      rw [hteam] at h
      cases h
    | ok teamId =>
      rw [hteam] at h
      cases h
      exact ⟨rfl, rfl⟩

/-- An invariant of the import, with what it says of the projects of the organization: of those that
were resolved, and of those that are stored. -/
structure ProjectInvariant (orgID : String) (inv : ImportState → Prop)
    (own : ImportDb → String → Prop) :
    Prop where
  resolved : ∀ s, inv s → ∀ entry ∈ s.projectIDs, own s.db entry.2
  stored : ∀ s, inv s → ∀ p ∈ s.db.projects, p.organizationId = orgID → own s.db p.id
  add : ∀ s slug id, inv s → own s.db id → inv { s with projectIDs := (slug, id) :: s.projectIDs }

section Projects

variable {inv : ImportState → Prop} {own : ImportDb → String → Prop}

theorem ProjectInvariant.resolve (h : ProjectInvariant orgID inv own) (projectSlug : String) :
    Holds inv (resolveImportedProjectID orgID projectSlug) (fun id s => inv s ∧ own s.db id)
      fun _ => True := by
  rw [resolveImportedProjectID]
  split
  · exact Holds.throw _ fun _ _ => trivial
  · refine Holds.get_bind fun s hs => ?_
    cases hcached : (s.projectIDs.lookup projectSlug).filter (· ≠ "") with
    | some id =>
      refine Holds.pure id ?_
      rintro _ rfl
      obtain ⟨hlookup, -⟩ := filter_eq_some_iff.mp hcached
      obtain ⟨before, after, hentries, -⟩ := lookup_eq_some_iff.mp hlookup
      exact ⟨hs, h.resolved s hs (projectSlug, id) (by rw [hentries]; simp)⟩
    | none =>
      cases hfind : s.db.projects.rows.find? fun p =>
          p.organizationId = orgID ∧ p.slug = projectSlug with
      | none => exact Holds.throw _ fun _ _ => trivial
      | some p =>
        rintro _ rfl
        have hp := find?_some hfind
        have hown := h.stored s hs p (mem_of_find?_eq_some hfind) (of_decide_eq_true hp).1
        exact ⟨h.add s projectSlug p.id hs hown, hown⟩

/-- The project that is written is one of the organization. -/
theorem ProjectInvariant.importProject (h : ProjectInvariant orgID inv own) (item : ImportItem)
    (p : ProjectImport) (hwrite : ∀ row : ProjectRow, row.organizationId = orgID →
      row.id = env.itemId item p.id →
        Holds inv (statement (upsertProjectRow row)) (fun _ => inv) fun _ => True) :
    Holds inv (importProject env orgID item p) (fun _ => inv) fun _ => True := by
  have hupsert : Holds inv (upsertProjectImport env orgID item p) (fun id s => inv s ∧ own s.db id)
      fun _ => True := by
    refine (Holds.get (R := fun _ => inv) fun s hs => hs).bind fun s => ?_
    cases hrow : projectRow env s.db orgID item p with
    | error e => exact Holds.throw _ fun _ _ => trivial
    | ok row =>
      obtain ⟨horg, hid⟩ := projectRow_ok hrow
      refine (hwrite row horg hid).bind fun _ => ?_
      refine Holds.get_bind fun s hs => ?_
      cases hfind : s.db.projects.rows.find? row.sameSlug with
      | none => exact Holds.throw _ fun _ _ => trivial
      | some p =>
        refine Holds.pure p.id ?_
        rintro _ rfl
        have hp : row.sameSlug p = true := find?_some hfind
        have hporg := (of_decide_eq_true hp).1.trans horg
        exact ⟨hs, h.stored s hs p (mem_of_find?_eq_some hfind) hporg⟩
  exact (importItem_holds hupsert).bind fun id =>
    Holds.modify _ fun s hs => h.add s p.slug id hs.1 hs.2

end Projects

/-- What holds after the items with the claims `cs`: the claims have been applied to the rows of
others, and the projects that were resolved are not projects of others. -/
structure Claimed (start : ImportDb) (orgID : String) (cs : List Claim)
    (s : ImportState) : Prop where
  rows : othersRows start orgID s.db = (othersRows start orgID start).claims cs
  resolved : ∀ entry ∈ s.projectIDs, start.otherProject orgID entry.2 = false

/-- After the claims `cs`, an action ends with the claims `cs'`. -/
abbrev Claims (start : ImportDb) (orgID : String) (cs : List Claim) {α : Type} (m : Import α)
    (cs' : List Claim) : Prop :=
  Holds (Claimed start orgID cs) m (fun _ => Claimed start orgID cs') fun _ => True

variable {s : ImportState} {db : ImportDb} {α : Type} {f : ImportItem → α → Import PUnit}

section

variable (h : Claimed start orgID cs s)

include h

theorem Claimed.claim {c : Claim}
    (hdb : othersRows start orgID db = (othersRows start orgID s.db).claim c) :
    Claimed start orgID (cs ++ [c]) { s with db } where
  rows := by
    rw [OthersRows.claims_append, ← h.rows]
    exact hdb
  resolved := h.resolved

theorem Claimed.frame (hdb : othersRows start orgID db = othersRows start orgID s.db) :
    Claimed start orgID cs { s with db } := ⟨hdb.trans h.rows, h.resolved⟩

/-- A project of the organization is not a project of another one, now or at the start. -/
theorem Claimed.own_project {p : ProjectRow} (hp : p ∈ s.db.projects)
    (horg : p.organizationId = orgID) : start.otherProject orgID p.id = false := by
  by_contra hother
  rw [Bool.not_eq_false, ImportDb.otherProject, List.any_eq_true] at hother
  obtain ⟨p', hp', hother⟩ := hother
  obtain ⟨horg', hid⟩ := of_decide_eq_true hother
  have hprojects :
      (othersRows start orgID s.db).projects = (othersRows start orgID start).projects := by
    rw [h.rows]
    exact OthersRows.claims_outOfReach OthersRows.projects (fun _ _ => rfl) _ _
  have hmem : p' ∈ (othersRows start orgID s.db).projects := by
    rw [hprojects]
    exact mem_filter.mpr ⟨hp', decide_eq_true horg'⟩
  have heq : p' = p := eq_of_conflict (mem_filter.mp hmem).1 hp (by simp [conflict, hid])
  exact horg' (heq ▸ horg)

/-- A user at the start is still there. -/
theorem Claimed.exists_user {id : String} (hother : start.otherUser orgID id = true) :
    ∃ u ∈ s.db.users, u.id = id := by
  have hstart := hother
  rw [ImportDb.otherUser, Bool.and_eq_true, List.any_eq_true] at hstart
  obtain ⟨⟨u, hu, hid⟩, -⟩ := hstart
  have hid : u.id = id := of_decide_eq_true hid
  have hmem : cs.foldl Claim.onUser u ∈ (othersRows start orgID s.db).users := by
    rw [h.rows, OthersRows.claims_users]
    refine List.mem_map_of_mem (mem_filter.mpr ⟨hu, ?_⟩)
    rw [hid, hother]
  exact ⟨_, (mem_filter.mp hmem).1, by rw [Claim.foldl_onUser_id, hid]⟩

end

theorem claimed_projects : ProjectInvariant orgID (Claimed start orgID cs) fun _ id =>
    start.otherProject orgID id = false where
  resolved _ hs := hs.resolved
  stored _ hs _ hp horg := hs.own_project hp horg
  add _ _ _ hs hid := ⟨hs.rows, forall_mem_cons.mpr ⟨hid, hs.resolved⟩⟩

theorem putArtifactBody_holds (key : String) (body : Body) :
    Claims start orgID cs (putArtifactBody env key body) cs := by
  rw [putArtifactBody]
  split
  · exact Holds.pure _ fun _ hs => hs
  · exact Holds.modify _ fun _ hs => ⟨hs.rows, hs.resolved⟩

theorem upsertProjectRow_frame {db' : ImportDb} {row : ProjectRow}
    (hrow : row.organizationId = orgID) (h : upsertProjectRow row db = some db') :
    othersRows start orgID db' = othersRows start orgID db := by
  obtain ⟨projects, hprojects, rfl⟩ := map_eq_some_iff.mp h
  have hsame : ∀ p, row.sameSlug p = true → p.organizationId = orgID := by
    intro p hp
    rw [(of_decide_eq_true hp).1, hrow]
  have hrows := upsert_filter_of_outside (q := fun p => decide (p.organizationId ≠ orgID))
    hprojects (by simp [hrow]) (fun p hp => by simp [hsame p hp]) (fun p hp => by simp [hsame p hp])
  exact congrArg (fun projects => { othersRows start orgID db with projects }) hrows

variable (item : ImportItem) {projectID : String} {body : Body} (row : DebugFileRow)
  (kind : ImportSection)

theorem importProject_holds (p : ProjectImport) :
    Claims start orgID cs (importProject env orgID item p) cs :=
  claimed_projects.importProject item p fun _ horg _ =>
    statement_holds fun _ _ hs hdb => hs.frame (upsertProjectRow_frame horg hdb)

theorem importRelease_holds (r : ReleaseImport) :
    Claims start orgID cs (importRelease env orgID item r) cs := by
  refine importItem_holds ?_
  rw [upsertReleaseImport]
  split
  · exact Holds.throw _ fun _ _ => trivial
  · refine statement_holds fun s db hs hdb => ?_
    obtain ⟨releases, hreleases, rfl⟩ := map_eq_some_iff.mp hdb
    have hrows := upsert_filter_of_outside (q := fun r => decide (r.organizationId ≠ orgID))
      hreleases (by simp [releaseRow])
      (fun s hs => by simpa [releaseRow] using (of_decide_eq_true hs).1)
      (fun s hs => by simpa [releaseRow] using (of_decide_eq_true hs).1)
    exact hs.frame (congrArg (fun releases => { othersRows start orgID s.db with releases }) hrows)

theorem ne_of_otherProject {projectID' : String} (hown : start.otherProject orgID projectID = false)
    (hother : start.otherProject orgID projectID' = true) : projectID ≠ projectID' := by
  rintro rfl
  rw [hown] at hother
  exact absurd hother (by decide)

theorem importIssue_holds (i : IssueImport) :
    Claims start orgID cs (importIssue env orgID item i) (cs ++ issueClaims env item i) := by
  refine importItem_holds ((claimed_projects.resolve _).bind fun projectID => ?_)
  refine statement_holds ?_
  rintro s _ ⟨hs, hown⟩ ⟨⟩
  refine hs.claim ?_
  rw [OthersRows.claim_group]
  refine congrArg (fun groups => { othersRows start orgID s.db with groups }) ?_
  refine (insertOrReplace_filter (r := issueRow env item projectID i) hown).trans
    (filter_congr fun g hg => ?_)
  have hproject := ne_of_otherProject hown (mem_filter.mp hg).2
  rw [Bool.eq_iff_iff]
  simp [conflict, GroupRow.groupKey, issueRow, hproject]

/-! ### Artifacts -/

theorem normalizeImportedArtifact_ok {a a' : ArtifactImport}
    (h : normalizeImportedArtifact env a body = .ok a') :
    a' = { a with size := body.length, checksum := env.checksumSHA1 body } := by
  rw [normalizeImportedArtifact] at h
  split at h
  · exact absurd h nofun
  · split at h
    · exact absurd h nofun
    · split at h
      · exact absurd h nofun
      · cases h
        rfl

theorem checkArtifact_ok {a a' : ArtifactImport} (h : checkArtifact env a = .ok (a', body)) :
    a' = { a with size := body.length, checksum := env.checksumSHA1 body } := by
  rw [checkArtifact] at h
  cases hbody : decodeArtifactBody env a.bodyBase64 with
  | error e =>
    rw [hbody] at h
    exact absurd h nofun
  | ok body' =>
    rw [hbody] at h
    simp only [bind, Except.bind] at h
    split at h
    · exact absurd h nofun
    · cases hnorm : normalizeImportedArtifact env a body' with
      | error e =>
        rw [hnorm] at h
        exact absurd h nofun
      | ok a'' =>
        rw [hnorm] at h
        cases h
        exact normalizeImportedArtifact_ok hnorm

theorem upsertSourceMapArtifact_holds (row : ArtifactRow)
    (hown : start.otherProject orgID row.projectId = false) :
    Claims start orgID cs (upsertSourceMapArtifact row) cs := by
  refine statement_holds fun s db hs hdb => ?_
  obtain ⟨artifacts, hartifacts, rfl⟩ := map_eq_some_iff.mp hdb
  refine hs.frame (congrArg (fun artifacts => { othersRows start orgID s.db with artifacts }) ?_)
  have htarget : ∀ s : ArtifactRow, decide (s.projectId = row.projectId ∧
      s.releaseVersion = row.releaseVersion ∧ s.name = row.name) = true →
      start.otherProject orgID s.projectId = false := by
    intro s hs
    rw [(of_decide_eq_true hs).1, hown]
  exact upsert_filter_of_outside hartifacts hown htarget htarget

theorem upsertDebugFile_holds {f : DebugFileRow → DebugFileRow}
    (hown : start.otherProject orgID row.projectId = false)
    (hf : ∀ s, (f s).projectId = row.projectId) :
    Claims start orgID cs
      (statement fun db => (db.debugFiles.upsert row (fun s => s.id = row.id) f).map
        fun debugFiles => { db with debugFiles }) (cs ++ [.debugFile row.id]) := by
  refine statement_holds fun s db hs hdb => ?_
  obtain ⟨debugFiles, hdebugFiles, rfl⟩ := map_eq_some_iff.mp hdb
  refine hs.claim ?_
  rw [OthersRows.claim_debugFile]
  refine congrArg (fun debugFiles => { othersRows start orgID s.db with debugFiles }) ?_
  exact upsert_filter hdebugFiles hown fun s _ => by rw [hf, hown]

theorem upsertProGuardArtifact_holds (hown : start.otherProject orgID row.projectId = false) :
    Claims start orgID cs (upsertProGuardArtifact row) (cs ++ [.debugFile row.id]) := by
  rw [upsertProGuardArtifact]
  exact upsertDebugFile_holds row hown fun _ => rfl

theorem upsertDebugFileArtifact_holds (hown : start.otherProject orgID row.projectId = false) :
    Claims start orgID cs (upsertDebugFileArtifact row) (cs ++ [.debugFile row.id]) := by
  rw [upsertDebugFileArtifact]
  exact upsertDebugFile_holds row hown fun _ => rfl

theorem importArtifactBody_holds (hown : start.otherProject orgID projectID = false)
    (a : ArtifactImport) (body : Body) :
    Claims start orgID cs (importArtifactBody env item projectID a body)
      (cs ++ artifactClaims env item a) := by
  rw [importArtifactBody, artifactClaims]
  cases a.artifactKind with
  | attachment =>
    refine (statement_holds fun s db hs hdb => ?_).bind fun _ => putArtifactBody_holds _ _
    obtain ⟨attachments, hattachments, rfl⟩ := map_eq_some_iff.mp hdb
    refine hs.claim ?_
    rw [OthersRows.claim_attachment]
    refine congrArg (fun attachments => { othersRows start orgID s.db with attachments }) ?_
    exact upsert_filter hattachments hown fun _ _ => hown
  | profileRaw =>
    rw [append_nil]
    exact putArtifactBody_holds _ _
  | sourceMap =>
    rw [append_nil]
    exact (upsertSourceMapArtifact_holds (sourceMapRow env item projectID a) hown).bind
      fun _ => putArtifactBody_holds _ _
  | proGuard =>
    exact (upsertProGuardArtifact_holds (proGuardRow env item projectID a) hown).bind
      fun _ => putArtifactBody_holds _ _
  | debugFile =>
    exact (upsertDebugFileArtifact_holds (debugFileRow env item projectID a) hown).bind
      fun _ => putArtifactBody_holds _ _

theorem importArtifact_holds (a : ArtifactImport) :
    Claims start orgID cs (importArtifact env orgID item a) (cs ++ artifactClaims env item a) := by
  refine importItem_holds ((claimed_projects.resolve _).bind fun projectID => ?_)
  refine Holds.assume fun hown => ?_
  cases hcheck : checkArtifact env a with
  | error e => exact Holds.throw _ fun _ _ => trivial
  | ok checked =>
    obtain ⟨a', body⟩ := checked
    have hclaims : artifactClaims env item a' = artifactClaims env item a := by
      rw [checkArtifact_ok hcheck]
      rfl
    rw [← hclaims]
    exact importArtifactBody_holds item hown a' body

/-! ### Events -/

theorem materializeProfile_holds {row : EventRow}
    (hown : start.otherProject orgID row.projectId = false) :
    Holds (fun s => Claimed start orgID cs s ∧ row ∈ s.db.events) (materializeProfile env item row)
      (fun _ => Claimed start orgID cs) fun _ => True := by
  rw [materializeProfile]
  split
  · exact Holds.pure _ fun _ hs => hs.1
  · refine (Holds.modify _ (R := fun _ s => Claimed start orgID cs s ∧ row ∈ s.db.events)
      fun s hs => ⟨⟨hs.1.rows, hs.1.resolved⟩, hs.2⟩).bind fun _ => ?_
    refine (statement_holds (Q := Claimed start orgID cs) ?_).bind fun _ => ?_
    · rintro s db ⟨hs, hmem⟩ hdb
      obtain ⟨events, hevents, rfl⟩ := map_eq_some_iff.mp hdb
      refine hs.frame (congrArg (fun events => { othersRows start orgID s.db with events }) ?_)
      -- The row with this id is the one that was just written.
      have htarget : ∀ e ∈ s.db.events, decide (e.id = row.id) = true →
          start.otherProject orgID e.projectId = false := by
        intro e he hid
        have hrow : e = row := eq_of_conflict he hmem
          (by simp [conflict, of_decide_eq_true hid])
        rw [hrow, hown]
      rw [update_filter hevents htarget, filter_outside htarget]
    · split
      · exact Holds.throw _ fun _ _ => trivial
      · exact Holds.pure _ fun _ hs => hs

theorem importEvent_holds (e : EventImport) :
    Claims start orgID cs (importEvent env orgID item e) (cs ++ eventClaims env item e) := by
  refine importItem_holds ((claimed_projects.resolve _).bind fun projectID => ?_)
  refine Holds.assume fun hown => ?_
  refine (statement_holds (Q := fun s =>
    Claimed start orgID (cs ++ eventClaims env item e) s ∧
      eventRow env item projectID e ∈ s.db.events)
    ?_).bind fun _ => materializeProfile_holds item hown
  rintro s _ hs ⟨⟩
  refine ⟨hs.claim ?_, mem_append_right _ (mem_singleton_self _)⟩
  rw [OthersRows.claim_event]
  refine congrArg (fun events => { othersRows start orgID s.db with events }) ?_
  refine (insertOrReplace_filter (r := eventRow env item projectID e) hown).trans
    (filter_congr fun e' he' => ?_)
  have hproject := ne_of_otherProject hown (mem_filter.mp he').2
  rw [Bool.eq_iff_iff]
  simp [conflict, eventRow, hproject]

/-! ### Project keys, alert rules and members -/

theorem importProjectKey_holds (k : ProjectKeyImport) :
    Claims start orgID cs (importProjectKey env orgID item k) (cs ++ projectKeyClaims item k) := by
  refine importItem_holds ((claimed_projects.resolve _).bind fun projectID => ?_)
  refine Holds.assume fun hown => statement_holds fun s db hs hdb => ?_
  obtain ⟨projectKeys, hkeys, rfl⟩ := map_eq_some_iff.mp hdb
  refine hs.claim ?_
  rw [OthersRows.claim_projectKey]
  refine congrArg (fun projectKeys => { othersRows start orgID s.db with projectKeys }) ?_
  exact upsert_filter hkeys hown fun _ _ => hown

theorem importAlertRule_holds (a : AlertRuleImport) :
    Claims start orgID cs (importAlertRule env orgID item a)
      (cs ++ alertRuleClaims env item a) := by
  refine importItem_holds ((claimed_projects.resolve _).bind fun projectID => ?_)
  refine Holds.assume fun hown => statement_holds fun s db hs hdb => ?_
  obtain ⟨alertRules, hrules, rfl⟩ := map_eq_some_iff.mp hdb
  refine hs.claim ?_
  rw [OthersRows.claim_alertRule]
  refine congrArg (fun alertRules => { othersRows start orgID s.db with alertRules }) ?_
  exact upsert_filter hrules hown fun _ _ => hown

theorem upsertUser_holds (row : UserRow) :
    Claims start orgID cs
      (statement fun db => (db.users.upsert row (fun s => s.id = row.id) row.overwrite).map
        fun users => { db with users }) (cs ++ [.user row]) := by
  refine statement_holds fun s db hs hdb => ?_
  obtain ⟨users, husers, rfl⟩ := map_eq_some_iff.mp hdb
  -- A new user is not one of the others: they are all still in the table.
  have hnew : (∀ u ∈ s.db.users, decide (u.id = row.id) = false) →
      start.otherUser orgID row.id = false := by
    intro hnone
    by_contra hother
    obtain ⟨u, hu, hid⟩ := hs.exists_user (Bool.of_not_eq_false hother)
    exact of_decide_eq_false (hnone u hu) hid
  refine hs.claim ?_
  rw [OthersRows.claim_user]
  refine congrArg (fun users => { othersRows start orgID s.db with users }) ?_
  refine (upsert_filter_map (q := fun u => start.otherUser orgID u.id) husers hnew
    fun u => ?_).trans ?_
  · rfl
  · refine map_congr_left fun u _ => ?_
    simp only [decide_eq_true_eq]

theorem importMember_holds (m : MemberImport) :
    Claims start orgID cs (importMember env orgID item m) (cs ++ memberClaims env item m) := by
  refine importItem_holds ?_
  split
  · exact Holds.throw _ fun _ _ => trivial
  · refine (upsertUser_holds (userRow env item m)).bind fun _ => statement_holds ?_
    intro s db hs hdb
    obtain ⟨members, hmembers, rfl⟩ := map_eq_some_iff.mp hdb
    refine hs.frame (congrArg (fun members => { othersRows start orgID s.db with members }) ?_)
    have htarget : ∀ s : MemberRow,
        decide (s.organizationId = orgID ∧ s.userId = env.itemId item m.id) = true →
          decide (s.organizationId ≠ orgID) = false := by
      intro s hs
      simp [(of_decide_eq_true hs).1]
    exact upsert_filter_of_outside hmembers (by simp [memberRow]) htarget htarget

/-! ## Runs -/

variable (items : List α)

/-- A loop of the import. -/
theorem importSection_loop {I : List (α × ℕ) → ImportState → Prop}
    (h : ∀ before x after, items.zipIdx = before ++ x :: after →
      Holds (I before) (f ⟨kind, x.2⟩ x.1) (fun _ => I (before ++ [x])) fun _ => True) :
    Holds (I []) (importSection kind items f) (fun _ => I items.zipIdx) fun _ => True :=
  Holds.foldlM (I := fun before _ => I before) items.zipIdx PUnit.unit
    fun before x after _ hitems => h before x after hitems

theorem importSection_holds {claims : ImportItem → α → List Claim}
    (h : ∀ item x cs, Claims start orgID cs (f item x) (cs ++ claims item x)) :
    Claims start orgID cs (importSection kind items f) (cs ++ sectionClaims kind items claims) := by
  have hloop := importSection_loop (I := fun before => Claimed start orgID
    (cs ++ before.flatMap fun x => claims ⟨kind, x.2⟩ x.1)) kind items fun before x after _ => by
      rw [flatMap_append, flatMap_singleton, ← append_assoc]
      exact h ⟨kind, x.2⟩ x.1 _
  rwa [flatMap_nil, append_nil] at hloop

/-- A section without claims. -/
theorem importSection_frame (h : ∀ item x, Claims start orgID cs (f item x) cs) :
    Claims start orgID cs (importSection kind items f) cs :=
  importSection_loop (I := fun _ => Claimed start orgID cs) kind items
    fun _ x _ _ => h ⟨kind, x.2⟩ x.1

/-- **Simulation.** A successful import applies the claims of its payload to the rows of others. -/
theorem importOrganizationPayload_claims (env : ImportEnv) (start : ImportDb) (orgID : String)
    (payload : ImportPayload) :
    Claims start orgID [] (importOrganizationPayload env orgID payload) (payload.claims env) := by
  refine (importSection_frame _ _ importProject_holds).bind fun _ => ?_
  refine (importSection_frame _ _ importRelease_holds).bind fun _ => ?_
  refine (importSection_holds _ _ fun item i _ => importIssue_holds item i).bind fun _ => ?_
  refine (importSection_holds _ _ fun item a _ => importArtifact_holds item a).bind fun _ => ?_
  refine (importSection_holds _ _ fun item e _ => importEvent_holds item e).bind fun _ => ?_
  refine (importSection_holds _ _ fun item k _ => importProjectKey_holds item k).bind fun _ => ?_
  refine (importSection_holds _ _ fun item a _ => importAlertRule_holds item a).bind fun _ => ?_
  exact importSection_holds _ _ fun item m _ => importMember_holds item m

end Items

/-! ## Isolation -/

/-- The import claims no row of others, and claims users of others only to leave them as they
are. -/
def ImportPayload.ClaimsNoOther (env : ImportEnv) (orgID : String) (payload : ImportPayload)
    (db : ImportDb) : Prop := (othersRows db orgID db).Unclaimed (payload.claims env)

/-- **Isolation.** An import that fails leaves every row as it was. An import that succeeds leaves
the rows of others as they were if and only if it claims none of them. -/
theorem importOrganization_isolated_iff (env : ImportEnv) (orgID : String) (payload : ImportPayload)
    (db : ImportDb) (blobs : String → Option Body) :
    (∀ e, (importOrganization env orgID payload db blobs).1 = .error e →
      (importOrganization env orgID payload db blobs).2.1 = db) ∧
    (∀ result, (importOrganization env orgID payload db blobs).1 = .ok result →
      (OthersUnchanged db orgID (importOrganization env orgID payload db blobs).2.1 ↔
        payload.ClaimsNoOther env orgID db)) := by
  have hstart : Claimed db orgID [] { db, blobs } := ⟨rfl, nofun⟩
  rw [importOrganization]
  cases env.beginFails with
  | some e => exact ⟨fun _ _ => rfl, nofun⟩
  | none =>
    rcases hend : (importOrganizationPayload env orgID payload).exec { db, blobs } with ⟨e | _, s⟩
    · exact ⟨fun _ _ => rfl, nofun⟩
    · cases env.commitFails with
      | some e => exact ⟨fun _ _ => rfl, nofun⟩
      | none =>
        refine ⟨nofun, fun result _ => ?_⟩
        have hrows :=
          ((importOrganizationPayload_claims env db orgID payload).of_ok hstart hend).rows
        rw [ImportPayload.ClaimsNoOther, ← OthersRows.claims_eq_self_iff, ← hrows]
        rfl

/-- Surroundings in which nothing fails. -/
def quietEnv : ImportEnv where
  lib := asciiLib
  newId item := "new-" ++ toString item.index
  newMembershipId index := "member-" ++ toString index
  now _ := ⟨0⟩
  decodeBase64 text := some (text.toList.map fun c => .ofNat c.toNat)
  checksumSHA1 _ := ""
  tagsJson _ := ""
  ruleJson _ := ""
  parseTime _ := ⟨0⟩
  bytes text := text.toList.map fun c => .ofNat c.toNat
  guessProfileID _ eventId _ := eventId

/-- Two organizations, each with a project `web`; the second has a key. -/
def twoOrganizations : ImportDb where
  teams := .empty
  projects := ⟨[{ id := "p1", organizationId := "a", slug := "web" },
    { id := "p2", organizationId := "b", slug := "web" }], by decide⟩
  releases := .empty
  groups := .empty
  attachments := .empty
  artifacts := .empty
  debugFiles := .empty
  events := .empty
  projectKeys := ⟨[{ id := "k", projectId := "p2", publicKey := "public" }], by decide⟩
  alertRules := .empty
  users := .empty
  members := .empty

/-- A payload with one key for the project `web`. -/
def oneKey (publicKey : String) : ImportPayload where
  projectKeys := [{ projectSlug := "web", publicKey := publicKey }]

theorem new_key_leaves_others :
    (importOrganization quietEnv "a" (oneKey "other") twoOrganizations fun _ => none).1 =
      .ok (oneKey "other").result ∧
    OthersUnchanged twoOrganizations "a"
      (importOrganization quietEnv "a" (oneKey "other") twoOrganizations fun _ => none).2.1 := by
  have hok : (importOrganization quietEnv "a" (oneKey "other") twoOrganizations fun _ => none).1 =
      .ok (oneKey "other").result := by rfl
  refine ⟨hok, ((importOrganization_isolated_iff _ _ _ _ _).2 _ hok).mpr ?_⟩
  exact (OthersRows.claims_eq_self_iff _ _).mp (by decide +kernel)

/-- The public key of another organization moves to the importing one. -/
theorem known_key_taken_over :
    (importOrganization quietEnv "a" (oneKey "public") twoOrganizations fun _ => none).1 =
      .ok (oneKey "public").result ∧
    ¬OthersUnchanged twoOrganizations "a"
      (importOrganization quietEnv "a" (oneKey "public") twoOrganizations fun _ => none).2.1 := by
  refine ⟨by rfl, ?_⟩
  rw [OthersUnchanged]
  decide +kernel

end Urgentry
