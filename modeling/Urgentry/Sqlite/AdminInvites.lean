import Urgentry.Internal.Run
import Urgentry.Sqlite.AuthStore

/-!
# Invitations

`admin_store.go`: an invitation is a row of `member_invites`. `AcceptInvite` reads the row by its
token, looks at its status, and then, in a transaction, creates or updates the user, makes the user
a member, and marks the row as accepted. `RevokeInvite` marks the row as revoked.

The status is read *before* the transaction, and the transaction does not look at it again: its last
statement is `UPDATE member_invites SET status = 'accepted' … WHERE id = ?`. Between the two,
another call can accept or revoke the invitation.

## Runs

A call of `AcceptInvite` is two steps, the read and the transaction, which either commits or is
rolled back; `RevokeInvite` is one. Any number of calls, for any invitations, interleave. What the
calls reported is kept as a list of events.

## Main results

* `InviteServer.run_once_iff`: in every run, no invitation is accepted twice or after it was
  revoked, if and only if every transaction that commits finds its invitation still pending; and
  only a transaction that commits changes users, credentials or memberships. -/

namespace Urgentry

open SqlTable Trace List Option

/-! ## Tables -/

/-- The values of `member_invites.status`. -/
inductive InviteStatus
  | pending
  | accepted
  | revoked
deriving DecidableEq

/-- A row of `member_invites`. -/
structure InviteRow where
  (id organizationId : String)
  teamId : Option String := none
  (email role tokenPrefix tokenHash : String)
  status : InviteStatus := .pending
  invitedByUserId : Option String := none
  createdAt : Option String := none
  expiresAt : Option String := none
  acceptedAt : Option String := none
  acceptedByUserId : Option String := none
deriving DecidableEq

/-- `PRIMARY KEY (id)`, `UNIQUE (token_prefix)` and `UNIQUE (token_hash)`. -/
instance : Schema InviteRow where
  conflict r s := r.id == s.id || r.tokenPrefix == s.tokenPrefix || r.tokenHash == s.tokenHash
  conflict_comm r s := by simp only [Bool.beq_comm]

/-- A row of `user_password_credentials`. -/
structure CredentialRow where
  (userId passwordHash passwordAlgo : String)
  passwordUpdatedAt : Option String
deriving DecidableEq

instance : Schema CredentialRow := .ofKey (·.userId)

/-- A row of `team_members`. -/
structure TeamMemberRow where
  (id teamId userId role : String)
  createdAt : Option String := none
deriving DecidableEq

/-- `PRIMARY KEY (id)` and `UNIQUE (team_id, user_id)`. -/
instance : Schema TeamMemberRow where
  conflict r s := r.id == s.id || (r.teamId == s.teamId && r.userId == s.userId)
  conflict_comm r s := by simp only [Bool.beq_comm]

/-- The accounts of an installation. -/
structure Accounts where
  users : Table UserRow
  credentials : Table CredentialRow
  members : Table MemberRow
  teamMembers : Table TeamMemberRow

/-- The tables that invitations read and write. -/
structure InviteDb where
  organizations : Table OrganizationRow
  teams : Table TeamRow
  invites : Table InviteRow
  accounts : Accounts

/-- The invitation is pending. -/
def InviteDb.Pending (db : InviteDb) (inviteID : String) : Prop :=
  ∃ r ∈ db.invites.rows, r.id = inviteID ∧ r.status = .pending
deriving Decidable

/-- `UPDATE member_invites SET …`, where the keys stay. -/
def updateInvites (p : InviteRow → Bool) (status : InviteStatus) (f : InviteRow → InviteRow)
    (hf : ∀ r, (f r).id = r.id ∧ (f r).tokenPrefix = r.tokenPrefix ∧ (f r).tokenHash = r.tokenHash)
    (invites : Table InviteRow) : Table InviteRow :=
  invites.map (fun r => if p r then { f r with status } else r) fun s u => by
    obtain ⟨hid, hprefix, hhash⟩ := hf s
    show ((if p s then { f s with status } else s).id == u.id || _ || _) = _
    split
    · rw [hid, hprefix, hhash]
      rfl
    · rfl

/-! ## Revoking -/

/-- `RevokeInvite`: the database afterwards, and the answer. -/
def revokeInvite (orgSlug inviteID : String) (db : InviteDb) : InviteDb × Bool :=
  let orgID := (db.organizations.rows.find? fun o => o.slug = orgSlug).map (·.id)
  let hit (r : InviteRow) : Bool := r.id = inviteID ∧ some r.organizationId = orgID
  ({ db with invites := updateInvites hit .revoked id (fun _ => ⟨rfl, rfl, rfl⟩) db.invites },
    db.invites.rows.any hit)

/-! ## Accepting -/

/-- What the calls take from their surroundings. -/
structure InviteEnv where
  /-- `hashToken`. -/
  hashToken : String → String
  /-- `parseTime`; a text that is not a timestamp is the zero time. -/
  parseTime : String → Time
  /-- `bcrypt.GenerateFromPassword`. -/
  bcrypt : String → Option String

/-- The errors of the read. -/
inductive InviteError
  | notFound
  | consumed
  | expired
deriving DecidableEq

/-- The text of an error. -/
def InviteError.message : InviteError → String
  | .notFound => "invite not found"
  | .consumed => "invite already accepted"
  | .expired => "invite expired"

/-- What `AcceptInvite` keeps of the row: `InviteRecord`. -/
structure InviteRecord where
  (id organizationId organizationSlug teamId teamSlug email role : String)
deriving DecidableEq

/-- The record of a row, by the joins with `organizations` and `teams`. -/
def InviteDb.record (db : InviteDb) (r : InviteRow) : Option InviteRecord :=
  (db.organizations.rows.find? fun o => o.id = r.organizationId).map fun o =>
    { id := r.id
      organizationId := r.organizationId
      organizationSlug := o.slug
      teamId := r.teamId.getD ""
      teamSlug := ((db.teams.rows.find? fun t => some t.id = r.teamId).map (·.slug)).getD ""
      email := r.email
      role := r.role }

variable (env : InviteEnv)

/-- The invitation has expired. -/
def InviteRow.expired (now : Time) (r : InviteRow) : Bool :=
  let text := r.expiresAt.getD ""
  text ≠ "" ∧ (env.parseTime text).ns ≠ 0 ∧ (env.parseTime text).ns < now.ns

/-- The read of `AcceptInvite`. -/
def readInvite (rawToken : String) (now : Time) (db : InviteDb) : Except InviteError InviteRecord :=
  let rawToken := GoText.trimSpace rawToken
  if rawToken.utf8ByteSize < 32 then .error .notFound
  else match db.invites.rows.find? fun r => r.tokenHash = env.hashToken rawToken with
    | none => .error .notFound
    | some r =>
      match db.record r with
      | none => .error .notFound
      | some invite =>
        if r.status ≠ .pending then .error .consumed
        else if r.expired env now then .error .expired
        else .ok invite

/-- What the caller of `AcceptInvite` gives, and what its transaction draws. -/
structure AcceptInput where
  (displayName password newUserId : String)
  /-- The id of which a generated password is made. -/
  (newPasswordId newMemberId newTeamMemberId : String)
  now : Time
deriving DecidableEq

/-- `InviteAcceptanceResult`. -/
structure InviteAcceptanceResult where
  invite : InviteRecord
  (userId email displayName temporaryPassword : String)
deriving DecidableEq

variable (inp : AcceptInput) (invite : InviteRecord)

/-- The display name of the user. -/
def AcceptInput.name : String :=
  let name := GoText.trimSpace inp.displayName
  if name ≠ "" then name
  else
    let start := String.ofList (invite.email.toList.takeWhile (· ≠ '@'))
    if start = "" then "Member" else start

/-- SQLite's `lower`. -/
def sqliteLower (s : String) : String := String.ofList (s.toList.map Char.toLower)

/-- The password of a new user. -/
def AcceptInput.newPassword : String :=
  if inp.password = "" then
    "urgentry-" ++ String.ofList (inp.newPasswordId.toList.take 20)
  else inp.password

/-- The upsert of a password. -/
def setPassword (userId password : String) (now : Time) (a : Accounts) : Option Accounts := do
  let hash ← env.bcrypt password
  let row : CredentialRow := ⟨userId, hash, "bcrypt", some now.rfc3339⟩
  let credentials ← a.credentials.upsert row (fun s => s.userId = userId) fun _ => row
  return { a with credentials }

variable (a : Accounts)

/-- The new user. -/
def createUser : Option (Accounts × UserRow) := do
  let user : UserRow := {
    id := inp.newUserId
    email := invite.email
    displayName := inp.name invite
    isActive := 1
    createdAt := some inp.now.rfc3339
    updatedAt := some inp.now.rfc3339 }
  let users ← a.users.insert user
  let a ← setPassword env user.id inp.newPassword inp.now { a with users }
  return (a, user)

/-- The user who is there already: a new name and a new password are stored. -/
def updateUser (user : UserRow) (a : Accounts) : Option (Accounts × UserRow) := do
  let named := { user with displayName := inp.name invite, updatedAt := some inp.now.rfc3339 }
  let users ←
    if inp.name invite ≠ user.displayName then
      a.users.update (fun s => s.id = user.id) fun s =>
        { s with displayName := inp.name invite, updatedAt := some inp.now.rfc3339 }
    else some a.users
  let a ←
    if inp.password ≠ "" then setPassword env user.id inp.password inp.now { a with users }
    else some { a with users }
  return (a, if inp.name invite ≠ user.displayName then named else user)

/-- The memberships of the user. -/
def addMemberships (userId : String) (a : Accounts) : Option Accounts := do
  let member : MemberRow :=
    ⟨inp.newMemberId, invite.organizationId, userId, invite.role, some inp.now.rfc3339⟩
  let members ← a.members.upsert member
    (fun s => s.organizationId = member.organizationId ∧ s.userId = member.userId)
    fun s => { s with role := member.role }
  let teamMember : TeamMemberRow :=
    ⟨inp.newTeamMemberId, invite.teamId, userId, "member", some inp.now.rfc3339⟩
  let teamMembers ←
    if invite.teamId ≠ "" then
      a.teamMembers.upsert teamMember
        (fun s => s.teamId = teamMember.teamId ∧ s.userId = teamMember.userId)
        fun s => { s with role := teamMember.role }
    else some a.teamMembers
  return { a with members, teamMembers }

/-- The user who has the email already. -/
def existingUser : Option UserRow :=
  a.users.rows.find? fun u => sqliteLower u.email = sqliteLower invite.email

/-- The user who accepts. -/
def acceptingUser : Option (Accounts × UserRow) :=
  match existingUser invite a with
  | none => createUser env inp invite a
  | some user => updateUser env inp invite user a

/-- The transaction of `AcceptInvite`, when all of its calls succeed; `none` when a row would break
a constraint. -/
def acceptInvite (db : InviteDb) : Option (InviteDb × InviteAcceptanceResult) := do
  let accepting ← acceptingUser env inp invite db.accounts
  let user := accepting.2
  let accounts ← addMemberships inp invite user.id accepting.1
  let invites := updateInvites (fun r => r.id = invite.id) .accepted
    (fun r => { r with acceptedByUserId := some user.id, acceptedAt := some inp.now.rfc3339 })
    (fun _ => ⟨rfl, rfl, rfl⟩) db.invites
  let existing := existingUser invite db.accounts
  return ({ db with accounts, invites },
    { invite
      userId := user.id
      email := user.email
      displayName := user.displayName
      temporaryPassword := if existing.isNone then inp.newPassword else "" })

/-! ## Runs -/

/-- What a call reported. -/
inductive InviteEvent
  | accepted (inviteID : String)
  | revoked (inviteID : String)
deriving DecidableEq

/-- A call of `AcceptInvite` between its read and its transaction. -/
structure AcceptCall where
  invite : InviteRecord
  (displayName password : String)
deriving DecidableEq

/-- The database, the calls in progress, and what was reported, latest first. -/
structure InviteServer where
  db : InviteDb
  calls : List AcceptCall
  log : List InviteEvent

/-- What can happen. -/
inductive InviteAction
  /-- The read of a call. -/
  | read (rawToken displayName password : String) (now : Time)
  /-- The transaction of a call commits. -/
  | commit (c : AcceptCall) (inp : AcceptInput)
  /-- The transaction of a call fails and is rolled back. -/
  | rollback (c : AcceptCall)
  | revoke (orgSlug inviteID : String)

namespace InviteServer

/-- The database, with no calls. -/
def start (db : InviteDb) : InviteServer := ⟨db, [], []⟩

variable (env : InviteEnv) (s : InviteServer)

/-- One step. -/
def step : InviteAction → Option InviteServer
  | .read rawToken displayName password now =>
    match readInvite env rawToken now s.db with
    | .error _ => some s
    | .ok invite => some { s with calls := ⟨invite, displayName, password⟩ :: s.calls }
  | .commit c inp =>
    if c ∈ s.calls ∧ inp.displayName = c.displayName ∧ inp.password = c.password then
      (acceptInvite env inp c.invite s.db).map fun (db, _) =>
        { db, calls := s.calls.erase c, log := .accepted c.invite.id :: s.log }
    else none
  | .rollback c => if c ∈ s.calls then some { s with calls := s.calls.erase c } else none
  | .revoke orgSlug inviteID =>
    let (db, done) := revokeInvite orgSlug inviteID s.db
    some { s with db, log := if done then .revoked inviteID :: s.log else s.log }

/-- The later event may follow the earlier one. -/
def MayFollow (later earlier : InviteEvent) : Prop :=
  ∀ inviteID, later = .accepted inviteID →
    earlier ≠ .accepted inviteID ∧ earlier ≠ .revoked inviteID

/-- **The property.** No invitation was accepted twice, and none after it was revoked. -/
def Once : Prop := s.log.Pairwise MayFollow

/-- **The condition.** A transaction that commits finds its invitation still pending. -/
def FindsPending : InviteAction → Prop
  | .commit c _ => s.db.Pending c.invite.id
  | _ => True

instance (s : InviteServer) (a : InviteAction) : Decidable (s.FindsPending a) :=
  match a with
  | .commit c _ => inferInstanceAs (Decidable (s.db.Pending c.invite.id))
  | .read _ _ _ _ | .rollback _ | .revoke _ _ => .isTrue trivial

/-! ### Steps -/

/-- The invitation was accepted or revoked in this run. -/
def Settled (inviteID : String) : Prop :=
  .accepted inviteID ∈ s.log ∨ .revoked inviteID ∈ s.log

/-- What is carried along a run: a settled invitation is not pending, and the invitation of a call
was pending when it was read, so it is pending or settled. -/
structure Consistent : Prop where
  once : s.Once
  settled : ∀ inviteID, s.Settled inviteID → ¬s.db.Pending inviteID
  calls : ∀ c ∈ s.calls, s.db.Pending c.invite.id ∨ s.Settled c.invite.id

variable {env} {s t : InviteServer} {a : InviteAction} {db db' : InviteDb} {invite : InviteRecord}
  {inviteID rawToken orgSlug : String} {now : Time} {inp : AcceptInput}
  {result : InviteAcceptanceResult} {c : AcceptCall} {done : Bool}

theorem pending_of_readInvite (h : readInvite env rawToken now db = .ok invite) :
    db.Pending invite.id := by
  rw [readInvite] at h
  split at h
  · exact absurd h nofun
  · split at h
    · exact absurd h nofun
    · next r hr =>
      split at h
      · exact absurd h nofun
      · next hrecord =>
        obtain ⟨o, -, rfl⟩ := map_eq_some_iff.mp hrecord
        split at h
        · exact absurd h nofun
        · next hpending =>
          split at h
          · exact absurd h nofun
          · cases h
            exact ⟨r, mem_of_find?_eq_some hr, rfl, not_not.mp hpending⟩

/-- An update that does not make invitations pending leaves those pending that it does not hit. -/
theorem pending_updateInvites {p : InviteRow → Bool} {status : InviteStatus}
    {f : InviteRow → InviteRow} {hf : ∀ r, (f r).id = r.id ∧ (f r).tokenPrefix = r.tokenPrefix ∧
      (f r).tokenHash = r.tokenHash}
    (hstatus : status ≠ .pending) (inviteID : String) :
    ({ db with invites := updateInvites p status f hf db.invites } : InviteDb).Pending inviteID ↔
      ∃ r ∈ db.invites.rows, r.id = inviteID ∧ r.status = .pending ∧ p r = false := by
  constructor
  · rintro ⟨r, hr, hid, hpending⟩
    obtain ⟨u, hu, rfl⟩ := mem_map.mp hr
    cases hp : p u with
    | true =>
      simp only [hp] at hpending
      exact absurd hpending hstatus
    | false =>
      simp only [hp] at hid hpending
      exact ⟨u, hu, hid, hpending, hp⟩
  · rintro ⟨r, hr, hid, hpending, hp⟩
    refine ⟨r, mem_map.mpr ⟨r, hr, ?_⟩, hid, hpending⟩
    rw [hp]
    rfl

/-- What a transaction that commits does to the invitations. -/
theorem invites_of_acceptInvite (h : acceptInvite env inp invite db = some (db', result))
    (inviteID : String) : db'.Pending inviteID ↔ db.Pending inviteID ∧ inviteID ≠ invite.id := by
  rw [acceptInvite] at h
  obtain ⟨⟨accounts, user⟩, -, h⟩ := bind_eq_some_iff.mp h
  obtain ⟨accounts, -, h⟩ := bind_eq_some_iff.mp h
  cases h
  refine (pending_updateInvites (by decide) inviteID).trans ⟨?_, ?_⟩
  · rintro ⟨r, hr, rfl, hpending, hp⟩
    exact ⟨⟨r, hr, rfl, hpending⟩, of_decide_eq_false hp⟩
  · rintro ⟨⟨r, hr, rfl, hpending⟩, hne⟩
    exact ⟨r, hr, rfl, hpending, decide_eq_false hne⟩

theorem Consistent.read {displayName password : String} (h : s.Consistent)
    (hread : readInvite env rawToken now s.db = .ok invite) :
    ({ s with calls := ⟨invite, displayName, password⟩ :: s.calls } : InviteServer).Consistent where
  once := h.once
  settled := h.settled
  calls := by
    rintro c (_ | ⟨_, hc⟩)
    · exact .inl (pending_of_readInvite hread)
    · exact h.calls c hc

theorem Consistent.rollback (h : s.Consistent) :
    ({ s with calls := s.calls.erase c } : InviteServer).Consistent :=
  ⟨h.once, h.settled, fun c' hc' => h.calls c' (mem_of_mem_erase hc')⟩

/-- An acceptance may follow if its invitation is not settled. -/
theorem once_accepted_iff (h : s.Once)
    (hlog : t.log = .accepted inviteID :: s.log) : t.Once ↔ ¬s.Settled inviteID := by
  rw [Once, hlog, pairwise_cons]
  constructor
  · rintro ⟨hfollow, -⟩ (hmem | hmem)
    · exact (hfollow _ hmem inviteID rfl).1 rfl
    · exact (hfollow _ hmem inviteID rfl).2 rfl
  · intro hsettled
    refine ⟨?_, h⟩
    rintro e he _ ⟨⟩
    constructor
    · rintro rfl
      exact hsettled (.inl he)
    · rintro rfl
      exact hsettled (.inr he)

/-- **An invitation is settled**: it is not pending any more, and the others stay as they are. -/
theorem Consistent.settle {e : InviteEvent} {calls : List AcceptCall} (h : s.Consistent)
    (he : e = .accepted inviteID ∨ e = .revoked inviteID)
    (hdb : ∀ other, db.Pending other ↔ s.db.Pending other ∧ other ≠ inviteID)
    (hcalls : calls ⊆ s.calls) (honce : (e :: s.log).Pairwise MayFollow) :
    InviteServer.Consistent ⟨db, calls, e :: s.log⟩ where
  once := honce
  settled := by
    intro other hsettled hpend
    obtain ⟨hpend, hne⟩ := (hdb other).mp hpend
    refine h.settled other ?_ hpend
    simp only [Settled] at hsettled ⊢
    grind
  calls := by
    intro c hc
    by_cases hid : c.invite.id = inviteID
    · subst hid
      rcases he with rfl | rfl
      exacts [.inr (.inl mem_cons_self), .inr (.inr mem_cons_self)]
    · exact (h.calls c (hcalls hc)).imp (fun hpend => (hdb _).mpr ⟨hpend, hid⟩) fun hsettled =>
        hsettled.imp (mem_cons_of_mem _) (mem_cons_of_mem _)

theorem Consistent.commit (h : s.Consistent) (hpending : s.db.Pending c.invite.id)
    (hcommit : acceptInvite env inp c.invite s.db = some (db, result)) :
    InviteServer.Consistent
      { db, calls := s.calls.erase c, log := .accepted c.invite.id :: s.log } :=
  h.settle (.inl rfl) (invites_of_acceptInvite hcommit) erase_subset <|
    (once_accepted_iff (t := ⟨db, [], _⟩) h.once rfl).mpr fun hsettled =>
      h.settled _ hsettled hpending

/-- What a revocation does to the invitations: if it reports success, this one is not pending. -/
theorem pending_revokeInvite (h : revokeInvite orgSlug inviteID db = (db', done)) (other : String) :
    db'.Pending other ↔ db.Pending other ∧ ¬(done = true ∧ other = inviteID) := by
  cases h
  refine (pending_updateInvites (by decide) other).trans ⟨?_, ?_⟩
  · rintro ⟨r, hr, rfl, hpending, hp⟩
    refine ⟨⟨r, hr, rfl, hpending⟩, ?_⟩
    rintro ⟨hany, rfl⟩
    obtain ⟨u, hu, hhit⟩ := any_eq_true.mp hany
    obtain ⟨hid, horg⟩ := of_decide_eq_true hhit
    have heq : u = r := Table.eq_of_conflict hu hr (by simp [Schema.conflict, hid])
    rw [heq] at horg
    exact of_decide_eq_false hp ⟨rfl, horg⟩
  · rintro ⟨⟨r, hr, rfl, hpending⟩, hnot⟩
    refine ⟨r, hr, rfl, hpending, decide_eq_false ?_⟩
    rintro ⟨rfl, horg⟩
    exact hnot ⟨any_eq_true.mpr ⟨r, hr, decide_eq_true ⟨rfl, horg⟩⟩, rfl⟩

theorem Consistent.revoke (h : s.Consistent)
    (hrevoke : revokeInvite orgSlug inviteID s.db = (db, done)) :
    ({ s with db, log := if done then .revoked inviteID :: s.log else s.log } :
      InviteServer).Consistent := by
  have hdb := pending_revokeInvite hrevoke
  cases done with
  | false =>
    simp only [Bool.false_eq_true, false_and, not_false_eq_true, and_true] at hdb
    exact ⟨h.once, fun other hsettled hpend => h.settled other hsettled ((hdb other).mp hpend),
      fun c hc => (h.calls c hc).imp_left (hdb _).mpr⟩
  | true =>
    simp only [true_and] at hdb
    refine h.settle (.inr rfl) hdb (fun _ hc => hc) (pairwise_cons.mpr ⟨?_, h.once⟩)
    rintro e - _ ⟨⟩

/-- **A step that meets the condition keeps the invariant.** -/
theorem Consistent.step (h : s.Consistent) (hok : s.FindsPending a)
    (hstep : step env s a = some t) : t.Consistent := by
  cases a with
  | read rawToken displayName password now =>
    rw [InviteServer.step] at hstep
    split at hstep
    · cases hstep
      exact h
    · next hread =>
      cases hstep
      exact h.read hread
  | commit c inp =>
    obtain ⟨-, hsome⟩ := ite_none_right_eq_some.mp hstep
    obtain ⟨⟨db, result⟩, hcommit, rfl⟩ := map_eq_some_iff.mp hsome
    exact h.commit hok hcommit
  | rollback c =>
    obtain ⟨-, ⟨⟩⟩ := ite_none_right_eq_some.mp hstep
    exact h.rollback
  | revoke orgSlug inviteID =>
    cases hstep
    exact h.revoke rfl

/-- **A transaction that does not find its invitation pending breaks the property.** -/
theorem not_once_of_step (h : s.Consistent) (hbad : ¬s.FindsPending a)
    (hstep : step env s a = some t) : ¬t.Once := by
  cases a with
  | commit c inp =>
    obtain ⟨hc, hsome⟩ := ite_none_right_eq_some.mp hstep
    obtain ⟨⟨db, result⟩, -, rfl⟩ := map_eq_some_iff.mp hsome
    rw [once_accepted_iff h.once rfl, not_not]
    exact (h.calls c hc.1).resolve_left hbad
  | _ => exact absurd trivial hbad

/-- Only a transaction that commits changes accounts. -/
theorem accounts_of_step (hstep : step env s a = some t) :
    t.db.accounts = s.db.accounts ∨ ∃ inviteID, t.log = .accepted inviteID :: s.log := by
  cases a with
  | read rawToken displayName password now =>
    rw [InviteServer.step] at hstep
    split at hstep
    · cases hstep
      exact .inl rfl
    · cases hstep
      exact .inl rfl
  | commit c inp =>
    obtain ⟨-, hsome⟩ := ite_none_right_eq_some.mp hstep
    obtain ⟨⟨db, result⟩, -, rfl⟩ := map_eq_some_iff.mp hsome
    exact .inr ⟨c.invite.id, rfl⟩
  | rollback c =>
    obtain ⟨-, ⟨⟩⟩ := ite_none_right_eq_some.mp hstep
    exact .inl rfl
  | revoke orgSlug inviteID =>
    cases hstep
    exact .inl rfl

/-- **Once.** In every run, no invitation is accepted twice or after it was revoked, if and only if
every transaction that commits finds its invitation pending. A step that does not accept an
invitation changes no account. -/
theorem run_once_iff {db : InviteDb} {trace : List (InviteServer × InviteAction)}
    (run : Run (step env) (start db) trace t) :
    ((∀ u ∈ visited trace t, u.Once) ↔ ∀ p ∈ trace, p.1.FindsPending p.2) ∧
    ∀ s a u, step env s a = some u →
      u.db.accounts = s.db.accounts ∨ ∃ inviteID, u.log = .accepted inviteID :: s.log := by
  have hstart : (start db).Consistent := ⟨.nil, fun _ h => by simp [start, Settled] at h, nofun⟩
  exact ⟨run.safe_iff hstart Consistent.step Consistent.once not_once_of_step,
    fun _ _ _ => accounts_of_step⟩

/-! ### A pending invitation -/

/-- An installation where the hash of a token is the token, and no timestamp is parsed. -/
def plainEnv : InviteEnv := ⟨id, fun _ => ⟨0⟩, some⟩

def token : String := "0123456789abcdef0123456789abcdef"

/-- One organization with one pending invitation. -/
def oneInvite : InviteDb where
  organizations := ⟨[{ id := "o", slug := "acme" }], by decide⟩
  teams := ⟨[], .nil⟩
  invites := ⟨[{
    id := "i"
    organizationId := "o"
    email := "mail"
    role := "member"
    tokenPrefix := "01234567"
    tokenHash := token }], by decide⟩
  accounts := ⟨⟨[], .nil⟩, ⟨[], .nil⟩, ⟨[], .nil⟩, ⟨[], .nil⟩⟩

/-- The call that has read the invitation. -/
def theCall : AcceptCall where
  invite := ⟨"i", "o", "acme", "", "", "mail", "member"⟩
  displayName := "name"
  password := "secret"

/-- Its transaction. -/
def theCommit : InviteAction :=
  .commit theCall ⟨"name", "secret", "u", "v", "m", "n", ⟨0⟩⟩

def theRead : InviteAction := .read token "name" "secret" ⟨0⟩

theorem acceptedRun_once : ∃ trace t,
    Run (step plainEnv) (start oneInvite) trace t ∧ t.log = [.accepted "i"] ∧
      ∀ u ∈ visited trace t, u.Once :=
  exists_run_and FindsPending [theRead, theCommit] (by decide +kernel)
    fun hrun hpending => (run_once_iff hrun).1.mpr hpending

/-- **Accepted after it was revoked.** The invitation is revoked between the read and the
transaction of a call; the call then creates the user and the membership, and reports success. -/
theorem revokedRun_accepted : ∃ trace t,
    Run (step plainEnv) (start oneInvite) trace t ∧ t.log = [.accepted "i", .revoked "i"] ∧
      t.db.accounts.users.rows.map (·.id) = ["u"] ∧
      t.db.accounts.members.rows.map (·.userId) = ["u"] ∧ ¬t.Once := by
  obtain ⟨trace, t, hrun, hlog, husers, hmembers⟩ : ∃ trace t,
      Run (step plainEnv) (start oneInvite) trace t ∧ t.log = [.accepted "i", .revoked "i"] ∧
      t.db.accounts.users.rows.map (·.id) = ["u"] ∧
      t.db.accounts.members.rows.map (·.userId) = ["u"] :=
    exists_run [theRead, .revoke "acme" "i", theCommit] (by decide +kernel)
  refine ⟨trace, t, hrun, hlog, husers, hmembers, fun honce => ?_⟩
  rw [Once, hlog, pairwise_cons] at honce
  exact (honce.1 _ mem_cons_self "i" rfl).2 rfl

end InviteServer

end Urgentry
