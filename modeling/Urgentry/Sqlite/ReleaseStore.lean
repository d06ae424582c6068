import Urgentry.Internal.Run
import Urgentry.Issue.Processor
import Urgentry.Sqlite.AuthStore
import Mathlib.Data.List.Nodup

/-!
# The order of releases

A release is a text that a client chose, so the only order of releases is the order in which they
arrived. `ReleaseIsAtOrAfter` reads it off the table: it compares the texts of `created_at`, and the
rowids where those are equal. The processor uses the answer to decide whether an event reopens an
issue that was resolved in the next release.

## Two writers

`CreateRelease` writes `created_at` as Go does, and `EnsureRelease` leaves it to the default of the
column, which is SQLite's. Between releases of one writer the texts compare as instants. Between the
two only the dates count, and on one date SQLite's text is the smaller one. So a release that is
created over the API and then followed by one that an event brings on the same day comes out as the
later of the two. Nothing else disturbs the order of the rows: rowids are reused only when the last
row is deleted, so along the table they increase.

The names are the other half. `ReleaseIsAtOrAfter` trims its arguments and `EnsureRelease` trims
what it stores, while `CreateRelease` stores the text of the request. A release with space around
its name is stored under a name that is never looked up.

## Main results

* `InsertionOrder.of_indices`: a relation that follows the indices of a list without repetitions is
  a total order.
* `Releases.run_ordered_iff`: the releases of every organization are ordered by insertion in every
  state of a run, and so are the regressions, if and only if every insertion meets the condition.
-/

namespace Urgentry

open SqlTable Trace GoText List Option Schema Table

/-! ## Orders by insertion -/

section Insertion

variable {α : Type*} {R : α → α → Prop} {vs : List α}

/-- `v` stands at or after `w`. -/
def AtOrAfter (vs : List α) (v w : α) : Prop :=
  ∃ i j : ℕ, vs[i]? = some v ∧ vs[j]? = some w ∧ j ≤ i

/-- **The relation orders the list** as its items stand. -/
structure InsertionOrder (R : α → α → Prop) (vs : List α) : Prop where
  refl : ∀ v ∈ vs, R v v
  total : ∀ v ∈ vs, ∀ w ∈ vs, R v w ∨ R w v
  trans : ∀ u ∈ vs, ∀ v ∈ vs, ∀ w ∈ vs, R u v → R v w → R u w
  antisymm : ∀ v ∈ vs, ∀ w ∈ vs, R v w → R w v → v = w
  inserted : ∀ v ∈ vs, ∀ w ∈ vs, R v w ↔ AtOrAfter vs v w

theorem getElem?_inj (hnodup : vs.Nodup) {i j : ℕ} {v : α} (hi : vs[i]? = some v)
    (hj : vs[j]? = some v) : i = j := by
  obtain ⟨hi, hvi⟩ := List.getElem?_eq_some_iff.mp hi
  obtain ⟨hj, hvj⟩ := List.getElem?_eq_some_iff.mp hj
  exact (Nodup.getElem_inj_iff hnodup).mp (hvi.trans hvj.symm)

theorem InsertionOrder.of_indices (hnodup : vs.Nodup)
    (h : ∀ (i j : ℕ) v w, vs[i]? = some v → vs[j]? = some w → (R v w ↔ j ≤ i)) :
    InsertionOrder R vs where
  refl v hv := by
    obtain ⟨i, hi⟩ := mem_iff_getElem?.mp hv
    exact (h i i v v hi hi).mpr le_rfl
  total v hv w hw := by
    obtain ⟨i, hi⟩ := mem_iff_getElem?.mp hv
    obtain ⟨j, hj⟩ := mem_iff_getElem?.mp hw
    rw [h i j v w hi hj, h j i w v hj hi]
    exact le_total j i
  trans u hu v hv w hw := by
    obtain ⟨i, hi⟩ := mem_iff_getElem?.mp hu
    obtain ⟨j, hj⟩ := mem_iff_getElem?.mp hv
    obtain ⟨k, hk⟩ := mem_iff_getElem?.mp hw
    rw [h i j u v hi hj, h j k v w hj hk, h i k u w hi hk]
    intro hij hjk
    exact hjk.trans hij
  antisymm v hv w hw := by
    obtain ⟨i, hi⟩ := mem_iff_getElem?.mp hv
    obtain ⟨j, hj⟩ := mem_iff_getElem?.mp hw
    rw [h i j v w hi hj, h j i w v hj hi]
    intro hji hij
    obtain rfl := le_antisymm hij hji
    exact some.inj (hi.symm.trans hj)
  inserted v hv w hw := by
    obtain ⟨i, hi⟩ := mem_iff_getElem?.mp hv
    obtain ⟨j, hj⟩ := mem_iff_getElem?.mp hw
    rw [h i j v w hi hj]
    constructor
    · intro hle
      exact ⟨i, j, hi, hj, hle⟩
    · rintro ⟨i', j', hi', hj', hle⟩
      rwa [getElem?_inj hnodup hi hi', getElem?_inj hnodup hj hj']

end Insertion

/-! ## The tables -/

/-- A row of `releases`, with the number that SQLite gives to it. -/
structure NumberedRelease where
  rowId : ℕ
  (id organizationId version createdAt : String)
deriving DecidableEq

/-- The rowid, `PRIMARY KEY (id)` and `UNIQUE (organization_id, version)`. -/
instance : Schema NumberedRelease where
  conflict r s := r.rowId == s.rowId || r.id == s.id
    || (r.organizationId == s.organizationId && r.version == s.version)
  conflict_comm r s := by simp only [Bool.beq_comm]

/-- The comparison of two rows. -/
def NumberedRelease.atOrAfter (c b : NumberedRelease) : Bool :=
  if c.createdAt ≠ b.createdAt then b.createdAt < c.createdAt else b.rowId ≤ c.rowId

/-- The tables that say whose a release is. -/
structure ReleaseCatalog where
  organizations : Table OrganizationRow
  projects : Table ProjectRow

/-- `releaseOwnerOrganizationID`: the owner is an organization or a project. -/
def ReleaseCatalog.releaseOwnerOrganizationID (cat : ReleaseCatalog) (ownerID : String) : String :=
  trimSpace ((((cat.organizations.rows.find? (·.id == ownerID)).map (·.id)).or
    ((cat.projects.rows.find? (·.id == ownerID)).map (·.organizationId))).getD "")

/-- The releases, the issues, and the last reading of the clock. -/
structure Releases where
  releases : Table NumberedRelease
  groups : Table GroupRow
  clock : Time

namespace Releases

variable (cat : ReleaseCatalog) (s : Releases)

/-- The rowid of a new release. -/
def nextRowId : ℕ := (s.releases.rows.map (·.rowId)).foldr max 0 + 1

/-- The releases of an organization, as they were inserted. -/
def versions (organizationID : String) : List String :=
  (s.releases.rows.filter (·.organizationId == organizationID)).map (·.version)

/-- The row that the subqueries select. -/
def row? (organizationID version : String) : Option NumberedRelease :=
  s.releases.rows.find? fun r => r.organizationId == organizationID && r.version == version

/-- `ReleaseIsAtOrAfter`. Where a release is missing, its columns are `NULL` and cannot be
scanned. -/
def releaseIsAtOrAfter (ownerID candidate baseline : String) : Except String Bool :=
  if trimSpace ownerID = "" ∨ trimSpace candidate = "" ∨ trimSpace baseline = "" then .ok false
  else if trimSpace candidate = trimSpace baseline then .ok true
  else
    let organizationID := cat.releaseOwnerOrganizationID (trimSpace ownerID)
    if organizationID = "" then .ok false
    else
      match s.row? organizationID (trimSpace candidate),
        s.row? organizationID (trimSpace baseline) with
      | some c, some b => .ok (c.atOrAfter b)
      | _, _ => .error "converting NULL to string is unsupported"

/-- `bindResolvedNextReleaseIssues`. -/
def bindResolvedNextReleaseIssues (orgID version : String) (groups : Table GroupRow) :
    Table GroupRow :=
  if trimSpace orgID = "" ∨ trimSpace version = "" then groups
  else groups.map (fun g =>
    if g.status = "resolved" ∧ g.resolutionSubstatus = "next_release" ∧ g.resolvedInRelease = "" ∧
        cat.projects.rows.any (fun p => p.id == g.projectId && p.organizationId == trimSpace orgID)
    then { g with resolvedInRelease := trimSpace version } else g)
    fun g h => by split <;> rfl

/-- `INSERT OR IGNORE INTO releases`, and the binding of issues after an insertion. The binding may
fail, and then the release stays. -/
def addRelease (id orgID version createdAt : String) (bindFails : Bool) : Releases :=
  match s.releases.insert ⟨s.nextRowId, id, orgID, version, createdAt⟩ with
  | none => s
  | some releases => { s with
      releases
      groups := if bindFails then s.groups
        else bindResolvedNextReleaseIssues cat orgID version s.groups }

/-- `CreateRelease`, which stores the version as it is. -/
def createRelease (now : Instant) (orgSlug version id : String) (bindFails : Bool) : Releases :=
  match cat.organizations.rows.find? (·.slug == orgSlug) with
  | none => s
  | some org => s.addRelease cat id org.id version now.rfc3339 bindFails

/-- `ensureReleaseForOwner`, which leaves `created_at` to the default of the column. -/
def ensureRelease (now : Instant) (ownerID version id : String) (bindFails : Bool) : Releases :=
  if trimSpace ownerID = "" ∨ trimSpace version = "" then s
  else
    let orgID := cat.releaseOwnerOrganizationID (trimSpace ownerID)
    if orgID = "" then s
    else s.addRelease cat id orgID (trimSpace version) now.datetime bindFails

/-- `DeleteRelease`. -/
def deleteRelease (orgSlug version : String) : Releases :=
  match (cat.organizations.rows.find? (·.slug == orgSlug)).bind fun org =>
    s.row? org.id version with
  | none => s
  | some r => { s with releases := s.releases.deleteWhere (·.id == r.id) }

end Releases

/-- What can happen. -/
inductive ReleaseAction
  | createRelease (now : Instant) (orgSlug version id : String) (bindFails : Bool)
  | ensureRelease (now : Instant) (ownerID version id : String) (bindFails : Bool)
  | deleteRelease (orgSlug version : String)
  /-- Any write to the issues. -/
  | writeGroups (groups : Table GroupRow)

namespace Releases

/-- The clock shows another time. -/
def tick (s : Releases) (now : Time) : Releases := { s with clock := now }

/-- One step. The clock does not go back. -/
def step (cat : ReleaseCatalog) (s : Releases) : ReleaseAction → Option Releases
  | .createRelease now orgSlug version id bindFails =>
    if s.clock.ns ≤ now.ns then
      some ((s.createRelease cat now orgSlug version id bindFails).tick now.toTime)
    else none
  | .ensureRelease now ownerID version id bindFails =>
    if s.clock.ns ≤ now.ns then
      some ((s.ensureRelease cat now ownerID version id bindFails).tick now.toTime)
    else none
  | .deleteRelease orgSlug version => some (s.deleteRelease cat orgSlug version)
  | .writeGroups groups => some { s with groups }

end Releases

/-! ## The property and the condition -/

/-- A text that is not empty and has no space around it. -/
def TidyText (v : String) : Prop := trimSpace v = v ∧ v ≠ ""
deriving Decidable

/-- The owner is the organization or one of its projects. -/
def ReleaseCatalog.Owns (cat : ReleaseCatalog) (ownerID organizationID : String) : Prop :=
  ownerID = organizationID ∧ (∃ o ∈ cat.organizations.rows, o.id = organizationID) ∨
    ∃ p ∈ cat.projects.rows, p.id = ownerID ∧ p.organizationId = organizationID

/-- The ids have no space around them, and no project has the id of another organization than its
own. -/
structure ReleaseCatalog.Tidy (cat : ReleaseCatalog) : Prop where
  organizations : ∀ o ∈ cat.organizations.rows, TidyText o.id
  projects : ∀ p ∈ cat.projects.rows, TidyText p.id ∧ TidyText p.organizationId ∧
    ∀ o ∈ cat.organizations.rows, o.id = p.id → p.organizationId = p.id

namespace Releases

variable (cat : ReleaseCatalog) (s : Releases)

/-- **Releases are ordered by insertion**, and an event reopens an issue that was resolved in the
next release exactly when its release stands at or after the bound one. -/
def Ordered : Prop :=
  ∀ ownerID organizationID, cat.Owns ownerID organizationID →
    InsertionOrder (fun v w => s.releaseIsAtOrAfter cat ownerID v w = .ok true)
      (s.versions organizationID) ∧
    ∀ g : GroupRow, g.status = "resolved" → g.resolutionSubstatus = "next_release" →
      ∀ r ∈ s.versions organizationID, TidyText r →
        (regression (some g) r
            (some (s.releaseIsAtOrAfter cat ownerID r (trimSpace g.resolvedInRelease))) = true ↔
          AtOrAfter (s.versions organizationID) r (trimSpace g.resolvedInRelease))

/-- The names can be told apart after trimming: they are tidy, or there is only one. -/
def Legible (vs : List String) : Prop :=
  (∀ v ∈ vs, TidyText v) ∨ ∃ v, vs = [v] ∧ trimSpace v ≠ ""

instance (vs : List String) : Decidable (Legible vs) :=
  decidable_of_iff ((∀ v ∈ vs, TidyText v) ∨ ∃ v ∈ vs.head?, vs = [v] ∧ trimSpace v ≠ "") <| by
    refine or_congr_right ⟨fun ⟨v, _, h⟩ => ⟨v, h⟩, fun ⟨v, h⟩ => ⟨v, ?_, h⟩⟩
    rw [h.1]
    rfl

/-- A new row fits the others: the names stay legible, and no text of `created_at` is larger. -/
def Fits (orgID version createdAt : String) : Prop :=
  Legible (s.versions orgID ++ [version]) ∧
    ∀ r ∈ s.releases.rows, r.organizationId = orgID → r.createdAt ≤ createdAt
deriving Decidable

/-- The release is not there yet. -/
def Inserts (id orgID version : String) : Prop :=
  ∀ r ∈ s.releases.rows, r.id ≠ id ∧ ¬(r.organizationId = orgID ∧ r.version = version)
deriving Decidable

/-- **The condition on a step.** -/
def KeepsOrder : ReleaseAction → Prop
  | .createRelease _ orgSlug version id _ =>
    ∀ org ∈ cat.organizations.rows, org.slug = orgSlug → s.Inserts id org.id version →
      Legible (s.versions org.id ++ [version])
  | .ensureRelease now ownerID version id _ =>
    ∀ orgID, cat.releaseOwnerOrganizationID (trimSpace ownerID) = orgID → trimSpace ownerID ≠ "" →
      orgID ≠ "" → trimSpace version ≠ "" → s.Inserts id orgID (trimSpace version) →
        s.Fits orgID (trimSpace version) now.datetime
  | .deleteRelease .. | .writeGroups _ => True

end Releases

/-! ## Looking up releases -/

theorem ReleaseCatalog.Tidy.owner {cat : ReleaseCatalog} (h : cat.Tidy) {ownerID orgID : String}
    (howns : cat.Owns ownerID orgID) :
    TidyText ownerID ∧ cat.releaseOwnerOrganizationID ownerID = orgID ∧ orgID ≠ "" := by
  rcases howns with ⟨rfl, o, ho, rfl⟩ | ⟨p, hp, rfl, rfl⟩
  · have hfind : cat.organizations.rows.find? (·.id == o.id) = some o :=
      find?_of_mem ho (by simp) fun r hr => by simp_all [conflict]
    obtain ⟨htrim, hne⟩ := h.organizations o ho
    refine ⟨⟨htrim, hne⟩, ?_, hne⟩
    rw [releaseOwnerOrganizationID, hfind, map_some, some_or, getD_some, htrim]
  · have hfind : cat.projects.rows.find? (·.id == p.id) = some p :=
      find?_of_mem hp (by simp) fun r hr => by simp_all [conflict]
    obtain ⟨hid, ⟨htrim, hne⟩, hother⟩ := h.projects p hp
    refine ⟨hid, ?_, hne⟩
    rw [releaseOwnerOrganizationID]
    -- An organization with the id of the project comes first, and it is the project's own.
    cases horg : cat.organizations.rows.find? (·.id == p.id) with
    | none => rw [hfind, map_none, none_or, map_some, getD_some, htrim]
    | some o =>
      have hoid : o.id = p.id := by simpa using find?_some horg
      rw [map_some, some_or, getD_some, hoid, ← hother o (mem_of_find?_eq_some horg) hoid, htrim]

namespace Releases

variable {cat : ReleaseCatalog} {s t : Releases} {ownerID orgID v : String}

theorem mem_versions : v ∈ s.versions orgID ↔
    ∃ r ∈ s.releases.rows, r.organizationId = orgID ∧ r.version = v := by
  simp only [versions, List.mem_map, mem_filter, beq_iff_eq, and_assoc]

theorem nodup_versions (s : Releases) (orgID : String) : (s.versions orgID).Nodup := by
  rw [versions, Nodup, pairwise_map, pairwise_filter]
  refine s.releases.unique.imp fun {r r'} hclash hr hr' hversion => ?_
  rw [beq_iff_eq] at hr hr'
  simp [conflict, hr, hr', hversion] at hclash

theorem row?_of_mem {r : NumberedRelease} (hr : r ∈ s.releases.rows)
    (horg : r.organizationId = orgID) (hversion : r.version = v) : s.row? orgID v = some r :=
  find?_of_mem hr (by simp [horg, hversion]) fun r' hr' => by
    simp only [Bool.and_eq_true, beq_iff_eq] at hr'
    simp [conflict, hr', horg, hversion]

theorem row?_eq_none (hv : v ∉ s.versions orgID) : s.row? orgID v = none := by
  rw [row?, find?_eq_none]
  intro r hr hmatch
  simp only [Bool.and_eq_true, beq_iff_eq] at hmatch
  exact hv (mem_versions.mpr ⟨r, hr, hmatch⟩)

section Owned

variable (hcat : cat.Tidy) (howns : cat.Owns ownerID orgID) (s : Releases)

include hcat howns

/-- The question, for an owner that is found and names that are not blank. -/
theorem releaseIsAtOrAfter_eq {v w : String} (hv : trimSpace v ≠ "") (hw : trimSpace w ≠ "") :
    s.releaseIsAtOrAfter cat ownerID v w =
      if trimSpace v = trimSpace w then .ok true
      else match s.row? orgID (trimSpace v), s.row? orgID (trimSpace w) with
      | some c, some b => .ok (c.atOrAfter b)
      | _, _ => .error "converting NULL to string is unsupported" := by
  obtain ⟨⟨htrim, hne⟩, horg, horgne⟩ := hcat.owner howns
  rw [releaseIsAtOrAfter, if_neg (by simp [htrim, hne, hv, hw]), htrim, horg]
  simp only [if_neg horgne]

/-- The question, for tidy names. -/
theorem releaseIsAtOrAfter_tidy {v w : String} (hv : TidyText v) (hw : TidyText w) :
    s.releaseIsAtOrAfter cat ownerID v w =
      if v = w then .ok true
      else match s.row? orgID v, s.row? orgID w with
      | some c, some b => .ok (c.atOrAfter b)
      | _, _ => .error "converting NULL to string is unsupported" := by
  rw [releaseIsAtOrAfter_eq hcat howns s (by rw [hv.1]; exact hv.2)
    (by rw [hw.1]; exact hw.2), hv.1, hw.1]

end Owned

/-! ## The invariant -/

theorem Legible.sublist {vs ws : List String} (h : Legible vs) (hsub : ws.Sublist vs) :
    Legible ws := by
  rcases h with htidy | ⟨v, rfl, hv⟩
  · exact .inl fun w hw => htidy w (hsub.subset hw)
  · rcases sublist_singleton.mp hsub with rfl | rfl
    · exact .inl fun w hw => absurd hw not_mem_nil
    · exact .inr ⟨v, rfl, hv⟩

theorem Legible.not_blank {vs : List String} (h : Legible vs) {v : String} (hv : v ∈ vs) :
    trimSpace v ≠ "" := by
  rcases h with htidy | ⟨only, rfl, hne⟩
  · rw [(htidy v hv).1]
    exact (htidy v hv).2
  · rwa [mem_singleton.mp hv]

/-- **What every step keeps.** -/
structure Inv (s : Releases) : Prop where
  stamped : ∀ r ∈ s.releases.rows, ∃ t : Time, t.Writable ∧ t.ns ≤ s.clock.ns ∧
    (r.createdAt = t.rfc3339 ∨ r.createdAt = t.datetime)
  rowIds : s.releases.rows.Pairwise fun a b => a.rowId < b.rowId
  created : s.releases.rows.Pairwise fun a b =>
    a.organizationId = b.organizationId → a.createdAt ≤ b.createdAt
  legible : ∀ orgID, Legible (s.versions orgID)

theorem atOrAfter_of_before {a b : NumberedRelease} (hid : a.rowId < b.rowId)
    (hcreated : a.createdAt ≤ b.createdAt) : b.atOrAfter a = true ∧ a.atOrAfter b = false := by
  by_cases heq : a.createdAt = b.createdAt
  · simp [NumberedRelease.atOrAfter, heq, hid, hid.le]
  · have hlt : a.createdAt < b.createdAt := lt_of_le_of_ne hcreated heq
    constructor
    · rw [NumberedRelease.atOrAfter, if_pos (Ne.symm heq)]
      exact decide_eq_true hlt
    · rw [NumberedRelease.atOrAfter, if_pos heq]
      exact decide_eq_false hlt.not_gt

/-- **Tidy releases** compare as they stand. -/
theorem Inv.indices (h : s.Inv) (hcat : cat.Tidy) (howns : cat.Owns ownerID orgID)
    (htidy : ∀ v ∈ s.versions orgID, TidyText v) (i j : ℕ) (v w : String)
    (hi : (s.versions orgID)[i]? = some v) (hj : (s.versions orgID)[j]? = some w) :
    s.releaseIsAtOrAfter cat ownerID v w = .ok true ↔ j ≤ i := by
  rw [releaseIsAtOrAfter_tidy hcat howns s (htidy v (mem_of_getElem? hi))
    (htidy w (mem_of_getElem? hj))]
  by_cases hvw : v = w
  · subst hvw
    rw [getElem?_inj (nodup_versions s orgID) hi hj]
    simp
  · rw [if_neg hvw]
    rw [versions, getElem?_map] at hi hj
    obtain ⟨a, ha, rfl⟩ := map_eq_some_iff.mp hi
    obtain ⟨b, hb, rfl⟩ := map_eq_some_iff.mp hj
    obtain ⟨haRow, haOrg⟩ := mem_filter.mp (mem_of_getElem? ha)
    obtain ⟨hbRow, hbOrg⟩ := mem_filter.mp (mem_of_getElem? hb)
    rw [beq_iff_eq] at haOrg hbOrg
    have hpairs : (s.releases.rows.filter (·.organizationId == orgID)).Pairwise fun a b =>
        a.rowId < b.rowId ∧ a.createdAt ≤ b.createdAt := by
      rw [pairwise_filter]
      refine h.rowIds.imp₂ (fun {a b} hid hcreated ha hb => ⟨hid, hcreated ?_⟩) h.created
      rw [beq_iff_eq] at ha hb
      exact ha.trans hb.symm
    have hbefore : ∀ {i j : ℕ} {a b : NumberedRelease}, i < j →
        (s.releases.rows.filter (·.organizationId == orgID))[i]? = some a →
        (s.releases.rows.filter (·.organizationId == orgID))[j]? = some b →
        b.atOrAfter a = true ∧ a.atOrAfter b = false := by
      intro i j a b hij hi hj
      obtain ⟨hilt, rfl⟩ := List.getElem?_eq_some_iff.mp hi
      obtain ⟨hjlt, rfl⟩ := List.getElem?_eq_some_iff.mp hj
      obtain ⟨hid, hcreated⟩ := pairwise_iff_getElem.mp hpairs i j hilt hjlt hij
      exact atOrAfter_of_before hid hcreated
    rw [row?_of_mem haRow haOrg rfl, row?_of_mem hbRow hbOrg rfl]
    rcases lt_trichotomy i j with hij | rfl | hij
    · simp [(hbefore hij ha hb).2, hij]
    · rw [ha] at hb
      exact absurd (congrArg NumberedRelease.version (some.inj hb)) hvw
    · simp [(hbefore hij hb ha).1, hij.le]

/-- **A state with the invariant is ordered.** -/
theorem Inv.ordered (h : s.Inv) (hcat : cat.Tidy) : s.Ordered cat := by
  intro ownerID orgID howns
  have hnodup := nodup_versions s orgID
  have horder : InsertionOrder (fun v w => s.releaseIsAtOrAfter cat ownerID v w = .ok true)
      (s.versions orgID) := by
    refine InsertionOrder.of_indices hnodup fun i j v w hi hj => ?_
    rcases h.legible orgID with htidy | ⟨only, honly, hne⟩
    · exact h.indices hcat howns htidy i j v w hi hj
    · -- The only release is at or after itself, whatever its name.
      have hvw : v = only ∧ w = only := by
        have hv := mem_of_getElem? hi
        have hw := mem_of_getElem? hj
        rw [honly, mem_singleton] at hv hw
        exact ⟨hv, hw⟩
      obtain ⟨rfl, rfl⟩ := hvw
      rw [getElem?_inj hnodup hi hj, releaseIsAtOrAfter_eq hcat howns s hne hne]
      simp
  refine ⟨horder, fun g hresolved hnext r hr htidy => ?_⟩
  generalize hbound : trimSpace g.resolvedInRelease = b
  have htrim : trimSpace b = b := by rw [← hbound, trimSpace_trimSpace]
  rw [regression]
  simp only [hresolved, hnext, ne_eq, not_true_eq_false, if_false, hbound]
  by_cases hb : b ∈ s.versions orgID
  · have hbTidy : TidyText b := ⟨htrim, htrim ▸ (h.legible orgID).not_blank hb⟩
    obtain ⟨answer, hanswer⟩ : ∃ answer, s.releaseIsAtOrAfter cat ownerID r b = .ok answer := by
      obtain ⟨c, hc, hcOrg, hcVersion⟩ := mem_versions.mp hr
      obtain ⟨d, hd, hdOrg, hdVersion⟩ := mem_versions.mp hb
      rw [releaseIsAtOrAfter_tidy hcat howns s htidy hbTidy, row?_of_mem hc hcOrg hcVersion,
        row?_of_mem hd hdOrg hdVersion]
      split
      · exact ⟨_, rfl⟩
      · exact ⟨_, rfl⟩
    rw [if_pos ⟨hbTidy.2, htidy.2⟩, ← horder.inserted r hr b hb, hanswer]
    simp
  · -- A bound release that is gone is not reached by any event.
    have hnot : ¬AtOrAfter (s.versions orgID) r b := by
      rintro ⟨i, j, -, hj, -⟩
      exact hb (mem_of_getElem? hj)
    have hrb : r ≠ b := fun hrb => hb (hrb ▸ hr)
    rw [iff_false_right hnot, Bool.not_eq_true]
    split_ifs with hne
    · rw [releaseIsAtOrAfter_tidy hcat howns s htidy ⟨htrim, hne.1⟩, row?_eq_none hb]
      simp [hrb]
    · rfl

/-! ## Insertions -/

theorem lt_nextRowId {r : NumberedRelease} (hr : r ∈ s.releases.rows) : r.rowId < s.nextRowId := by
  rw [nextRowId, Nat.lt_succ_iff]
  generalize s.releases.rows = rows at hr ⊢
  induction rows with
  | nil => cases hr
  | cons r' rows ih =>
    rcases mem_cons.mp hr with rfl | hr
    · exact le_max_left _ _
    · exact (ih hr).trans (le_max_right _ _)

/-- **An insertion** adds a row at the end, or the release is there. -/
theorem addRelease_cases (cat : ReleaseCatalog) (s : Releases) (id orgID version createdAt : String)
    (bindFails : Bool) :
    ¬s.Inserts id orgID version ∧ s.addRelease cat id orgID version createdAt bindFails = s ∨
      s.Inserts id orgID version ∧
        (s.addRelease cat id orgID version createdAt bindFails).releases.rows =
          s.releases.rows ++ [⟨s.nextRowId, id, orgID, version, createdAt⟩] := by
  have hclash : ∀ r ∈ s.releases.rows,
      conflict (⟨s.nextRowId, id, orgID, version, createdAt⟩ : NumberedRelease) r = false ↔
        r.id ≠ id ∧ ¬(r.organizationId = orgID ∧ r.version = version) := by
    intro r hr
    have hid := (lt_nextRowId hr).ne'
    simp only [conflict]
    grind
  rw [addRelease]
  cases hinsert : s.releases.insert ⟨s.nextRowId, id, orgID, version, createdAt⟩ with
  | none =>
    refine .inl ⟨fun hnew => ?_, rfl⟩
    rw [Table.insert,
      dif_pos (Table.clashes_eq_false.mpr fun r hr => (hclash r hr).mpr (hnew r hr))]
      at hinsert
    cases hinsert
  | some releases =>
    obtain ⟨hfree, hrows⟩ := Table.insert_eq_some_iff.mp hinsert
    exact .inr ⟨fun r hr => (hclash r hr).mp (hfree r hr), hrows⟩

variable {new : NumberedRelease}

theorem versions_append (hrows : t.releases.rows = s.releases.rows ++ [new]) (orgID : String) :
    t.versions orgID = s.versions orgID ++ if new.organizationId = orgID then
      [new.version] else [] := by
  rw [versions, versions, hrows]
  by_cases horg : new.organizationId = orgID <;> simp [horg]

theorem stamp_le_rfc3339 {u now : Time} (hu : u.Writable) (hnow : now.Writable)
    (h : u.ns ≤ now.ns) :
    u.rfc3339 ≤ now.rfc3339 ∧ u.datetime ≤ now.rfc3339 := by
  have hsecs : u.secs ≤ now.secs := Nat.div_le_div_right h
  constructor
  · rw [← not_lt, Time.rfc3339_lt_iff hnow hu, not_lt]
    exact hsecs
  · exact ((Time.datetime_lt_rfc3339_iff hu hnow).mpr (Time.day_le_of_secs_le hsecs)).le

/-- **A new row** that keeps the invariant. -/
theorem Inv.append (h : s.Inv) (hrows : t.releases.rows = s.releases.rows ++ [new])
    (hid : new.rowId = s.nextRowId) (hclock : s.clock.ns ≤ t.clock.ns)
    (hwritable : t.clock.Writable)
    (hstamp : new.createdAt = t.clock.rfc3339 ∨ new.createdAt = t.clock.datetime)
    (hcreated : ∀ r ∈ s.releases.rows, r.organizationId = new.organizationId →
    r.createdAt ≤ new.createdAt)
    (hname : Legible (s.versions new.organizationId ++ [new.version])) : t.Inv := by
  refine ⟨fun r hr => ?_, ?_, ?_, fun orgID => ?_⟩
  · rw [hrows, mem_append, mem_singleton] at hr
    rcases hr with hr | rfl
    · obtain ⟨u, hu, hle, htext⟩ := h.stamped r hr
      exact ⟨u, hu, hle.trans hclock, htext⟩
    · exact ⟨t.clock, hwritable, le_rfl, hstamp⟩
  · rw [hrows, pairwise_append]
    refine ⟨h.rowIds, pairwise_singleton _ _, fun r hr r' hr' => ?_⟩
    rw [mem_singleton.mp hr', hid]
    exact lt_nextRowId hr
  · rw [hrows, pairwise_append]
    refine ⟨h.created, pairwise_singleton _ _, fun r hr r' hr' => ?_⟩
    rw [mem_singleton.mp hr']
    exact hcreated r hr
  · rw [versions_append hrows]
    split_ifs with horg
    · subst horg
      exact hname
    · rw [append_nil]
      exact h.legible orgID

/-! ### What an ordered state says -/

/-- **Ordered releases are legible.** -/
theorem Ordered.legible (h : s.Ordered cat) (hcat : cat.Tidy) (howns : cat.Owns ownerID orgID) :
    Legible (s.versions orgID) := by
  obtain ⟨horder, -⟩ := h ownerID orgID howns
  have hblank : ∀ v ∈ s.versions orgID, trimSpace v ≠ "" := by
    intro v hv hv'
    have hrefl := horder.refl v hv
    rw [releaseIsAtOrAfter, if_pos (.inr (.inl hv'))] at hrefl
    cases hrefl
  have hsame : ∀ v ∈ s.versions orgID, ∀ w ∈ s.versions orgID,
      trimSpace v = trimSpace w → v = w := by
    intro v hv w hw hvw
    refine horder.antisymm v hv w hw ?_ ?_
    · rw [releaseIsAtOrAfter_eq hcat howns s (hblank v hv) (hblank w hw), if_pos hvw]
    · rw [releaseIsAtOrAfter_eq hcat howns s (hblank w hw) (hblank v hv), if_pos hvw.symm]
  by_cases htidy : ∀ v ∈ s.versions orgID, TidyText v
  · exact .inl htidy
  · -- A name with space around it is never found, so it cannot be compared with another one.
    simp only [not_forall] at htidy
    obtain ⟨w, hw, huntidy⟩ := htidy
    have hmissing : s.row? orgID (trimSpace w) = none := by
      refine row?_eq_none fun hmem => huntidy ?_
      have hwtrim := hsame _ hmem w hw (trimSpace_trimSpace w)
      exact ⟨hwtrim, fun hempty => hblank w hw (by rw [hempty, trimSpace_empty])⟩
    have honly : ∀ x ∈ s.versions orgID, x = w := by
      intro x hx
      by_contra hne
      have hdiff : trimSpace x ≠ trimSpace w := fun heq => hne (hsame x hx w hw heq)
      rcases horder.total w hw x hx with hwx | hxw
      · rw [releaseIsAtOrAfter_eq hcat howns s (hblank w hw) (hblank x hx), if_neg hdiff.symm,
          hmissing] at hwx
        cases hwx
      · rw [releaseIsAtOrAfter_eq hcat howns s (hblank x hx) (hblank w hw), if_neg hdiff,
          hmissing] at hxw
        split at hxw
        · next hnone => cases hnone
        · cases hxw
    have hnodup := nodup_versions s orgID
    refine .inr ⟨w, ?_, hblank w hw⟩
    cases hvs : s.versions orgID with
    | nil =>
      rw [hvs] at hw
      cases hw
    | cons v vs =>
      rw [hvs] at honly hnodup
      rw [honly v mem_cons_self] at hnodup ⊢
      cases vs with
      | nil => rfl
      | cons u us =>
        have hu := honly u (mem_cons_of_mem _ mem_cons_self)
        exact absurd (hu ▸ mem_cons_self) (nodup_cons.mp hnodup).1

/-- **A later row with a smaller text** is not ordered. -/
theorem not_ordered_of_created (hcat : cat.Tidy) (howns : cat.Owns ownerID orgID)
    {rows : List NumberedRelease} {r : NumberedRelease} (hrows : s.releases.rows = rows ++ [new])
    (hr : r ∈ rows) (horg : r.organizationId = orgID) (hnew : new.organizationId = orgID)
    (hlt : new.createdAt < r.createdAt) : ¬s.Ordered cat := by
  intro h
  have hrMem : r ∈ s.releases.rows := hrows ▸ mem_append_left _ hr
  have hnewMem : new ∈ s.releases.rows := hrows ▸ mem_append_right _ mem_cons_self
  have hne : new ≠ r := by
    rintro rfl
    exact lt_irrefl _ hlt
  have hrv : r.version ∈ s.versions orgID := mem_versions.mpr ⟨r, hrMem, horg, rfl⟩
  have hnewv : new.version ∈ s.versions orgID := mem_versions.mpr ⟨new, hnewMem, hnew, rfl⟩
  have hversion : new.version ≠ r.version := by
    intro heq
    exact hne (eq_of_conflict hnewMem hrMem (by simp [conflict, hnew, horg, heq]))
  have htidy : ∀ v ∈ s.versions orgID, TidyText v := by
    refine (h.legible hcat howns).resolve_right ?_
    rintro ⟨only, honly, -⟩
    rw [honly, mem_singleton] at hrv hnewv
    exact hversion (hnewv.trans hrv.symm)
  -- The new row stands after the other one.
  have hat : AtOrAfter (s.versions orgID) new.version r.version := by
    have hvs : s.versions orgID =
        (rows.filter (·.organizationId == orgID)).map (·.version) ++ [new.version] := by
      rw [versions, hrows]
      simp [hnew]
    have hrold : r.version ∈ (rows.filter (·.organizationId == orgID)).map (·.version) :=
      List.mem_map_of_mem (mem_filter.mpr ⟨hr, by simpa using horg⟩)
    obtain ⟨j, hj⟩ := mem_iff_getElem?.mp hrold
    have hjlt := (List.getElem?_eq_some_iff.mp hj).1
    refine ⟨_, j, ?_, ?_, hjlt.le⟩
    · rw [hvs, getElem?_append_right le_rfl, Nat.sub_self]
      rfl
    · rw [hvs, getElem?_append_left hjlt]
      exact hj
  obtain ⟨horder, -⟩ := h ownerID orgID howns
  have hR := (horder.inserted _ hnewv _ hrv).mpr hat
  rw [releaseIsAtOrAfter_tidy hcat howns s (htidy _ hnewv) (htidy _ hrv), if_neg hversion,
    row?_of_mem hnewMem hnew rfl, row?_of_mem hrMem horg rfl] at hR
  have hbefore : new.atOrAfter r = false := by
    rw [NumberedRelease.atOrAfter, if_pos hlt.ne]
    exact decide_eq_false hlt.not_gt
  simp [hbefore] at hR

/-! ## Steps -/

theorem Inv.later (h : s.Inv) (hreleases : t.releases = s.releases)
    (hclock : s.clock.ns ≤ t.clock.ns) : t.Inv := by
  refine ⟨fun r hr => ?_, hreleases ▸ h.rowIds, hreleases ▸ h.created, fun orgID => ?_⟩
  · obtain ⟨u, hu, hle, htext⟩ := h.stamped r (hreleases ▸ hr)
    exact ⟨u, hu, hle.trans hclock, htext⟩
  · have hlegible := h.legible orgID
    rwa [versions, ← hreleases] at hlegible

theorem Inv.add (h : s.Inv) {now : Instant} (hclock : s.clock.ns ≤ now.ns)
    {id orgID version createdAt : String} (bindFails : Bool)
    (hstamp : createdAt = now.rfc3339 ∨ createdAt = now.datetime)
    (hfits : s.Inserts id orgID version → s.Fits orgID version createdAt) :
    Inv ((s.addRelease cat id orgID version createdAt bindFails).tick now.toTime) := by
  rcases addRelease_cases cat s id orgID version createdAt bindFails with ⟨-, hsame⟩ | ⟨hnew, hrows⟩
  · rw [hsame]
    exact h.later rfl hclock
  · obtain ⟨hname, hcreated⟩ := hfits hnew
    exact h.append hrows rfl hclock now.writable hstamp hcreated hname

theorem not_ordered_add (hcat : cat.Tidy) (howns : cat.Owns ownerID orgID) {clock : Time}
    {id version createdAt : String} (bindFails : Bool) (hnew : s.Inserts id orgID version)
    (hbad : ¬s.Fits orgID version createdAt) :
    ¬Ordered cat ((s.addRelease cat id orgID version createdAt bindFails).tick clock) := by
  rcases addRelease_cases cat s id orgID version createdAt bindFails with ⟨hold, -⟩ | ⟨-, hrows⟩
  · exact absurd hnew hold
  · intro hordered
    refine hbad ⟨?_, fun r hr horg => ?_⟩
    · have hversions := versions_append (t := Releases.tick _ clock) hrows orgID
      have hlegible := hordered.legible hcat howns
      rwa [hversions, if_pos rfl] at hlegible
    · by_contra hlt
      exact not_ordered_of_created hcat howns hrows hr horg rfl (not_le.mp hlt) hordered

theorem Inv.delete (h : s.Inv) (orgSlug version : String) :
    (s.deleteRelease cat orgSlug version).Inv := by
  rw [deleteRelease]
  split
  · exact h
  · next r _ =>
    have hsub : (s.releases.deleteWhere (·.id == r.id)).rows.Sublist s.releases.rows :=
      filter_sublist
    refine ⟨fun r hr => h.stamped r (hsub.subset hr), h.rowIds.sublist hsub, h.created.sublist hsub,
      fun orgID => (h.legible orgID).sublist ?_⟩
    exact List.Sublist.map _ (hsub.filter _)

/-- An owner that is resolved is one of the organization. -/
theorem owns_of_resolved (hcat : cat.Tidy) (h : cat.releaseOwnerOrganizationID ownerID = orgID)
    (hne : orgID ≠ "") : cat.Owns ownerID orgID := by
  rw [ReleaseCatalog.releaseOwnerOrganizationID] at h
  cases horg : cat.organizations.rows.find? (·.id == ownerID) with
  | some o =>
    have ho := mem_of_find?_eq_some horg
    have hid : o.id = ownerID := by simpa using find?_some horg
    rw [horg, map_some, some_or, getD_some, (hcat.organizations o ho).1] at h
    exact .inl ⟨hid.symm.trans h, o, ho, h⟩
  | none =>
    cases hproject : cat.projects.rows.find? (·.id == ownerID) with
    | some p =>
      have hp := mem_of_find?_eq_some hproject
      have hid : p.id = ownerID := by simpa using find?_some hproject
      rw [horg, hproject, map_none, none_or, map_some, getD_some, (hcat.projects p hp).2.1.1] at h
      exact .inr ⟨p, hp, hid, h⟩
    | none =>
      rw [horg, hproject] at h
      exact absurd h.symm hne

/-- **One step** that meets the condition. -/
theorem Inv.step {a : ReleaseAction} (h : s.Inv) (hok : s.KeepsOrder cat a)
    (hstep : s.step cat a = some t) : t.Inv := by
  cases a with
  | createRelease now orgSlug version id bindFails =>
    obtain ⟨hclock, ⟨⟩⟩ := ite_none_right_eq_some.mp hstep
    rw [createRelease]
    split
    · exact h.later rfl hclock
    · next org horg =>
      have hmem := mem_of_find?_eq_some horg
      have hslug : org.slug = orgSlug := by simpa using find?_some horg
      refine h.add hclock bindFails (.inl rfl) fun hnew => ⟨hok org hmem hslug hnew, ?_⟩
      -- The clock has not gone back since any other release was stored.
      intro r hr _
      obtain ⟨u, hu, hle, htext⟩ := h.stamped r hr
      obtain ⟨hrfc, hdatetime⟩ := stamp_le_rfc3339 hu now.writable (hle.trans hclock)
      rcases htext with htext | htext
      · rw [htext]
        exact hrfc
      · rw [htext]
        exact hdatetime
  | ensureRelease now ownerID version id bindFails =>
    obtain ⟨hclock, ⟨⟩⟩ := ite_none_right_eq_some.mp hstep
    rw [ensureRelease]
    split_ifs with hblank
    · exact h.later rfl hclock
    · rw [not_or] at hblank
      dsimp only
      split
      · exact h.later rfl hclock
      · next horg =>
        exact h.add hclock bindFails (.inr rfl) fun hnew => hok _ rfl hblank.1 horg hblank.2 hnew
  | deleteRelease orgSlug version =>
    cases hstep
    exact h.delete orgSlug version
  | writeGroups groups =>
    cases hstep
    exact h.later rfl le_rfl

/-- **One step** that does not. -/
theorem step_not_ordered {a : ReleaseAction} (hcat : cat.Tidy) (hbad : ¬s.KeepsOrder cat a)
    (hstep : s.step cat a = some t) : ¬t.Ordered cat := by
  cases a with
  | createRelease now orgSlug version id bindFails =>
    simp only [KeepsOrder, not_forall] at hbad
    obtain ⟨org, horg, rfl, hnew, hname⟩ := hbad
    obtain ⟨-, ⟨⟩⟩ := ite_none_right_eq_some.mp hstep
    rw [createRelease, find?_of_mem horg (by simp) fun r hr => by simp_all [conflict]]
    exact not_ordered_add hcat (.inl ⟨rfl, org, horg, rfl⟩) bindFails hnew fun hfits =>
      hname hfits.1
  | ensureRelease now ownerID version id bindFails =>
    simp only [KeepsOrder, not_forall] at hbad
    obtain ⟨orgID, hresolved, howner, horg, hversion, hnew, hfits⟩ := hbad
    obtain ⟨-, ⟨⟩⟩ := ite_none_right_eq_some.mp hstep
    rw [ensureRelease, if_neg (by simp [howner, hversion])]
    simp only [hresolved, if_neg horg]
    exact not_ordered_add hcat (owns_of_resolved hcat hresolved horg) bindFails hnew hfits
  | deleteRelease orgSlug version => exact absurd trivial hbad
  | writeGroups groups => exact absurd trivial hbad

/-- **Releases are ordered by insertion** in every state of a run from a table without releases, and
regressions follow that order, if and only if every insertion meets the condition. -/
theorem run_ordered_iff (hcat : cat.Tidy) {init : Releases}
    {trace : List (Releases × ReleaseAction)} (hinit : init.releases.rows = [])
    (run : Run (step cat) init trace t) :
    (∀ u ∈ visited trace t, u.Ordered cat) ↔ ∀ p ∈ trace, p.1.KeepsOrder cat p.2 := by
  have hstart : init.Inv := by
    refine ⟨fun r hr => ?_, ?_, ?_, fun orgID => .inl fun v hv => ?_⟩
    · rw [hinit] at hr
      cases hr
    · rw [hinit]
      exact Pairwise.nil
    · rw [hinit]
      exact Pairwise.nil
    · obtain ⟨r, hr, -⟩ := mem_versions.mp hv
      rw [hinit] at hr
      cases hr
  exact run.safe_iff hstart (fun h hok hstep => h.step hok hstep) (fun h => h.ordered hcat)
    fun _ hbad hstep => step_not_ordered hcat hbad hstep

/-! ### Two writers on one day -/

instance (cat : ReleaseCatalog) (s : Releases) (a : ReleaseAction) :
    Decidable (s.KeepsOrder cat a) :=
  match a with
  | .createRelease .. => inferInstanceAs (Decidable (∀ org ∈ _, _ → _ → _))
  | .ensureRelease now ownerID version id _ =>
    decidable_of_iff (trimSpace ownerID ≠ "" →
      cat.releaseOwnerOrganizationID (trimSpace ownerID) ≠ "" → trimSpace version ≠ "" →
      s.Inserts id (cat.releaseOwnerOrganizationID (trimSpace ownerID)) (trimSpace version) →
        s.Fits (cat.releaseOwnerOrganizationID (trimSpace ownerID))
          (trimSpace version) now.datetime)
      ⟨fun h _ horg => horg ▸ h, fun h => h _ rfl⟩
  | .deleteRelease .. | .writeGroups _ => .isTrue trivial

/-- The organization `a` with the project `p`. -/
def oneOwner : ReleaseCatalog where
  organizations := ⟨[{ id := "a", slug := "apex" }], by decide⟩
  projects := ⟨[{ id := "p", organizationId := "a", slug := "app" }], by decide⟩

def noReleases : Releases := ⟨.empty, .empty, ⟨0⟩⟩

/-- A minute after the first instant of `2026-03-29`. -/
def minuteLater : Instant := ⟨⟨(739703 * 86400 + 60) * 10 ^ 9⟩, by decide, by decide⟩

/-- An event brings the first release, and the second one is created over the API. -/
theorem ordered_event_first : ∃ trace t, Run (step oneOwner) noReleases trace t ∧
    t.versions "a" = ["1.0", "2.0"] ∧ ∀ u ∈ visited trace t, u.Ordered oneOwner :=
  exists_run_and (KeepsOrder oneOwner) [.ensureRelease .midnight "p" "1.0" "x" false,
    .createRelease minuteLater "apex" "2.0" "y" false] (by decide +kernel)
    fun hrun hok => (run_ordered_iff ⟨by decide +kernel, by decide +kernel⟩ rfl hrun).mpr hok

/-- An issue that was resolved in the next release, which is `1.0`. -/
def boundIssue : GroupRow where
  id := "g"
  projectId := "p"
  groupingVersion := "v1"
  groupingKey := "k"
  title := ""
  culprit := ""
  level := "error"
  assignee := ""
  status := "resolved"
  resolutionSubstatus := "next_release"
  resolvedInRelease := "1.0"
  mergedIntoGroupId := ""
  firstSeen := ""
  lastSeen := ""
  timesSeen := 1
  lastEventId := ""
  shortId := some 1

/-- **The earlier release is the later one.** A release is created over the API, an event brings the
second one a minute later, and the second one is not at or after the first: the event does not
reopen the issue. -/
theorem event_release_not_after : ∃ trace t, Run (step oneOwner) noReleases trace t ∧
    t.versions "a" = ["1.0", "2.0"] ∧
    t.releaseIsAtOrAfter oneOwner "p" "2.0" "1.0" = .ok false ∧
    regression (some boundIssue) "2.0"
      (some (t.releaseIsAtOrAfter oneOwner "p" "2.0" "1.0")) = false ∧
    ¬t.Ordered oneOwner := by
  obtain ⟨trace, t, hrun, hversions, hanswer, hregression⟩ : ∃ trace t,
      Run (step oneOwner) noReleases trace t ∧ t.versions "a" = ["1.0", "2.0"] ∧
      t.releaseIsAtOrAfter oneOwner "p" "2.0" "1.0" = .ok false ∧
      regression (some boundIssue) "2.0" (some (t.releaseIsAtOrAfter oneOwner "p" "2.0" "1.0")) =
        false :=
    exists_run [.createRelease .midnight "apex" "1.0" "x" false,
      .ensureRelease minuteLater "p" "2.0" "y" false] (by decide +kernel)
  refine ⟨trace, t, hrun, hversions, hanswer, hregression, fun hordered => ?_⟩
  have howns : oneOwner.Owns "p" "a" := .inr ⟨_, mem_cons_self, rfl, rfl⟩
  have hinserted := (hordered "p" "a" howns).1.inserted "2.0" (by simp [hversions]) "1.0"
    (by simp [hversions])
  have hat : AtOrAfter (t.versions "a") "2.0" "1.0" := by
    rw [hversions]
    exact ⟨1, 0, rfl, rfl, Nat.zero_le 1⟩
  rw [← hinserted, hanswer] at hat
  cases hat

end Releases

end Urgentry
