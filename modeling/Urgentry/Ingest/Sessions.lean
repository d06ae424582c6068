import Urgentry.Ingest.EnvelopeHandler
import Urgentry.Sqlite.ReleaseHealthStore
import Mathlib.Data.List.Dedup

/-!
# Session items

`envelope_handler.go`: a `session` item is an update about one session, which names it by its `sid`.
A `sessions` item is a list of aggregates, each with the numbers of sessions that ended in one of
four ways. Both become rows of the release health store.

An SDK reports a session when it starts and again when it ends or when an error occurs, so there may
be many updates with the same `sid`. The insert path writes a row for each of them, with a quantity
of one and a fresh id, and `GetReleaseHealth` adds the quantities up. So it counts updates.

## The two counts

For a set of statuses, `expected` is the number of sessions whose *last* update has one of them,
plus the aggregates that have. It is what the summary is to report. `reported` is what the rows add
up to: the number of *updates* that have one of the statuses, plus the aggregates, of which those
that are not positive are skipped. Neither of the two deviations can make up for the other, because
both make the report larger (`reported_eq_expected_iff`).

## Main results

* `Sessions.counts_sessions_iff`: the summary counts sessions if and only if there is one update for
  each session, no aggregate has a negative number, and the sum is a number of 64 bits.
* `Sessions.crashed_session_counted_twice`: a session that starts and crashes is two sessions.
-/

namespace Urgentry

open GoText ReleaseHealthStore SqlSum Option

/-! ## Payloads -/

/-- `sessionPayload`. -/
structure SessionPayload where
  sessionID : String := ""
  distinctID : String := ""
  status : String := ""
  errors : ℤ := 0
  started : String := ""
  duration : ℚ := 0
  release : String := ""
  environment : String := ""
  attrs : List (String × String) := []
  userAgent : String := ""
deriving DecidableEq

/-- `sessionAggregate`. -/
structure SessionAggregate where
  started : String := ""
  exited : ℤ := 0
  errored : ℤ := 0
  abnormal : ℤ := 0
  crashed : ℤ := 0
deriving DecidableEq

/-- `sessionAggregatesPayload`. -/
structure SessionAggregatesPayload where
  release : String := ""
  environment : String := ""
  attrs : List (String × String) := []
  aggregates : List SessionAggregate := []
deriving DecidableEq

/-- `json.Unmarshal` into the two kinds of payload. -/
structure SessionJson where
  session : List UInt8 → Option SessionPayload
  sessions : List UInt8 → Option SessionAggregatesPayload

/-- `attrs[key]`. -/
def attr (attrs : List (String × String)) (key : String) : String := (attrs.lookup key).getD ""

/-- `sessionAttrs`: the release, the environment and the user agent. -/
def sessionAttrs (release environment userAgent : String) (attrs : List (String × String)) :
    String × String × String :=
  (orAttr release "release", orAttr environment "environment", orAttr userAgent "user_agent")
where
  /-- The value, or else the attribute. Without attributes there is none to find. -/
  orAttr (value key : String) : String :=
    if trimSpace value = "" then trimSpace (attr attrs key) else trimSpace value

/-- `parseSessionTime`. A fraction of a second is read with either layout. -/
def parseSessionTime (lib : GoLib) (raw : String) : Time :=
  if trimSpace raw = "" then ⟨0⟩ else (lib.parseRFC3339 (trimSpace raw)).getD ⟨0⟩

/-! ## Saving -/

section Saving

variable (lib : GoLib) (json : SessionJson) (projectID : String) (now : Time)

/-- A failure to save a session is logged. -/
def saveLogged (session : ReleaseSession) (rows : List SessionRow) : List SessionRow :=
  match ReleaseHealthStore.saveSession now session rows with
  | .ok rows => rows
  | .error _ => rows

/-- The release of an update. -/
def SessionPayload.version (session : SessionPayload) : String :=
  (sessionAttrs session.release session.environment session.userAgent session.attrs).1

/-- The session of an update. -/
def SessionPayload.toSession (session : SessionPayload) : ReleaseSession :=
  let resolved := sessionAttrs session.release session.environment session.userAgent session.attrs
  { projectID
    release := session.version
    environment := resolved.2.1
    sessionID := trimSpace session.sessionID
    distinctID := trimSpace session.distinctID
    status := trimSpace session.status
    errors := session.errors
    startedAt := parseSessionTime lib session.started
    duration := session.duration
    userAgent := resolved.2.2
    attrs := session.attrs
    quantity := 1
    dateCreated := now }

/-- `saveSession`. -/
def saveSession (payload : List UInt8) (rows : List SessionRow) : List SessionRow :=
  match json.session payload with
  | none => rows
  | some session =>
    if session.version = "" then rows
    else saveLogged now (session.toSession lib projectID now) rows

/-- `saveAggregateCount`. -/
def saveAggregateCount (session : ReleaseSession) (rows : List SessionRow) : List SessionRow :=
  if session.quantity ≤ 0 then rows else saveLogged now session rows

variable (payload : SessionAggregatesPayload)

/-- The release of aggregates. -/
def SessionAggregatesPayload.version : String :=
  (sessionAttrs payload.release payload.environment "" payload.attrs).1

variable (aggregate : SessionAggregate)

/-- What the four sessions of an aggregate have in common. -/
def SessionAggregatesPayload.toSession : ReleaseSession :=
  let resolved := sessionAttrs payload.release payload.environment "" payload.attrs
  { projectID
    release := payload.version
    environment := resolved.2.1
    startedAt := parseSessionTime lib aggregate.started
    userAgent := resolved.2.2
    attrs := payload.attrs
    dateCreated := now }

/-- The statuses of an aggregate with their numbers. -/
def SessionAggregate.parts : List (String × ℤ) :=
  [("exited", aggregate.exited), ("errored", aggregate.errored), ("abnormal", aggregate.abnormal),
    ("crashed", aggregate.crashed)]

/-- The session of a part. -/
def SessionAggregatesPayload.partSession (part : String × ℤ) : ReleaseSession :=
  { payload.toSession lib projectID now aggregate with
    status := part.1
    errors := if part.1 = "errored" then 1 else 0
    quantity := part.2 }

/-- `saveSessionAggregates`. The alert that follows reads only. -/
def saveSessionAggregates (payload : List UInt8) (rows : List SessionRow) : List SessionRow :=
  match json.sessions payload with
  | none => rows
  | some payload =>
    if payload.version = "" then rows
    else
      payload.aggregates.foldl (fun rows aggregate =>
        aggregate.parts.foldl (fun rows part =>
          saveAggregateCount now (payload.partSession lib projectID now aggregate part)
            rows) rows) rows

/-- What the handler does with an item, as far as sessions are concerned. -/
def saveSessionItem (item : EnvelopeItem) (rows : List SessionRow) : List SessionRow :=
  match item.kind with
  | .session => saveSession lib json projectID now item.payload rows
  | .sessions => saveSessionAggregates lib json projectID now item.payload rows
  | _ => rows

end Saving

/-- A sequence of items, each with the time at which it arrives. -/
def saveSessionItems (lib : GoLib) (json : SessionJson) (projectID : String)
    (items : List (EnvelopeItem × Time)) (rows : List SessionRow) : List SessionRow :=
  items.foldl (fun rows p => saveSessionItem lib json projectID p.2 p.1 rows) rows

/-! ## What is to be counted -/

/-- A session item, decoded. -/
inductive SessionItem
  | update (session : SessionPayload)
  | aggregates (payload : SessionAggregatesPayload)

/-- The session item in an item of an envelope. -/
def decodeSession (json : SessionJson) (item : EnvelopeItem) : Option SessionItem :=
  match item.kind with
  | .session => (json.session item.payload).map .update
  | .sessions => (json.sessions item.payload).map .aggregates
  | _ => none

/-- The release of a session item. -/
def SessionItem.release : SessionItem → String
  | .update s => s.version
  | .aggregates a => a.version

/-- The id of the session that an update is about. -/
def SessionPayload.sid (session : SessionPayload) : String := trimSpace session.sessionID

/-- The status of an update. -/
def SessionPayload.finalStatus (session : SessionPayload) : String :=
  statusOrOk (trimSpace session.status)

/-- An update names its session. -/
def SessionItem.Named : SessionItem → Prop
  | .update s => s.sid ≠ ""
  | .aggregates _ => True

/-- A session item of the release. -/
def OfRelease (json : SessionJson) (release : String) (item : EnvelopeItem) : Prop :=
  ∃ d, decodeSession json item = some d ∧ d.release = release ∧ d.Named

namespace Sessions

/-- The updates among some items. -/
def updates (items : List SessionItem) : List SessionPayload :=
  items.filterMap fun
    | .update s => some s
    | .aggregates _ => none

/-- The statuses and numbers of the aggregates. -/
def parts (items : List SessionItem) : List (String × ℤ) :=
  items.flatMap fun
    | .update _ => []
    | .aggregates a => a.aggregates.flatMap (·.parts)

@[simp]
theorem updates_update (s : SessionPayload) (items : List SessionItem) :
    updates (.update s :: items) = s :: updates items := rfl

variable (a : SessionAggregatesPayload) (items : List SessionItem)

@[simp]
theorem updates_aggregates : updates (.aggregates a :: items) = updates items := rfl

@[simp]
theorem parts_update (s : SessionPayload) (items : List SessionItem) :
    parts (.update s :: items) = parts items := rfl

@[simp]
theorem parts_aggregates :
    parts (.aggregates a :: items) = a.aggregates.flatMap (·.parts) ++ parts items := rfl

/-- The ids of the sessions, one for each update. -/
def sids : List String := (updates items).map (·.sid)

/-- The status of the last update of a session. -/
def lastStatus (sid : String) : String :=
  (((updates items).filter (·.sid = sid)).getLast?.map (·.finalStatus)).getD ""

/-- **What the summary is to report**: the sessions whose last update has one of these statuses,
each of them once, and the numbers of the aggregates. -/
def expected (statuses : String → Bool) (items : List SessionItem) : ℤ :=
  ((sids items).dedup.filter fun sid => statuses (lastStatus items sid)).length +
    weight Prod.snd (fun part => statuses part.1) (parts items)

/-- What the rows add up to. -/
def reported (statuses : String → Bool) (items : List SessionItem) : ℤ :=
  ((updates items).filter fun s => statuses s.finalStatus).length +
    weight (fun part => max part.2 0) (fun part => statuses part.1) (parts items)

/-- The items of a sequence, decoded. -/
def decoded (json : SessionJson) (items : List (EnvelopeItem × Time)) : List SessionItem :=
  items.filterMap fun p => decodeSession json p.1

/-- **The property**: the release has a summary, and it counts sessions. -/
def CountsSessions (parseTime : String → Time) (projectID release : String)
    (items : List SessionItem) (table : List SessionRow) : Prop :=
  ∃ summary, getReleaseHealth parseTime projectID release table = .ok summary ∧
    summary.sessionCount = expected (fun _ => true) items ∧
    summary.erroredSessions = expected (· = "errored") items ∧
    summary.crashedSessions = expected (· = "crashed") items ∧
    summary.abnormalSessions = expected (· = "abnormal") items

/-- **The condition**: one update for each session, no negative number, and no overflow. -/
structure Plain : Prop where
  single : (sids items).Nodup
  nonneg : ∀ part ∈ parts items, 0 ≤ part.2
  fits : expected (fun _ => true) items < 2 ^ 63

/-! ## What the items add -/

section Rows

variable {lib : GoLib} {json : SessionJson} {projectID release : String} {now : Time}
  {rows : List SessionRow} {statuses : String → Bool} {payload : List UInt8}
  {a : SessionAggregatesPayload} {g : SessionAggregate} {part : String × ℤ}

/-- **What a step adds**: rows of the release, which count so much for each set of statuses. -/
def Gains (projectID release : String) (rows rows' : List SessionRow)
    (amount : (String → Bool) → ℤ) : Prop :=
  ∃ new, rows' = rows ++ new ∧
    (∀ r ∈ new, ReleaseHealthStore.ofRelease projectID release r = true ∧ 0 < r.quantity) ∧
    ∀ statuses, count statuses new = amount statuses

theorem Gains.refl : Gains projectID release rows rows fun _ => 0 :=
  ⟨[], (List.append_nil rows).symm, List.forall_mem_nil _, fun _ => rfl⟩

theorem Gains.trans {rows' rows'' : List SessionRow} {amount amount' : (String → Bool) → ℤ}
    (h : Gains projectID release rows rows' amount)
    (h' : Gains projectID release rows' rows'' amount') :
    Gains projectID release rows rows'' fun statuses => amount statuses + amount' statuses := by
  obtain ⟨new, rfl, hnew, hcount⟩ := h
  obtain ⟨new', rfl, hnew', hcount'⟩ := h'
  refine ⟨new ++ new', List.append_assoc .., List.forall_mem_append.mpr ⟨hnew, hnew'⟩,
    fun statuses => ?_⟩
  show count statuses (new ++ new') = amount statuses + amount' statuses
  rw [← hcount, ← hcount', count, count, count, weight_append]

/-- A loop that adds something in every round. -/
theorem Gains.foldl {α : Type} {step : List SessionRow → α → List SessionRow}
    {amount : α → (String → Bool) → ℤ} {l : List α}
    (h : ∀ a ∈ l, ∀ rows, Gains projectID release rows (step rows a) (amount a)) :
    Gains projectID release rows (l.foldl step rows)
      fun statuses => (l.map fun a => amount a statuses).sum := by
  induction l generalizing rows with
  | nil => exact Gains.refl
  | cons a l ih =>
    rw [List.forall_mem_cons] at h
    exact (h.1 rows).trans (ih h.2)

/-- A session that is saved counts with its status and its quantity. -/
theorem gains_saveLogged {session : ReleaseSession} {status : String} {quantity : ℤ}
    (hproject : session.projectID = projectID ∧ projectID ≠ "")
    (hrelease : session.release = release ∧ trimSpace release ≠ "")
    (hstatus : statusOrOk session.status = status)
    (hquantity : quantityOrOne session.quantity = quantity) :
    Gains projectID release rows (saveLogged now session rows)
      fun statuses => if statuses status then quantity else 0 := by
  obtain ⟨rfl, hproject⟩ := hproject
  obtain ⟨rfl, hrelease⟩ := hrelease
  have hsave : ReleaseHealthStore.saveSession now session rows =
      .ok (rows ++ [sessionRow now session]) := by
    rw [ReleaseHealthStore.saveSession, if_neg (not_or.mpr ⟨hproject, hrelease⟩)]
  refine ⟨[sessionRow now session], by rw [saveLogged, hsave], ?_, ?_⟩
  · rw [List.forall_mem_singleton]
    exact ⟨by simp [ReleaseHealthStore.ofRelease, sessionRow], quantity_sessionRow_pos now session⟩
  · intro statuses
    rw [count, weight_cons, weight_nil, add_zero, ← hstatus, ← hquantity]
    rfl

theorem trimSpace_sessionAttrs (release environment userAgent : String)
    (attrs : List (String × String)) :
    trimSpace (sessionAttrs release environment userAgent attrs).1 =
      (sessionAttrs release environment userAgent attrs).1 := by
  simp only [sessionAttrs, sessionAttrs.orAttr]
  split <;> exact trimSpace_trimSpace _

/-- What an item is worth: an update one, an aggregate its positive numbers. -/
def worth (statuses : String → Bool) : SessionItem → ℤ
  | .update s => if statuses s.finalStatus then 1 else 0
  | .aggregates a =>
    weight (fun part => max part.2 0) (fun part => statuses part.1) (a.aggregates.flatMap (·.parts))

theorem gains_saveSession {s : SessionPayload} (hproject : projectID ≠ "") (hrelease : release ≠ "")
    (hdecode : json.session payload = some s) (hof : s.version = release) :
    Gains projectID release rows (saveSession lib json projectID now payload rows)
      fun statuses => worth statuses (.update s) := by
  subst hof
  have htrim : trimSpace s.version ≠ "" := by
    rwa [SessionPayload.version, trimSpace_sessionAttrs]
  simp only [saveSession, hdecode, if_neg hrelease]
  refine gains_saveLogged ⟨?_, hproject⟩ ⟨?_, htrim⟩ ?_ ?_
  · simp only [SessionPayload.toSession]
  · simp only [SessionPayload.toSession]
  · simp only [SessionPayload.toSession, SessionPayload.finalStatus]
  · simp only [SessionPayload.toSession]
    decide

theorem gains_saveAggregateCount (hproject : projectID ≠ "") (hrelease : release ≠ "")
    (hof : a.version = release) (hstatus : part.1 ≠ "") :
    Gains projectID release rows
      (saveAggregateCount now (a.partSession lib projectID now g part) rows)
      fun statuses => if statuses part.1 then max part.2 0 else 0 := by
  subst hof
  have hfields : (a.partSession lib projectID now g part).status = part.1 ∧
      (a.partSession lib projectID now g part).quantity = part.2 := ⟨rfl, rfl⟩
  rw [saveAggregateCount, hfields.2]
  split
  · rename_i hle
    simp only [max_eq_right hle, ite_self]
    exact Gains.refl
  · rename_i hpos
    have htrim : trimSpace a.version ≠ "" := by
      rwa [SessionAggregatesPayload.version, trimSpace_sessionAttrs]
    refine gains_saveLogged ⟨?_, hproject⟩ ⟨?_, htrim⟩ ?_ ?_
    · simp only [SessionAggregatesPayload.partSession, SessionAggregatesPayload.toSession]
    · simp only [SessionAggregatesPayload.partSession, SessionAggregatesPayload.toSession]
    · rw [hfields.1, statusOrOk, if_neg hstatus]
    · rw [quantityOrOne]
      omega

theorem part_ne_empty (h : part ∈ g.parts) : part.1 ≠ "" := by
  simp only [SessionAggregate.parts, List.mem_cons, List.not_mem_nil, or_false] at h
  rcases h with rfl | rfl | rfl | rfl <;> simp

theorem gains_saveSessionAggregates (hproject : projectID ≠ "") (hrelease : release ≠ "")
    (hdecode : json.sessions payload = some a) (hof : a.version = release) :
    Gains projectID release rows (saveSessionAggregates lib json projectID now payload rows)
      fun statuses => worth statuses (.aggregates a) := by
  have hne : a.version ≠ "" := hof.trans_ne hrelease
  simp only [saveSessionAggregates, hdecode, if_neg hne, worth, weight_flatMap]
  refine Gains.foldl ?_
  intro g _ rows
  refine Gains.foldl ?_
  intro part hpart rows
  exact gains_saveAggregateCount hproject hrelease hof (part_ne_empty hpart)

/-- One item. -/
theorem gains_saveSessionItem {item : EnvelopeItem} {d : SessionItem} (hproject : projectID ≠ "")
    (hrelease : release ≠ "") (hdecode : decodeSession json item = some d)
    (hof : d.release = release) :
    Gains projectID release rows (saveSessionItem lib json projectID now item rows)
      fun statuses => worth statuses d := by
  rw [decodeSession] at hdecode
  rw [saveSessionItem]
  split at hdecode
  · obtain ⟨s, hs, rfl⟩ := map_eq_some_iff.mp hdecode
    exact gains_saveSession hproject hrelease hs hof
  · obtain ⟨a, ha, rfl⟩ := map_eq_some_iff.mp hdecode
    exact gains_saveSessionAggregates hproject hrelease ha hof
  · cases hdecode

theorem reported_eq_sum (statuses : String → Bool) (items : List SessionItem) :
    reported statuses items = (items.map (worth statuses)).sum := by
  induction items with
  | nil => rfl
  | cons d items ih =>
    rw [List.map_cons, List.sum_cons, ← ih]
    cases d with
    | update s =>
      rw [reported, reported, updates_update, parts_update, worth, List.filter_cons]
      split
      · rw [List.length_cons]
        omega
      · omega
    | aggregates a =>
      rw [reported, reported, updates_aggregates, parts_aggregates, worth, weight_append]
      omega

/-- A sequence of items. -/
theorem gains_saveSessionItems (lib : GoLib) (rows : List SessionRow)
    {items : List (EnvelopeItem × Time)} (hproject : projectID ≠ "")
    (hrelease : release ≠ "") (hitems : ∀ p ∈ items, OfRelease json release p.1) :
    Gains projectID release rows (saveSessionItems lib json projectID items rows)
      fun statuses => reported statuses (decoded json items) := by
  simp only [reported_eq_sum]
  induction items generalizing rows with
  | nil => exact Gains.refl
  | cons p items ih =>
    rw [List.forall_mem_cons] at hitems
    obtain ⟨⟨d, hdecode, hof, -⟩, hitems⟩ := hitems
    have hcons : decoded json (p :: items) = d :: decoded json items :=
      List.filterMap_cons_some hdecode
    rw [hcons]
    exact (gains_saveSessionItem hproject hrelease hdecode hof).trans (ih _ hitems)

end Rows

/-! ## Updates and sessions -/

section Counting

variable {items : List SessionItem} {statuses : String → Bool}

/-- If the sessions are different, the only update of a session is its last. -/
theorem lastStatus_of_nodup (h : (sids items).Nodup) {s : SessionPayload} (hs : s ∈ updates items) :
    lastStatus items s.sid = s.finalStatus := by
  have hinj : ∀ s' ∈ updates items, s'.sid = s.sid → s' = s := by
    intro s' hs' heq
    exact List.inj_on_of_nodup_map h hs' hs heq
  have hlast : ∀ s', ((updates items).filter (·.sid = s.sid)).getLast? = some s' → s' = s := by
    intro s' hs'
    obtain ⟨hmem, heq⟩ := List.mem_filter.mp (List.mem_of_getLast? hs')
    exact hinj s' hmem (of_decide_eq_true heq)
  have hmem : s ∈ (updates items).filter (·.sid = s.sid) :=
    List.mem_filter.mpr ⟨hs, decide_eq_true rfl⟩
  rw [lastStatus, List.getLast?_eq_some_getLast (List.ne_nil_of_mem hmem),
    hlast _ (List.getLast?_eq_some_getLast (List.ne_nil_of_mem hmem))]
  rfl

theorem expected_eq_reported (h : (sids items).Nodup) (hnonneg : ∀ part ∈ parts items, 0 ≤ part.2)
    (statuses : String → Bool) : expected statuses items = reported statuses items := by
  have hupdates : (updates items).filter (fun s => statuses (lastStatus items s.sid)) =
      (updates items).filter fun s => statuses s.finalStatus := by
    refine List.filter_congr ?_
    intro s hs
    rw [lastStatus_of_nodup h hs]
  have hparts : weight Prod.snd (fun part => statuses part.1) (parts items) =
      weight (fun part => max part.2 0) (fun part => statuses part.1) (parts items) :=
    weight_congr fun part hpart => (max_eq_left (hnonneg part hpart)).symm
  rw [expected, reported, h.dedup, ← hupdates, hparts, sids, List.filter_map, List.length_map]
  rfl

/-- **Both deviations make the report larger**, so that it is right only without either. -/
theorem reported_eq_expected_iff :
    reported (fun _ => true) items = expected (fun _ => true) items ↔
      (sids items).Nodup ∧ ∀ part ∈ parts items, 0 ≤ part.2 := by
  constructor
  · intro h
    have hle : ∀ part ∈ parts items, part.2 ≤ max part.2 0 := fun part _ => le_max_left _ _
    have hparts := weight_mono (p := fun _ => true) hle
    have hdedup := (List.dedup_sublist (sids items)).length_le
    have hsids : (sids items).length = (updates items).length := List.length_map ..
    simp only [reported, expected, List.filter_true] at h
    have hlength : (sids items).dedup.length = (sids items).length := by omega
    refine ⟨?_, ?_⟩
    · rw [← List.dedup_eq_self]
      exact (List.dedup_sublist (sids items)).eq_of_length hlength
    · intro part hpart
      have hmax := eq_of_weight_eq hle (by omega) part hpart
      omega
  · rintro ⟨hnodup, hnonneg⟩
    exact (expected_eq_reported hnodup hnonneg _).symm

end Counting

/-! ## The summary -/

/-- **Release health counts sessions** if and only if there is one update for each session, no
aggregate has a negative number, and the sum fits. The items may be any session items of the release
in any order, and the table any table without rows of the release. -/
theorem counts_sessions_iff (lib : GoLib) (json : SessionJson) (parseTime : String → Time)
    (projectID release : String) (hproject : projectID ≠ "") (hrelease : release ≠ "")
    (table : List SessionRow) (hnew : ∀ r ∈ table, ofRelease projectID release r = false)
    (items : List (EnvelopeItem × Time)) (hitems : ∀ p ∈ items, OfRelease json release p.1) :
    CountsSessions parseTime projectID release (decoded json items)
        (saveSessionItems lib json projectID items table) ↔
      Plain (decoded json items) := by
  obtain ⟨new, hrows, hnewRows, hcount⟩ :=
    gains_saveSessionItems lib table hproject hrelease hitems
  simp only at hcount
  have hfilter : (saveSessionItems lib json projectID items table).filter
      (ofRelease projectID release) = new := by
    rw [hrows, List.filter_append, List.filter_eq_nil_iff.mpr (by simpa using hnew),
      List.filter_eq_self.mpr fun r hr => (hnewRows r hr).1, List.nil_append]
  have hpos : ∀ r ∈ (saveSessionItems lib json projectID items table).filter
      (ofRelease projectID release), 0 < r.quantity := by
    rw [hfilter]
    exact fun r hr => (hnewRows r hr).2
  constructor
  · rintro ⟨summary, hsummary, htotal, -⟩
    by_cases hfits : reported (fun _ => true) (decoded json items) < 2 ^ 63
    · obtain ⟨summary', hsummary', hcounts, -⟩ := getReleaseHealth_eq parseTime hpos
        (by rwa [hfilter, hcount])
      rw [hsummary'] at hsummary
      cases hsummary
      rw [hfilter, hcount] at hcounts
      have hequal := hcounts.symm.trans htotal
      obtain ⟨hnodup, hnonneg⟩ := reported_eq_expected_iff.mp hequal
      exact ⟨hnodup, hnonneg, by rwa [← hequal]⟩
    · obtain ⟨err, herr⟩ := getReleaseHealth_overflow parseTime hpos
        (by rwa [hfilter, hcount])
      rw [herr] at hsummary
      cases hsummary
  · rintro ⟨hnodup, hnonneg, hfits⟩
    have hexpected := expected_eq_reported hnodup hnonneg
    obtain ⟨summary, hsummary, hcounts⟩ := getReleaseHealth_eq parseTime hpos
      (by rwa [hfilter, hcount, ← hexpected])
    simp only [hfilter, hcount, ← hexpected] at hcounts
    exact ⟨summary, hsummary, hcounts⟩

/-- A decoder for three payloads: a session that starts, the same session when it crashes, and an
aggregate of three sessions. -/
def threePayloads : SessionJson where
  session payload :=
    if payload = [0] then some { sessionID := "s1", status := "ok", release := "1.0" }
    else if payload = [1] then some { sessionID := "s1", status := "crashed", release := "1.0" }
    else none
  sessions payload :=
    if payload = [2] then some { release := "1.0", aggregates := [{ exited := 2, errored := 1 }] }
    else none

theorem ofRelease_start : OfRelease threePayloads "1.0" ⟨"session", "", "", [0]⟩ :=
  ⟨.update { sessionID := "s1", status := "ok", release := "1.0" }, rfl, by decide +kernel,
    (by decide +kernel : trimSpace "s1" ≠ "")⟩

theorem ofRelease_crash : OfRelease threePayloads "1.0" ⟨"session", "", "", [1]⟩ :=
  ⟨.update { sessionID := "s1", status := "crashed", release := "1.0" }, rfl, by decide +kernel,
    (by decide +kernel : trimSpace "s1" ≠ "")⟩

theorem ofRelease_aggregate : OfRelease threePayloads "1.0" ⟨"sessions", "", "", [2]⟩ :=
  ⟨.aggregates { release := "1.0", aggregates := [{ exited := 2, errored := 1 }] }, rfl,
    by decide +kernel, trivial⟩

/-- One update and an aggregate. -/
theorem counts_sessions_iff_aggregate : CountsSessions (fun _ => ⟨0⟩) "p" "1.0"
    (decoded threePayloads [(⟨"session", "", "", [1]⟩, ⟨0⟩), (⟨"sessions", "", "", [2]⟩, ⟨0⟩)])
    (saveSessionItems asciiLib threePayloads "p"
      [(⟨"session", "", "", [1]⟩, ⟨0⟩), (⟨"sessions", "", "", [2]⟩, ⟨0⟩)] []) := by
  refine (counts_sessions_iff asciiLib threePayloads _ "p" "1.0" (by decide) (by decide) []
    (List.forall_mem_nil _) _ ?_).mpr ?_
  · intro p hp
    rcases List.mem_pair.mp hp with rfl | rfl
    · exact ofRelease_crash
    · exact ofRelease_aggregate
  · exact ⟨by decide +kernel, by decide +kernel, by decide +kernel⟩

/-- **A session is counted twice.** It is reported when it starts and when it crashes. The summary
has two sessions, one of which crashed, although there is only the one. -/
theorem crashed_session_counted_twice :
    (∀ p ∈ ([(⟨"session", "", "", [0]⟩, ⟨0⟩), (⟨"session", "", "", [1]⟩, ⟨0⟩)] :
      List (EnvelopeItem × Time)), OfRelease threePayloads "1.0" p.1) ∧
    ¬CountsSessions (fun _ => ⟨0⟩) "p" "1.0"
      (decoded threePayloads [(⟨"session", "", "", [0]⟩, ⟨0⟩), (⟨"session", "", "", [1]⟩, ⟨0⟩)])
      (saveSessionItems asciiLib threePayloads "p"
        [(⟨"session", "", "", [0]⟩, ⟨0⟩), (⟨"session", "", "", [1]⟩, ⟨0⟩)] []) := by
  constructor
  · intro p hp
    rcases List.mem_pair.mp hp with rfl | rfl
    · exact ofRelease_start
    · exact ofRelease_crash
  · rintro ⟨summary, hsummary, htotal, -⟩
    have hok :
      (getReleaseHealth (fun _ => ⟨0⟩) "p" "1.0" (saveSessionItems asciiLib threePayloads "p"
        [(⟨"session", "", "", [0]⟩, ⟨0⟩), (⟨"session", "", "", [1]⟩, ⟨0⟩)] [])).toOption.map
          (·.sessionCount) = some 2 := by decide +kernel
    have hexpected : expected (fun _ => true) (decoded threePayloads
        [(⟨"session", "", "", [0]⟩, ⟨0⟩), (⟨"session", "", "", [1]⟩, ⟨0⟩)]) = 1 := by decide +kernel
    rw [hsummary] at hok
    have htwo : summary.sessionCount = 2 := some.inj hok
    omega

end Sessions

end Urgentry
