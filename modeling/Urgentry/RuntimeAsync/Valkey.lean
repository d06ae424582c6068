import Urgentry.Clock
import Urgentry.Internal.ExpiringStore
import Urgentry.Internal.GoText
import Urgentry.Internal.Run

/-!
# Leases in Valkey

`valkey.go`: the schedulers of an installation share one lease. `AcquireLease` asks for the lease's
key; if there is none it sets the key to the caller's name unless the key is there by now (`SET …
NX`); if the key has the caller's name it renews its time to live (`EXPIRE`), and then it answers
`true` whatever the command found.

So an answer is the result of two commands, and the server runs commands of other callers between
them, or lets the key expire.

## What is modelled

The server runs one command at a time and there is one clock. A call is its next command. Any
number of calls by any number of holders are in progress, and a reply can get lost, which the caller
sees as an error. What `true` promises is kept as a list of grants, each with the entry that the
server had for the key at that instant.

The Redis client turns a time to live into the unit of the command: whole milliseconds for `SET` and
whole seconds for `EXPIRE`. It is not part of the repository, so it is a parameter (`Client`).

## Main results

* `LeaseServer.run_backed_iff`: in every run, every grant is backed by the server if and only if
  every renewal finds the caller's name and no time to live is cut short by the client; and if
  moreover no renewal makes a key expire earlier than it would have, different holders are never
  granted overlapping periods.
-/

namespace Urgentry

open ExpiringStore Trace Option Function List

/-- The times to live that the client sends, in nanoseconds. -/
structure ValkeyClient where
  (setTTL expireTTL : ℕ → ℕ)

/-- The next command of a call. -/
inductive AcquirePhase
  | get
  | set
  | expire
deriving DecidableEq

/-- A call of `AcquireLease` in progress. -/
structure AcquireCall where
  (key holder : String)
  /-- The time to live, in nanoseconds. -/
  ttl : ℕ
  ttl_pos : 0 < ttl
  phase : AcquirePhase
deriving DecidableEq

/-- A call that returned `true`. -/
structure Grant where
  (key holder : String)
  (since ttl : ℕ)
  /-- The entry of the key at that instant. -/
  entry : Option (Entry String)
deriving DecidableEq

/-- The lease key has the holder's name, with the full time to live ahead. -/
def Grant.Backed (g : Grant) : Prop :=
  ∃ e ∈ g.entry, e.value = g.holder ∧ g.since + g.ttl ≤ e.till
deriving Decidable

/-- The two grants are for one lease and their periods overlap. -/
def Grant.Overlaps (g g' : Grant) : Prop :=
  g.key = g'.key ∧ g.since < g'.since + g'.ttl ∧ g'.since < g.since + g.ttl
deriving Decidable

/-- The server and its callers. -/
structure LeaseServer where
  store : Store String String
  clock : ℕ
  calls : List AcquireCall
  /-- The grants, latest first. -/
  grants : List Grant

/-- What can happen. -/
inductive LeaseServerAction
  /-- Time passes. -/
  | tick (clock : ℕ)
  /-- A call starts. -/
  | acquireLease (name holderID : String) (ttl : Duration)
  /-- The next command of a call runs; its reply reaches the caller or gets lost. -/
  | command (c : AcquireCall) (answered : Bool)

namespace LeaseServer

/-- A server on which nobody holds a lease. -/
def start (clock : ℕ) : LeaseServer := ⟨fun _ => none, clock, [], []⟩

/-- The key of a lease. -/
def leaseKey (name : String) : String := "urgentry:lease:" ++ GoText.trimSpace name

/-- The time to live of a call, in nanoseconds: 30 seconds when it asks for none. -/
def effectiveTTL (ttl : Duration) : ℕ :=
  if ttl ≤ 0 then 30 * 10 ^ 9 else ttl.toInt.toNat

theorem effectiveTTL_pos (ttl : Duration) : 0 < effectiveTTL ttl := by
  rw [effectiveTTL]
  split
  · decide
  · next hpos =>
    have hlt := Int64.lt_iff_toInt_lt.mp (Int64.not_le.mp hpos)
    have hzero : (0 : Int64).toInt = 0 := by decide
    omega

variable (s : LeaseServer) (c : AcquireCall)

/-- The call has returned. -/
def returned : LeaseServer :=
  { s with calls := s.calls.erase c }

/-- The call has its next command ahead. -/
def moveTo (phase : AcquirePhase) : LeaseServer :=
  { s with calls := { c with phase } :: s.calls.erase c }

/-- The call has returned `true`. -/
def grant : LeaseServer :=
  { s.returned c with
    grants := ⟨c.key, c.holder, s.clock, c.ttl, s.store.live s.clock c.key⟩ :: s.grants }

variable (client : ValkeyClient) (s : LeaseServer)

/-- The server runs the next command of the call. -/
def runCommand (c : AcquireCall) (answered : Bool) : LeaseServer :=
  match c.phase with
  | .get =>
    if answered then
      match s.store.live s.clock c.key with
      | none => s.moveTo c .set
      | some e => if e.value ≠ c.holder then s.returned c else s.moveTo c .expire
    else s.returned c
  | .set =>
    match s.store.setNX s.clock c.key c.holder (client.setTTL c.ttl) with
    | none => s.returned c
    | some store =>
      let s := { s with store }
      if answered then s.grant c else s.returned c
  | .expire =>
    let s := { s with store := s.store.expire s.clock c.key (client.expireTTL c.ttl) }
    if answered then s.grant c else s.returned c

/-- One step. -/
def step : LeaseServerAction → Option LeaseServer
  | .tick clock => if s.clock ≤ clock then some { s with clock } else none
  | .acquireLease name holderID ttl =>
    some { s with calls :=
      ⟨leaseKey name, holderID, effectiveTTL ttl, effectiveTTL_pos ttl, .get⟩ :: s.calls }
  | .command c answered => if c ∈ s.calls then some (s.runCommand client c answered) else none

/-- **The first property.** Every `true` was true when it was returned. -/
def Backed : Prop := ∀ g ∈ s.grants, g.Backed
deriving Decidable

/-- **The second property.** Different holders were not granted overlapping periods. -/
def Disjoint : Prop :=
  ∀ g ∈ s.grants, ∀ g' ∈ s.grants, g.holder ≠ g'.holder → ¬g.Overlaps g'
deriving Decidable

/-- **The condition for the first property.** A renewal finds the caller's name, and the client does
not cut a time to live short. Only commands that lead to `true` matter. -/
def Truthful : LeaseServerAction → Prop
  | .command c answered =>
    answered = true → match c.phase with
      | .get => True
      | .set => s.store.live s.clock c.key = none → c.ttl ≤ client.setTTL c.ttl
      | .expire => (∃ e ∈ s.store.live s.clock c.key, e.value = c.holder) ∧
        c.ttl ≤ client.expireTTL c.ttl
  | _ => True

/-- **The condition for the second property.** No renewal makes a key expire earlier. -/
def Lengthening : LeaseServerAction → Prop
  | .command c _ => c.phase = .expire → ∀ e ∈ s.store.live s.clock c.key,
      e.till ≤ s.clock + client.expireTTL c.ttl
  | _ => True

/-! ## Steps -/

variable {client} {s t : LeaseServer} {a : LeaseServerAction} {c : AcquireCall} {answered : Bool}

/-- The grant that a call gets in this state. -/
def newGrant (s : LeaseServer) (c : AcquireCall) : Grant :=
  ⟨c.key, c.holder, s.clock, c.ttl, s.store.live s.clock c.key⟩

/-- What the server does for a call, said once: nothing, or it sets a key that is not there, or it
renews a key. After the last two the call may be granted. -/
inductive Effect (client : ValkeyClient) (s : LeaseServer) (c : AcquireCall) (answered : Bool)
    (t : LeaseServer) : Prop
  | none (hphase : c.phase = .get ∨ c.phase = .set ∧ s.store.live s.clock c.key ≠ none)
    (hstore : t.store = s.store) (hgrants : t.grants = s.grants)
  | set (hphase : c.phase = .set) (hfree : s.store.live s.clock c.key = none)
    (hstore : t.store =
      Function.update s.store c.key (some ⟨c.holder, s.clock + client.setTTL c.ttl⟩))
    (hgrants : t.grants = if answered then t.newGrant c :: s.grants else s.grants)
  | expire (hphase : c.phase = .expire)
    (hstore : t.store = s.store.expire s.clock c.key (client.expireTTL c.ttl))
    (hgrants : t.grants = if answered then t.newGrant c :: s.grants else s.grants)

theorem clock_runCommand (s : LeaseServer) (c : AcquireCall) (answered : Bool) :
    (s.runCommand client c answered).clock = s.clock := by
  rw [runCommand]
  split
  · split
    · split
      · rfl
      · split <;> rfl
    · rfl
  · split
    · rfl
    · simp only
      split <;> rfl
  · simp only
    split <;> rfl

theorem effect_runCommand (client : ValkeyClient) (s : LeaseServer) (c : AcquireCall)
    (answered : Bool) :
    Effect client s c answered (s.runCommand client c answered) := by
  rw [runCommand]
  split
  · next hphase =>
    split
    · split
      · exact .none (.inl hphase) rfl rfl
      · split
        · exact .none (.inl hphase) rfl rfl
        · exact .none (.inl hphase) rfl rfl
    · exact .none (.inl hphase) rfl rfl
  · next hphase =>
    split
    · next hset =>
      refine .none (.inr ⟨hphase, fun hfree => ?_⟩) rfl rfl
      rw [Store.setNX, hfree] at hset
      cases hset
    · next store hset =>
      obtain ⟨hfree, rfl⟩ := Store.setNX_eq_some_iff.mp hset
      cases answered with
      | false => exact .set hphase hfree rfl rfl
      | true => exact .set hphase hfree rfl rfl
  · next hphase =>
    cases answered with
    | false => exact .expire hphase rfl rfl
    | true => exact .expire hphase rfl rfl

/-- A grant after `SET` is backed if the client did not cut the time to live short. -/
theorem backed_of_set (hclock : t.clock = s.clock) (hstore : t.store =
      update s.store c.key (some ⟨c.holder, s.clock + client.setTTL c.ttl⟩)) :
    (t.newGrant c).Backed ↔ c.ttl ≤ client.setTTL c.ttl := by
  have hentry : (t.newGrant c).entry =
      Store.live (update s.store c.key (some ⟨c.holder, s.clock + client.setTTL c.ttl⟩))
        s.clock c.key := by
    rw [newGrant, hstore, hclock]
  have hpos := c.ttl_pos
  constructor
  · rintro ⟨e, he, -, htill⟩
    rw [hentry, mem_def, Store.live_eq_some_iff, update_self] at he
    obtain ⟨⟨⟩, -⟩ := he
    change t.clock + c.ttl ≤ s.clock + client.setTTL c.ttl at htill
    omega
  · intro hle
    refine ⟨⟨c.holder, s.clock + client.setTTL c.ttl⟩, ?_, rfl, ?_⟩
    · rw [hentry]
      exact Store.live_update_self (show s.clock < s.clock + client.setTTL c.ttl by omega)
    · show t.clock + c.ttl ≤ s.clock + client.setTTL c.ttl
      omega

/-- A grant after `EXPIRE` is backed if the key was there with the caller's name, and the client did
not cut the time to live short. -/
theorem backed_of_expire (hclock : t.clock = s.clock)
    (hstore : t.store = s.store.expire s.clock c.key (client.expireTTL c.ttl)) :
    (t.newGrant c).Backed ↔ (∃ e ∈ s.store.live s.clock c.key, e.value = c.holder) ∧
      c.ttl ≤ client.expireTTL c.ttl := by
  have hpos := c.ttl_pos
  cases hlive : s.store.live s.clock c.key with
  | none =>
    have hentry : (t.newGrant c).entry = none := by
      rw [newGrant, hstore, hclock, Store.expire_of_not_live hlive, hlive]
    constructor
    · rintro ⟨e, he, -⟩
      rw [hentry] at he
      exact absurd he nofun
    · rintro ⟨⟨e, he, -⟩, -⟩
      exact absurd he nofun
  | some e =>
    have hentry : (t.newGrant c).entry = Store.live (update s.store c.key
        (some { e with till := s.clock + client.expireTTL c.ttl })) s.clock c.key := by
      rw [newGrant, hstore, hclock, Store.expire_of_live hlive]
    constructor
    · rintro ⟨e', he', hvalue, htill⟩
      rw [hentry, mem_def, Store.live_eq_some_iff, update_self] at he'
      obtain ⟨⟨⟩, -⟩ := he'
      change t.clock + c.ttl ≤ s.clock + client.expireTTL c.ttl at htill
      exact ⟨⟨e, rfl, hvalue⟩, by omega⟩
    · rintro ⟨⟨_, ⟨⟩, hvalue⟩, hle⟩
      refine ⟨{ e with till := s.clock + client.expireTTL c.ttl }, ?_, hvalue, ?_⟩
      · rw [hentry]
        exact Store.live_update_self (show s.clock < s.clock + client.expireTTL c.ttl by omega)
      · show t.clock + c.ttl ≤ s.clock + client.expireTTL c.ttl
        omega

theorem Backed.cons {grants : List Grant} {g : Grant} (hgrants : t.grants = g :: grants) :
    t.Backed ↔ g.Backed ∧ ∀ g' ∈ grants, g'.Backed := by
  rw [Backed, hgrants, forall_mem_cons]

/-- **A step backs its grant if and only if it meets the condition.** -/
theorem backed_step_iff (h : s.Backed) (hstep : step client s a = some t) :
    t.Backed ↔ s.Truthful client a := by
  cases a with
  | tick clock =>
    obtain ⟨-, ⟨⟩⟩ := ite_none_right_eq_some.mp hstep
    exact ⟨fun _ => trivial, fun _ => h⟩
  | acquireLease name holderID ttl =>
    cases hstep
    exact ⟨fun _ => trivial, fun _ => h⟩
  | command c answered =>
    obtain ⟨-, ⟨⟩⟩ := ite_none_right_eq_some.mp hstep
    have hclock : (s.runCommand client c answered).clock = s.clock := clock_runCommand s c answered
    cases effect_runCommand client s c answered with
    | none hphase hstore hgrants =>
      have htrue : s.Truthful client (.command c answered) := by
        intro _
        rcases hphase with hphase | ⟨hphase, hlive⟩
        · simp only [hphase]
        · simp only [hphase]
          exact fun hfree => absurd hfree hlive
      rw [Backed, hgrants]
      exact ⟨fun _ => htrue, fun _ => h⟩
    | set hphase hfree hstore hgrants =>
      cases answered with
      | false =>
        rw [Backed, hgrants]
        exact ⟨fun _ => nofun, fun _ => h⟩
      | true =>
        rw [Backed.cons hgrants, backed_of_set hclock hstore]
        simp only [Truthful, hphase, hfree, forall_const]
        exact and_iff_left h
    | expire hphase hstore hgrants =>
      cases answered with
      | false =>
        rw [Backed, hgrants]
        exact ⟨fun _ => nofun, fun _ => h⟩
      | true =>
        rw [Backed.cons hgrants, backed_of_expire hclock hstore]
        simp only [Truthful, hphase, forall_const]
        exact and_iff_left h

/-! ## Disjoint periods -/

/-- What is carried along a run: no grant lies in the future, a grant whose period is running still
has its key, for at least the rest of the period, and different holders have disjoint periods. -/
structure Kept (s : LeaseServer) : Prop where
  backed : s.Backed
  past : ∀ g ∈ s.grants, g.since ≤ s.clock
  running : ∀ g ∈ s.grants, s.clock < g.since + g.ttl →
    ∃ e ∈ s.store.live s.clock g.key, e.value = g.holder ∧ g.since + g.ttl ≤ e.till
  disjoint : s.Disjoint

theorem Kept.tick {clock : ℕ} (h : s.Kept) (hclock : s.clock ≤ clock) :
    ({ s with clock } : LeaseServer).Kept where
  backed := h.backed
  past g hg := (h.past g hg).trans hclock
  running := by
    intro g hg hlt
    obtain ⟨e, he, hvalue, htill⟩ := h.running g hg (lt_of_le_of_lt hclock hlt)
    exact ⟨e, Store.live_later he (lt_of_lt_of_le hlt htill), hvalue, htill⟩
  disjoint := h.disjoint

/-- The key of a grant is there for the rest of its period. -/
def HasKey (s : LeaseServer) (g : Grant) : Prop :=
  s.clock < g.since + g.ttl →
    ∃ e ∈ s.store.live s.clock g.key, e.value = g.holder ∧ g.since + g.ttl ≤ e.till

theorem Kept.same (h : s.Kept) (hclock : t.clock = s.clock) (hgrants : t.grants = s.grants)
    (hkeys : ∀ g ∈ s.grants, t.HasKey g) : t.Kept where
  backed := by
    rw [Backed, hgrants]
    exact h.backed
  past := by
    rw [hgrants, hclock]
    exact h.past
  running := by
    rw [hgrants]
    exact hkeys
  disjoint := by
    rw [Disjoint, hgrants]
    exact h.disjoint

/-- A new grant keeps the invariant when nobody else's period is running. -/
theorem Kept.grant (h : s.Kept) (hclock : t.clock = s.clock)
    (hgrants : t.grants = t.newGrant c :: s.grants) (hbacked : (t.newGrant c).Backed)
    (hkeys : ∀ g ∈ s.grants, t.HasKey g)
    (hother : ∀ g ∈ s.grants, g.key = c.key → s.clock < g.since + g.ttl → g.holder = c.holder) :
    t.Kept where
  backed := (Backed.cons hgrants).mpr ⟨hbacked, h.backed⟩
  past := by
    rw [hgrants, forall_mem_cons, hclock]
    exact ⟨hclock.le, h.past⟩
  running := by
    rw [hgrants, forall_mem_cons]
    exact ⟨fun _ => hbacked, hkeys⟩
  disjoint := by
    rw [Disjoint, hgrants]
    rintro g₁ (_ | ⟨_, h₁⟩) g₂ (_ | ⟨_, h₂⟩) hne ⟨hkey, hlt, hlt'⟩
    · exact hne rfl
    · exact hne (hother g₂ h₂ hkey.symm (hclock ▸ hlt)).symm
    · exact hne (hother g₁ h₁ hkey (hclock ▸ hlt'))
    · exact h.disjoint g₁ h₁ g₂ h₂ hne ⟨hkey, hlt, hlt'⟩

/-- A key that is not there is not the key of a running period. -/
theorem Kept.hasKey_set (h : s.Kept) (hclock : t.clock = s.clock)
    (hfree : s.store.live s.clock c.key = none) {e : Entry String}
    (hstore : t.store = update s.store c.key (some e)) : ∀ g ∈ s.grants, t.HasKey g := by
  intro g hg hlt
  rw [hclock] at hlt
  obtain ⟨e', he', hrest⟩ := h.running g hg hlt
  have hne : g.key ≠ c.key := by
    intro heq
    rw [heq, hfree] at he'
    exact absurd he' nofun
  refine ⟨e', ?_, hrest⟩
  rw [hclock, hstore, Store.live_update_of_ne hne]
  exact he'

/-- A renewal that does not make the key expire earlier keeps it for the rest of a running
period. -/
theorem Kept.hasKey_expire (h : s.Kept) (hclock : t.clock = s.clock) {ttl : ℕ}
    (hlong : ∀ e ∈ s.store.live s.clock c.key, e.till ≤ s.clock + ttl)
    (hstore : t.store = s.store.expire s.clock c.key ttl) : ∀ g ∈ s.grants, t.HasKey g := by
  intro g hg hlt
  rw [hclock] at hlt
  obtain ⟨e, he, hvalue, htill⟩ := h.running g hg hlt
  rw [hclock, hstore]
  by_cases hkey : g.key = c.key
  · rw [hkey] at he ⊢
    have hle := hlong e he
    refine ⟨{ e with till := s.clock + ttl }, ?_, hvalue, htill.trans hle⟩
    rw [Store.expire_of_live he]
    exact Store.live_update_self (lt_of_lt_of_le hlt (htill.trans hle))
  · refine ⟨e, ?_, hvalue, htill⟩
    cases hlive : s.store.live s.clock c.key with
    | none =>
      rw [Store.expire_of_not_live hlive]
      exact he
    | some e' =>
      rw [Store.expire_of_live hlive, Store.live_update_of_ne hkey]
      exact he

theorem Kept.command (h : s.Kept) (hok : s.Truthful client (.command c answered))
    (hlong : s.Lengthening client (.command c answered)) :
    (s.runCommand client c answered).Kept := by
  have hclock : (s.runCommand client c answered).clock = s.clock := clock_runCommand s c answered
  cases effect_runCommand client s c answered with
  | none hphase hstore hgrants =>
    refine h.same hclock hgrants fun g hg => ?_
    rw [HasKey, hclock, hstore]
    exact h.running g hg
  | set hphase hfree hstore hgrants =>
    have hkeys := h.hasKey_set hclock hfree hstore
    cases answered with
    | false => exact h.same hclock hgrants hkeys
    | true =>
      simp only [Truthful, hphase, hfree, forall_const] at hok
      refine h.grant hclock hgrants ((backed_of_set hclock hstore).mpr hok) hkeys ?_
      intro g hg hkey hlt
      obtain ⟨e, he, -⟩ := h.running g hg hlt
      rw [hkey, hfree] at he
      exact absurd he nofun
  | expire hphase hstore hgrants =>
    have hkeys := h.hasKey_expire hclock (hlong hphase) hstore
    cases answered with
    | false => exact h.same hclock hgrants hkeys
    | true =>
      simp only [Truthful, hphase, forall_const] at hok
      refine h.grant hclock hgrants ((backed_of_expire hclock hstore).mpr hok) hkeys ?_
      intro g hg hkey hlt
      obtain ⟨e, he, hvalue, -⟩ := h.running g hg hlt
      obtain ⟨⟨e', he', hvalue'⟩, -⟩ := hok
      rw [hkey] at he
      rw [← hvalue, ← hvalue', mem_unique he he']

theorem Kept.step (h : s.Kept) (hok : s.Truthful client a ∧ s.Lengthening client a)
    (hstep : step client s a = some t) : t.Kept := by
  cases a with
  | tick clock =>
    obtain ⟨hclock, ⟨⟩⟩ := ite_none_right_eq_some.mp hstep
    exact h.tick hclock
  | acquireLease name holderID ttl =>
    cases hstep
    exact ⟨h.backed, h.past, h.running, h.disjoint⟩
  | command c answered =>
    obtain ⟨-, ⟨⟩⟩ := ite_none_right_eq_some.mp hstep
    exact h.command hok.1 hok.2

/-- **Mutual exclusion.** In every run: every `true` is backed by the server if and only if every
command that leads to one meets the first condition; and if all commands meet both conditions, then
different holders are never granted overlapping periods. -/
theorem run_backed_iff {clock : ℕ} {trace : List (LeaseServer × LeaseServerAction)}
    (run : Run (step client) (start clock) trace t) :
    ((∀ u ∈ visited trace t, u.Backed) ↔ ∀ p ∈ trace, p.1.Truthful client p.2) ∧
    ((∀ p ∈ trace, p.1.Truthful client p.2 ∧ p.1.Lengthening client p.2) →
      ∀ u ∈ visited trace t, u.Backed ∧ u.Disjoint) := by
  constructor
  · exact run.safe_iff nofun (fun hs hok hstep => (backed_step_iff hs hstep).mpr hok) id
      fun hs hbad hstep ht => hbad ((backed_step_iff hs hstep).mp ht)
  · intro hok u hu
    have hkept := run.invariant ⟨nofun, nofun, nofun, nofun⟩ Kept.step hok u hu
    exact ⟨hkept.backed, hkept.disjoint⟩

/-! ## Two runs -/

/-- A client that sends the times as they are. -/
def exactClient : ValkeyClient := ⟨id, id⟩

/-- The call of a holder for 30 seconds, before its next command. -/
def callOf (holder : String) (phase : AcquirePhase) : AcquireCall :=
  ⟨leaseKey "scheduler", holder, 30 * 10 ^ 9, by decide, phase⟩

/-- The holder takes the lease. -/
def takes (holder : String) : List LeaseServerAction :=
  [.acquireLease "scheduler" holder 30000000000, .command (callOf holder .get) true,
    .command (callOf holder .set) true]

/-- Holder `a` takes the lease and renews it. -/
def renewedInTime : List LeaseServerAction :=
  takes "a" ++ [.tick (29 * 10 ^ 9), .acquireLease "scheduler" "a" 30000000000,
    .command (callOf "a" .get) true, .command (callOf "a" .expire) true]

/-- Holder `a` sees its name, the key expires, `b` takes the lease, and `a` renews it. -/
def renewedTooLate : List LeaseServerAction :=
  takes "a" ++ [.tick (29 * 10 ^ 9), .acquireLease "scheduler" "a" 30000000000,
    .command (callOf "a" .get) true, .tick (31 * 10 ^ 9)] ++ takes "b" ++
    [.command (callOf "a" .expire) true]

instance (client : ValkeyClient) (s : LeaseServer) (a : LeaseServerAction) :
    Decidable (s.Truthful client a) :=
  match a with
  | .tick _ | .acquireLease _ _ _ => .isTrue trivial
  | .command ⟨_, _, _, _, .get⟩ _ => .isTrue fun _ => trivial
  | .command ⟨_, _, _, _, .set⟩ _ => inferInstanceAs (Decidable (_ → _ → _))
  | .command ⟨_, _, _, _, .expire⟩ _ => inferInstanceAs (Decidable (_ → _ ∧ _))

instance (client : ValkeyClient) (s : LeaseServer) (a : LeaseServerAction) :
    Decidable (s.Lengthening client a) :=
  match a with
  | .tick _ | .acquireLease _ _ _ => .isTrue trivial
  | .command _ _ => inferInstanceAs (Decidable (_ → ∀ e ∈ _, _))

theorem renewedInTime_exclusive : ∃ trace t,
    Run (step exactClient) (start 0) trace t ∧ t.grants.length = 2 ∧
      ∀ u ∈ visited trace t, u.Backed ∧ u.Disjoint :=
  exists_run_and (fun s a => s.Truthful exactClient a ∧ s.Lengthening exactClient a) renewedInTime
    (by decide +kernel) fun hrun hok => (run_backed_iff hrun).2 hok

/-- **Two holders.** Both `a` and `b` were told that they hold the lease, for periods that overlap,
and the key has the name of `b`. -/
theorem renewedTooLate_two_holders : ∃ trace t,
    Run (step exactClient) (start 0) trace t ∧ ¬t.Backed ∧ ¬t.Disjoint :=
  exists_run renewedTooLate (by decide +kernel)

end LeaseServer

end Urgentry
