import Urgentry.Clock
import Urgentry.Internal.Run

/-!
# The cache of project keys

`cached_keys.go`: a key that was looked up is kept for a time to live, and the requests that follow
are authenticated without the base store. A second path writes the same entries. After a request has
been authenticated its key is touched, at most once in a touch interval, and touching a key that is
in the cache gives the entry a new time to live.

The base store changes meanwhile: a key is disabled, its rate limit is lowered. The cache is to hide
such a change for no longer than its time to live.

## Time

The clock does not go back. A call reads it once, when it starts. Its further steps, a lookup in the
map under the lock, a read of the base store, a write under the lock, may be delayed, and other
calls and changes of the base store may come between them. So a call that starts at `start` and
returns at `till` is `Fresh` when the base store had the key at some instant from `start - ttl` to
`till`. A call that takes no time has `start = till = t`, and this is the interval `[t - ttl, t]`.

`history` has every content of the base store with every instant of the clock at which it had it.

## What goes wrong

A lookup writes a value that it has just read, with a time to live that starts at most then. A touch
does not read the base store. It gives a new time to live to a value that may be nearly as old as
the old one, or to an entry that has expired. A touch does no harm if the base store has the value
of the entry at that moment, and this is the condition `Harmless`.

## Main results

* `KeyCache.run_fresh`: in every run without harmful touches all the keys that are returned are
  fresh.
* `KeyCache.disabled_key_returned`: a key is returned as active six seconds after it was disabled,
  with a time to live of five. -/

namespace Urgentry

open Trace List Option Function

/-- `ProjectKey`. -/
structure ProjectKey where
  (publicKey projectId status : String)
  rateLimit : ℤ
deriving DecidableEq

/-- `cachedProjectKey`. -/
structure CachedProjectKey where
  key : ProjectKey
  (expiresAt lastTouchedAt : Time)
deriving DecidableEq

/-- The value of an entry that is not in the map. -/
def CachedProjectKey.zero : CachedProjectKey := ⟨⟨"", "", "", 0⟩, ⟨0⟩, ⟨0⟩⟩

/-- The durations of a cache, and whether the base store has a `toucher`. -/
structure KeyCacheConfig where
  (ttl touchInterval : Duration)
  toucher : Bool

/-- The durations that `NewCachedKeyStore` sets: 5 and 30 seconds if none are given. -/
def newCachedKeyStore (ttl touchInterval : Duration) (toucher : Bool) : KeyCacheConfig where
  toucher
  ttl := if ttl ≤ 0 then 5000000000 else ttl
  touchInterval := if touchInterval ≤ 0 then 30000000000 else touchInterval

/-- The content of the base store. -/
abbrev KeyBase := String → Option ProjectKey

/-- A call between two of its steps. -/
inductive KeyCall
  /-- `LookupKey` has read the clock. -/
  | started (publicKey : String) (start : Instant)
  /-- It has found no entry that it can use. -/
  | missed (publicKey : String) (start : Instant)
  /-- It has read the base store. -/
  | read (publicKey : String) (start : Instant) (key : ProjectKey)
  /-- `TouchProjectKey` has read the clock. -/
  | touching (publicKey : String) (now : Instant)
deriving DecidableEq

/-- A key that `LookupKey` has returned. -/
structure ReturnedKey where
  publicKey : String
  key : ProjectKey
  (start till : Instant)

/-- The cache, the base store, the clock and the calls. -/
structure KeyCache where
  entries : String → Option CachedProjectKey
  base : KeyBase
  clock : Instant
  history : List (Instant × KeyBase)
  calls : List KeyCall
  returned : List ReturnedKey

/-- What can happen. -/
inductive KeyAction
  /-- Time passes. -/
  | tick (clock : Instant)
  /-- The base store changes. -/
  | change (base : KeyBase)
  /-- `LookupKey` starts. -/
  | lookupKey (publicKey : String)
  /-- It looks into the map. -/
  | readEntry (publicKey : String) (start : Instant)
  /-- It reads the base store, which may fail. -/
  | readBase (publicKey : String) (start : Instant) (fails : Bool)
  /-- It writes the entry and returns. -/
  | writeEntry (publicKey : String) (start : Instant) (key : ProjectKey)
  /-- `TouchProjectKey` starts. -/
  | touchProjectKey (publicKey : String)
  /-- It rewrites the entry. -/
  | touchEntry (publicKey : String) (now : Instant)

namespace KeyCache

/-- An empty cache. -/
def start (base : KeyBase) (clock : Instant) : KeyCache :=
  ⟨fun _ => none, base, clock, [(clock, base)], [], []⟩

variable (s : KeyCache) (publicKey : String)

def setEntry (entry : CachedProjectKey) : KeyCache :=
  { s with entries := Function.update s.entries publicKey (some entry) }

def begin (call : KeyCall) : KeyCache := { s with calls := call :: s.calls }

def leave (call : KeyCall) : KeyCache := { s with calls := s.calls.erase call }

/-- A lookup returns a key. -/
def answer (start : Instant) (key : ProjectKey) : KeyCache :=
  { s with returned := ⟨publicKey, key, start, s.clock⟩ :: s.returned }

/-- The entry of a key, as Go reads a map. -/
def entry : CachedProjectKey :=
  (s.entries publicKey).getD .zero

variable (config : KeyCacheConfig)

/-- A touch that comes too early. -/
def Throttled (now : Instant) (e : CachedProjectKey) : Prop :=
  e.lastTouchedAt.ns ≠ 0 ∧ (now.ns : ℤ) - e.lastTouchedAt.ns < config.touchInterval.toInt
deriving Decidable

/-- The entry that a touch writes. -/
def touched (now : Instant) (e : CachedProjectKey) : CachedProjectKey where
  key := e.key
  expiresAt := if e.key.publicKey ≠ "" then now.add config.ttl else e.expiresAt
  lastTouchedAt := now.toTime

variable (s : KeyCache)

/-- One step. -/
def step : KeyAction → Option KeyCache
  | .tick clock =>
    if s.clock.ns ≤ clock.ns then
      some { s with clock := clock, history := (clock, s.base) :: s.history }
    else none
  | .change base => some { s with base := base, history := (s.clock, base) :: s.history }
  | .lookupKey publicKey => some (s.begin (.started publicKey s.clock))
  | .readEntry publicKey start =>
    if .started publicKey start ∈ s.calls then
      match s.entries publicKey with
      | some e =>
        if start.ns < e.expiresAt.ns then
          some ((s.leave (.started publicKey start)).answer publicKey start e.key)
        else some ((s.leave (.started publicKey start)).begin (.missed publicKey start))
      | none => some ((s.leave (.started publicKey start)).begin (.missed publicKey start))
    else none
  | .readBase publicKey start fails =>
    if .missed publicKey start ∈ s.calls then
      if fails then some (s.leave (.missed publicKey start))
      else
        match s.base publicKey with
        | none => some (s.leave (.missed publicKey start))
        | some key => some ((s.leave (.missed publicKey start)).begin (.read publicKey start key))
    else none
  | .writeEntry publicKey start key =>
    if .read publicKey start key ∈ s.calls then
      some (((s.leave (.read publicKey start key)).setEntry publicKey
        ⟨key, start.add config.ttl, (s.entry publicKey).lastTouchedAt⟩).answer publicKey start key)
    else none
  | .touchProjectKey publicKey =>
    if config.toucher then some (s.begin (.touching publicKey s.clock)) else some s
  | .touchEntry publicKey now =>
    if .touching publicKey now ∈ s.calls then
      if Throttled config now (s.entry publicKey) then some (s.leave (.touching publicKey now))
      else some ((s.leave (.touching publicKey now)).setEntry publicKey
        (touched config now (s.entry publicKey)))
    else none

/-! ## Freshness -/

/-- The base store had this value for the key at some instant from `since` on. -/
def Had (publicKey : String) (key : ProjectKey) (since : ℤ) : Prop :=
  ∃ e ∈ s.history, since ≤ e.1.ns ∧ e.2 publicKey = some key
deriving Decidable

/-- The base store had the key that was returned, at some instant from a time to live before the
call to the moment it returned. -/
def Fresh (r : ReturnedKey) : Prop :=
  ∃ e ∈ s.history, (r.start.ns : ℤ) - config.ttl.toInt ≤ e.1.ns ∧ e.1.ns ≤ r.till.ns ∧
    e.2 r.publicKey = some r.key
deriving Decidable

/-- **All the keys that were returned are fresh.** -/
def AllFresh : Prop := ∀ r ∈ s.returned, s.Fresh config r
deriving Decidable

/-- **A touch that does no harm**: it is throttled, or there is no key in the entry, or the base
store has had the key of the entry since the touch started. -/
def Harmless : KeyAction → Prop
  | .touchEntry publicKey now =>
    Throttled config now (s.entry publicKey) ∨ (s.entry publicKey).key.publicKey = "" ∨
      s.Had publicKey (s.entry publicKey).key now.ns
  | _ => True

instance (config : KeyCacheConfig) (s : KeyCache) (a : KeyAction) :
    Decidable (s.Harmless config a) :=
  match a with
  | .touchEntry _ _ => inferInstanceAs (Decidable (_ ∨ _))
  | .tick _ | .change _ | .lookupKey _ | .readEntry _ _ | .readBase _ _ _ | .writeEntry _ _ _
  | .touchProjectKey _ => isTrue trivial

/-! ## The invariant -/

/-- A call has started, and what it has read was there since. -/
def CallOk : KeyCall → Prop
  | .started _ start => start.ns ≤ s.clock.ns
  | .missed _ start => start.ns ≤ s.clock.ns
  | .read publicKey start key => s.Had publicKey key start.ns
  | .touching _ _ => True

/-- **Entries expire with their values**: an entry that can still be used has a value that the base
store had within a time to live of its expiry. -/
structure Inv : Prop where
  present : (s.clock, s.base) ∈ s.history
  past : ∀ e ∈ s.history, e.1.ns ≤ s.clock.ns
  entries : ∀ publicKey e, s.entries publicKey = some e → e.expiresAt.ns ≠ 0 →
    s.Had publicKey e.key (e.expiresAt.ns - config.ttl.toInt)
  calls : ∀ c ∈ s.calls, s.CallOk c
  returned : s.AllFresh config

section Steps

variable {config : KeyCacheConfig} {s t : KeyCache} {publicKey : String} {key : ProjectKey}

theorem Had.mono {since : ℤ} (h : s.Had publicKey key since) (hsub : s.history ⊆ t.history) :
    t.Had publicKey key since := by
  obtain ⟨e, he, hsince, hvalue⟩ := h
  exact ⟨e, hsub he, hsince, hvalue⟩

theorem AllFresh.mono (h : s.AllFresh config) (hsub : s.history ⊆ t.history)
    (hreturned : t.returned = s.returned) : t.AllFresh config := by
  intro r hr
  obtain ⟨e, he, hfresh⟩ := h r (hreturned ▸ hr)
  exact ⟨e, hsub he, hfresh⟩

/-- The history grows. -/
theorem Inv.grow (h : s.Inv config) {e : Instant × KeyBase} (hhistory : t.history = e :: s.history)
    (hpresent : (t.clock, t.base) = e) (hclock : s.clock.ns ≤ t.clock.ns)
    (hentries : t.entries = s.entries) (hcalls : t.calls = s.calls)
    (hreturned : t.returned = s.returned) : t.Inv config := by
  have hsub : s.history ⊆ t.history := hhistory ▸ subset_cons_self e s.history
  refine ⟨?_, ?_, ?_, ?_, h.returned.mono hsub hreturned⟩
  · rw [hpresent, hhistory]
    exact mem_cons_self
  · rw [hhistory, forall_mem_cons, ← hpresent]
    exact ⟨le_rfl, fun x hx => (h.past x hx).trans hclock⟩
  · intro publicKey x hx hne
    exact (h.entries publicKey x (hentries ▸ hx) hne).mono hsub
  · intro c hc
    have hold := h.calls c (hcalls ▸ hc)
    cases c with
    | started publicKey start => exact Nat.le_trans hold hclock
    | missed publicKey start => exact Nat.le_trans hold hclock
    | read publicKey start key => exact Had.mono hold hsub
    | touching publicKey now => trivial

/-- A call leaves, and perhaps stands at its next step. -/
theorem Inv.leave (h : s.Inv config) (c : KeyCall) : (s.leave c).Inv config :=
  ⟨h.present, h.past, h.entries, fun x hx => h.calls x (mem_of_mem_erase hx), h.returned⟩

theorem Inv.begin (h : s.Inv config) {c : KeyCall} (hc : s.CallOk c) : (s.begin c).Inv config :=
  ⟨h.present, h.past, h.entries, forall_mem_cons.mpr ⟨hc, h.calls⟩, h.returned⟩

theorem Inv.setEntry (h : s.Inv config) {e : CachedProjectKey}
    (he : e.expiresAt.ns ≠ 0 → s.Had publicKey e.key (e.expiresAt.ns - config.ttl.toInt)) :
    (s.setEntry publicKey e).Inv config := by
  refine ⟨h.present, h.past, ?_, h.calls, h.returned⟩
  intro other x hx hne
  rcases eq_or_ne other publicKey with rfl | hother
  · have hself : (s.setEntry other e).entries other = some e := update_self ..
    rw [hself] at hx
    cases hx
    exact he hne
  · have hsame : (s.setEntry publicKey e).entries other = s.entries other :=
      update_of_ne hother ..
    rw [hsame] at hx
    exact h.entries other x hx hne

theorem Inv.answer (h : s.Inv config) {start : Instant}
    (hkey : s.Had publicKey key (start.ns - config.ttl.toInt)) :
    (s.answer publicKey start key).Inv config := by
  obtain ⟨e, he, hsince, hvalue⟩ := hkey
  exact ⟨h.present, h.past, h.entries, h.calls,
    forall_mem_cons.mpr ⟨⟨e, he, hsince, h.past e he, hvalue⟩, h.returned⟩⟩

/-- The entry that a harmless touch writes. An entry without a key keeps its expiry. -/
theorem Inv.touched (h : s.Inv config) {now : Instant}
    (hok : (s.entry publicKey).key.publicKey = "" ∨ s.Had publicKey (s.entry publicKey).key now.ns)
    (hne : (touched config now (s.entry publicKey)).expiresAt.ns ≠ 0) :
    s.Had publicKey (KeyCache.touched config now (s.entry publicKey)).key
      ((KeyCache.touched config now (s.entry publicKey)).expiresAt.ns - config.ttl.toInt) := by
  by_cases hkey : (s.entry publicKey).key.publicKey = ""
  · have hexpires : (KeyCache.touched config now (s.entry publicKey)).expiresAt =
        (s.entry publicKey).expiresAt := by
      rw [KeyCache.touched, if_neg (not_not.mpr hkey)]
    rw [hexpires] at hne ⊢
    cases he : s.entries publicKey with
    | none =>
      rw [entry, he] at hne
      exact absurd rfl hne
    | some e =>
      have hentry : s.entry publicKey = e := by rw [entry, he, getD_some]
      rw [hentry] at hne
      exact hentry ▸ h.entries publicKey e he hne
  · have hexpires :
        (KeyCache.touched config now (s.entry publicKey)).expiresAt = now.add config.ttl := by
      rw [KeyCache.touched, if_pos hkey]
    obtain ⟨x, hx, hsince, hvalue⟩ := hok.resolve_left hkey
    have hadd := now.ns_add config.ttl
    rw [hexpires]
    exact ⟨x, hx, by omega, hvalue⟩

/-- **One step** without harm. -/
theorem Inv.step {a : KeyAction} (httl : 0 < config.ttl.toInt) (h : s.Inv config)
    (hok : s.Harmless config a) (hstep : s.step config a = some t) : t.Inv config := by
  cases a with
  | tick clock =>
    obtain ⟨hclock, ⟨⟩⟩ := ite_none_right_eq_some.mp hstep
    exact h.grow rfl rfl hclock rfl rfl rfl
  | change base =>
    cases hstep
    exact h.grow rfl rfl le_rfl rfl rfl rfl
  | lookupKey publicKey =>
    cases hstep
    exact h.begin (Nat.le_refl _)
  | readEntry publicKey start =>
    obtain ⟨hcall, hstep⟩ := ite_none_right_eq_some.mp hstep
    have hmissed :
        ((s.leave (.started publicKey start)).begin (.missed publicKey start)).Inv config :=
      (h.leave _).begin (h.calls _ hcall)
    split at hstep
    · next e he =>
      split_ifs at hstep with hlive
      · cases hstep
        refine (h.leave _).answer ?_
        obtain ⟨x, hx, hsince, hvalue⟩ := h.entries publicKey e he (by omega)
        exact ⟨x, hx, by omega, hvalue⟩
      · cases hstep
        exact hmissed
    · cases hstep
      exact hmissed
  | readBase publicKey start fails =>
    obtain ⟨hcall, hstep⟩ := ite_none_right_eq_some.mp hstep
    split at hstep
    · cases hstep
      exact h.leave _
    · split at hstep
      · cases hstep
        exact h.leave _
      · next key hkey =>
        cases hstep
        have hstart : start.ns ≤ s.clock.ns := h.calls _ hcall
        exact (h.leave _).begin ⟨(s.clock, s.base), h.present, Int.ofNat_le.mpr hstart, hkey⟩
  | writeEntry publicKey start key =>
    obtain ⟨hcall, ⟨⟩⟩ := ite_none_right_eq_some.mp hstep
    obtain ⟨x, hx, hsince, hvalue⟩ : s.Had publicKey key start.ns := h.calls _ hcall
    have hadd := start.ns_add config.ttl
    refine Inv.answer ((h.leave _).setEntry fun _ => ?_) ?_
    · exact ⟨x, hx, by show ((start.add config.ttl).ns : ℤ) - _ ≤ _; omega, hvalue⟩
    · exact ⟨x, hx, by omega, hvalue⟩
  | touchProjectKey publicKey =>
    rw [KeyCache.step] at hstep
    split_ifs at hstep <;> cases hstep
    · exact h.begin trivial
    · exact h
  | touchEntry publicKey now =>
    obtain ⟨-, hstep⟩ := ite_none_right_eq_some.mp hstep
    split_ifs at hstep with hdue
    · cases hstep
      exact h.leave _
    · cases hstep
      refine (h.leave _).setEntry fun hne => ?_
      exact h.touched (hok.resolve_left hdue) hne

theorem ttl_pos (ttl touchInterval : Duration) (toucher : Bool) :
    0 < (newCachedKeyStore ttl touchInterval toucher).ttl.toInt := by
  show 0 < (if ttl ≤ 0 then 5000000000 else ttl).toInt
  split_ifs with h
  · decide
  · rw [Int64.le_iff_toInt_le, not_le] at h
    exact h

/-- **Keys are fresh** in every state of a run from an empty cache, if all touches are harmless. -/
theorem run_fresh (ttl touchInterval : Duration) (toucher : Bool) {base : KeyBase}
    {clock : Instant} {trace : List (KeyCache × KeyAction)}
    (run : Run (step (newCachedKeyStore ttl touchInterval toucher)) (start base clock) trace t)
    (hok : ∀ p ∈ trace, p.1.Harmless (newCachedKeyStore ttl touchInterval toucher) p.2) :
    ∀ u ∈ visited trace t, u.AllFresh (newCachedKeyStore ttl touchInterval toucher) := by
  have hstart : (start base clock).Inv (newCachedKeyStore ttl touchInterval toucher) := by
    refine ⟨mem_singleton_self _, ?_, ?_, ?_, ?_⟩
    · intro e he
      rw [mem_singleton.mp he]
      exact le_rfl
    · intro publicKey e he
      cases he
    · intro c hc
      cases hc
    · intro r hr
      cases hr
  intro u hu
  exact (run.invariant hstart (Inv.step (ttl_pos ttl touchInterval toucher)) hok u hu).returned

end Steps

/-! ## Two runs -/

/-- A key of the project `p`. -/
def activeKey : ProjectKey := ⟨"k", "p", "active", 0⟩

/-- The base store with this key. -/
def holding (key : ProjectKey) : KeyBase :=
  fun publicKey => if publicKey = "k" then some key else none

variable (seconds : Fin 86400)

/-- A lookup that reads the base store, at a time of the day. -/
def miss : List KeyAction :=
  [.lookupKey "k", .readEntry "k" (.ofDaySeconds seconds),
    .readBase "k" (.ofDaySeconds seconds) false,
    .writeEntry "k" (.ofDaySeconds seconds) activeKey]

/-- A lookup that is answered from the cache, at a time of the day. -/
def hit : List KeyAction :=
  [.lookupKey "k", .readEntry "k" (.ofDaySeconds seconds)]

/-- A touch, at a time of the day. -/
def touch : List KeyAction :=
  [.touchProjectKey "k", .touchEntry "k" (.ofDaySeconds seconds)]

/-- Two requests with a key that does not change. -/
def steadyRun : List KeyAction :=
  miss 0 ++ touch 0 ++ .tick (.ofDaySeconds 4) :: (hit 4 ++ touch 4)

/-- The key is disabled after two seconds. The request after four seconds is answered from the cache
and touches the key, and so the request after eight seconds finds it there. -/
def disablingRun : List KeyAction :=
  miss 0 ++ .tick (.ofDaySeconds 2) :: .change (holding ⟨"k", "p", "disabled", 0⟩) ::
    .tick (.ofDaySeconds 4) :: (hit 4 ++ touch 4) ++ .tick (.ofDaySeconds 8) :: hit 8

theorem steadyRun_fresh : ∃ trace t,
    Run (step (newCachedKeyStore 0 0 true)) (start (holding activeKey) (.ofDaySeconds 0)) trace t ∧
      t.returned.length = 2 ∧ ∀ u ∈ visited trace t, u.AllFresh (newCachedKeyStore 0 0 true) :=
  exists_run_and (Harmless (newCachedKeyStore 0 0 true)) steadyRun (by decide +kernel)
    fun hrun hharmless => run_fresh 0 0 true hrun hharmless

/-- **A key that works after it was disabled.** The base store has had it as disabled for six
seconds, and `LookupKey` returns it as active. -/
theorem disabled_key_returned : ∃ trace t,
    Run (step (newCachedKeyStore 0 0 true)) (start (holding activeKey) (.ofDaySeconds 0)) trace t ∧
      (∃ r ∈ t.returned, r.key.status = "active" ∧ r.start = .ofDaySeconds 8 ∧
        r.till = .ofDaySeconds 8 ∧
        (∀ e ∈ t.history, (Instant.ofDaySeconds 3).ns ≤ e.1.ns →
          e.2 "k" = some ⟨"k", "p", "disabled", 0⟩)) ∧
      ¬t.AllFresh (newCachedKeyStore 0 0 true) :=
  exists_run disablingRun (by decide +kernel)

end KeyCache

end Urgentry
