import Mathlib.Tactic.Linarith
import Mathlib.Tactic.Positivity
import Urgentry.Auth.ValkeyRateLimit

/-!
# What a server makes of its limit

`ValkeyRateLimit` shows that the calls on a key are never admitted beyond the limit. Here the
question is the other one: does a server that is alone on the key admit as many calls as it may?

All that matters of the state is on a ledger (`Ledger`): the counter, the reservation, and how many
calls wait for the script, hold a batch, were admitted or were denied. A step of the limiter is a
step of the ledger or leaves it alone (`ledger_step`), so the invariants below are about the ledger
only.

A call is denied when the counter is at the limit. That alone is no waste. It is one when another
call still has a part of its batch, and with batches of more than one unit nothing keeps the two
apart: the calls may all run the script before the first of them stores what it does not need.

* With a limit below 1000 a batch is one unit and nothing is ever held, so a call that is denied
  finds the whole limit spent (`Ledger.Single`).
* With few calls the counter does not come to the limit at all: each call that ran the script has
  added a batch at most, so a call that is denied is one of more than `limit / batch` calls
  (`Ledger.Charged`).
* With more calls, let all of them ask and run the script first. The counter is at the limit after
  `limit / batch` of them, and the others are denied (`Ledger.Spread`).

## Main results

* `ledger_step`: the limiter refines the ledger;
* `capacity_used_iff`: the limits and numbers of calls for which no interleaving wastes capacity.
-/

namespace Urgentry

open Trace List Option

/-! ## The ledger -/

/-- The account of one key in one window. -/
structure Ledger where
  counter : ℤ
  reservation : Option ℤ
  (waiting holding admitted denied : ℕ)

namespace Ledger

/-- What the steps of the calls do to the account. -/
inductive Step (limit : ℤ) (l : Ledger) : Ledger → Prop
  /-- A call is served from the reservation. -/
  | served (r : ℤ) (hr : l.reservation = some r) :
    Step limit l { l with
      reservation := (consumeLocalReservation l.reservation).2
      admitted := l.admitted + 1 }
  /-- A call finds no reservation. -/
  | asked : Step limit l { l with reservation := none, waiting := l.waiting + 1 }
  /-- The script has nothing to grant. -/
  | denied {w : ℕ} (hw : l.waiting = w + 1) (hfull : limit ≤ l.counter) :
    Step limit l { l with waiting := w, denied := l.denied + 1 }
  /-- The script grants what the call needs. -/
  | granted {w : ℕ} (hw : l.waiting = w + 1) (hfree : l.counter < limit)
    (hone : min (limit - l.counter) (reservationBatch limit) = 1) :
    Step limit l { l with counter := l.counter + 1, waiting := w, admitted := l.admitted + 1 }
  /-- The script grants more. -/
  | batched {w : ℕ} (hw : l.waiting = w + 1) (hfree : l.counter < limit)
    (hmany : 1 < min (limit - l.counter) (reservationBatch limit)) :
    Step limit l { l with
      counter := l.counter + min (limit - l.counter) (reservationBatch limit), waiting := w,
      holding := l.holding + 1 }
  /-- A call stores what it does not need. -/
  | stored {h : ℕ} (hh : l.holding = h + 1) (r : Option ℤ) :
    Step limit l { l with reservation := r, holding := h, admitted := l.admitted + 1 }

/-- All the calls of the account. -/
def total (l : Ledger) : ℕ := l.waiting + l.holding + l.admitted + l.denied

/-- A call that goes on is not a new one. -/
theorem Step.total {limit : ℤ} {l m : Ledger} (hstep : Step limit l m)
    (hcall : m.waiting < l.waiting ∨ m.holding < l.holding) : m.total = l.total := by
  cases hstep with
  | served r hr => simp at hcall
  | asked => simp at hcall
  | denied hw hfull =>
    simp only [Ledger.total]
    omega
  | granted hw hfree hone =>
    simp only [Ledger.total]
    omega
  | batched hw hfree hmany =>
    simp only [Ledger.total]
    omega
  | stored hh r =>
    simp only [Ledger.total]
    omega

/-- A call that ran the script has added a batch at most, so a denial takes more calls than there
are batches. -/
structure Charged (limit : ℤ) (l : Ledger) : Prop where
  charged : l.counter ≤ reservationBatch limit * (l.holding + l.admitted + l.denied)
  late : 0 < l.denied →
    limit + reservationBatch limit ≤
      reservationBatch limit * (l.waiting + l.holding + l.admitted + l.denied)

/-- Batches of one unit: nothing is held, and a denial finds the limit spent. -/
structure Single (limit : ℤ) (l : Ledger) : Prop where
  reservation : l.reservation = none
  holding : l.holding = 0
  spent : l.counter = l.admitted
  capped : l.counter ≤ limit
  denied : 0 < l.denied → limit ≤ l.counter

variable {limit : ℤ} {l m : Ledger}

theorem Charged.step (h : l.Charged limit) (hstep : Step limit l m) : m.Charged limit := by
  have hbatch := RateLimiters.reservationBatch_pos limit
  obtain ⟨hcharged, hlate⟩ := h
  cases hstep with
  | served r hr =>
    refine ⟨?_, fun hd => ?_⟩
    · push_cast
      linarith
    · have hold := hlate hd
      push_cast
      linarith
  | asked =>
    refine ⟨hcharged, fun hd => ?_⟩
    have hold := hlate hd
    push_cast
    linarith
  | @denied w hw hfull =>
    -- the call that is denied counts besides the ones that filled the counter
    have hothers : 0 ≤ reservationBatch limit * (w : ℤ) := by positivity
    refine ⟨?_, fun _ => ?_⟩
    · push_cast
      linarith
    · push_cast
      linarith
  | granted hw hfree hone =>
    rw [hw] at hlate
    refine ⟨?_, fun hd => ?_⟩
    · push_cast
      linarith
    · have hold := hlate hd
      push_cast at hold ⊢
      linarith
  | batched hw hfree hmany =>
    have hgrant := min_le_right (limit - l.counter) (reservationBatch limit)
    rw [hw] at hlate
    refine ⟨?_, fun hd => ?_⟩
    · push_cast
      linarith
    · have hold := hlate hd
      push_cast at hold ⊢
      linarith
  | stored hh r =>
    rw [hh] at hcharged hlate
    refine ⟨?_, fun hd => ?_⟩
    · push_cast at hcharged ⊢
      linarith
    · have hold := hlate hd
      push_cast at hold ⊢
      linarith

theorem Single.step (hbatch : reservationBatch limit = 1) (h : l.Single limit)
    (hstep : Step limit l m) :
    m.Single limit := by
  obtain ⟨hreservation, hholding, hspent, hcapped, hdenied⟩ := h
  cases hstep with
  | served r hr =>
    rw [hreservation] at hr
    cases hr
  | asked => exact ⟨rfl, hholding, hspent, hcapped, hdenied⟩
  | denied hw hfull => exact ⟨hreservation, hholding, hspent, hcapped, fun _ => hfull⟩
  | granted hw hfree hone =>
    exact ⟨hreservation, hholding, by push_cast; omega, by simp only; omega,
      fun hd => by have := hdenied hd; simp only; omega⟩
  | batched hw hfree hmany =>
    omega
  | stored hh r =>
    rw [hholding] at hh
    cases hh

/-- As long as the counter is below the limit, all the batches that were granted are whole. -/
structure Spread (limit : ℤ) (l : Ledger) : Prop where
  whole : l.counter < limit → l.counter = reservationBatch limit * (l.holding + l.admitted)
  few : reservationBatch limit * (l.holding + l.admitted) < limit + reservationBatch limit

/-- Calls that are not served from a reservation. -/
theorem Spread.step (hbatch : 1 < reservationBatch limit) (h : l.Spread limit)
    (hstep : Step limit l m) (hcall : m.waiting ≠ l.waiting ∨ m.holding ≠ l.holding) :
    m.Spread limit := by
  obtain ⟨hwhole, hfew⟩ := h
  cases hstep with
  | served r hr => exact absurd hcall (by simp)
  | asked => exact ⟨hwhole, hfew⟩
  | denied hw hfull => exact ⟨hwhole, hfew⟩
  | granted hw hfree hone =>
    have hold := hwhole hfree
    refine ⟨fun hlt => ?_, ?_⟩
    · -- one unit of a larger batch is the last one
      simp only at hlt
      omega
    · push_cast
      linarith
  | batched hw hfree hmany =>
    have hold := hwhole hfree
    refine ⟨fun hlt => ?_, ?_⟩
    · have hgrant : min (limit - l.counter) (reservationBatch limit) = reservationBatch limit := by
        simp only at hlt
        omega
      push_cast
      linarith
    · push_cast
      linarith
  | stored hh r =>
    rw [hh] at hwhole hfew
    refine ⟨fun hlt => ?_, ?_⟩
    · rw [hwhole hlt]
      push_cast
      ring
    · push_cast at hfew ⊢
      linarith

end Ledger

/-! ## The limiter and its ledger -/

namespace RateLimiters

variable {ι : Type} (window : Duration) (name : String)

/-- The call is for the key and the window of the name. -/
def under (c : AllowCall ι) : Bool :=
  reservationKey window c.key c.now = name

/-- The ledger of a name, on a server. -/
def ledger (server : ι) (s : RateLimiters ι) : Ledger where
  counter := s.counters (counterKey name)
  reservation := s.reservations server name
  waiting := s.evaluating.countP (under window name)
  holding := s.storing.countP fun p => under window name p.1
  admitted := s.returned.countP fun e => under window name e.1 && e.2.2
  denied := s.returned.countP fun e => under window name e.1 && !e.2.2

/-- All the calls under the name have returned. -/
def Settled (s : RateLimiters ι) : Prop :=
  (∀ c ∈ s.evaluating, under window name c = false) ∧ ∀ p ∈ s.storing, under window name p.1 = false

/-- The number of calls under the name that have returned. -/
def calls (s : RateLimiters ι) : ℕ :=
  s.returned.countP fun e => under window name e.1

section Counts

variable {window : Duration} {name : String} {c : AllowCall ι} {s : RateLimiters ι}

theorem Settled.ledger (h : Settled window name s) (server : ι) :
    (s.ledger window name server).waiting = 0 ∧ (s.ledger window name server).holding = 0 := by
  refine ⟨countP_eq_zero.mpr fun c hc => ?_, countP_eq_zero.mpr fun p hp => ?_⟩
  · simp [h.1 c hc]
  · simp [h.2 p hp]

theorem waiting_replicate (hc : under window name c = true) (server : ι) {k : ℕ}
    (h : s.evaluating = replicate k c) : (s.ledger window name server).waiting = k := by
  show s.evaluating.countP _ = k
  rw [h, countP_replicate, if_pos hc]

variable (server : ι)

theorem spent_eq_admitted : s.spent window name = (s.ledger window name server).admitted := by
  refine congrArg Nat.cast (countP_congr fun e _ => ?_)
  simp [under]

theorem calls_eq_add :
    s.calls window name =
      (s.ledger window name server).admitted + (s.ledger window name server).denied := by
  show s.returned.countP _ = s.returned.countP _ + s.returned.countP _
  induction s.returned with
  | nil => rfl
  | cons e rest ih =>
    rw [countP_cons, countP_cons, countP_cons]
    cases under window name e.1 <;> cases e.2.2 <;> simp <;> omega

end Counts

section Updates

variable {window : Duration} {name : String} {server : ι} {c : AllowCall ι} (s : RateLimiters ι)

theorem ledger_setCounter (value : ℤ) :
    (s.setCounter name value).ledger window name server =
      { s.ledger window name server with counter := value } := by
  have hread := counters_setCounter s name name value
  simp only [ledger, hread]
  rfl

theorem ledger_setCounter_other {n : String} (hn : n ≠ name) (value : ℤ) :
    (s.setCounter n value).ledger window name server = s.ledger window name server := by
  have hread := counters_setCounter s name n value
  rw [if_neg (Ne.symm hn)] at hread
  simp only [ledger, hread]
  rfl

section Under

variable (hc : under window name c = true)
include hc

theorem ledger_finish (wait : ℤ) (allowed : Bool) :
    (s.finish c wait allowed).ledger window name server =
      if allowed then
        { s.ledger window name server with admitted := (s.ledger window name server).admitted + 1 }
      else
        { s.ledger window name server with
        denied := (s.ledger window name server).denied + 1 } := by
  cases allowed <;> simp [ledger, finish, hc]

theorem ledger_await : (s.await c).ledger window name server =
    { s.ledger window name server with waiting := (s.ledger window name server).waiting + 1 } := by
  simp [ledger, await, hc]

theorem ledger_keep (r : ℤ) : (s.keep c r).ledger window name server =
    { s.ledger window name server with holding := (s.ledger window name server).holding + 1 } := by
  simp [ledger, keep, hc]

variable [DecidableEq ι] (server)

theorem ledger_leave (hmem : c ∈ s.evaluating) :
    (s.ledger window name server).waiting =
      ((s.leave c).ledger window name server).waiting + 1 := by
  have hperm := (perm_cons_erase hmem).countP_eq (under window name)
  rw [countP_cons_of_pos hc] at hperm
  exact hperm

theorem ledger_unkeep {r : ℤ} (hmem : (c, r) ∈ s.storing) :
    (s.ledger window name server).holding =
      ((s.unkeep c r).ledger window name server).holding + 1 := by
  have hperm := (perm_cons_erase hmem).countP_eq fun p => under window name p.1
  rw [countP_cons_of_pos (by exact hc)] at hperm
  exact hperm

end Under

section Other

variable (hc : under window name c = false)
include hc

theorem ledger_finish_other (wait : ℤ) (allowed : Bool) :
    (s.finish c wait allowed).ledger window name server = s.ledger window name server := by
  simp [ledger, finish, hc]

theorem ledger_await_other :
    (s.await c).ledger window name server = s.ledger window name server := by
  simp [ledger, await, hc]

theorem ledger_keep_other (r : ℤ) :
    (s.keep c r).ledger window name server = s.ledger window name server := by
  simp [ledger, keep, hc]

variable [DecidableEq ι]

theorem ledger_leave_other :
    (s.leave c).ledger window name server = s.ledger window name server := by
  simp [ledger, leave, countP_erase, hc]

end Other

variable [DecidableEq ι]

theorem ledger_setReservation (r : Option ℤ) :
    (s.setReservation server name r).ledger window name server =
      { s.ledger window name server with reservation := r } := by
  have hread := reservations_setReservation s name server server name r
  simp only [ledger, hread]
  rfl

theorem ledger_setReservation_other (i : ι) {n : String} (hn : n ≠ name) (r : Option ℤ) :
    (s.setReservation i n r).ledger window name server = s.ledger window name server := by
  have hread := reservations_setReservation s name i server n r
  rw [if_neg fun h => hn h.2.symm] at hread
  simp only [ledger, hread]
  rfl

end Updates

variable [DecidableEq ι]

/-- The answer of the script arrives. -/
def answered : AllowStep ι → Prop
  | .evaluate _ outcome => outcome = .answered
  | .consume _ | .store _ _ => True

/-- A step of a sole user: the calls on the key in the window are made by one server with one limit,
and Valkey answers them. Calls on other keys are free. -/
def SoleUse (window : Duration) (name : String) (server : ι) (limit : ℤ) (a : AllowStep ι) : Prop :=
  under window name a.call = true → a.call.server = server ∧ a.call.limit = limit ∧ answered a

section Refinement

variable {window : Duration} {name : String} {server : ι} {limit : ℤ} {c : AllowCall ι}
  {s t : RateLimiters ι}

theorem reserveScript_of_lt {current limit : ℤ} (h : current < limit) (want : ℤ) :
    reserveScript current limit want =
      (min (limit - current) want, current + min (limit - current) want) := by
  have hgrant :
      (if limit - current < want then limit - current else want) = min (limit - current) want := by
    split <;> omega
  rw [reserveScript, if_neg (not_le.mpr h)]
  simp only [hgrant]

/-- A call under the name that starts. -/
theorem ledger_consume (hlimit : 1 ≤ limit) (hn : reservationKey window c.key c.now = name)
    (hserver : c.server = server) (hc : c.limit = limit)
    (hstep : s.step window (.consume c) = some t) :
    Ledger.Step limit (s.ledger window name server) (t.ledger window name server) := by
  have hunder : under window name c = true := decide_eq_true hn
  rw [step, if_neg (by omega), hserver, hn] at hstep
  simp only at hstep
  cases hr : s.reservations server name with
  | none =>
    rw [hr] at hstep
    cases hstep
    rw [ledger_await _ hunder, ledger_setReservation]
    exact .asked
  | some r =>
    by_cases hpos : r ≤ 0
    · have hnone : consumeLocalReservation (some r) = (false, none) := if_pos hpos
      rw [hr, hnone] at hstep
      cases hstep
      rw [ledger_await _ hunder, ledger_setReservation]
      exact .asked
    · have htrue : (consumeLocalReservation (some r)).1 = true := by
        rw [consumeLocalReservation, if_neg hpos]
      rw [hr, if_pos htrue] at hstep
      cases hstep
      rw [ledger_finish _ hunder, ledger_setReservation, ← hr]
      exact .served r hr

/-- A call under the name that runs the script. -/
theorem ledger_evaluate (hn : reservationKey window c.key c.now = name) (hc : c.limit = limit)
    (hstep : s.step window (.evaluate c .answered) = some t) :
    Ledger.Step limit (s.ledger window name server) (t.ledger window name server) := by
  have hunder : under window name c = true := decide_eq_true hn
  have hbatch := reservationBatch_pos limit
  obtain ⟨hmem, hstep⟩ := ite_none_right_eq_some.mp hstep
  have hw := ledger_leave server s hunder hmem
  cases hstep
  have hcounter :
    (s.leave c).counters (counterKey name) = (s.ledger window name server).counter := rfl
  simp only [evaluate, hn, hc, hcounter]
  rcases le_or_gt limit (s.ledger window name server).counter with hfull | hfree
  · rw [reserveScript, if_pos hfull, if_pos le_rfl, ledger_finish _ hunder, ledger_setCounter]
    exact .denied hw hfull
  · rw [reserveScript_of_lt hfree, if_neg (by omega)]
    split
    · next hmany =>
      rw [ledger_keep _ hunder, ledger_setCounter]
      exact .batched hw hfree hmany
    · next hnot =>
      have hone :
          min (limit - (s.ledger window name server).counter) (reservationBatch limit) = 1 := by
        omega
      rw [ledger_finish _ hunder, ledger_setCounter, hone]
      exact .granted hw hfree hone

/-- A call under the name that stores a reservation. -/
theorem ledger_store (hn : reservationKey window c.key c.now = name) {r : ℤ}
    (hstep : s.step window (.store c r) = some t) :
    Ledger.Step limit (s.ledger window name server) (t.ledger window name server) := by
  have hunder : under window name c = true := decide_eq_true hn
  obtain ⟨hmem, hstep⟩ := ite_none_right_eq_some.mp hstep
  have hh := ledger_unkeep server s hunder hmem
  cases hstep
  rw [ledger_finish _ hunder]
  exact .stored hh _

/-- A call under another name leaves the ledger alone. -/
theorem ledger_other {a : AllowStep ι} (hn : reservationKey window a.call.key a.call.now ≠ name)
    (hstep : s.step window a = some t) :
    t.ledger window name server = s.ledger window name server := by
  have hunder : under window name a.call = false := decide_eq_false hn
  cases a with
  | consume c =>
    replace hunder : under window name c = false := hunder
    rw [step] at hstep
    split at hstep
    · cases hstep
      exact ledger_finish_other s hunder 0 true
    · simp only at hstep
      split at hstep
      · cases hstep
        rw [ledger_finish_other _ hunder]
        exact ledger_setReservation_other s c.server hn _
      · cases hstep
        rw [ledger_await_other _ hunder]
        exact ledger_setReservation_other s c.server hn _
  | evaluate c outcome =>
    obtain ⟨-, ⟨⟩⟩ := ite_none_right_eq_some.mp hstep
    have hleave : (s.leave c).ledger window name server = s.ledger window name server :=
      ledger_leave_other s hunder
    have hcounter (value : ℤ) :
        ((s.leave c).setCounter (reservationKey window c.key c.now) value).ledger window name
          server = s.ledger window name server :=
      (ledger_setCounter_other (s.leave c) hn value).trans hleave
    cases outcome with
    | failed => exact (ledger_finish_other _ hunder _ _).trans hleave
    | unanswered => exact (ledger_finish_other _ hunder _ _).trans (hcounter _)
    | answered =>
      simp only [evaluate]
      split
      · exact (ledger_finish_other _ hunder _ _).trans (hcounter _)
      · split
        · exact (ledger_keep_other _ hunder _).trans (hcounter _)
        · exact (ledger_finish_other _ hunder _ _).trans (hcounter _)
  | store c r =>
    replace hunder : under window name c = false := hunder
    obtain ⟨-, ⟨⟩⟩ := ite_none_right_eq_some.mp hstep
    rw [ledger_finish_other _ hunder]
    refine (ledger_setReservation_other _ c.server hn _).trans ?_
    simp [ledger, unkeep, countP_erase, hunder]

/-- **The limiter refines the ledger.** -/
theorem ledger_step (hlimit : 1 ≤ limit) {a : AllowStep ι}
    (hsole : SoleUse window name server limit a) (hstep : s.step window a = some t) :
    t.ledger window name server = s.ledger window name server ∨
      Ledger.Step limit (s.ledger window name server) (t.ledger window name server) := by
  by_cases hn : reservationKey window a.call.key a.call.now = name
  · obtain ⟨hserver, hc, hanswered⟩ := hsole (decide_eq_true hn)
    refine .inr ?_
    cases a with
    | consume c => exact ledger_consume hlimit hn hserver hc hstep
    | evaluate c outcome =>
      obtain rfl : outcome = .answered := hanswered
      exact ledger_evaluate hn hc hstep
    | store c r => exact ledger_store hn hstep
  · exact .inl (ledger_other hn hstep)

/-- The ledger of the state has the property. -/
def LedgerHas (window : Duration) (name : String) (server : ι) (inv : Ledger → Prop)
    (s : RateLimiters ι) : Prop :=
  inv (s.ledger window name server)

/-- What every step of the ledger keeps holds at the end of a run. -/
theorem ledger_invariant {inv : Ledger → Prop} (hlimit : 1 ≤ limit)
    (hstart : (start : RateLimiters ι).LedgerHas window name server inv)
    (hkeep : ∀ {l m : Ledger}, inv l → Ledger.Step limit l m → inv m)
    {trace : List (RateLimiters ι × AllowStep ι)} (run : Run (step window) start trace t)
    (hsole : ∀ p ∈ trace, SoleUse window name server limit p.2) :
    inv (t.ledger window name server) := by
  have hstep : ∀ {s : RateLimiters ι} {a : AllowStep ι} {u : RateLimiters ι},
      s.LedgerHas window name server inv → SoleUse window name server limit a →
        s.step window a = some u →
      u.LedgerHas window name server inv := by
    intro s a u hs hsole hstep
    rcases ledger_step hlimit hsole hstep with heq | hmove
    · rw [LedgerHas, heq]
      exact hs
    · exact hkeep hs hmove
  exact run.invariant hstart hstep hsole t mem_cons_self

end Refinement

/-! ## No waste -/

section Sufficient

variable {window : Duration} {name : String} {server : ι} {limit : ℤ} {t : RateLimiters ι}
  {trace : List (RateLimiters ι × AllowStep ι)}

/-- Batches of one unit are never wasted. -/
theorem spent_of_single (hlimit : 1 ≤ limit) (hbatch : reservationBatch limit = 1)
    (run : Run (step window) start trace t)
    (hsole : ∀ p ∈ trace, SoleUse window name server limit p.2) :
    t.spent window name = min limit (t.calls window name) := by
  have hstart : (start : RateLimiters ι).LedgerHas window name server (Ledger.Single limit) :=
    ⟨rfl, rfl, rfl, show (0 : ℤ) ≤ limit by omega, fun h => absurd h (lt_irrefl 0)⟩
  have hend := ledger_invariant hlimit hstart (Ledger.Single.step hbatch) run hsole
  rw [spent_eq_admitted server, calls_eq_add server]
  generalize t.ledger window name server = l at *
  have hspent := hend.spent
  have hcapped := hend.capped
  rcases Nat.eq_zero_or_pos l.denied with hnone | hsome
  · rw [hnone]
    omega
  · have hfull := hend.denied hsome
    omega

/-- Calls that are fewer than the batches are all admitted. -/
theorem spent_of_few (hlimit : 1 ≤ limit) (run : Run (step window) start trace t)
    (hsole : ∀ p ∈ trace, SoleUse window name server limit p.2) (hsettled : Settled window name t)
    (hfew : t.calls window name * reservationBatch limit < limit + reservationBatch limit) :
    t.spent window name = min limit (t.calls window name) := by
  have hstart : (start : RateLimiters ι).LedgerHas window name server (Ledger.Charged limit) :=
    ⟨by simp [RateLimiters.ledger, start], fun h => absurd h (lt_irrefl 0)⟩
  have hend := ledger_invariant hlimit hstart Ledger.Charged.step run hsole
  obtain ⟨hwaiting, hholding⟩ := hsettled.ledger server
  have hbatch := reservationBatch_pos limit
  rw [spent_eq_admitted server]
  rw [calls_eq_add server] at hfew ⊢
  generalize t.ledger window name server = l at *
  have hnone : l.denied = 0 := by
    by_contra hne
    have hlate := hend.late (Nat.pos_of_ne_zero hne)
    rw [hwaiting, hholding] at hlate
    push_cast at hfew hlate
    linarith
  -- each batch is a unit at least, so there are no more calls than units
  have hle : (l.admitted : ℤ) ≤ limit := by
    by_contra hgt
    push_cast at hfew
    nlinarith
  omega

end Sufficient

/-! ## Waste

All the calls ask before the first runs the script, and all run the script before the first
stores. -/

section Waste

variable {window : Duration} {name : String} {limit : ℤ} {c : AllowCall ι} {s t : RateLimiters ι}

/-- A run of calls on the name leads to the state. -/
def Reaches (window : Duration) (name : String) (c : AllowCall ι) (s : RateLimiters ι) : Prop :=
  ∃ trace, Run (step window) start trace s ∧ ∀ p ∈ trace, SoleUse window name c.server c.limit p.2

theorem Reaches.next (h : Reaches window name c s) {a : AllowStep ι}
    (hstep : s.step window a = some t) (hcall : a.call = c) (hanswered : answered a) :
    Reaches window name c t := by
  obtain ⟨trace, run, hsole⟩ := h
  refine ⟨_, .next run hstep, forall_mem_cons.mpr ⟨fun _ => ?_, hsole⟩⟩
  exact ⟨congrArg AllowCall.server hcall, congrArg AllowCall.limit hcall, hanswered⟩

/-- So many calls wait, the others are in the course of storing or have returned. -/
structure Bunched (window : Duration) (name : String) (c : AllowCall ι) (k : ℕ)
    (s : RateLimiters ι) : Prop where
  reaches : Reaches window name c s
  evaluating : s.evaluating = List.replicate k c
  storing : ∀ p ∈ s.storing, p.1 = c
  spread : (s.ledger window name c.server).Spread c.limit

/-- The calls ask, one after the other. -/
theorem exists_asked (hn : reservationKey window c.key c.now = name) (hlimit : 1 ≤ c.limit)
    (hbatch : 1 < reservationBatch c.limit) (n : ℕ) :
    ∃ s, Bunched window name c n s ∧ s.reservations c.server name = none ∧
      s.storing = [] ∧ s.returned = [] := by
  have hc : under window name c = true := decide_eq_true hn
  induction n with
  | zero =>
    refine ⟨start, ⟨⟨[], .start, forall_mem_nil _⟩, rfl, forall_mem_nil _, ?_, ?_⟩, rfl, rfl, rfl⟩
    · intro _
      simp [RateLimiters.ledger, start]
    · simp only [RateLimiters.ledger, start, countP_nil]
      omega
  | succ n ih =>
    obtain ⟨s, hs, hnone, hstoring, hreturned⟩ := ih
    have hstep :
        s.step window (.consume c) = some ((s.setReservation c.server name none).await c) := by
      rw [step, if_neg (by omega), hn]
      simp only [hnone]
      rfl
    have hevaluating :
        ((s.setReservation c.server name none).await c).evaluating = replicate (n + 1) c :=
      congrArg (c :: ·) hs.evaluating
    refine ⟨_, ⟨hs.reaches.next hstep rfl trivial, hevaluating, ?_, ?_⟩, ?_, hstoring, hreturned⟩
    · exact hs.storing
    · refine hs.spread.step hbatch (ledger_consume hlimit hn rfl rfl hstep) (.inl ?_)
      rw [waiting_replicate hc _ hevaluating, waiting_replicate hc _ hs.evaluating]
      exact Nat.succ_ne_self n
    · exact (reservations_setReservation s name c.server c.server name none).trans
        (if_pos ⟨rfl, rfl⟩)

omit [DecidableEq ι] in
/-- The script leaves the waiting calls, and one batch more is stored at most. -/
theorem evaluate_lists (window : Duration) (s : RateLimiters ι) (c : AllowCall ι)
    (outcome : Evaluation) :
    (s.evaluate window c outcome).evaluating = s.evaluating ∧
      ∀ p ∈ (s.evaluate window c outcome).storing, p.1 = c ∨ p ∈ s.storing := by
  simp only [evaluate]
  cases outcome with
  | failed => exact ⟨rfl, fun p hp => .inr hp⟩
  | unanswered => exact ⟨rfl, fun p hp => .inr hp⟩
  | answered =>
    simp only
    split
    · exact ⟨rfl, fun p hp => .inr hp⟩
    · split
      · exact ⟨rfl, forall_mem_cons.mpr ⟨.inl rfl, fun p hp => .inr hp⟩⟩
      · exact ⟨rfl, fun p hp => .inr hp⟩

/-- The calls that wait run the script, one after the other. -/
theorem exists_evaluated (hn : reservationKey window c.key c.now = name)
    (hbatch : 1 < reservationBatch c.limit) :
    ∀ (k : ℕ) (s : RateLimiters ι), Bunched window name c k s →
      ∃ t, Bunched window name c 0 t ∧
        (t.ledger window name c.server).total = (s.ledger window name c.server).total := by
  have hc : under window name c = true := decide_eq_true hn
  intro k
  induction k with
  | zero => exact fun s hs => ⟨s, hs, rfl⟩
  | succ k ih =>
    intro s hs
    have hmem : c ∈ s.evaluating := by
      rw [hs.evaluating]
      exact mem_cons_self
    have hstep :
        s.step window (.evaluate c .answered) = some ((s.leave c).evaluate window c .answered) := by
      rw [step, if_pos hmem]
    obtain ⟨hlists, hstoring⟩ := evaluate_lists window (s.leave c) c .answered
    have hevaluating : ((s.leave c).evaluate window c .answered).evaluating = replicate k c := by
      rw [hlists]
      show s.evaluating.erase c = _
      rw [hs.evaluating, replicate_succ, erase_cons_head]
    have hmove : Ledger.Step c.limit (s.ledger window name c.server)
        (((s.leave c).evaluate window c .answered).ledger window name c.server) :=
          ledger_evaluate hn rfl hstep
    have hfewer : (((s.leave c).evaluate window c .answered).ledger window name c.server).waiting <
        (s.ledger window name c.server).waiting := by
      rw [waiting_replicate hc _ hevaluating, waiting_replicate hc _ hs.evaluating]
      exact Nat.lt_succ_self k
    obtain ⟨t, ht, htotal⟩ := ih _ ⟨hs.reaches.next hstep rfl rfl, hevaluating,
      fun p hp => (hstoring p hp).elim id (hs.storing p),
        hs.spread.step hbatch hmove (.inl hfewer.ne)⟩
    exact ⟨t, ht, htotal.trans (hmove.total (.inl hfewer))⟩

/-- The calls that have more than they need store it, one after the other. -/
theorem exists_stored (hn : reservationKey window c.key c.now = name)
    (hbatch : 1 < reservationBatch c.limit) :
    ∀ (k : ℕ) (s : RateLimiters ι), s.storing.length = k → Bunched window name c 0 s →
      ∃ t, Bunched window name c 0 t ∧ t.storing = [] ∧
        (t.ledger window name c.server).total = (s.ledger window name c.server).total := by
  intro k
  induction k with
  | zero => exact fun s hlength hs => ⟨s, hs, length_eq_zero_iff.mp hlength, rfl⟩
  | succ k ih =>
    intro s hlength hs
    obtain ⟨⟨c', r⟩, rest, hcons⟩ := exists_cons_of_length_eq_add_one hlength
    obtain rfl : c' = c := hs.storing (c', r) (by rw [hcons]; exact mem_cons_self)
    have hmem : (c', r) ∈ s.storing := by
      rw [hcons]
      exact mem_cons_self
    obtain ⟨u, hu⟩ : ∃ u, s.step window (.store c' r) = some u := by
      rw [step, if_pos hmem]
      exact ⟨_, rfl⟩
    have hrest : u.storing = rest ∧ u.evaluating = s.evaluating := by
      rw [step, if_pos hmem] at hu
      cases hu
      refine ⟨?_, rfl⟩
      show s.storing.erase (c', r) = rest
      rw [hcons, erase_cons_head]
    have hmove :
        Ledger.Step c'.limit (s.ledger window name c'.server) (u.ledger window name c'.server) :=
      ledger_store hn hu
    have hunder : under window name c' = true := decide_eq_true hn
    have hfewer :
        (u.ledger window name c'.server).holding < (s.ledger window name c'.server).holding := by
      show u.storing.countP _ < s.storing.countP _
      rw [hrest.1, hcons, countP_cons_of_pos (by exact hunder)]
      exact Nat.lt_succ_self _
    obtain ⟨t, ht, hnil, htotal⟩ :=
      ih u (by rw [hrest.1]; rw [hcons] at hlength; exact Nat.succ.inj hlength)
      ⟨hs.reaches.next hu rfl trivial, hrest.2.trans hs.evaluating,
        fun p hp => hs.storing p (by rw [hcons]; rw [hrest.1] at hp; exact mem_cons_of_mem _ hp),
        hs.spread.step hbatch hmove (.inr hfewer.ne)⟩
    exact ⟨t, ht, hnil, htotal.trans (hmove.total (.inr hfewer))⟩

/-- **The wasteful interleaving.** All the calls return, and fewer of them are admitted than there
are batches to begin. -/
theorem exists_waste (window : Duration) (c : AllowCall ι)
    (hn : reservationKey window c.key c.now = name) (hlimit : 1 ≤ c.limit)
    (hbatch : 1 < reservationBatch c.limit) (n : ℕ) :
    ∃ trace, ∃ t : RateLimiters ι, Run (step window) start trace t ∧
      (∀ p ∈ trace, SoleUse window name c.server c.limit p.2) ∧ Settled window name t ∧
      t.calls window name = n ∧
      reservationBatch c.limit * t.spent window name < c.limit + reservationBatch c.limit := by
  obtain ⟨s, hs, -, hstoring, hreturned⟩ := exists_asked hn hlimit hbatch n
  obtain ⟨u, hu, hutotal⟩ := exists_evaluated hn hbatch n s hs
  obtain ⟨t, ht, hnil, httotal⟩ := exists_stored hn hbatch _ u rfl hu
  obtain ⟨trace, run, hsole⟩ := ht.reaches
  have hsettled : Settled window name t := by
    constructor
    · rw [ht.evaluating]
      exact forall_mem_nil _
    · rw [hnil]
      exact forall_mem_nil _
  have hasked : (s.ledger window name c.server).total = n := by
    simp [Ledger.total, RateLimiters.ledger, hs.evaluating, hstoring, hreturned, countP_replicate,
      show under window name c = true from decide_eq_true hn]
  obtain ⟨hwaiting, hholding⟩ := hsettled.ledger c.server
  have hcalls : t.calls window name = n := by
    rw [calls_eq_add c.server, ← hasked, ← hutotal, ← httotal, Ledger.total]
    omega
  have hfew := ht.spread.few
  rw [hholding] at hfew
  refine ⟨trace, t, run, hsole, hsettled, hcalls, ?_⟩
  rw [spent_eq_admitted c.server]
  push_cast at hfew
  linarith

end Waste

/-- A batch is one unit, or eight at least of a limit of a thousand. -/
theorem reservationBatch_cases (limit : ℤ) :
    (limit < 1000 ∧ reservationBatch limit = 1) ∨
      (1000 ≤ limit ∧ 8 ≤ reservationBatch limit ∧ reservationBatch limit ≤ 32) := by
  rw [reservationBatch]
  split
  · next h => exact .inl ⟨h, rfl⟩
  · next h =>
    refine .inr ⟨by omega, ?_⟩
    split <;> decide

/-- **When no capacity is wasted.** A server is the only one to use a key in a window, with one
limit, and Valkey answers it. Whatever the interleaving, of `n` calls that have all returned `min
limit n` were admitted, exactly when the limit is spent unit by unit, or when the calls are no more
than the batches of the limit. -/
theorem capacity_used_iff (window : Duration) (key : String) (now : Time) (server : ι) {limit : ℤ}
    (hlimit : 1 ≤ limit) (n : ℕ) :
    (∀ (trace : List (RateLimiters ι × AllowStep ι)) (t : RateLimiters ι),
      Run (step window) start trace t →
        (∀ p ∈ trace, SoleUse window (reservationKey window key now) server limit p.2) →
        Settled window (reservationKey window key now) t →
        t.calls window (reservationKey window key now) = n →
        t.spent window (reservationKey window key now) = min limit n) ↔
      limit < 1000 ∨ n * reservationBatch limit < limit + reservationBatch limit := by
  constructor
  · intro hall
    by_contra hnot
    obtain ⟨hlarge, hmany⟩ := not_or.mp hnot
    rcases reservationBatch_cases limit with ⟨hsmall, -⟩ | ⟨hthousand, height, hbound⟩
    · exact hlarge hsmall
    obtain ⟨trace, t, run, hsole, hsettled, hcalls, hspent⟩ :=
      exists_waste window ⟨server, key, limit, now⟩ rfl hlimit
        (show 1 < reservationBatch limit by omega) n
    rw [hall trace t run hsole hsettled hcalls] at hspent
    rcases min_cases limit (n : ℤ) with ⟨heq, -⟩ | ⟨heq, -⟩
    · rw [heq] at hspent
      change reservationBatch limit * limit < limit + reservationBatch limit at hspent
      nlinarith
    · rw [heq] at hspent
      change reservationBatch limit * (n : ℤ) < limit + reservationBatch limit at hspent
      linarith
  · rintro (hsmall | hfew) trace t run hsole hsettled rfl
    · rcases reservationBatch_cases limit with ⟨-, hone⟩ | ⟨hthousand, -⟩
      · exact spent_of_single hlimit hone run hsole
      · omega
    · exact spent_of_few hlimit run hsole hsettled hfew

/-- 125 calls are no more than the batches of a limit of 1000: all of them are admitted. -/
theorem capacity_used_batches :
    (1 : ℤ) ≤ 1000 ∧ ∀ (trace : List (RateLimiters Unit × AllowStep Unit)) (t : RateLimiters Unit),
      Run (step 60000000000) start trace t →
      (∀ p ∈ trace,
        SoleUse 60000000000 (reservationKey 60000000000 "k" Instant.midnight.toTime) () 1000 p.2) →
      Settled 60000000000 (reservationKey 60000000000 "k" Instant.midnight.toTime) t →
      t.calls 60000000000 (reservationKey 60000000000 "k" Instant.midnight.toTime) = 125 →
      t.spent 60000000000 (reservationKey 60000000000 "k" Instant.midnight.toTime) = min 1000 125 :=
  ⟨by decide, (capacity_used_iff 60000000000 "k" Instant.midnight.toTime () (by decide) 125).mpr
    (.inr (by decide))⟩

/-- **One call more.** Of 126 calls with a limit of 1000, all of which return, 125 are admitted at
most. -/
theorem capacity_wasted :
    ∃ trace, ∃ t : RateLimiters Unit, Run (step 60000000000) start trace t ∧
      (∀ p ∈ trace,
        SoleUse 60000000000 (reservationKey 60000000000 "k" Instant.midnight.toTime) () 1000 p.2) ∧
      Settled 60000000000 (reservationKey 60000000000 "k" Instant.midnight.toTime) t ∧
      t.calls 60000000000 (reservationKey 60000000000 "k" Instant.midnight.toTime) = 126 ∧
      t.spent 60000000000 (reservationKey 60000000000 "k" Instant.midnight.toTime) ≤ 125 := by
  obtain ⟨trace, t, run, hsole, hsettled, hcalls, hspent⟩ :=
    exists_waste 60000000000 (⟨(), "k", 1000, Instant.midnight.toTime⟩ : AllowCall Unit)
      rfl (by decide)
      (by decide) 126
  have hbatches :
      8 * t.spent 60000000000 (reservationKey 60000000000 "k" Instant.midnight.toTime) < 1000 + 8 :=
    hspent
  refine ⟨trace, t, run, hsole, hsettled, hcalls, ?_⟩
  omega

end RateLimiters

end Urgentry
