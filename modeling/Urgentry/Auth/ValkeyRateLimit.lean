import Mathlib.Algebra.BigOperators.Group.Finset.Piecewise
import Mathlib.Algebra.Order.BigOperators.Group.Finset
import Urgentry.Clock
import Urgentry.Internal.GoText
import Urgentry.Internal.LuaNumber
import Urgentry.Internal.Run

/-!
# The shared rate limiter

Any number of servers count the requests for a key in one counter of the Valkey server, a counter
for each window of time. A server does not ask for every request. It takes a batch from the counter,
spends one part of it on the request at hand, and keeps the rest in its memory for the requests that
follow.

A call of `Allow` has up to three steps that other calls can come between: it takes from the
reservation of its server, it runs the script, it puts what it does not need into the reservation.
The state has the calls that stand between two of these steps.

## Where an admission comes from

An admission is covered by a unit of the counter. Between the script and the answer the unit passes
through the call and perhaps through the reservation of the server, and on the way it can only be
lost: a batch that is stored replaces one that is still there, and the answer of the script may not
arrive. So

```
admitted + reserved + in flight ≤ counter ≤ limit
```

in every state. This is `Covered`, and every step keeps it.

The keys of Valkey do not expire during their window. The script computes with integers here; Lua's
numbers are doubles, and with a limit of up to `2 ^ 53` they come to the same in every state of a
run.

## Main results

* `RateLimiters.run_admitted_le`: a key whose calls have one limit admits at most that many of them
  in a window, in every run. -/

namespace Urgentry

open Trace GoText LuaNumber List Function

/-! ## One call -/

variable (window : Duration)

/-- The window of the limiter that `NewValkeyRateLimiter` returns, in nanoseconds. -/
def rateLimitWindow : ℕ :=
  if window ≤ 0 then 60 * 10 ^ 9 else window.toInt.toNat

variable (ι : Type)

/-- A call `Allow(key, limit, now)` on a server. -/
structure AllowCall where
  server : ι
  key : String
  limit : ℤ
  now : Time
deriving DecidableEq

/-- `now.UTC().Truncate(l.window)`. -/
def windowStart (now : Time) : Time :=
  ⟨now.ns - now.ns % rateLimitWindow window⟩

/-- The time to wait that `Allow` returns, at least a second. -/
def retryAfter (now : Time) : ℤ :=
  max (rateLimitWindow window - (now.ns - (windowStart window now).ns)) (10 ^ 9)

/-- The name of a reservation: a key and the start of its window. -/
def reservationKey (key : String) (now : Time) : String :=
  key ++ ":" ++ toString (windowStart window now).unix

/-- The name of the counter. -/
def counterKey (name : String) : String := "urgentry:ratelimit:" ++ name

/-- `reservationBatch`. -/
def reservationBatch (limit : ℤ) : ℤ :=
  if limit < 1000 then 1 else if limit < 10000 then 8 else 32

/-- The script: what it grants of the `want` units it is asked for, and the counter afterwards. -/
def reserveScript (current limit want : ℤ) : ℤ × ℤ :=
  if limit ≤ current then (0, current)
  else
    let remaining := limit - current
    let grant := if remaining < want then remaining else want
    (grant, current + grant)

/-- The script with the numbers of Lua. `INCRBY` adds integers. -/
def reserveScriptLua (current limit want : ℤ) : ℤ × ℤ :=
  if toDouble limit ≤ toDouble current then (0, current)
  else
    let remaining := toDouble (toDouble limit - toDouble current)
    let grant := if remaining < want then remaining else want
    (grant, current + grant)

theorem reserveScriptLua_eq {current limit : ℤ} (hnonneg : 0 ≤ current) (hle : current ≤ limit)
    (hlimit : limit ≤ 2 ^ 53) (want : ℤ) :
    reserveScriptLua current limit want = reserveScript current limit want := by
  have hcurrent := toDouble_of_le hnonneg (hle.trans hlimit)
  have hlimit' := toDouble_of_le (hnonneg.trans hle) hlimit
  have hremaining : toDouble (limit - current) = limit - current :=
    toDouble_of_le (by omega) (by omega)
  rw [reserveScriptLua, hcurrent, hlimit', hremaining, reserveScript]

/-- `consumeLocalReservation`, on the reservation that is stored under the name. -/
def consumeLocalReservation : Option ℤ → Bool × Option ℤ
  | none => (false, none)
  | some remaining =>
    if remaining ≤ 0 then (false, none)
    else (true, if remaining - 1 = 0 then none else some (remaining - 1))

/-- `storeLocalReservation`, on the reservation that is stored under the name. -/
def storeLocalReservation (remaining : ℤ) (old : Option ℤ) : Option ℤ :=
  if remaining ≤ 0 then old else some remaining

/-! ## The system -/

/-- The Valkey server, the memories of the servers, and the calls. -/
structure RateLimiters where
  /-- The counters of Valkey; a key that is not there counts as `0`. -/
  counters : String → ℤ
  /-- `l.local` of every server. -/
  reservations : ι → String → Option ℤ
  /-- The calls that found no reservation and have not run the script. -/
  evaluating : List (AllowCall ι)
  /-- The calls that have more than they need, with what they have to store. -/
  storing : List (AllowCall ι × ℤ)
  /-- The calls that have returned, with their results. -/
  returned : List (AllowCall ι × ℤ × Bool)

/-- What becomes of a request to the Valkey server. -/
inductive Evaluation
  /-- The script runs and its answer arrives. -/
  | answered
  /-- The script runs and its answer is lost. -/
  | unanswered
  /-- The script does not run. -/
  | failed
deriving DecidableEq

/-- A step of a call. -/
inductive AllowStep /-- The call starts and takes from the reservation of its server. -/
  | consume (c : AllowCall ι)
  /-- The call runs the script. -/
  | evaluate (c : AllowCall ι) (outcome : Evaluation)
  /-- The call stores a reservation. -/
  | store (c : AllowCall ι) (remaining : ℤ)

/-- The call that takes the step. -/
def AllowStep.call {ι : Type} : AllowStep ι → AllowCall ι
  | .consume c => c
  | .evaluate c _ => c
  | .store c _ => c

namespace RateLimiters

variable {ι : Type}

/-- No call has been made. -/
def start : RateLimiters ι := ⟨fun _ => 0, fun _ _ => none, [], [], []⟩

def setReservation [DecidableEq ι] (s : RateLimiters ι) (server : ι) (name : String)
    (r : Option ℤ) :
    RateLimiters ι :=
  { s with
    reservations := Function.update s.reservations server
      (Function.update (s.reservations server) name r) }

variable (s : RateLimiters ι)

def setCounter (name : String) (value : ℤ) : RateLimiters ι :=
  { s with counters := Function.update s.counters (counterKey name) value }

variable (c : AllowCall ι)

def finish (wait : ℤ) (allowed : Bool) : RateLimiters ι :=
  { s with returned := (c, wait, allowed) :: s.returned }

def await : RateLimiters ι :=
  { s with evaluating := c :: s.evaluating }

def leave [DecidableEq ι] (s : RateLimiters ι) (c : AllowCall ι) : RateLimiters ι :=
  { s with evaluating := s.evaluating.erase c }

def keep (remaining : ℤ) : RateLimiters ι :=
  { s with storing := (c, remaining) :: s.storing }

def unkeep [DecidableEq ι] (s : RateLimiters ι) (c : AllowCall ι) (remaining : ℤ) :
    RateLimiters ι :=
  { s with storing := s.storing.erase (c, remaining) }

/-- The call runs the script. -/
def evaluate (window : Duration) (s : RateLimiters ι) (c : AllowCall ι) (outcome : Evaluation) :
    RateLimiters ι :=
  let name := reservationKey window c.key c.now
  let wait := retryAfter window c.now
  let result := reserveScript (s.counters (counterKey name)) c.limit (reservationBatch c.limit)
  match outcome with
  | .failed => s.finish c wait false
  | .unanswered => (s.setCounter name result.2).finish c wait false
  | .answered =>
    if result.1 ≤ 0 then (s.setCounter name result.2).finish c wait false
    else if 1 < result.1 then (s.setCounter name result.2).keep c (result.1 - 1)
    else (s.setCounter name result.2).finish c wait true

/-- One step. -/
def step [DecidableEq ι] (window : Duration) (s : RateLimiters ι) :
    AllowStep ι → Option (RateLimiters ι)
  | .consume c =>
    if c.limit ≤ 0 then some (s.finish c 0 true)
    else
      let name := reservationKey window c.key c.now
      let result := consumeLocalReservation (s.reservations c.server name)
      let rest := s.setReservation c.server name result.2
      if result.1 then some (rest.finish c (retryAfter window c.now) true)
      else some (rest.await c)
  | .evaluate c outcome =>
    if c ∈ s.evaluating then some ((s.leave c).evaluate window c outcome) else none
  | .store c remaining =>
    if (c, remaining) ∈ s.storing then
      let name := reservationKey window c.key c.now
      let rest := (s.unkeep c remaining).setReservation c.server name
        (storeLocalReservation remaining (s.reservations c.server name))
      some (rest.finish c (retryAfter window c.now) true)
    else none

/-- The calls for the key that were admitted in the window that starts at `w`. -/
def admitted (window : Duration) (s : RateLimiters ι) (key : String) (w : Time) :
    List (AllowCall ι × ℤ × Bool) :=
  s.returned.filter fun e => e.1.key = key ∧ windowStart window e.1.now = w ∧ e.2.2

/-! ## Coverage -/

section Coverage

variable [Fintype ι] (window : Duration) (s : RateLimiters ι) (name : String)

/-- The calls under the name that were admitted. -/
def spent : ℤ :=
  s.returned.countP fun e => reservationKey window e.1.key e.1.now = name ∧ e.2.2

/-- What the servers have in their memories. -/
def reserved : ℤ := ∑ i, (s.reservations i name).getD 0

/-- What the calls hold that have run the script: a unit for themselves and what they are to
store. -/
def inFlight : ℤ :=
  ((s.storing.filter fun p => reservationKey window p.1.key p.1.now = name).map (·.2 + 1)).sum

end Coverage

/-- **Every admission is covered** by a unit of the counter, and so is every unit on its way to
one. -/
structure Covered [Fintype ι] (window : Duration) (name : String) (limit : ℤ) (s : RateLimiters ι) :
    Prop where
  covered : s.spent window name + s.reserved name + s.inFlight window name ≤
    s.counters (counterKey name)
  capped : s.counters (counterKey name) ≤ limit
  reservations : ∀ i r, s.reservations i name = some r → 0 ≤ r
  storing : ∀ p ∈ s.storing, 0 ≤ p.2

section Sums

variable (window : Duration) (s : RateLimiters ι) (name : String) (c : AllowCall ι)

theorem counterKey_injective : Function.Injective counterKey := by
  intro a b h
  exact (String.append_right_inj _).mp h

@[simp]
theorem counters_setCounter (n : String) (value : ℤ) :
    (s.setCounter n value).counters (counterKey name) =
      if name = n then value else s.counters (counterKey name) := by
  show update s.counters (counterKey n) value (counterKey name) = _
  by_cases hn : name = n
  · rw [if_pos hn, hn, update_self]
  · rw [if_neg hn, update_of_ne fun heq => hn (counterKey_injective heq)]

theorem spent_finish (wait : ℤ) (allowed : Bool) :
    (s.finish c wait allowed).spent window name = s.spent window name +
      if reservationKey window c.key c.now = name ∧ allowed = true then 1 else 0 := by
  rw [spent, finish, countP_cons]
  simp only [decide_eq_true_eq]
  push_cast
  rfl

theorem spent_finish_false (wait : ℤ) :
    (s.finish c wait false).spent window name = s.spent window name := by
  rw [spent_finish, if_neg (by simp), add_zero]

theorem inFlight_keep (remaining : ℤ) :
    (s.keep c remaining).inFlight window name = s.inFlight window name +
      if reservationKey window c.key c.now = name then remaining + 1 else 0 := by
  rw [inFlight, keep, filter_cons, inFlight]
  simp only [decide_eq_true_eq]
  split
  · rw [map_cons, sum_cons]
    omega
  · omega

variable [DecidableEq ι]

@[simp]
theorem reservations_setReservation (server i : ι) (n : String) (r : Option ℤ) :
    (s.setReservation server n r).reservations i name =
      if i = server ∧ name = n then r else s.reservations i name := by
  show update s.reservations server (update (s.reservations server) n r) i name = _
  by_cases hi : i = server
  · rw [hi, update_self]
    by_cases hn : name = n
    · rw [if_pos ⟨rfl, hn⟩, hn, update_self]
    · rw [if_neg fun h => hn h.2, update_of_ne hn]
  · rw [if_neg fun h => hi h.1, update_of_ne hi]

@[simp]
theorem reserved_setReservation [Fintype ι] (n : String) (server : ι) (r : Option ℤ) :
    (s.setReservation server n r).reserved name =
      if name = n then s.reserved name - (s.reservations server name).getD 0 + r.getD 0
      else s.reserved name := by
  by_cases hn : name = n
  · have hvalues : (fun i => ((s.setReservation server n r).reservations i name).getD 0) =
        update (fun i => (s.reservations i name).getD 0) server (r.getD 0) := by
      funext i
      rw [reservations_setReservation]
      by_cases hi : i = server
      · rw [if_pos ⟨hi, hn⟩, hi, update_self]
      · rw [if_neg fun h => hi h.1, update_of_ne hi]
    have hold := Finset.add_sum_erase Finset.univ (fun i => (s.reservations i name).getD 0)
      (Finset.mem_univ server)
    rw [if_pos hn, reserved, hvalues, Finset.sum_update_of_mem (Finset.mem_univ server),
      Finset.sdiff_singleton_eq_erase, reserved]
    omega
  · simp only [reserved, reservations_setReservation, hn, and_false, if_false]

theorem inFlight_unkeep {c : AllowCall ι} {remaining : ℤ} (h : (c, remaining) ∈ s.storing) :
    (s.unkeep c remaining).inFlight window name = s.inFlight window name -
      if reservationKey window c.key c.now = name then remaining + 1 else 0 := by
  have hperm : s.inFlight window name =
      ((s.unkeep c remaining).keep c remaining).inFlight window name := by
    rw [inFlight]
    exact (((perm_cons_erase h).filter _).map _).sum_eq
  rw [hperm, inFlight_keep]
  omega

end Sums

/-! ## Steps -/

/-- A reservation is spent in units. -/
theorem consumeLocalReservation_spec {o : Option ℤ} (h : ∀ r, o = some r → 0 ≤ r) :
    0 ≤ (consumeLocalReservation o).2.getD 0 ∧
      (consumeLocalReservation o).2.getD 0 + (if (consumeLocalReservation o).1 then 1 else 0) ≤
        o.getD 0 := by
  cases o with
  | none => simp [consumeLocalReservation]
  | some r =>
    have hr := h r rfl
    rw [consumeLocalReservation]
    split
    · simpa using hr
    · by_cases hone : r - 1 = 0
      · simp [hone]
        omega
      · simp [hone]
        omega

/-- Storing a reservation adds at most what is stored. -/
theorem storeLocalReservation_spec {o : Option ℤ} {remaining : ℤ} (h : ∀ r, o = some r → 0 ≤ r)
    (hremaining : 0 ≤ remaining) :
    0 ≤ (storeLocalReservation remaining o).getD 0 ∧
      (storeLocalReservation remaining o).getD 0 ≤ o.getD 0 + remaining := by
  have ho : 0 ≤ o.getD 0 := by
    cases o with
    | none => exact le_rfl
    | some r => exact h r rfl
  rw [storeLocalReservation]
  split
  · exact ⟨ho, by omega⟩
  · exact ⟨hremaining, by simpa using ho⟩

/-- The script adds what it grants, and nothing above the limit. -/
theorem reserveScript_spec (current limit : ℤ) {want : ℤ} (hwant : 0 < want) :
    (reserveScript current limit want).2 = current + (reserveScript current limit want).1 ∧
      0 ≤ (reserveScript current limit want).1 ∧
      (current ≤ limit → (reserveScript current limit want).2 ≤ limit) := by
  rw [reserveScript]
  split
  · simp
  · dsimp only
    split <;> omega

theorem reservationBatch_pos (limit : ℤ) : 0 < reservationBatch limit := by
  rw [reservationBatch]
  split
  · decide
  · split <;> decide

section Steps

variable [Fintype ι] {window : Duration} {s t : RateLimiters ι} {name : String} {limit : ℤ}

/-- **The account.** A step keeps the coverage when what it spends, reserves and puts on the way is
paid by the counter. -/
theorem Covered.account (h : s.Covered window name limit) (spending reserving sending counting : ℤ)
    (hspent : t.spent window name = s.spent window name + spending)
    (hreserved : t.reserved name ≤ s.reserved name + reserving)
    (hinFlight : t.inFlight window name = s.inFlight window name + sending)
    (hcounter : t.counters (counterKey name) = s.counters (counterKey name) + counting)
    (hpaid : spending + reserving + sending ≤ counting)
    (hcap : t.counters (counterKey name) ≤ limit)
    (hreservations : ∀ i r, t.reservations i name = some r → 0 ≤ r)
    (hstoring : ∀ p ∈ t.storing, 0 ≤ p.2) : t.Covered window name limit := by
  refine ⟨?_, hcap, hreservations, hstoring⟩
  have hcovered := h.covered
  omega

theorem Covered.nonneg (h : s.Covered window name limit) :
    0 ≤ s.reserved name ∧ 0 ≤ s.inFlight window name := by
  constructor
  · refine Finset.sum_nonneg fun i _ => ?_
    cases hr : s.reservations i name with
    | none => exact le_rfl
    | some r => exact h.reservations i r hr
  · refine sum_nonneg fun x hx => ?_
    obtain ⟨p, hp, rfl⟩ := mem_map.mp hx
    have hpos := h.storing p (mem_filter.mp hp).1
    omega

omit [Fintype ι] in
/-- The admitted calls of a window are among the ones that its name covers. -/
theorem length_admitted_le (window : Duration) (s : RateLimiters ι) (key : String) (now : Time) :
    ((s.admitted window key (windowStart window now)).length : ℤ) ≤
      s.spent window (reservationKey window key now) := by
  rw [admitted, ← countP_eq_length_filter]
  refine Int.ofNat_le.mpr (countP_mono_left fun e _ he => ?_)
  simp only [decide_eq_true_eq] at he ⊢
  obtain ⟨hkey, hwindow, hallowed⟩ := he
  exact ⟨by rw [reservationKey, hkey, hwindow, reservationKey], hallowed⟩

/-- What the script grants is on the way, spent, or lost. -/
theorem Covered.evaluate (h : s.Covered window name limit) {c : AllowCall ι}
    (hok : reservationKey window c.key c.now = name → c.limit = limit) (outcome : Evaluation) :
    (s.evaluate window c outcome).Covered window name limit := by
  simp only [RateLimiters.evaluate]
  generalize hn : reservationKey window c.key c.now = n at *
  obtain ⟨hnew, hgrant, hcap⟩ := reserveScript_spec (s.counters (counterKey n)) c.limit
    (reservationBatch_pos c.limit)
  generalize reserveScript (s.counters (counterKey n)) c.limit
    (reservationBatch c.limit) = result at *
  have hcounter : (s.setCounter n result.2).counters (counterKey name) =
      s.counters (counterKey name) + if n = name then result.1 else 0 := by
    rw [counters_setCounter]
    by_cases heq : n = name
    · rw [if_pos heq.symm, if_pos heq, hnew, heq]
    · rw [if_neg (Ne.symm heq), if_neg heq, add_zero]
  have hcapped : (s.setCounter n result.2).counters (counterKey name) ≤ limit := by
    rw [counters_setCounter]
    split
    · next heq => exact hok heq.symm ▸ hcap (heq ▸ hok heq.symm ▸ h.capped)
    · exact h.capped
  have hlost : ((s.setCounter n result.2).finish c (retryAfter window c.now) false).Covered
      window name limit :=
    h.account 0 0 0 _ ((spent_finish_false window _ name c _).trans (add_zero _).symm)
      (add_zero _).ge (add_zero _).symm hcounter
        (by split <;> omega) hcapped h.reservations h.storing
  cases outcome with
  | failed =>
    exact h.account 0 0 0 0 ((spent_finish_false window s name c _).trans (add_zero _).symm)
      (add_zero _).ge (add_zero _).symm (add_zero _).symm le_rfl h.capped h.reservations h.storing
  | unanswered => exact hlost
  | answered =>
    dsimp only
    split
    · exact hlost
    · split_ifs with hmany
      · refine h.account 0 0 _ _ (add_zero _).symm (add_zero _).ge (inFlight_keep window _ name c _)
          hcounter ?_ hcapped h.reservations (forall_mem_cons.mpr ⟨?_, h.storing⟩)
        · rw [hn]
          split <;> omega
        · exact show 0 ≤ result.1 - 1 by omega
      · refine h.account _ 0 0 _ (spent_finish window _ name c _ _) (add_zero _).ge
          (add_zero _).symm
          hcounter ?_ hcapped h.reservations h.storing
        simp only [hn, and_true]
        split <;> omega

variable [DecidableEq ι]

section

variable (h : s.Covered window name limit) {c : AllowCall ι}

include h

/-- A reservation with a value that is not negative. -/
theorem Covered.setReservation_nonneg (server : ι) (n : String) {new : Option ℤ}
    (hnew : n = name → 0 ≤ new.getD 0) :
    ∀ i r, (s.setReservation server n new).reservations i name = some r → 0 ≤ r := by
  intro i r hr
  rw [reservations_setReservation] at hr
  split_ifs at hr with heq
  · have hpos := hnew heq.2.symm
    rwa [hr] at hpos
  · exact h.reservations i r hr

theorem Covered.consume (hlimit : 1 ≤ limit)
    (hok : reservationKey window c.key c.now = name → c.limit = limit)
    (hstep : s.step window (.consume c) = some t) : t.Covered window name limit := by
  rw [step] at hstep
  split at hstep
  · -- a call without a limit is under another name
    next hfree =>
    cases hstep
    refine h.account _ 0 0 0 (spent_finish window s name c _ _) (add_zero _).ge (add_zero _).symm
      (add_zero _).symm ?_ h.capped h.reservations h.storing
    split
    · next hn => exact absurd (hok hn.1) (by omega)
    · exact le_rfl
  · dsimp only at hstep
    generalize hn : reservationKey window c.key c.now = n at *
    have hspec :
        n = name → 0 ≤ (consumeLocalReservation (s.reservations c.server n)).2.getD 0 ∧ _ :=
      fun heq => consumeLocalReservation_spec (heq ▸ h.reservations c.server)
    generalize consumeLocalReservation (s.reservations c.server n) = result at *
    have hreserved : (s.setReservation c.server n result.2).reserved name ≤
        s.reserved name + if n = name ∧ result.1 = true then -1 else 0 := by
      rw [reserved_setReservation]
      split
      · next heq =>
        obtain ⟨-, hspend⟩ := hspec heq.symm
        rw [heq]
        split_ifs at hspend ⊢ <;> simp_all <;> omega
      · next hne => rw [if_neg fun hand => hne hand.1.symm, add_zero]
    have hreservations := h.setReservation_nonneg c.server n fun heq => (hspec heq).1
    split at hstep
    · next hallowed =>
      cases hstep
      refine h.account _ _ 0 0 (spent_finish window _ name c _ _) hreserved (add_zero _).symm
        (add_zero _).symm ?_ h.capped hreservations h.storing
      simp only [hn, hallowed]
      split <;> decide
    · next hdenied =>
      cases hstep
      rw [if_neg fun hand => hdenied hand.2] at hreserved
      exact h.account 0 0 0 0 (add_zero _).symm hreserved (add_zero _).symm (add_zero _).symm le_rfl
        h.capped hreservations h.storing

theorem Covered.store {remaining : ℤ} (hstep : s.step window (.store c remaining) = some t) :
    t.Covered window name limit := by
  obtain ⟨hmem, ⟨⟩⟩ := Option.ite_none_right_eq_some.mp hstep
  have hinFlight := s.inFlight_unkeep window name hmem
  generalize hn : reservationKey window c.key c.now = n at *
  have hspec :
      n = name → 0 ≤ (storeLocalReservation remaining (s.reservations c.server n)).getD 0 ∧ _ :=
    fun heq => storeLocalReservation_spec (heq ▸ h.reservations c.server) (h.storing _ hmem)
  generalize storeLocalReservation remaining (s.reservations c.server n) = new at *
  have hreserved : (s.setReservation c.server n new).reserved name ≤
      s.reserved name + if n = name then remaining else 0 := by
    rw [reserved_setReservation]
    split
    · next heq =>
      obtain ⟨-, hadd⟩ := hspec heq.symm
      rw [if_pos heq.symm]
      rw [← heq] at hadd
      omega
    · next hne => rw [if_neg (Ne.symm hne), add_zero]
  refine h.account _ _ _ 0 (spent_finish window _ name c _ _) hreserved
    (hinFlight.trans (sub_eq_add_neg _ _)) (add_zero _).symm ?_ h.capped
    (h.setReservation_nonneg c.server n fun heq => (hspec heq).1)
    fun p hp => h.storing p (mem_of_mem_erase hp)
  simp only [hn, and_true]
  split <;> omega

/-- **One step.** -/
theorem Covered.step (hlimit : 1 ≤ limit) {a : AllowStep ι}
    (hok : reservationKey window a.call.key a.call.now = name → a.call.limit = limit)
    (hstep : s.step window a = some t) : t.Covered window name limit := by
  cases a with
  | consume c => exact h.consume hlimit hok hstep
  | evaluate c outcome =>
    obtain ⟨-, ⟨⟩⟩ := Option.ite_none_right_eq_some.mp hstep
    have hleft : (s.leave c).Covered window name limit :=
      ⟨h.covered, h.capped, h.reservations, h.storing⟩
    exact hleft.evaluate hok outcome
  | store c remaining => exact h.store hstep

end

/-! ## Runs -/

/-- The name tells the key. -/
theorem key_of_reservationKey {window : Duration} {k l : String} {i j : Time}
    (h : reservationKey window k i = reservationKey window l j) : k = l := by
  have hsep : ∀ n : ℤ, ':' ∉ (toString n).toList := by
    intro n hn
    rcases mem_toString_int hn with hdigit | hminus
    · exact absurd hdigit (by decide)
    · exact absurd hminus (by decide)
  have hlist := congrArg String.toList h
  simp only [reservationKey, String.toList_append] at hlist
  rw [append_assoc, append_assoc] at hlist
  exact String.toList_inj.mp (append_sep_inj (hsep _) (hsep _) hlist).1

omit [DecidableEq ι] in
theorem Covered.start (hlimit : 1 ≤ limit) :
    (start : RateLimiters ι).Covered window name limit := by
  refine ⟨?_, ?_, ?_, ?_⟩
  · simp [RateLimiters.start, spent, reserved, inFlight]
  · exact show (0 : ℤ) ≤ limit by omega
  · intro i r hr
    cases hr
  · simp [RateLimiters.start]

/-- **The limiter never admits more than the limit.** The calls for a key have one limit; the window
is the one of `now`. With a limit that is a double, the script does the same in the numbers of
Lua. -/
theorem run_admitted_le {trace : List (RateLimiters ι × AllowStep ι)}
    (run : Run (step window) start trace t) {key : String} (hlimit : 1 ≤ limit)
    (hconstant : ∀ p ∈ trace, p.2.call.key = key → p.2.call.limit = limit) (now : Time) :
    ((t.admitted window key (windowStart window now)).length : ℤ) ≤ limit ∧
      (limit ≤ 2 ^ 53 → ∀ u ∈ visited trace t, ∀ want,
        reserveScriptLua (u.counters (counterKey (reservationKey window key now))) limit want =
          reserveScript (u.counters (counterKey (reservationKey window key now))) limit want) := by
  have hstep : ∀ {s : RateLimiters ι} {a : AllowStep ι} {u : RateLimiters ι},
      s.Covered window (reservationKey window key now) limit →
      (a.call.key = key → a.call.limit = limit) → s.step window a = some u →
      u.Covered window (reservationKey window key now) limit :=
    fun h hok hstep => h.step hlimit (fun hn => hok (key_of_reservationKey hn)) hstep
  have hcovered := run.invariant (.start hlimit) hstep hconstant
  have hadmitted (u : RateLimiters ι) := length_admitted_le window u key now
  constructor
  · have hnonneg := (hcovered t mem_cons_self).nonneg
    have hsum := (hcovered t mem_cons_self).covered
    have hcapped := (hcovered t mem_cons_self).capped
    have hlength := hadmitted t
    omega
  · intro hdouble u hu want
    have hnonneg := (hcovered u hu).nonneg
    have hsum := (hcovered u hu).covered
    have hlength := hadmitted u
    exact reserveScriptLua_eq (by omega) (hcovered u hu).capped hdouble want

end Steps

/-! ## A run -/

/-- A call of the server for the key `k`, with the smallest limit that is spent in batches. -/
def batchCall (server : Bool) : AllowCall Bool := ⟨server, "k", 1000, Instant.midnight.toTime⟩

/-- A call of one server takes a batch. A call of the other server runs the script in between, and
the next call of the first server is served from its memory. -/
def batchRun : List (AllowStep Bool) :=
  [.consume (batchCall true), .evaluate (batchCall true) .answered, .consume (batchCall false),
    .store (batchCall true) 7, .evaluate (batchCall false) .unanswered, .consume (batchCall true)]

theorem batchRun_admitted : ∃ trace, ∃ t : RateLimiters Bool,
    Run (step 60000000000) start trace t ∧ trace.length = 6 ∧
    (t.admitted 60000000000 "k" (windowStart 60000000000 Instant.midnight.toTime)).length = 2 ∧
    ((t.admitted 60000000000 "k" (windowStart 60000000000 Instant.midnight.toTime)).length : ℤ) ≤
      1000 := by
  obtain ⟨trace, t, run, hlength, hadmitted, hconstant⟩ : ∃ trace t,
      Run (step 60000000000) start trace t ∧ trace.length = 6 ∧
      (t.admitted 60000000000 "k" (windowStart 60000000000 Instant.midnight.toTime)).length = 2 ∧
      ∀ q ∈ trace, q.2.call.key = "k" → q.2.call.limit = 1000 :=
    exists_run batchRun (by decide +kernel)
  exact ⟨trace, t, run, hlength, hadmitted,
    (run_admitted_le run (by decide) hconstant _).1⟩

end RateLimiters

end Urgentry
