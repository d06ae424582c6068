import Urgentry.Clock

/-!
# Runtime leases

A runtime lease is one row: who holds it, and until when. One statement acquires it, refreshes it or
leaves it alone: the row is written if there is none, if its end has passed, or if the caller holds
it.

The end and the current time are compared as text, to the second. A lease that ends within a second
is stored as ending when the second begins, so another holder gets it for the rest of that second.
That is the only way in which it is given away too early (`excludes_iff`). -/

namespace Urgentry.RuntimeLease

open List

/-- The row of a lease in `runtime_leases`. -/
structure LeaseRow where
  (holderID leaseUntil updatedAt : String)

/-- `now.Add(ttl)`, with the default for a duration that is not positive. -/
def leaseEnd (now : Time) (ttl : Duration) : Time := now.add (if ttl ≤ 0 then 30000000000 else ttl)

/-- A call of `AcquireLease` for the lease. -/
structure LeaseCall where
  holderID : String
  ttl : Duration
  now : Time
  /-- The year in which the lease ends has four digits. -/
  writable : (leaseEnd now ttl).Writable

/-- The end that the caller asks for. -/
def LeaseCall.ends (c : LeaseCall) : Time := leaseEnd c.now c.ttl

/-- The row that the statement inserts. -/
def LeaseCall.row (c : LeaseCall) : LeaseRow := ⟨c.holderID, c.ends.rfc3339, c.now.rfc3339⟩

/-- `AcquireLease`: whether a row was written, and the row after the call. -/
def acquireLease : Option LeaseRow → LeaseCall → Bool × Option LeaseRow
  | none, c => (true, some c.row)
  | some r, c =>
    if r.leaseUntil ≤ c.row.updatedAt ∨ r.holderID = c.row.holderID then (true, some c.row)
    else (false, some r)

/-- The answers to calls that are made one after another. -/
def answers : Option LeaseRow → List LeaseCall → List Bool
  | _, [] => []
  | row, c :: calls => (acquireLease row c).1 :: answers (acquireLease row c).2 calls

/-- **The lease excludes others.** After the call, no other holder gets the lease before its end, as
long as its holder has not asked again. -/
def Excludes (row : Option LeaseRow) (c : LeaseCall) : Prop :=
  ∀ calls : List LeaseCall, calls.Pairwise (·.now.ns ≤ ·.now.ns) →
    (∀ c' ∈ calls, c'.holderID ≠ c.holderID ∧ c.now.ns ≤ c'.now.ns ∧ c'.now.ns < c.ends.ns) →
      true ∉ answers (acquireLease row c).2 calls

variable {row : Option LeaseRow} {c c' : LeaseCall}

theorem ns_lt_ends (c : LeaseCall) : c.now.ns < c.ends.ns := by
  have hpos : 0 < (if c.ttl ≤ 0 then 30000000000 else c.ttl).toInt := by
    split
    · decide
    · next h => exact not_le.mp (Int64.le_iff_toInt_le.not.mp h)
  simp only [LeaseCall.ends, leaseEnd, Time.add]
  omega

theorem now_writable (c : LeaseCall) : c.now.Writable :=
  lt_of_le_of_lt (Time.day_le_of_secs_le (Nat.div_le_div_right (ns_lt_ends c).le)) c.writable

theorem row_of_granted (h : (acquireLease row c).1 = true) :
    (acquireLease row c).2 = some c.row := by
  rcases row with _ | r
  · rfl
  · rw [acquireLease] at h ⊢
    split at h
    · next hdue => rw [if_pos hdue]
    · cases h

/-- Another holder gets the lease in the second in which it ends. -/
theorem acquireLease_other (hne : c'.holderID ≠ c.holderID) :
    acquireLease (some c.row) c' =
      if c.ends.secs ≤ c'.now.secs then (true, some c'.row) else (false, some c.row) := by
  have hends : c.ends.Writable := c.writable
  have hdue : c.ends.rfc3339 ≤ c'.now.rfc3339 ↔ c.ends.secs ≤ c'.now.secs := by
    rw [← not_lt, Time.rfc3339_lt_iff (now_writable c') hends, not_lt]
  simp [acquireLease, LeaseCall.row, hdue, hne.symm]

/-- **The lease excludes others** exactly when it ends with a second. -/
theorem excludes_iff (hgranted : (acquireLease row c).1 = true) :
    Excludes row c ↔ 10 ^ 9 ∣ c.ends.ns := by
  rw [Excludes, row_of_granted hgranted]
  constructor
  · intro h
    by_contra hfraction
    -- Another holder asks in the last second of the lease.
    let now : Time := ⟨max c.now.ns (c.ends.secs * 10 ^ 9)⟩
    have hlt : now.ns < c.ends.ns := by
      have hnow := ns_lt_ends c
      simp only [now, Time.secs]
      omega
    have hwritable : (leaseEnd now 1).Writable := by
      refine lt_of_le_of_lt (Time.day_le_of_secs_le (Nat.div_le_div_right ?_)) c.writable
      exact hlt
    let c' : LeaseCall := ⟨c.holderID.push 'x', 1, now, hwritable⟩
    have hne : c'.holderID ≠ c.holderID := fun heq => by
      simpa [c'] using congrArg String.length heq
    have hsecs : c.ends.secs ≤ c'.now.secs := by
      simp only [c', now, Time.secs]
      omega
    refine h [c'] (pairwise_singleton _ _)
      (forall_mem_singleton.mpr ⟨hne, le_max_left _ _, hlt⟩) ?_
    simp [answers, acquireLease_other hne, hsecs]
  · intro hwhole calls hsorted hcalls
    induction calls with
    | nil => simp [answers]
    | cons c' calls ih =>
      rw [forall_mem_cons] at hcalls
      obtain ⟨⟨hne, -, hlt⟩, hcalls⟩ := hcalls
      have hearly : ¬c.ends.secs ≤ c'.now.secs := by
        simp only [Time.secs]
        omega
      simpa [answers, acquireLease_other hne, hearly] using ih (pairwise_cons.mp hsorted).2 hcalls

/-- A lease of a second. -/
theorem second_excludes :
    (acquireLease none ⟨"a", 1000000000, Instant.midnight.toTime, by decide +kernel⟩).1 = true ∧
      Excludes none ⟨"a", 1000000000, Instant.midnight.toTime, by decide +kernel⟩ :=
  ⟨rfl, (excludes_iff rfl).mpr (by decide +kernel)⟩

/-- Half a second from the last tenth of the second before midnight on. -/
def overMidnight : LeaseCall :=
  ⟨"a", 500000000, ⟨Instant.midnight.ns - 100000000⟩, by decide +kernel⟩

/-- **A lease that is given away.** Another holder gets it at midnight, four tenths of a second
before it ends. -/
theorem given_away_at_midnight : (acquireLease none overMidnight).1 = true ∧
    Instant.midnight.ns + 400000000 = overMidnight.ends.ns ∧
    answers (acquireLease none overMidnight).2
      [⟨"b", 1000000000, Instant.midnight.toTime, by decide +kernel⟩] = [true] := by
  decide +kernel

end Urgentry.RuntimeLease
