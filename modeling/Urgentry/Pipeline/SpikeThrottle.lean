import Mathlib.Algebra.BigOperators.Group.List.Basic
import Mathlib.Data.List.FinRange
import Urgentry.Clock
import Urgentry.Internal.Run

/-!
# The spike throttle

`spike_throttle.go`: events are counted per project and minute, in a window of eleven minutes, and
an event is refused when the count of the current minute exceeds twice the average of the other ten.

The throttle reads the clock up to three times in one call: when it looks up whether the project is
protected, when it fixes the current minute, and when it makes the window of a new project. The
readings are an argument, so that nothing is assumed about the time between them.

The window of a project starts at the minute of its first event and is only moved when a later event
does not fit, and a sweep may take it away. None of this can be seen from outside: as long as
minutes do not go back, the verdict is that of a sliding window. An event whose minute is over when
its window is made is not counted, which the condition `Steady` excludes.

## Main results

* `SpikeThrottle.run_sliding_window`: the events that are refused, by the events of the last ten
  minutes.
* `SpikeThrottle.run_inside_iff`: the events that are counted. -/

namespace Urgentry

/-- `t.UnixNano()`. -/
def Time.unixNano (t : Time) : ℤ := t.ns - unixEpoch * 10 ^ 9

/-- `t.Unix() / 60`, which truncates. -/
def Time.unixMinute (t : Time) : ℤ := t.unix.tdiv 60

namespace SpikeThrottle

open Trace

/-- The past minutes of which the average is taken. -/
def baselineWindow : ℕ := 10

def spikeMultiplier : ℤ := 2

/-- The average below which nothing is refused. -/
def minBaselineCount : ℤ := 10

/-- 30 seconds, in nanoseconds. -/
def enabledCacheTTL : ℤ := 30 * 10 ^ 9

/-- `projectBuckets`: the counts of eleven minutes, the first of which is `startMin`. -/
structure Buckets where
  counts : Fin (baselineWindow + 1) → ℤ
  startMin : ℤ

/-- `enabledEntry`. -/
structure EnabledEntry where
  enabled : Bool
  expiresAt : ℤ
deriving DecidableEq

/-- The two maps of a throttle. -/
structure State where
  buckets : String → Option Buckets
  enabledCache : String → Option EnabledEntry

/-- A throttle that has seen nothing. -/
def State.empty : State := ⟨fun _ => none, fun _ => none⟩

/-- The clock readings of one call. -/
structure Readings where
  (checked current created : Time)

variable (b : Buckets)

/-- The last minute of the window. -/
def Buckets.endMin : ℤ := b.startMin + baselineWindow

/-- `advanceBuckets`: the window is moved so that it reaches the current minute. -/
def Buckets.advance (curMin : ℤ) : Buckets :=
  if curMin ≤ b.endMin then b
  else
    let shift := (curMin - b.endMin).toNat
    if baselineWindow + 1 ≤ shift then ⟨fun _ => 0, curMin - baselineWindow⟩
    else
      { counts := fun i => if h : i + shift < baselineWindow + 1 then b.counts ⟨i + shift, h⟩ else 0
        startMin := b.startMin + shift }

variable (idx : Fin (baselineWindow + 1))

/-- The average of the minutes other than the current one. -/
def Buckets.baseline : ℤ :=
  (((List.finRange (baselineWindow + 1)).filter (· ≠ idx)).map b.counts).sum.tdiv baselineWindow

/-- The count of the current minute is one higher. -/
def Buckets.count : Buckets :=
  { b with counts := fun i => if i = idx then b.counts i + 1 else b.counts i }

/-- The event is within bounds. -/
def Buckets.within : Bool :=
  b.baseline idx < minBaselineCount ∨ b.counts idx ≤ b.baseline idx * spikeMultiplier

/-- One event in the window of its project. -/
def Buckets.allow (curMin : ℤ) : Bool × Buckets :=
  let b := b.advance curMin
  let idx := curMin - b.startMin
  if h : 0 ≤ idx ∧ idx.toNat < baselineWindow + 1 then
    let b := b.count ⟨idx.toNat, h.2⟩
    (b.within ⟨idx.toNat, h.2⟩, b)
  else (true, b)

variable (spikeProtection : String → Option ℤ)

/-- `isEnabled`. The query answers with the column, or not at all. -/
def isEnabled (projectID : String) (now : Time) (s : State) : Bool × State :=
  let cached := (s.enabledCache projectID).filter fun e => now.unixNano < e.expiresAt
  match cached with
  | some e => (e.enabled, s)
  | none =>
    match spikeProtection projectID with
    | none => (false, s)
    | some enabled =>
      (enabled ≠ 0, { s with
        enabledCache := Function.update s.enabledCache projectID
          (some ⟨enabled ≠ 0, now.unixNano + enabledCacheTTL⟩) })

/-- `Allow`. -/
def allow (projectID : String) (t : Readings) (s : State) : Bool × State :=
  let (enabled, s) := isEnabled spikeProtection projectID t.checked s
  if enabled then
    let b := (s.buckets projectID).getD ⟨fun _ => 0, t.created.unixMinute⟩
    let (allowed, b) := b.allow t.current.unixMinute
    (allowed, { s with buckets := Function.update s.buckets projectID (some b) })
  else (true, s)

/-- `cleanup`, with its two clock readings. -/
def cleanup (current checked : Time) (s : State) : State where
  buckets p := (s.buckets p).filter fun b => current.unixMinute - b.endMin ≤ baselineWindow * 2
  enabledCache p := (s.enabledCache p).filter fun e => checked.unixNano ≤ e.expiresAt

/-! ## Runs -/

/-- A throttle, the current minute, and the minutes of the events of protected projects. -/
structure Throttled where
  throttle : State
  minute : ℤ
  log : String → List ℤ

inductive ThrottleAction
  | allow (spikeProtection : String → Option ℤ) (projectID : String) (t : Readings)
  | cleanup (current checked : Time)

/-- One call. Minutes do not go back. -/
def step (s : Throttled) : ThrottleAction → Option Throttled
  | .allow spikeProtection projectID t =>
    let minute := t.current.unixMinute
    let enabled := (isEnabled spikeProtection projectID t.checked s.throttle).1
    if s.minute ≤ minute then
      some ⟨(allow spikeProtection projectID t s.throttle).2, minute,
        if enabled then Function.update s.log projectID (minute :: s.log projectID) else s.log⟩
    else none
  | .cleanup current checked =>
    if s.minute ≤ current.unixMinute then
      some ⟨cleanup current checked s.throttle, current.unixMinute, s.log⟩
    else none

def start (minute : ℤ) : Throttled := ⟨.empty, minute, fun _ => []⟩

/-- A window is made in the minute of its event. -/
def ThrottleAction.Steady : ThrottleAction → Prop
  | .allow _ _ t => t.created.unixMinute = t.current.unixMinute
  | .cleanup .. => True

/-! ## What a window shows -/

variable {b : Buckets} {idx : Fin (baselineWindow + 1)} {log : List ℤ} {now m : ℤ}

/-- The counts are those of the log, which has nothing after the window and nothing recent before
it. -/
structure Shows (log : List ℤ) (now : ℤ) (b : Buckets) : Prop where
  counts : ∀ i, b.counts i = log.count (b.startMin + (i : ℕ))
  start : b.startMin ≤ now
  last : ∀ m ∈ log, m ≤ b.endMin
  past : ∀ m ∈ log, m ≤ now
  recent : ∀ m ∈ log, m < b.startMin → m + baselineWindow < now

/-- **Moving the window** keeps what is recent. -/
theorem Shows.advance (h : Shows log now b) :
    Shows log now (b.advance now) ∧ now ≤ (b.advance now).endMin := by
  obtain ⟨hcounts, hstart, hlast, hpast, hrecent⟩ := h
  have hzero : ∀ m, b.endMin < m → log.count m = 0 := by grind [List.count_eq_zero]
  by_cases hin : now ≤ b.endMin
  · rw [Buckets.advance, if_pos hin]
    exact ⟨⟨hcounts, hstart, hlast, hpast, hrecent⟩, hin⟩
  by_cases hover : baselineWindow + 1 ≤ (now - b.endMin).toNat
  · have hreset : b.advance now = ⟨fun _ => 0, now - baselineWindow⟩ :=
      (if_neg hin).trans (if_pos hover)
    rw [hreset]
    refine ⟨⟨?_, ?_, ?_, ?_, ?_⟩, ?_⟩ <;> grind [Buckets.endMin]
  · have hshift : b.advance now = _ := (if_neg hin).trans (if_neg hover)
    rw [hshift]
    refine ⟨⟨?_, ?_, ?_, ?_, ?_⟩, ?_⟩ <;> grind [Buckets.endMin]

/-- The counts of different values, together. -/
theorem sum_count {α : Type*} [DecidableEq α] (log : List α) {values : List α} (h : values.Nodup) :
    (values.map fun x => (log.count x : ℤ)).sum = log.countP (· ∈ values) := by
  induction log with
  | nil => simp
  | cons y log ih =>
    have hy := List.sum_map_ite_eq values (fun _ => (1 : ℤ)) (fun _ => 0) y
    rw [h.count] at hy
    simp only [List.count_cons, List.countP_cons, Nat.cast_add, List.sum_map_add, ih, beq_iff_eq,
      eq_comm (a := y)]
    simpa using hy

/-- **The average** is that of the last ten minutes. -/
theorem Shows.baseline (h : Shows log now b) (hend : now ≤ b.endMin)
    (hidx : b.startMin + (idx : ℕ) = now) :
    (b.count idx).baseline idx =
      (log.countP fun m => now - baselineWindow ≤ m ∧ m < now : ℕ) / baselineWindow := by
  set others := (List.finRange (baselineWindow + 1)).filter (· ≠ idx) with hothers
  let minute (i : Fin (baselineWindow + 1)) : ℤ := b.startMin + (i : ℕ)
  have hcounts : others.map (b.count idx).counts = (others.map minute).map fun m =>
      (log.count m : ℤ) := by
    rw [List.map_map]
    refine List.map_congr_left fun i hi => ?_
    exact (if_neg (by simpa [hothers] using hi)).trans (h.counts i)
  have hnodup : (others.map minute).Nodup :=
    ((List.nodup_finRange _).filter _).map fun i j hij => by simpa [minute, Fin.val_inj] using hij
  rw [Buckets.baseline, hcounts, sum_count log hnodup,
    Int.tdiv_eq_ediv_of_nonneg (Int.natCast_nonneg _)]
  congr 2
  refine List.countP_congr fun m hm => ?_
  have hmem : m ∈ others.map minute ↔ b.startMin ≤ m ∧ m ≠ now := by
    have hlast := h.last m hm
    simp only [hothers, minute, List.mem_map, List.mem_filter, List.mem_finRange, true_and,
      decide_eq_true_eq]
    constructor
    · rintro ⟨i, hi, rfl⟩
      have hne := Fin.val_ne_iff.mpr hi
      omega
    · rintro ⟨hle, hne⟩
      rw [Buckets.endMin] at hlast
      exact ⟨⟨(m - b.startMin).toNat, by omega⟩, by grind, by grind⟩
  have hrecent := h.recent m hm
  have hpast := h.past m hm
  simp only [hmem, decide_eq_true_eq]
  rw [Buckets.endMin] at hend
  omega

/-- More than twice the average of the last ten minutes, with the event at hand. -/
def Spike (log : List ℤ) (now : ℤ) : Prop :=
  let average : ℤ := (log.countP fun m => now - baselineWindow ≤ m ∧ m < now : ℕ) / baselineWindow
  minBaselineCount ≤ average ∧ average * spikeMultiplier < log.count now + 1

/-- The index that `Allow` computes is inside the array. -/
def Buckets.Inside (b : Buckets) (curMin : ℤ) : Prop :=
  0 ≤ curMin - (b.advance curMin).startMin ∧
    (curMin - (b.advance curMin).startMin).toNat < baselineWindow + 1

theorem Shows.inside (h : Shows log now b) : b.Inside now := by
  obtain ⟨h, hend⟩ := h.advance
  have hstart := h.start
  rw [Buckets.endMin] at hend
  rw [Buckets.Inside]
  omega

/-- **One event** of a protected project. -/
theorem Shows.allow (h : Shows log now b) :
    Shows (now :: log) now (b.allow now).2 ∧ ((b.allow now).1 = false ↔ Spike log now) := by
  have hin := h.inside
  obtain ⟨h, hend⟩ := h.advance
  rw [Buckets.Inside] at hin
  rw [Buckets.allow, dif_pos hin]
  generalize hi : (⟨_, hin.2⟩ : Fin (baselineWindow + 1)) = idx
  have hidx : (b.advance now).startMin + (idx : ℕ) = now := by grind
  generalize b.advance now = b at *
  refine ⟨⟨fun i => ?_, h.start, ?_, ?_, ?_⟩, ?_⟩
  · have hcount := h.counts i
    grind [Buckets.count]
  · exact List.forall_mem_cons.mpr ⟨hend, h.last⟩
  · exact List.forall_mem_cons.mpr ⟨le_rfl, h.past⟩
  · exact List.forall_mem_cons.mpr ⟨fun hlt => absurd h.start (not_le.mpr hlt), h.recent⟩
  · have hcount := h.counts idx
    simp only [Buckets.within, h.baseline hend hidx, Spike]
    simp [Buckets.count, hcount, hidx]

/-! ## All windows -/

/-- The window shows the log, and without one there is nothing recent. -/
def Tracks (log : List ℤ) (now : ℤ) : Option Buckets → Prop
  | some b => Shows log now b
  | none => ∀ m ∈ log, m + baselineWindow < now

variable {bucket : Option Buckets}

theorem Tracks.mono (h : Tracks log now bucket) (hle : now ≤ m) : Tracks log m bucket := by
  cases bucket with
  | some b =>
    exact ⟨h.counts, h.start.trans hle, h.last, fun n hn => (h.past n hn).trans hle,
      fun n hn hlt => (h.recent n hn hlt).trans_le hle⟩
  | none => exact fun n hn => (h n hn).trans_le hle

/-- A new window. -/
theorem Tracks.getD (h : Tracks log now bucket) :
    Shows log now (bucket.getD ⟨fun _ => 0, now⟩) := by
  cases bucket with
  | some b => exact h
  | none =>
    rw [Tracks] at h
    refine ⟨?_, ?_, ?_, ?_, ?_⟩ <;> grind [Buckets.endMin, List.count_eq_zero]

@[simp]
theorem buckets_isEnabled (spikeProtection : String → Option ℤ) (projectID : String) (t : Time)
    (s : State) :
    (isEnabled spikeProtection projectID t s).2.buckets = s.buckets := by
  unfold isEnabled
  dsimp only
  split
  · rfl
  · split <;> rfl

variable {s s' : Throttled} {a : ThrottleAction}

def Tracked (s : Throttled) : Prop := ∀ p, Tracks (s.log p) s.minute (s.throttle.buckets p)

theorem Tracked.step (h : Tracked s) (hsteady : a.Steady) (hstep : step s a = some s') :
    Tracked s' := by
  cases a with
  | allow spikeProtection projectID t =>
    obtain ⟨hle, ⟨⟩⟩ := Option.ite_none_right_eq_some.mp hstep
    intro p
    have hp := (h p).mono hle
    rw [ThrottleAction.Steady] at hsteady
    simp only [allow, hsteady]
    split
    · rw [buckets_isEnabled]
      by_cases heq : p = projectID
      · subst heq
        simp only [Function.update_self]
        exact hp.getD.allow.1
      · simpa only [Function.update_of_ne heq] using hp
    · rwa [buckets_isEnabled]
  | cleanup current checked =>
    obtain ⟨hle, ⟨⟩⟩ := Option.ite_none_right_eq_some.mp hstep
    intro p
    have hp := (h p).mono hle
    simp only [cleanup]
    cases hb : s.throttle.buckets p with
    | none => rwa [hb] at hp
    | some b =>
      rw [hb] at hp
      rw [Option.filter_some]
      split
      · exact hp
      · next hover =>
        intro n hn
        have hlast := hp.last n hn
        rw [decide_eq_true_eq] at hover
        omega

variable {minute : ℤ} {trace : List (Throttled × ThrottleAction)}
  {spikeProtection : String → Option ℤ} {projectID : String} {t : Readings}

theorem tracks_of_run (projectID : String) (run : Run step (start minute) trace s)
    (hsteady : ∀ p ∈ trace, p.2.Steady) (hle : s.minute ≤ m) :
    Tracks (s.log projectID) m (s.throttle.buckets projectID) := by
  have hs : Tracked s := run.invariant (fun _ => nofun) Tracked.step hsteady s List.mem_cons_self
  exact (hs projectID).mono hle

/-- **The throttle is a sliding window**: in every run of calls and sweeps, an event of a protected
project is refused exactly when its minute has more than twice as many events as the ten minutes
before on average. -/
theorem run_sliding_window
    (run : Run step (start minute) trace s) (hsteady : ∀ p ∈ trace, p.2.Steady)
    (ht : (ThrottleAction.allow spikeProtection projectID t).Steady)
    (hle : s.minute ≤ t.current.unixMinute)
    (hon : (isEnabled spikeProtection projectID t.checked s.throttle).1 = true) :
    (allow spikeProtection projectID t s.throttle).1 = false ↔
      Spike (s.log projectID) t.current.unixMinute := by
  rw [ThrottleAction.Steady] at ht
  simp only [allow, hon, if_true, ht, buckets_isEnabled]
  exact (tracks_of_run projectID run hsteady hle).getD.allow.2

/-- A window that is made in a later minute does not reach back. -/
theorem not_inside_of_lt (hlt : now < m) : ¬Buckets.Inside ⟨fun _ => 0, m⟩ now := by
  have hkept : Buckets.advance ⟨fun _ => 0, m⟩ now = ⟨fun _ => 0, m⟩ :=
    if_pos (hlt.le.trans (Int.le_add_of_nonneg_right (Int.natCast_nonneg _)))
  rw [Buckets.Inside, hkept]
  exact fun h => absurd h.1 (by dsimp only; omega)

theorem not_spike (h : Tracks log now none) : ¬Spike log now := by
  rintro ⟨haverage, -⟩
  rw [List.countP_eq_zero.mpr fun n hn => by have := h n hn; grind] at haverage
  exact absurd haverage (by decide)

/-- **When an event is counted.** In every run as above, the next event of a protected project has
its index inside the array exactly when its window is there or made in its minute, and in any case
the verdict is that of the sliding window. -/
theorem run_inside_iff
    (run : Run step (start minute) trace s) (hsteady : ∀ p ∈ trace, p.2.Steady)
    (hle : s.minute ≤ t.current.unixMinute)
    (hread : t.current.unixMinute ≤ t.created.unixMinute)
    (hon : (isEnabled spikeProtection projectID t.checked s.throttle).1 = true) :
    (((s.throttle.buckets projectID).getD ⟨fun _ => 0, t.created.unixMinute⟩).Inside
        t.current.unixMinute ↔
      (s.throttle.buckets projectID = none → t.created.unixMinute = t.current.unixMinute)) ∧
    ((allow spikeProtection projectID t s.throttle).1 = false ↔
      Spike (s.log projectID) t.current.unixMinute) := by
  have hp := tracks_of_run projectID run hsteady hle
  simp only [allow, hon, if_true, buckets_isEnabled]
  cases hbucket : s.throttle.buckets projectID with
  | some b =>
    rw [hbucket] at hp
    exact ⟨iff_of_true (Shows.inside hp) nofun, (Shows.allow hp).2⟩
  | none =>
    rw [hbucket] at hp
    rcases hread.eq_or_lt with heq | hlt
    · rw [← heq]
      exact ⟨iff_of_true hp.getD.inside fun _ => rfl, hp.getD.allow.2⟩
    · have hout := not_inside_of_lt hlt
      refine ⟨iff_of_false hout fun h => hlt.ne' (h rfl), iff_of_false ?_ (not_spike hp)⟩
      have hallow : Buckets.allow ⟨fun _ => 0, t.created.unixMinute⟩ _ = (true, _) := dif_neg hout
      rw [Option.getD_none, hallow]
      exact Bool.noConfusion

/-! ## A spike -/

/-- The project `p` is known to be protected, or not known. -/
def On (s : State) : Prop := ∀ e ∈ s.enabledCache "p", e.enabled = true

theorem On.isEnabled {s : State} (h : On s) (t : Time) :
    (isEnabled (fun _ => some 1) "p" t s).1 = true ∧
      On (isEnabled (fun _ => some 1) "p" t s).2 := by
  unfold SpikeThrottle.isEnabled
  dsimp only
  split
  · next e he => exact ⟨h e (Option.filter_eq_some_iff.mp he).1, h⟩
  · refine ⟨rfl, fun e he => ?_⟩
    dsimp only at he
    rw [Function.update_self] at he
    cases he
    rfl

/-- A run can go on with events in one minute. -/
theorem exists_run_events (t : Time) (n : ℕ)
    (run : Run step (start minute) trace s)
    (hsteady : ∀ p ∈ trace, p.2.Steady) (hon : On s.throttle) (hle : s.minute ≤ t.unixMinute) :
    ∃ trace s', Run step (start minute) trace s' ∧ (∀ p ∈ trace, p.2.Steady) ∧ On s'.throttle ∧
      s'.minute ≤ t.unixMinute ∧ s'.log "p" = List.replicate n t.unixMinute ++ s.log "p" := by
  induction n with
  | zero => exact ⟨trace, s, run, hsteady, hon, hle, rfl⟩
  | succ n ih =>
    obtain ⟨trace, s', run, hsteady, hon, hle, hlog⟩ := ih
    obtain ⟨henabled, hon⟩ := hon.isEnabled t
    have hstep : step s' (.allow (fun _ => some 1) "p" ⟨t, t, t⟩) = some _ := if_pos hle
    refine ⟨_, _, .next run hstep, List.forall_mem_cons.mpr ⟨rfl, hsteady⟩, ?_, le_rfl, ?_⟩
    · rw [allow]
      simp only [henabled, if_true]
      exact hon
    · simp [henabled, hlog, List.replicate_succ]

/-- A hundred events in one minute, and twenty in the next: one more is refused. -/
theorem spike_refused : ∃ trace s, Run step (start (Time.unixMinute ⟨0⟩)) trace s ∧
    Spike (s.log "p") (Time.unixMinute ⟨60 * 10 ^ 9⟩) ∧
    (allow (fun _ => some 1) "p" ⟨⟨60 * 10 ^ 9⟩, ⟨60 * 10 ^ 9⟩, ⟨60 * 10 ^ 9⟩⟩
      s.throttle).1 = false := by
  obtain ⟨trace, s, run, hsteady, hon, hle, hlog⟩ :=
    exists_run_events ⟨0⟩ 100 .start (List.forall_mem_nil _) nofun le_rfl
  obtain ⟨trace, s', run, hsteady, hon, hle, hlog'⟩ :=
    exists_run_events ⟨60 * 10 ^ 9⟩ 20 run hsteady hon (hle.trans (by decide))
  have hspike : Spike (s'.log "p") (Time.unixMinute ⟨60 * 10 ^ 9⟩) := by
    rw [hlog', hlog]
    unfold Spike
    decide +kernel
  exact ⟨trace, s', run, hspike,
    (run_sliding_window (t := ⟨⟨60 * 10 ^ 9⟩, ⟨60 * 10 ^ 9⟩, ⟨60 * 10 ^ 9⟩⟩) run hsteady rfl hle
      (hon.isEnabled _).1).mpr hspike⟩

/-- After a hundred events in one minute the next one is counted. -/
theorem hundred_inside : ∃ trace s, Run step (start (Time.unixMinute ⟨0⟩)) trace s ∧
    (s.log "p").length = 100 ∧ ((s.throttle.buckets "p").getD
      ⟨fun _ => 0, Time.unixMinute ⟨0⟩⟩).Inside (Time.unixMinute ⟨0⟩) := by
  obtain ⟨trace, s, run, hsteady, hon, hle, hlog⟩ :=
    exists_run_events ⟨0⟩ 100 .start (List.forall_mem_nil _) nofun le_rfl
  exact ⟨trace, s, run, by rw [hlog]; rfl, (run_inside_iff (t := ⟨⟨0⟩, ⟨0⟩, ⟨0⟩⟩) run hsteady hle
    le_rfl (hon.isEnabled _).1).1.mpr fun _ => rfl⟩

/-- The first event comes in the last second of a minute, and its window is made in the next. -/
def lateWindow : Readings :=
  ⟨⟨62135596859 * 10 ^ 9⟩, ⟨62135596859 * 10 ^ 9⟩, ⟨62135596860 * 10 ^ 9⟩⟩

/-- **It is not counted**: its index is not inside the array. -/
theorem lateWindow_uncounted :
    ¬Buckets.Inside ⟨fun _ => 0, lateWindow.created.unixMinute⟩ lateWindow.current.unixMinute ∧
      (allow (fun _ => some 1) "p" lateWindow .empty).2.buckets "p" = some ⟨fun _ => 0, 1⟩ :=
  ⟨not_inside_of_lt (by decide), rfl⟩

end SpikeThrottle

end Urgentry
