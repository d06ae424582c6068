import Mathlib.Data.List.Induction

/-!
# Runs of a transition system

A system is a partial function `step`: given a state and an action it returns the next state, or
nothing when the action is not possible. All choices, those of the environment included, are part of
the action, so a run is determined by its first state and its actions.

Properties of systems come in two forms here. An invariant that every step keeps under a condition
holds in all the states of a run whose steps meet the condition (`Run.invariant`). If moreover every
step that does not meet the condition ends in an unsafe state, then the runs that stay safe are
exactly the ones whose steps meet the condition (`Run.safe_iff`).
-/

namespace Trace

open List Option

variable {σ α : Type*}

/-- A run from `init`: the actions taken, each with the state it was taken in, last first, and the
state reached. -/
inductive Run (step : σ → α → Option σ) (init : σ) : List (σ × α) → σ → Prop
  | start : Run step init [] init
  | next {trace : List (σ × α)} {s t : σ} {a : α} (run : Run step init trace s)
    (h : step s a = some t) : Run step init ((s, a) :: trace) t

/-- The states of a run. -/
def visited (trace : List (σ × α)) (t : σ) : List σ := t :: trace.map Prod.fst

@[simp]
theorem visited_cons (s t : σ) (a : α) (trace : List (σ × α)) :
    visited ((s, a) :: trace) t = t :: visited trace s := rfl

section Invariant

variable {step : σ → α → Option σ} {init t : σ} {trace : List (σ × α)}
  {inv safe : σ → Prop} {ok : σ → α → Prop}

/-- **The invariant rule.** -/
theorem Run.invariant (hinit : inv init)
    (hstep : ∀ {s a t}, inv s → ok s a → step s a = some t → inv t) (run : Run step init trace t)
    (hok : ∀ p ∈ trace, ok p.1 p.2) : ∀ u ∈ visited trace t, inv u := by
  induction run with
  | start => simpa [visited] using hinit
  | @next trace s t a _ h ih =>
    rw [forall_mem_cons] at hok
    have hs := ih hok.2
    rw [visited_cons, forall_mem_cons]
    exact ⟨hstep (hs s mem_cons_self) hok.1 h, hs⟩

/-- **Safe runs.** When the invariant implies safety, and a step that does not meet the condition is
unsafe, a run is safe exactly when all of its steps meet the condition. -/
theorem Run.safe_iff (hinit : inv init)
    (hstep : ∀ {s a t}, inv s → ok s a → step s a = some t → inv t) (hsafe : ∀ {s}, inv s → safe s)
    (hbad : ∀ {s a t}, inv s → ¬ ok s a → step s a = some t → ¬ safe t)
    (run : Run step init trace t) : (∀ u ∈ visited trace t, safe u) ↔ ∀ p ∈ trace, ok p.1 p.2 := by
  refine ⟨fun hall => ?_, fun hok u hu => hsafe (run.invariant hinit hstep hok u hu)⟩
  induction run with
  | start => simp
  | @next trace s t a run h ih =>
    rw [visited_cons, forall_mem_cons] at hall
    have hok := ih hall.2
    have hs : inv s := run.invariant hinit hstep hok s mem_cons_self
    rw [forall_mem_cons]
    refine ⟨?_, hok⟩
    by_contra hno
    exact hbad hs hno h hall.1

end Invariant

/-! ## Runs by their actions -/

section Execute

variable (step : σ → α → Option σ)

/-- The run with these actions, if all of them are possible. -/
def execute (acts : List α) (init : σ) : Option (List (σ × α) × σ) :=
  acts.foldlM (fun p a => (step p.2 a).map fun t => ((p.2, a) :: p.1, t)) ([], init)

variable {step}

theorem run_of_execute {acts : List α} {init t : σ} {trace : List (σ × α)}
    (h : execute step acts init = some (trace, t)) : Run step init trace t := by
  induction acts using reverseRecOn generalizing trace t with
  | nil =>
    cases h
    exact .start
  | append_singleton acts a ih =>
    rw [execute, foldlM_append, bind_eq_bind, bind_eq_some_iff] at h
    obtain ⟨⟨trace', s⟩, hacts, h⟩ := h
    rw [foldlM_cons, bind_eq_bind, bind_eq_some_iff] at h
    obtain ⟨⟨trace'', u⟩, hmap, h⟩ := h
    obtain ⟨w, hw, heq⟩ := map_eq_some_iff.mp hmap
    cases heq
    cases h
    exact .next (ih hacts) hw

/-- What is decided of the outcome of some actions holds of a run. -/
theorem exists_run (acts : List α) {init : σ} {P : List (σ × α) → σ → Prop}
    (h : ∃ p ∈ execute step acts init, P p.1 p.2) :
    ∃ trace t, Run step init trace t ∧ P trace t := by
  obtain ⟨⟨trace, t⟩, hexec, hP⟩ := h
  exact ⟨trace, t, run_of_execute hexec, hP⟩

/-- A run whose steps meet a condition, and what follows from that. -/
theorem exists_run_and (ok : σ → α → Prop) (acts : List α) {init : σ}
    {P Q : List (σ × α) → σ → Prop}
    (h : ∃ p ∈ execute step acts init, P p.1 p.2 ∧ ∀ x ∈ p.1, ok x.1 x.2)
    (hQ : ∀ {trace t}, Run step init trace t → (∀ x ∈ trace, ok x.1 x.2) → Q trace t) :
    ∃ trace t, Run step init trace t ∧ P trace t ∧ Q trace t := by
  obtain ⟨⟨trace, t⟩, hexec, hP, hok⟩ := h
  have run := run_of_execute hexec
  exact ⟨trace, t, run, hP, hQ run hok⟩

end Execute

end Trace
