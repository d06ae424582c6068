import Mathlib.Data.List.Basic

/-!
# Workers on shared data

A pool is some shared data and a list of workers. A worker may begin at any time, and then the
workers take steps in any order. A step of a worker depends on the shared data, on where the worker
stands and on a choice that its environment makes, and it changes both the data and the worker.

`of_step` is the inversion rule. It gives the workers before and after the one that moves, so that
what happens to the other workers is a matter of membership in two lists. -/

namespace Pool

/-- The shared data and the workers. -/
structure State (σ ω : Type*) where
  shared : σ
  workers : List ω
deriving DecidableEq

/-- A worker begins, or the worker with this number takes a step. -/
inductive Action (ω γ : Type*)
  | begin (w : ω)
  | step (i : ℕ) (choice : γ)
deriving DecidableEq

variable {σ ω γ : Type*}

/-- The steps of a pool, from those of a worker. Only some workers may begin. -/
def step (initial : ω → Bool) (advance : γ → σ → ω → Option (ω × σ)) (s : State σ ω) :
    Action ω γ → Option (State σ ω)
  | .begin w => if initial w then some ⟨s.shared, s.workers ++ [w]⟩ else none
  | .step i choice =>
    match s.workers[i]? with
    | none => none
    | some w => (advance choice s.shared w).map fun next => ⟨next.2, s.workers.set i next.1⟩

variable {initial : ω → Bool} {advance : γ → σ → ω → Option (ω × σ)} {s t : State σ ω}

/-- **What a step can do.** -/
theorem of_step {a : Action ω γ} (h : step initial advance s a = some t) :
    (∃ w, a = .begin w ∧ initial w = true ∧ t = ⟨s.shared, s.workers ++ [w]⟩) ∨
    ∃ before w after choice w' x, a = .step before.length choice ∧
      s.workers = before ++ w :: after ∧ advance choice s.shared w = some (w', x) ∧
      t = ⟨x, before ++ w' :: after⟩ := by
  cases a with
  | begin w =>
    rw [step] at h
    split at h
    · next hw => exact .inl ⟨w, rfl, hw, (Option.some.inj h).symm⟩
    · cases h
  | step i choice =>
    rw [step] at h
    split at h
    · cases h
    · next w hw =>
      obtain ⟨⟨w', x⟩, hnext, rfl⟩ := Option.map_eq_some_iff.mp h
      obtain ⟨hi, rfl⟩ := List.getElem?_eq_some_iff.mp hw
      have hlength : (s.workers.take i).length = i := List.length_take_of_le (Nat.le_of_lt hi)
      refine .inr ⟨s.workers.take i, _, s.workers.drop (i + 1), choice, w', x, ?_, ?_, hnext, ?_⟩
      · rw [hlength]
      · rw [List.getElem_cons_drop, List.take_append_drop]
      · rw [List.set_eq_take_append_cons_drop, if_pos hi]

end Pool
