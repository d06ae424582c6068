import Mathlib.Tactic.Common

/-!
# Actions whose success does not depend on the state

An action on a state that may end with an error is *decided* by a condition if it ends well from
every state when the condition holds, and from none when it does not. A compiler that only collects
its output is such an action: whether it accepts a text is a matter of the text. The rules follow
the way an action is written. -/

namespace Decision

universe u

variable {σ ε α β : Type u}

/-- The action ends well exactly when the condition holds, whatever the state is. -/
def DecidedBy (m : StateT σ (Except ε) α) (p : Prop) : Prop := ∀ s, (∃ r, m.run s = .ok r) ↔ p

variable {m : StateT σ (Except ε) α}

theorem DecidedBy.congr {p q : Prop} (h : DecidedBy m p) (hpq : p ↔ q) : DecidedBy m q :=
  fun s => (h s).trans hpq

theorem decided_pure (a : α) : DecidedBy (pure a : StateT σ (Except ε) α) True :=
  fun s => iff_of_true ⟨(a, s), rfl⟩ trivial

theorem decided_throw (e : ε) : DecidedBy (throw e : StateT σ (Except ε) α) False := by
  intro s
  refine iff_of_false ?_ not_false
  rintro ⟨r, hr⟩
  exact nomatch hr

theorem decided_lift (e : Except ε α) :
    DecidedBy (liftM e : StateT σ (Except ε) α) (e.isOk = true) := by
  intro s
  rcases e with e | a
  · refine iff_of_false ?_ Bool.false_ne_true
    rintro ⟨r, hr⟩
    exact nomatch hr
  · exact iff_of_true ⟨(a, s), rfl⟩ rfl

/-- A sequence ends well if both of its actions do. -/
theorem DecidedBy.bind {f : α → StateT σ (Except ε) β} {p q : Prop}
    (hm : DecidedBy m p) (hf : ∀ a, DecidedBy (f a) q) : DecidedBy (m >>= f) (p ∧ q) := by
  intro s
  rw [StateT.run_bind]
  rcases hrun : m.run s with e | ⟨a, t⟩
  · refine iff_of_false ?_ fun h => ?_
    · rintro ⟨r, hr⟩
      exact nomatch hr
    · obtain ⟨r, hr⟩ := (hm s).mpr h.1
      rw [hrun] at hr
      exact nomatch hr
  · have hp : p := (hm s).mp ⟨_, hrun⟩
    exact (hf a t).trans (and_iff_right hp).symm

/-- What is done with the result of an action cannot fail. -/
theorem DecidedBy.bind_pure {p : Prop} (hm : DecidedBy m p) (f : α → β) :
    DecidedBy (m >>= fun a => pure (f a)) p :=
  (hm.bind fun a => decided_pure (f a)).congr (and_iff_left trivial)

/-- A loop over a list ends well if every round does. -/
theorem decided_mapM {ι : Type u} {f : ι → StateT σ (Except ε) α} (hf : ∀ x, DecidedBy (f x) True)
    (xs : List ι) : DecidedBy (xs.mapM f) True := by
  induction xs with
  | nil =>
    rw [List.mapM_nil]
    exact decided_pure []
  | cons x xs ih =>
    rw [List.mapM_cons]
    exact ((hf x).bind fun a => ih.bind_pure (a :: ·)).congr (and_self_iff)

end Decision
