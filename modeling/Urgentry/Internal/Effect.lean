import Mathlib.Tactic.Common

/-!
# Actions that may stop half way

An action works on a state and ends with a value or with an error. Unlike a transaction it leaves
a state behind in both cases: what an action did before the error stays done. So a contract has
*two* postconditions, one for each end, and the second is the interesting one: it says what a
caller may rely on after a failure.

`Holds P m Q E` is that contract. The rules below follow the ways actions are put together; the
rule for a loop, `Holds.foldlM`, indexes its invariant by the items already processed, so that the
error postcondition can speak of the prefix that was reached.
-/

namespace Effect

open List

universe u

/-- An action on the state `σ` with errors in `ε`. -/
abbrev Action (σ ε : Type u) : Type u → Type u := ExceptT ε (StateM σ)

variable {σ ε α β : Type u} {m : Action σ ε α} {f : α → Action σ ε β}

/-- The end of an action: a value or an error, and the state left behind. -/
def Action.exec (m : Action σ ε α) (s : σ) : Except ε α × σ := StateT.run (ExceptT.run m) s

/-- Runs an action when the flag is set, and ends with a default value otherwise. -/
def Action.when (flag : Bool) (m : Action σ ε α) (a : α) : Action σ ε α :=
  if flag then m else pure a

theorem exec_bind (m : Action σ ε α) (f : α → Action σ ε β) (s : σ) :
    (m >>= f).exec s =
      match m.exec s with
      | (.ok a, s') => (f a).exec s'
      | (.error e, s') => (.error e, s') := by
  simp only [Action.exec, ExceptT.run_bind, StateT.run_bind]
  rcases h : StateT.run (ExceptT.run m) s with ⟨_ | _, _⟩ <;> rfl

theorem exec_bind_ok {s s' : σ} {a : α} (h : m.exec s = (.ok a, s')) :
    (m >>= f).exec s = (f a).exec s' := by
  rw [exec_bind, h]

theorem exec_bind_error {s s' : σ} {e : ε} (h : m.exec s = (.error e, s')) :
    (m >>= f).exec s = (.error e, s') := by
  rw [exec_bind, h]

/-- Changing an error does not change the state. -/
@[simp]
theorem exec_adapt_snd {δ : Type u} (g : ε → δ) (m : Action σ ε α) (s : σ) :
    (Action.exec (ExceptT.adapt g m : Action σ δ α) s).2 = (m.exec s).2 :=
  rfl

/-- Started in a state with `P`, the action ends with a value `a` in a state with `Q a`, or with an
error in a state with `E`. -/
def Holds (P : σ → Prop) (m : Action σ ε α) (Q : α → σ → Prop) (E : σ → Prop) : Prop :=
  ∀ s, P s → match m.exec s with
    | (.ok a, s') => Q a s'
    | (.error _, s') => E s'

namespace Holds

variable {P P' E E' : σ → Prop} {m : Action σ ε α} {Q Q' : α → σ → Prop} {R : β → σ → Prop}

theorem of_ok (h : Holds P m Q E) {s s' : σ} {a : α} (hs : P s) (hm : m.exec s = (.ok a, s')) :
    Q a s' := by
  have := h s hs
  rwa [hm] at this

theorem of_error (h : Holds P m Q E) {s s' : σ} {e : ε} (hs : P s)
    (hm : m.exec s = (.error e, s')) : E s' := by
  have := h s hs
  rwa [hm] at this

/-- What holds at both ends holds at the end. -/
theorem exec_snd (h : Holds P m (fun _ => E) E) {s : σ} (hs : P s) : E (m.exec s).2 := by
  rcases hend : m.exec s with ⟨e | a, s'⟩
  · exact h.of_error hs hend
  · exact h.of_ok hs hend

theorem conseq (h : Holds P m Q E) (hP : ∀ s, P' s → P s) (hQ : ∀ a s, Q a s → Q' a s)
    (hE : ∀ s, E s → E' s) : Holds P' m Q' E' := by
  intro s hs
  have := h s (hP s hs)
  split at this
  · exact hQ _ _ this
  · exact hE _ this

/-- A precondition that does not speak of the state is a hypothesis. -/
theorem assume {φ : Prop} (h : φ → Holds P m Q E) : Holds (fun s => P s ∧ φ) m Q E :=
  fun s hs => h hs.2 s hs.1

theorem pure (a : α) (h : ∀ s, P s → Q a s) : Holds P (Pure.pure a : Action σ ε α) Q E :=
  fun s hs => h s hs

theorem throw (e : ε) (h : ∀ s, P s → E s) : Holds P (throw e : Action σ ε α) Q E :=
  fun s hs => h s hs

theorem get {R : σ → σ → Prop} (h : ∀ s, P s → R s s) :
    Holds P (MonadState.get : Action σ ε σ) R E :=
  fun s hs => h s hs

theorem modify (f : σ → σ) {R : PUnit → σ → Prop} (h : ∀ s, P s → R ⟨⟩ (f s)) :
    Holds P (modify f : Action σ ε PUnit) R E :=
  fun s hs => h s hs

/-- **Sequencing.** An error of either part is an error of the whole. -/
theorem bind {f : α → Action σ ε β} (hm : Holds P m Q E) (hf : ∀ a, Holds (Q a) (f a) R E) :
    Holds P (m >>= f) R E := by
  intro s hs
  rw [exec_bind]
  rcases hend : m.exec s with ⟨e | a, s'⟩
  · exact hm.of_error hs hend
  · exact hf a s' (hm.of_ok hs hend)

/-- The state that an action reads is the state it starts in. -/
theorem get_bind {f : σ → Action σ ε β} (h : ∀ s, P s → Holds (s = ·) (f s) R E) :
    Holds P (MonadState.get >>= f) R E :=
  fun s hs => h s hs s rfl

/-- **Loops.** The invariant speaks of the items already processed, and an iteration may use that
its item is the next one. -/
theorem foldlM {ι : Type u} {f : β → ι → Action σ ε β} {I : List ι → β → σ → Prop}
    (items : List ι) (b : β) (step : ∀ before x after b, items = before ++ x :: after →
      Holds (I before b) (f b x) (fun b' => I (before ++ [x]) b') E) :
    Holds (I [] b) (items.foldlM f b) (fun b' => I items b') E := by
  suffices h : ∀ rest before b, items = before ++ rest →
      Holds (I before b) (rest.foldlM f b) (fun b' => I items b') E from h items [] b rfl
  intro rest
  induction rest with
  | nil =>
    intro before b hitems
    rw [hitems, append_nil]
    exact Holds.pure b fun s hs => hs
  | cons x rest ih =>
    intro before b hitems
    rw [foldlM_cons]
    exact (step before x rest b hitems).bind fun b' =>
      ih (before ++ [x]) b' (by rw [hitems, append_assoc, singleton_append])

end Holds

/-! ## What an action leaves alone -/

/-- The action does not change the part `f` of the state, however it ends. -/
def Keeps {γ : Type*} (f : σ → γ) (m : Action σ ε α) : Prop := ∀ s, f (m.exec s).2 = f s

namespace Keeps

variable {γ : Type*} {f : σ → γ} {m : Action σ ε α} {g : α → Action σ ε β}

/-- What holds of a part that is left alone still holds at either end. -/
theorem holds (h : Keeps f m) (P : γ → Prop) :
    Holds (fun s => P (f s)) m (fun _ s => P (f s)) (fun s => P (f s)) := by
  intro s hs
  have hkeep := h s
  split <;> next hend => rw [hend] at hkeep; exact (congrArg P hkeep).mpr hs

theorem pure (a : α) : Keeps f (Pure.pure a : Action σ ε α) := fun _ => rfl

theorem throw (e : ε) : Keeps f (throw e : Action σ ε α) := fun _ => rfl

theorem get : Keeps f (MonadState.get : Action σ ε σ) := fun _ => rfl

theorem modify {g : σ → σ} (h : ∀ s, f (g s) = f s) :
    Keeps f (modify g : Action σ ε PUnit) := h

theorem bind (hm : Keeps f m) (hg : ∀ a, Keeps f (g a)) : Keeps f (m >>= g) := by
  intro s
  rw [exec_bind]
  have hs := hm s
  rcases hend : m.exec s with ⟨e | a, s'⟩ <;> rw [hend] at hs
  · exact hs
  · exact (hg a s').trans hs

theorem when {flag : Bool} (h : Keeps f m) (a : α) : Keeps f (m.when flag a) := by
  cases flag
  · exact Keeps.pure a
  · exact h

theorem foldlM {ι : Type*} {g : β → ι → Action σ ε β} (h : ∀ b x, Keeps f (g b x)) :
    ∀ (items : List ι) (b : β), Keeps f (items.foldlM g b)
  | [], b => by rw [foldlM_nil]; exact Keeps.pure b
  | x :: items, b => by
    rw [foldlM_cons]
    exact (h b x).bind fun b' => foldlM h items b'

theorem adapt {δ : Type u} {g : ε → δ} (h : Keeps f m) :
    Keeps f (ExceptT.adapt g m : Action σ δ α) := by
  intro s
  exact h s

/-- After a part that leaves `f` alone, what becomes of `f` is up to the rest. -/
theorem exec_bind_eq (hm : Keeps f m) (s : σ) :
    f ((m >>= g).exec s).2 =
      match m.exec s with
      | (.ok a, s') => f ((g a).exec s').2
      | (.error _, _) => f s := by
  rw [exec_bind]
  have hs := hm s
  rcases hend : m.exec s with ⟨e | a, s'⟩
  · rwa [hend] at hs
  · rfl

end Keeps

/-! ## The items that a loop reaches -/

/-- The items that a loop starts, each with the state before it: all up to the first error. -/
def reached {ι : Type*} (f : ι → Action σ ε PUnit) : List ι → σ → List (ι × σ)
  | [], _ => []
  | x :: items, s =>
    (x, s) :: match (f x).exec s with
      | (.ok _, s') => reached f items s'
      | (.error _, _) => []

/-- **A part of the state after a loop** is what the reached items make of it, one after another. -/
theorem foldlM_eq_foldl_reached {ι γ : Type*} {f : ι → Action σ ε PUnit} {part : σ → γ}
    {change : γ → ι × σ → γ} (h : ∀ x s, part ((f x).exec s).2 = change (part s) (x, s))
    (items : List ι) (s : σ) :
    part ((items.foldlM (fun _ x => f x) PUnit.unit).exec s).2 =
      (reached f items s).foldl change (part s) := by
  induction items generalizing s with
  | nil => rfl
  | cons x items ih =>
    rw [foldlM_cons, exec_bind, reached, foldl_cons, ← h x s]
    rcases (f x).exec s with ⟨e | _, s'⟩
    · rfl
    · exact ih s'

end Effect
