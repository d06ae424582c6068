import Mathlib.Data.List.Forall2
import Mathlib.Logic.Function.Iterate

/-!
# Reading Boolean text

Text in which atoms are combined with `NOT`, `AND`, `OR` and parentheses, as in the condition of a
SQL statement: `NOT` binds tighter than `AND` and `AND` tighter than `OR`.

There are two views of it. `Derives` is the grammar, one rule per line of its usual presentation.
`read` is a reader: it goes once through the tokens from left to right with a stack of open
parentheses. `read_of_derives` says that the reader finds what the grammar derives, so the text of a
program can be given a derivation and the reading be computed from it.

A writer of such text usually knows what a piece means before it knows the formula that a reader
will build, since the formula depends on the shape of the text around the piece. `Means` hides the
formula: a piece of text has a level of the grammar and a truth value in every state. Its rules are
the ones a correctness proof for a writer uses.
-/

namespace BoolText

open List Option

/-- A token of the text. -/
inductive Tok (α : Type*)
  | atom (a : α)
  | lpar
  | rpar
  | and
  | or
  | not
deriving DecidableEq

/-- What a text is read as. -/
inductive Formula (α : Type*)
  | atom (a : α)
  | not (f : Formula α)
  | and (f g : Formula α)
  | or (f g : Formula α)
deriving DecidableEq

variable {α : Type*} {ts : List (Tok α)}

/-- The truth value under an assignment. -/
def Formula.eval (v : α → Bool) : Formula α → Bool
  | atom a => v a
  | not f => !f.eval v
  | and f g => f.eval v && g.eval v
  | or f g => f.eval v || g.eval v

/-! ## The grammar -/

/-- The levels of the grammar, tightest first. -/
inductive Level
  | primary
  | literal
  | conj
  | disj

/-- The grammar. A conjunction and a disjunction associate to the left. -/
inductive Derives : Level → List (Tok α) → Formula α → Prop
  | atom (a : α) : Derives .primary [.atom a] (.atom a)
  | paren {ts f} (h : Derives .disj ts f) : Derives .primary (.lpar :: ts ++ [.rpar]) f
  | primary {ts f} (h : Derives .primary ts f) : Derives .literal ts f
  | not {ts f} (h : Derives .literal ts f) : Derives .literal (.not :: ts) (.not f)
  | literal {ts f} (h : Derives .literal ts f) : Derives .conj ts f
  | and {ts us f g} (hf : Derives .conj ts f) (hg : Derives .literal us g) :
    Derives .conj (ts ++ .and :: us) (.and f g)
  | conj {ts f} (h : Derives .conj ts f) : Derives .disj ts f
  | or {ts us f g} (hf : Derives .disj ts f) (hg : Derives .conj us g) :
    Derives .disj (ts ++ .or :: us) (.or f g)

/-! ## The reader -/

/-- `f` after what stands before it, if anything does. -/
def after (op : Formula α → Formula α → Formula α) : Option (Formula α) → Formula α → Formula α
  | none, f => f
  | some g, f => op g f

/-- What was read inside one pair of parentheses before an operand: the finished conjunctions, the
finished literals of the current one, and the number of negations in front. -/
structure Frame (α : Type*) where
  (disj conj : Option (Formula α))
  nots : ℕ

/-- The frame at the start of a text or of a parenthesis. -/
def Frame.start : Frame α := ⟨none, none, 0⟩

/-- The current conjunction once its next operand is `f`. -/
def Frame.operand (fr : Frame α) (f : Formula α) : Formula α :=
  after .and fr.conj (Formula.not^[fr.nots] f)

/-- The reader expects an operand, or has just read one. -/
inductive Reader (α : Type*)
  | expecting (fr : Frame α) (outer : List (Frame α))
  | reading (disj : Option (Formula α)) (conj : Formula α) (outer : List (Frame α))

/-- Reads one token; `none` is a syntax error. -/
def Reader.step : Reader α → Tok α → Option (Reader α)
  | expecting fr outer, .atom a => some (reading fr.disj (fr.operand (.atom a)) outer)
  | expecting fr outer, .not => some (expecting { fr with nots := fr.nots + 1 } outer)
  | expecting fr outer, .lpar => some (expecting .start (fr :: outer))
  | reading disj conj outer, .and => some (expecting ⟨disj, some conj, 0⟩ outer)
  | reading disj conj outer, .or => some (expecting ⟨some (after .or disj conj), none, 0⟩ outer)
  | reading disj conj (fr :: outer), .rpar =>
    some (reading fr.disj (fr.operand (after .or disj conj)) outer)
  | _, _ => none

/-- Reads a list of tokens. -/
def Reader.run : Reader α → List (Tok α) → Option (Reader α)
  | r, [] => some r
  | r, t :: ts => (r.step t).bind fun r' => r'.run ts

/-- The formula of a whole text. -/
def read (ts : List (Tok α)) : Option (Formula α) :=
  match (Reader.expecting .start []).run ts with
  | some (.reading disj conj []) => some (after .or disj conj)
  | _ => none

@[simp]
theorem Reader.run_append (r : Reader α) (ts us : List (Tok α)) :
    r.run (ts ++ us) = (r.run ts).bind fun r' => r'.run us := by
  induction ts generalizing r with
  | nil => rfl
  | cons t ts ih =>
    rw [cons_append, run, run, bind_assoc]
    congr 1
    funext r'
    exact ih r'

/-- What the reader makes of a piece of text of each level. -/
def Found : Level → List (Tok α) → Formula α → Prop
  | .primary, ts, f | .literal, ts, f => ∀ (fr : Frame α) (outer : List (Frame α)),
    (Reader.expecting fr outer).run ts = some (.reading fr.disj (fr.operand f) outer)
  | .conj, ts, f => ∀ (disj : Option (Formula α)) (outer : List (Frame α)),
    (Reader.expecting ⟨disj, none, 0⟩ outer).run ts = some (.reading disj f outer)
  | .disj, ts, f => ∀ outer : List (Frame α), ∃ disj conj,
    (Reader.expecting .start outer).run ts = some (.reading disj conj outer) ∧
      after .or disj conj = f

theorem found_of_derives {l : Level} {f : Formula α} (h : Derives l ts f) : Found l ts f := by
  induction h with
  | atom a => exact fun fr outer => rfl
  | paren _ ih =>
    intro fr outer
    obtain ⟨disj, conj, hrun, rfl⟩ := ih (fr :: outer)
    rw [Reader.run_append, Reader.run, Reader.step, bind_some, hrun]
    rfl
  | primary _ ih => exact ih
  | not _ ih => exact fun fr outer => ih { fr with nots := fr.nots + 1 } outer
  | literal _ ih => exact fun disj outer => ih ⟨disj, none, 0⟩ outer
  | and _ _ ihf ihg =>
    intro disj outer
    rw [Reader.run_append, ihf, bind_some, Reader.run, Reader.step, bind_some]
    exact ihg ⟨disj, some _, 0⟩ outer
  | conj _ ih => exact fun outer => ⟨none, _, ih none outer, rfl⟩
  | or _ _ ihf ihg =>
    intro outer
    obtain ⟨disj, conj, hrun, rfl⟩ := ihf outer
    refine ⟨some (after .or disj conj), _, ?_, rfl⟩
    rw [Reader.run_append, hrun]
    exact ihg (some (after .or disj conj)) outer

/-- **The reader follows the grammar.** In particular a text has at most one derivation. -/
theorem read_of_derives {f : Formula α} (h : Derives .disj ts f) : read ts = some f := by
  obtain ⟨disj, conj, hrun, rfl⟩ := found_of_derives h []
  rw [read, hrun]

/-! ## What a piece of text means -/

section Means

variable {V : Type*} (val : V → α → Bool)

/-- The text is of this level and has the truth value `b v` in every state `v`, where `val` says
which atoms are true in a state. -/
def Means (l : Level) (ts : List (Tok α)) (b : V → Bool) : Prop :=
  ∃ f, Derives l ts f ∧ ∀ v, f.eval (val v) = b v

end Means

namespace Means

variable {V : Type*} {val : V → α → Bool} {ts us : List (Tok α)} {b c : V → Bool}

theorem read (h : Means val .disj ts b) :
    ∃ f, BoolText.read ts = some f ∧ ∀ v, f.eval (val v) = b v := by
  obtain ⟨f, hf, hv⟩ := h
  exact ⟨f, read_of_derives hf, hv⟩

theorem atom (a : α) : Means val .literal [.atom a] fun v => val v a :=
  ⟨.atom a, .primary (.atom a), fun _ => rfl⟩

theorem paren (h : Means val .disj ts b) : Means val .literal (.lpar :: ts ++ [.rpar]) b := by
  obtain ⟨f, hf, hv⟩ := h
  exact ⟨f, .primary (.paren hf), hv⟩

theorem not (h : Means val .literal ts b) : Means val .literal (.not :: ts) fun v => !b v := by
  obtain ⟨f, hf, hv⟩ := h
  exact ⟨.not f, .not hf, fun v => congrArg (!·) (hv v)⟩

theorem literal (h : Means val .literal ts b) : Means val .conj ts b := by
  obtain ⟨f, hf, hv⟩ := h
  exact ⟨f, .literal hf, hv⟩

theorem conj (h : Means val .conj ts b) : Means val .disj ts b := by
  obtain ⟨f, hf, hv⟩ := h
  exact ⟨f, .conj hf, hv⟩

theorem and (hb : Means val .conj ts b) (hc : Means val .literal us c) :
    Means val .conj (ts ++ .and :: us) fun v => b v && c v := by
  obtain ⟨f, hf, hfv⟩ := hb
  obtain ⟨g, hg, hgv⟩ := hc
  exact ⟨.and f g, .and hf hg, fun v => by rw [Formula.eval, hfv, hgv]⟩

theorem or (hb : Means val .disj ts b) (hc : Means val .conj us c) :
    Means val .disj (ts ++ .or :: us) fun v => b v || c v := by
  obtain ⟨f, hf, hfv⟩ := hb
  obtain ⟨g, hg, hgv⟩ := hc
  exact ⟨.or f g, .or hf hg, fun v => by rw [Formula.eval, hfv, hgv]⟩

theorem congr {l : Level} (h : Means val l ts b) (hbc : ∀ v, b v = c v) : Means val l ts c := by
  obtain ⟨f, hf, hv⟩ := h
  exact ⟨f, hf, fun v => (hv v).trans (hbc v)⟩

theorem and_conj (hb : Means val .conj ts b) (hc : Means val .conj us c) :
    Means val .conj (ts ++ .and :: us) fun v => b v && c v := by
  obtain ⟨g, hg, hgv⟩ := hc
  -- A conjunction associates to the left, so its text is taken apart from the right.
  suffices h : ∀ l us g, Derives l us g → l = .conj →
      Means val .conj (ts ++ .and :: us) fun v => b v && g.eval (val v) from
    (h _ us g hg rfl).congr fun v => by rw [hgv]
  intro l us g hg
  induction hg with
  | literal hg => exact fun _ => hb.and ⟨_, hg, fun _ => rfl⟩
  | and _ hg ihf _ =>
    intro _
    have h := (ihf rfl).and ⟨_, hg, fun _ => rfl⟩
    rw [append_assoc] at h
    exact h.congr fun v => by rw [Formula.eval, Bool.and_assoc]
  | _ => exact fun h => by cases h

end Means

/-! ## Joined texts -/

/-- Pieces of text with a connective between them. -/
def joined (t : Tok α) : List (List (Tok α)) → List (Tok α)
  | [] => []
  | [ts] => ts
  | ts :: us :: rest => ts ++ t :: joined t (us :: rest)

theorem joined_cons (t : Tok α) (ts : List (Tok α)) {rest : List (List (Tok α))}
    (h : rest ≠ []) : joined t (ts :: rest) = ts ++ t :: joined t rest := by
  obtain ⟨us, rest, rfl⟩ := exists_cons_of_ne_nil h
  rfl

theorem joined_append (t : Tok α) {xs ys : List (List (Tok α))} (hx : xs ≠ []) (hy : ys ≠ []) :
    joined t (xs ++ ys) = joined t xs ++ t :: joined t ys := by
  induction xs with
  | nil => exact absurd rfl hx
  | cons ts xs ih =>
    rcases eq_or_ne xs [] with rfl | hxs
    · exact joined_cons t ts hy
    · rw [cons_append, joined_cons t ts (append_ne_nil_of_left_ne_nil hxs ys), ih hxs,
        joined_cons t ts hxs, append_assoc, cons_append]

/-- Text before joined pieces goes with the first piece. -/
theorem append_joined_cons (t : Tok α) (us ts : List (Tok α)) (rest : List (List (Tok α))) :
    us ++ joined t (ts :: rest) = joined t ((us ++ ts) :: rest) := by
  cases rest with
  | nil => rfl
  | cons ws rest => rw [joined, joined, append_assoc]

namespace Means

variable {V : Type*} {val : V → α → Bool} {tss : List (List (Tok α))} {bs : List (V → Bool)}

/-- **Joining with `AND`.** -/
theorem all (h : List.Forall₂ (Means val .conj) tss bs) (hne : tss ≠ []) :
    Means val .conj (joined .and tss) fun v => bs.all (· v) := by
  induction h with
  | nil => exact absurd rfl hne
  | @cons ts b tss bs hb hbs ih =>
    rcases eq_or_ne tss [] with rfl | htss
    · cases hbs
      exact hb.congr fun v => by simp
    · rw [joined_cons _ _ htss]
      exact hb.and_conj (ih htss)

/-- **Joining with `OR`.** The pieces are conjunctions, and a piece may be a longer one than its
writer meant. -/
theorem any {ts : List (Tok α)} {b : V → Bool} (hb : Means val .disj ts b)
    (h : List.Forall₂ (Means val .conj) tss bs) :
    Means val .disj (joined .or (ts :: tss)) fun v => b v || bs.any (· v) := by
  induction h generalizing ts b with
  | nil => exact hb.congr fun v => by simp
  | @cons us c tss bs hc _ ih =>
    have h := ih (hb.or hc)
    cases tss with
    | nil => exact h.congr fun v => by simp [Bool.or_assoc]
    | cons ws tss =>
      rw [joined, append_assoc] at h
      exact h.congr fun v => by simp [Bool.or_assoc]

/-- **A torn disjunction.** When pieces joined with `OR` stand, without parentheses, among pieces
joined with `AND`, what comes before restricts the first of them only. The last is an alternative to
all the rest. -/
theorem torn {pre post : List (List (Tok α))} {as cs : List (V → Bool)}
    (hpre : List.Forall₂ (Means val .conj) pre as) (hne : pre ≠ [])
    (htss : List.Forall₂ (Means val .conj) tss bs) (htwo : 2 ≤ bs.length)
    (hpost : List.Forall₂ (Means val .conj) post cs) :
    ∃ a : V → Bool, ∃ b ∈ bs, Means val .disj (joined .and (pre ++ joined .or tss :: post))
      fun v => a v || (b v && cs.all (· v)) := by
  obtain ⟨bs', b, rfl⟩ := bs.eq_nil_or_concat'.resolve_left (by rintro rfl; simp at htwo)
  have hinit := forall₂_take_append tss bs' [b] htss
  have hlast := forall₂_drop_append tss bs' [b] htss
  rw [← take_append_drop bs'.length tss]
  generalize tss.take bs'.length = init at hinit
  generalize tss.drop bs'.length = final at hlast
  obtain ⟨last, rest, hb, hrest, rfl⟩ := forall₂_cons_right_iff.mp hlast
  cases hrest
  have hbs' : bs' ≠ [] := by rintro rfl; simp at htwo
  obtain ⟨b₁, bs'', rfl⟩ := exists_cons_of_ne_nil hbs'
  obtain ⟨first, mid, hb₁, hmid, rfl⟩ := forall₂_cons_right_iff.mp hinit
  -- the connectives read: (pre AND first OR mid) OR (last AND post)
  have htext : joined .and (pre ++ joined .or (first :: mid ++ [last]) :: post) =
      joined .or ((joined .and pre ++ .and :: first) :: mid) ++ .or :: joined .and
        (last :: post) := by
    rw [joined_append _ hne (cons_ne_nil _ _), joined_append _ (cons_ne_nil _ _)
      (cons_ne_nil _ _), joined, append_cons _ Tok.or, ← append_joined_cons,
      append_cons _ Tok.and first, ← append_joined_cons]
    simp
  have hfront := Means.any ((Means.all hpre hne).and_conj hb₁).conj hmid
  have hback := Means.all (.cons hb hpost) (cons_ne_nil _ _)
  refine ⟨fun v => as.all (· v) && b₁ v || bs''.any (· v), b, by simp, ?_⟩
  rw [htext]
  exact (hfront.or hback).congr fun v => by rw [all_cons]

end Means

end BoolText
