import Mathlib.Data.List.Infix

/-!
# SQL patterns

`text LIKE pattern ESCAPE '\'`. A pattern is read into items first, `%`, `_` or a character to be
compared, and the items are matched against the text. How two characters are compared is up to the
database, so a comparison goes through a function `fold` that is left open: the identity for a
comparison of code points, a lower case for one that ignores case.

## Main results

* `items_literal`: a text written character by character, with an escape before each special one,
  is read as the comparisons of its characters.
* `matchItems_literal`, `matchItems_contains`: what a text has to look like to match them, alone or
  after a `%`.
-/

namespace Like

open List Function

/-- What one place of a pattern stands for. -/
inductive Item where
  | anyText
  | anyChar
  | char (c : Char)
  deriving DecidableEq

/-- The items of a pattern with the escape character `\`. A pattern that ends in the escape is
none. -/
def items : List Char → Option (List Item)
  | [] => some []
  | c :: pattern =>
    if c = '\\' then
      match pattern with
      | [] => none
      | escaped :: rest => (items rest).map (.char escaped :: ·)
    else
      (items pattern).map
        ((if c = '%' then .anyText else if c = '_' then .anyChar else .char c) :: ·)

variable {γ : Type*} [DecidableEq γ] (fold : Char → γ) (cs text : List Char)

/-- A text against the items of a pattern: `%` takes any part of it, `_` any one character. -/
def matchItems : List Item → List Char → Bool
  | [], text => text.isEmpty
  | .anyText :: rest, text => text.tails.any (matchItems rest)
  | .anyChar :: rest, text => !text.isEmpty && matchItems rest text.tail
  | .char c :: rest, text => (text.head?.map fold == some (fold c)) && matchItems rest text.tail

/-- `text LIKE pattern ESCAPE '\'`. -/
def like (pattern text : String) : Bool :=
  (items pattern.toList).any (matchItems fold · text.toList)

/-- A character of a pattern that stands for itself, escaped where it would not. -/
def literal (c : Char) : List Char := if c = '\\' ∨ c = '%' ∨ c = '_' then ['\\', c] else [c]

theorem items_anyText (pattern : List Char) :
    items ('%' :: pattern) = (items pattern).map (.anyText :: ·) := by
  rw [items.eq_def]
  rfl

theorem items_literal (cs pattern : List Char) :
    items (cs.flatMap literal ++ pattern) = (items pattern).map (cs.map .char ++ ·) := by
  induction cs with
  | nil => simp
  | cons c cs ih =>
    rw [flatMap_cons, literal]
    split
    · simp [items, ih, comp_def]
    · next h =>
      obtain ⟨hesc, hany, hone⟩ := not_or.mp h |>.imp_right not_or.mp
      rw [items.eq_def]
      simp [hesc, hany, hone, ih, comp_def]

/-- **Comparisons only.** The text starts with as many characters, each equal to the one of the
pattern, and the rest of the pattern is left to the rest of the text. -/
theorem matchItems_literal (cs : List Char) (rest : List Item) (text : List Char) :
    matchItems fold (cs.map .char ++ rest) text = true ↔
      ∃ part left, text = part ++ left ∧ part.map fold = cs.map fold ∧
        matchItems fold rest left = true := by
  induction cs generalizing text with
  | nil => simp
  | cons c cs ih =>
    rw [map_cons, cons_append, matchItems, Bool.and_eq_true, beq_iff_eq]
    constructor
    · rintro ⟨hhead, htail⟩
      obtain ⟨d, hd, hfold⟩ := Option.map_eq_some_iff.mp hhead
      obtain ⟨part, left, hsplit, hpart, hleft⟩ := (ih text.tail).mp htail
      refine ⟨d :: part, left, ?_, by rw [map_cons, map_cons, hfold, hpart], hleft⟩
      rw [cons_append, ← hsplit]
      exact (cons_head?_tail hd).symm
    · rintro ⟨part, left, rfl, hpart, hleft⟩
      cases part with
      | nil => cases hpart
      | cons d part =>
        obtain ⟨hfold, hpart⟩ := cons_eq_cons.mp hpart
        exact ⟨by simp [hfold], (ih _).mpr ⟨part, left, rfl, hpart, hleft⟩⟩

@[simp] theorem matchItems_anyText (text : List Char) : matchItems fold [.anyText] text = true := by
  rw [matchItems, any_eq_true]
  exact ⟨[], (mem_tails _ _).mpr nil_suffix, rfl⟩

/-- The comparisons and a `%` after them: the text starts with the characters. -/
theorem matchItems_starts :
    matchItems fold (cs.map .char ++ [.anyText]) text = true ↔ cs.map fold <+: text.map fold := by
  rw [matchItems_literal]
  constructor
  · rintro ⟨part, left, rfl, hpart, -⟩
    rw [map_append, hpart]
    exact prefix_append _ _
  · intro h
    obtain ⟨part, ⟨left, rfl⟩, hpart⟩ := prefix_map_iff.mp h
    exact ⟨part, left, rfl, hpart.symm, matchItems_anyText fold left⟩

/-- The comparisons between two `%`: the text contains the characters. -/
theorem matchItems_contains :
    matchItems fold (.anyText :: cs.map .char ++ [.anyText]) text = true ↔
      cs.map fold <:+: text.map fold := by
  rw [cons_append, matchItems, any_eq_true]
  simp only [mem_tails, matchItems_starts, infix_iff_prefix_suffix]
  constructor
  · rintro ⟨left, hleft, hpre⟩
    exact ⟨_, hpre, hleft.map fold⟩
  · rintro ⟨part, hpre, hpart⟩
    obtain ⟨left, hleft, rfl⟩ := suffix_map_iff.mp hpart
    exact ⟨left, hleft, hpre⟩

end Like
