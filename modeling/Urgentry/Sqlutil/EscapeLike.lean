import Urgentry.Internal.Like

/-!
# Search strings inside SQL patterns

`sqlutil.EscapeLike` prepares what a user typed for `LIKE … ESCAPE '\'`: three replacements over the
whole string, one after the other. The backslash comes first, so the two later ones do not meet the
backslashes they write themselves, and the result is the same as one pass that escapes each special
character (`toList_escapeLike`). Every place that binds a pattern puts a `%` after it, and before it
when the text may contain the string anywhere.

## Main results

* `like_escapeLike_iff`: the bound patterns match exactly the texts that contain the string, or
  start with it, whatever the database takes for equal characters. -/

namespace Urgentry.Sqlutil

/-- `strings.ReplaceAll` for an old string of one character. -/
def replaceAll (s : List Char) (old : Char) (new : List Char) : List Char :=
  s.flatMap fun c => if c = old then new else [c]

/-- `EscapeLike`. -/
def escapeLike (s : String) : String :=
  let s := replaceAll s.toList '\\' ['\\', '\\']
  let s := replaceAll s '%' ['\\', '%']
  let s := replaceAll s '_' ['\\', '_']
  String.ofList s

/-- The three replacements are one pass over the string. -/
@[simp]
theorem toList_escapeLike (s : String) : (escapeLike s).toList = s.toList.flatMap Like.literal := by
  rw [escapeLike, String.toList_ofList]
  simp only [replaceAll, List.flatMap_assoc]
  congr 1
  funext c
  by_cases hesc : c = '\\'
  · subst hesc
    rfl
  by_cases hany : c = '%'
  · subst hany
    rfl
  by_cases hone : c = '_'
  · subst hone
    rfl
  · simp [Like.literal, hesc, hany, hone]

/-- **A search string is taken literally.** Under any comparison of characters, the pattern of
`contains` and of a free text matches the texts that contain the string, and the pattern of `prefix`
matches those that start with it. -/
theorem like_escapeLike_iff {γ : Type*} [DecidableEq γ] (fold : Char → γ) (s t : String) :
    (Like.like fold ("%" ++ escapeLike s ++ "%") t = true ↔
      s.toList.map fold <:+: t.toList.map fold) ∧
      (Like.like fold (escapeLike s ++ "%") t = true ↔
        s.toList.map fold <+: t.toList.map fold) := by
  have hlit := Like.items_literal s.toList ['%']
  constructor
  · have hitems : Like.items ("%" ++ escapeLike s ++ "%").toList =
        some (.anyText :: s.toList.map .char ++ [.anyText]) := by
      rw [String.toList_append, String.toList_append, toList_escapeLike]
      show Like.items ('%' :: (s.toList.flatMap Like.literal ++ ['%'])) = _
      rw [Like.items_anyText, hlit]
      rfl
    rw [Like.like, hitems]
    exact Like.matchItems_contains fold s.toList t.toList
  · have hitems :
        Like.items (escapeLike s ++ "%").toList = some (s.toList.map .char ++ [.anyText]) := by
      rw [String.toList_append, toList_escapeLike]
      exact hlit
    rw [Like.like, hitems]
    exact Like.matchItems_starts fold s.toList t.toList

end Urgentry.Sqlutil
