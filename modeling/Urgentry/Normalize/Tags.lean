import Mathlib.Data.List.Basic

/-!
# Tags

`parseNormalizedTags`, in `event.go`. The tags of an event come as an object, as a list of pairs or
as a list of objects with a key and a value. Each form is decoded into a Go type of its own, and the
decoder reports an error if any value has no room in it, so that one number among the tags takes all
the others with it. `Normalize` takes over the tags as they are parsed here.

## Main results

* `Normalize.tags_iff`: the last text of every key is kept exactly when the value as a whole has one
  of the three types, or when there is nothing to lose. The three forms of the same entries agree
  unless they keep an empty key, which the last one drops.
* `Normalize.tags_lost`: a text and a number.
-/

namespace Urgentry.Normalize

open List

/-! ## Values -/

/-- A value as `encoding/json` reads it. An object may have members of one name. -/
inductive Json
  | null
  | bool (b : Bool)
  | num (text : String)
  | str (s : String)
  | arr (items : List Json)
  | obj (members : List (String × Json))

namespace Json

/-- The decoder puts the value into a `string`; `null` leaves it empty. -/
def isText : Json → Bool
  | str _ | null => true
  | _ => false

def string : Json → String
  | str s => s
  | _ => ""

/-- How the decoder folds the names of members. Two letters beyond ASCII fold to one within. -/
def foldName (name : String) : List Char :=
  name.toList.map fun c =>
    if c.toNat = 0x212a then 'k' else if c.toNat = 0x17f then 's' else c.toLower

/-- What a field of a struct is set from: the last member of its name that is not `null`. -/
def member (members : List (String × Json)) (field : String) : Json :=
  members.foldl (fun current m =>
    if foldName m.1 = foldName field then match m.2 with | null => current | value => value
    else current) null

/-- The key and the value of an element of a list. -/
def entry : Json → Json × Json
  | arr items => (items.getD 0 null, items.getD 1 null)
  | obj members => (member members "key", member members "value")
  | _ => (null, null)

/-- The decoder makes a `[2]string` of the element: a short pair is filled, a long one is cut. -/
def isPair : Json → Bool
  | arr items => (items.take 2).all isText
  | null => true
  | _ => false

/-- The decoder makes a struct of the element. -/
def isTag : Json → Bool
  | obj members => members.all fun m =>
      m.2.isText || foldName m.1 ∉ [foldName "key", foldName "value"]
  | null => true
  | _ => false

def entries : Json → List (Json × Json)
  | obj members => members.map fun m => (str m.1, m.2)
  | arr items => items.map entry
  | _ => []

/-- What is put into the map, in this order. -/
def assignments (j : Json) : List (String × String) :=
  j.entries.map fun e => (e.1.string, e.2.string)

/-- **The condition.** The value has one of the three types. -/
def wellTyped : Json → Bool
  | obj members => members.all (·.2.isText)
  | arr items => items.all isPair || items.all isTag
  | _ => false

end Json

open Json

/-! ## Tags -/

/-- `parseNormalizedTags`: the assignments to the map that it returns. -/
def parseNormalizedTags (raw : Json) : List (String × String) :=
  match raw with
  | obj members => if members.all (·.2.isText) then raw.assignments else []
  | arr items =>
    if items.all isPair then raw.assignments
    else if items.all isTag then raw.assignments.filter (·.1 ≠ "")
    else []
  | _ => []

/-- The map's value at a key. -/
def tag (assigned : List (String × String)) (key : String) : Option String :=
  assigned.reverse.lookup key

/-- The text `v` is the value of the last entry with the key `k`. -/
def IsLast (raw : Json) (k v : String) : Prop :=
  k ≠ "" ∧ ∃ l r, raw.entries = l ++ (str k, str v) :: r ∧ ∀ e ∈ r, e.1 ≠ str k

/-- The entries in the three forms have the same tags. -/
def SameTags (es : List (String × Json)) : Prop :=
  ∀ k, tag (parseNormalizedTags (arr (es.map fun e => arr [str e.1, e.2]))) k =
      tag (parseNormalizedTags (obj es)) k ∧
    tag (parseNormalizedTags (arr (es.map fun e => obj [("key", str e.1), ("value", e.2)]))) k =
      tag (parseNormalizedTags (obj es)) k

section Tags

variable {raw : Json} {k v : String} {assigned : List (String × String)}

theorem tag_filter (hk : k ≠ "") : tag (assigned.filter (·.1 ≠ "")) k = tag assigned k := by
  rw [tag, tag, ← filter_reverse]
  induction assigned.reverse with
  | nil => rfl
  | cons assignment rest ih =>
    obtain ⟨key, value⟩ := assignment
    rw [filter_cons, lookup_cons]
    split
    · rw [lookup_cons, ih]
    · next hempty =>
      have hne : (k == key) = false := by simpa [show key = "" by simpa using hempty] using hk
      rw [ih, hne]

theorem tag_parseNormalizedTags (hk : k ≠ "") : tag (parseNormalizedTags raw) k =
    if raw.wellTyped then tag raw.assignments k else none := by
  have hnil : tag [] k = none := rfl
  unfold parseNormalizedTags wellTyped
  cases raw with
  | obj members => grind
  | arr items => grind [tag_filter]
  | _ => rfl

theorem tag_assignments (h : IsLast raw k v) : tag raw.assignments k = some v := by
  obtain ⟨hk, l, r, hentries, hlast⟩ := h
  have hother : ∀ e ∈ r, k ≠ e.1.string := by
    rintro ⟨key, value⟩ he rfl
    cases key with
    | str s => exact hlast _ he rfl
    | _ => exact hk rfl
  refine lookup_eq_some_iff.mpr ⟨(r.map fun e => (e.1.string, e.2.string)).reverse,
    (l.map fun e => (e.1.string, e.2.string)).reverse, ?_, ?_⟩
  · simp [assignments, hentries, string]
  · simpa using fun _ _ key value he hkey _ => hkey ▸ hother (key, value) he

end Tags

/-! ## Forms -/

/-- The forms as they are put into the map. -/
theorem forms_eq (es : List (String × Json)) :
    parseNormalizedTags (arr (es.map fun e => arr [str e.1, e.2])) = parseNormalizedTags (obj es) ∧
      parseNormalizedTags (arr (es.map fun e => obj [("key", str e.1), ("value", e.2)])) =
        (parseNormalizedTags (obj es)).filter (·.1 ≠ "") := by
  have hfold : foldName "key" ≠ foldName "value" := by decide
  have hentry : ∀ e : String × Json,
      entry (obj [("key", str e.1), ("value", e.2)]) = (str e.1, e.2) := by
    intro e
    cases he : e.2 <;> simp [entry, member, hfold, hfold.symm]
  have hpair : ∀ e : String × Json, isPair (arr [str e.1, e.2]) = e.2.isText := by
    simp [isPair, isText]
  have htag : ∀ e : String × Json,
      isTag (obj [("key", str e.1), ("value", e.2)]) = e.2.isText := by
    simp [isTag, isText]
  cases es with
  | nil => exact ⟨rfl, rfl⟩
  | cons e es =>
    simp only [parseNormalizedTags, all_map, Function.comp_def, hpair, htag, assignments, entries,
      map_map, hentry]
    constructor
    · simp [isTag, entry]
    · rw [apply_ite (filter _)]
      simp [isPair]

theorem sameTags_iff (es : List (String × Json)) :
    SameTags es ↔ ((∀ e ∈ es, e.2.isText) → ∀ e ∈ es, e.1 ≠ "") := by
  obtain ⟨hpairs, htags⟩ := forms_eq es
  have hkeys : (∀ a ∈ parseNormalizedTags (obj es), a.1 ≠ "") ↔
      ((∀ e ∈ es, e.2.isText) → ∀ e ∈ es, e.1 ≠ "") := by
    simp only [parseNormalizedTags, all_eq_true, assignments, entries]
    split
    · next hall =>
      rw [forall_mem_map, forall_mem_map]
      exact ⟨fun h _ => h, fun h => h hall⟩
    · next hall => exact iff_of_true (by simp) fun h => absurd h hall
  simp only [SameTags, hpairs, htags, true_and, ← hkeys]
  constructor
  · intro h a ha hempty
    have hnone : tag (parseNormalizedTags (obj es)) "" = none := by
      rw [← h]
      simp [tag, lookup_eq_none_iff]
    simp only [tag, lookup_eq_none_iff, mem_reverse, bne_iff_ne] at hnone
    exact hnone a ha hempty.symm
  · intro h k
    rw [filter_eq_self.mpr (by simpa using h)]

/-- **Tags are independent** where the value is well typed, or there is nothing to lose; and the
forms agree unless they keep an empty key. -/
theorem tags_iff (raw : Json) (es : List (String × Json)) :
    ((∀ k v, IsLast raw k v → tag (parseNormalizedTags raw) k = some v) ↔
        raw.wellTyped ∨ ∀ k v, ¬IsLast raw k v) ∧
      (SameTags es ↔ ((∀ e ∈ es, e.2.isText) → ∀ e ∈ es, e.1 ≠ "")) := by
  refine ⟨⟨fun h => ?_, fun h k v hlast => ?_⟩, sameTags_iff es⟩
  · refine or_iff_not_imp_left.mpr fun htyped k v hlast => ?_
    have hkept := h k v hlast
    rw [tag_parseNormalizedTags hlast.1, if_neg htyped] at hkept
    cases hkept
  · rw [tag_parseNormalizedTags hlast.1, if_pos (h.resolve_right fun h => h k v hlast)]
    exact tag_assignments hlast

/-- One number takes the other tag with it, and an empty key is in one form only. -/
theorem tags_lost :
    IsLast (obj [("a", str "b"), ("n", num "1")]) "a" "b" ∧
      parseNormalizedTags (obj [("a", str "b"), ("n", num "1")]) = [] ∧
      ¬SameTags [("", str "b")] :=
  ⟨⟨by decide, [], [(str "n", num "1")], rfl, by simp⟩, rfl, by simp [sameTags_iff, isText]⟩

end Urgentry.Normalize
