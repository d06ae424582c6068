import Mathlib.Data.List.Basic

/-!
# Terminated concatenations

A list of texts is written as one text by putting a terminator behind each of them. The texts can be
read back if none of them has the terminator in it; otherwise all that can be read back is the list
of their *parts*, the pieces between terminators. `terminate_inj` says that this is exactly what the
concatenation determines. -/

namespace Terminated

open List

variable {α : Type*} [BEq α] [LawfulBEq α]

/-- Each text with a terminator behind it. -/
def terminate (sep : α) (texts : List (List α)) : List α := texts.flatMap (· ++ [sep])

/-- The pieces between terminators. -/
def parts (sep : α) (texts : List (List α)) : List (List α) := texts.flatMap (List.splitOn sep)

/-- Cutting the concatenation gives the parts, and an empty piece behind the last terminator. -/
@[simp]
theorem splitOn_terminate (sep : α) (texts : List (List α)) :
    (terminate sep texts).splitOn sep = parts sep texts ++ [[]] := by
  induction texts with
  | nil => exact splitOn_nil sep
  | cons text texts ih =>
    have htext : terminate sep (text :: texts) = text ++ sep :: terminate sep texts := by
      simp [terminate]
    rw [htext, splitOn_append_cons_self, ih, parts, parts, flatMap_cons, append_assoc]

variable {sep : α} {texts texts' : List (List α)}

/-- **What a concatenation determines.** -/
theorem terminate_inj :
    terminate sep texts = terminate sep texts' ↔ parts sep texts = parts sep texts' := by
  constructor
  · intro h
    have hsplit := congrArg (splitOn sep) h
    rw [splitOn_terminate, splitOn_terminate] at hsplit
    exact append_cancel_right hsplit
  · intro h
    have hjoin : ∀ text : List α, [sep].intercalate (text.splitOn sep) = text := fun _ =>
      intercalate_splitOn sep
    rw [← hjoin (terminate sep texts), splitOn_terminate, h, ← splitOn_terminate, hjoin]

omit [BEq α] [LawfulBEq α] in
theorem intercalate_append (h : texts ≠ []) :
    [sep].intercalate texts ++ [sep] = terminate sep texts := by
  induction texts with
  | nil => exact absurd rfl h
  | cons text texts ih =>
    cases texts with
    | nil => simp [terminate]
    | cons next rest =>
      rw [intercalate_cons_cons, append_assoc, ih (cons_ne_nil _ _)]
      simp [terminate]

/-- The same with the separator between the texts only, when there are some. -/
theorem intercalate_inj (h : texts ≠ []) (h' : texts' ≠ []) :
    [sep].intercalate texts = [sep].intercalate texts' ↔ parts sep texts = parts sep texts' := by
  rw [← terminate_inj, ← intercalate_append h, ← intercalate_append h', append_cancel_right_eq]

/-- Texts without the terminator are their parts. -/
theorem parts_of_not_mem (h : ∀ text ∈ texts, sep ∉ text) : parts sep texts = texts := by
  induction texts with
  | nil => rfl
  | cons text texts ih =>
    rw [forall_mem_cons] at h
    rw [parts, flatMap_cons, splitOn_eq_singleton h.1, singleton_append, ← parts, ih h.2]

/-- Texts in as many pieces, one by one, have the same parts only if they are the same. -/
theorem parts_map_inj {ι : Type*} {f g : ι → List α} {xs : List ι}
    (h : ∀ x ∈ xs, ((f x).splitOn sep).length = ((g x).splitOn sep).length) :
    parts sep (xs.map f) = parts sep (xs.map g) ↔ ∀ x ∈ xs, f x = g x := by
  have hjoin : ∀ text : List α, [sep].intercalate (text.splitOn sep) = text := fun _ =>
    intercalate_splitOn sep
  have hcut : ∀ {s t : List α}, s.splitOn sep = t.splitOn sep → s = t := by
    intro s t hst
    rw [← hjoin s, hst, hjoin]
  induction xs with
  | nil => simp
  | cons x xs ih =>
    rw [forall_mem_cons] at h ⊢
    rw [map_cons, map_cons, parts, parts, flatMap_cons, flatMap_cons, ← parts, ← parts]
    constructor
    · intro heq
      obtain ⟨hhead, htail⟩ := append_inj heq h.1
      exact ⟨hcut hhead, (ih h.2).mp htail⟩
    · rintro ⟨hhead, htail⟩
      rw [hhead, (ih h.2).mpr htail]

end Terminated
