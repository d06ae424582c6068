import Mathlib.Algebra.BigOperators.Group.List.Lemmas
import Mathlib.Algebra.GroupWithZero.Nat

/-!
# Grouping by key

A list is split into groups by a key, in the order in which the keys first appear, and each group is
accumulated as its elements arrive. The groups have different keys (`nodup_keys`), which are the
keys of the elements (`mem_keys`), and each is a fold over the elements with its key, of which there
is at least one (`mem_groups`). So every element is counted once (`sum_length_filter`). -/

namespace Grouped

open List

variable {κ α β : Type*} [DecidableEq κ] {g : κ × α} {xs : List β}

/-- The group of a key is changed, or begun. -/
def upsert (key : κ) (fresh : α) (f : α → α) : List (κ × α) → List (κ × α)
  | [] => [(key, f fresh)]
  | (k, a) :: rest => if k = key then (k, f a) :: rest else (k, a) :: upsert key fresh f rest

theorem upsert_ne_nil (key : κ) (fresh : α) (f : α → α) (gs : List (κ × α)) :
    upsert key fresh f gs ≠ [] := by
  cases gs with
  | nil => exact cons_ne_nil _ _
  | cons g rest =>
    rw [upsert]
    split <;> exact cons_ne_nil _ _

@[simp]
theorem keys_upsert (key : κ) (fresh : α) (f : α → α) (gs : List (κ × α)) :
    (upsert key fresh f gs).map Prod.fst =
      if key ∈ gs.map Prod.fst then gs.map Prod.fst else gs.map Prod.fst ++ [key] := by
  induction gs with
  | nil => rfl
  | cons head rest ih =>
    obtain ⟨k, a⟩ := head
    rw [upsert]
    by_cases hk : k = key
    · simp [hk]
    · rw [if_neg hk, map_cons, ih]
      by_cases hmem : key ∈ rest.map Prod.fst
      · simp [hmem]
      · simp [hmem, Ne.symm hk]

/-- Where an entry comes from, when the keys are different. -/
theorem mem_upsert {key : κ} {fresh : α} {f : α → α} {gs : List (κ × α)}
    (hnodup : (gs.map Prod.fst).Nodup) (h : g ∈ upsert key fresh f gs) :
    (g ∈ gs ∧ g.1 ≠ key) ∨ (g = (key, f fresh) ∧ key ∉ gs.map Prod.fst) ∨
      ∃ a, (key, a) ∈ gs ∧ g = (key, f a) := by
  induction gs with
  | nil => exact .inr (.inl ⟨mem_singleton.mp h, not_mem_nil⟩)
  | cons head rest ih =>
    obtain ⟨k, a⟩ := head
    rw [map_cons, nodup_cons] at hnodup
    rw [upsert] at h
    split_ifs at h with hk
    · subst hk
      rcases mem_cons.mp h with rfl | h
      · exact .inr (.inr ⟨a, mem_cons_self, rfl⟩)
      · exact .inl ⟨mem_cons_of_mem _ h, fun heq => hnodup.1 (heq ▸ mem_map.mpr ⟨g, h, rfl⟩)⟩
    · rcases mem_cons.mp h with rfl | h
      · exact .inl ⟨mem_cons_self, hk⟩
      · rcases ih hnodup.2 h with ⟨h, hne⟩ | ⟨h, hnew⟩ | ⟨a', ha', h⟩
        · exact .inl ⟨mem_cons_of_mem _ h, hne⟩
        · refine .inr (.inl ⟨h, fun hmem => ?_⟩)
          exact (mem_cons.mp hmem).elim (fun heq => hk heq.symm) hnew
        · exact .inr (.inr ⟨a', mem_cons_of_mem _ ha', h⟩)

/-- The groups of a list. -/
def groups (key : β → κ) (fresh : β → α) (add : α → β → α) (xs : List β) : List (κ × α) :=
  xs.foldl (fun gs x => upsert (key x) (fresh x) (add · x) gs) []

variable {key : β → κ} {fresh : β → α} {add : α → β → α}

@[simp]
theorem groups_append_singleton (xs : List β) (x : β) :
    groups key fresh add (xs ++ [x]) =
      upsert (key x) (fresh x) (add · x) (groups key fresh add xs) := by
  rw [groups, foldl_append]
  rfl

theorem groups_ne_nil (h : xs ≠ []) : groups key fresh add xs ≠ [] := by
  induction xs using reverseRecOn with
  | nil => exact absurd rfl h
  | append_singleton xs x _ =>
    rw [groups_append_singleton]
    exact upsert_ne_nil _ _ _ _

/-- **The keys of the groups are different.** -/
theorem nodup_keys (xs : List β) : ((groups key fresh add xs).map Prod.fst).Nodup := by
  induction xs using reverseRecOn with
  | nil => exact nodup_nil
  | append_singleton xs x ih =>
    rw [groups_append_singleton, keys_upsert]
    split_ifs with hnew
    · exact ih
    · rw [nodup_append]
      refine ⟨ih, nodup_singleton _, fun k hk k' hk' heq => ?_⟩
      exact hnew (mem_singleton.mp hk' ▸ heq ▸ hk)

/-- **The keys of the groups are those of the elements.** -/
theorem mem_keys {k : κ} : k ∈ (groups key fresh add xs).map Prod.fst ↔ k ∈ xs.map key := by
  induction xs using reverseRecOn with
  | nil => rfl
  | append_singleton xs x ih =>
    rw [groups_append_singleton, keys_upsert, map_append, mem_append, ← ih, map_singleton,
      mem_singleton]
    split_ifs with hold
    · exact ⟨.inl, fun h => h.elim id fun heq => heq ▸ hold⟩
    · rw [mem_append, mem_singleton]

/-- **A group is a fold** over the elements with its key: it starts with one and goes on with the
others. -/
theorem mem_groups (h : g ∈ groups key fresh add xs) :
    ∃ (x : β) (rest : List β), xs.filter (fun y => key y = g.1) = x :: rest ∧
      g.2 = rest.foldl add (add (fresh x) x) := by
  induction xs using reverseRecOn generalizing g with
  | nil => exact absurd h not_mem_nil
  | append_singleton xs x ih =>
    rw [groups_append_singleton] at h
    rw [filter_append]
    rcases mem_upsert (nodup_keys xs) h with ⟨h, hne⟩ | ⟨rfl, hnew⟩ | ⟨a, ha, rfl⟩
    · obtain ⟨y, rest, hfilter, hfold⟩ := ih h
      refine ⟨y, rest, ?_, hfold⟩
      rw [hfilter, filter_cons_of_neg (by simpa using hne.symm), filter_nil, append_nil]
    · have hnone : xs.filter (fun y => key y = key x) = [] := by
        rw [filter_eq_nil_iff]
        intro y hy heq
        exact hnew (mem_keys.mpr (of_decide_eq_true heq ▸ mem_map_of_mem hy))
      refine ⟨x, [], ?_, rfl⟩
      rw [hnone, filter_cons_of_pos (by simp), filter_nil, nil_append]
    · obtain ⟨y, rest, hfilter, hfold⟩ := ih ha
      refine ⟨y, rest ++ [x], ?_, ?_⟩
      · rw [hfilter, filter_cons_of_pos (by simp), filter_nil, cons_append]
      · rw [foldl_append, ← hfold]
        rfl

/-- **Every element is counted once**, over the different keys. -/
theorem sum_length_filter {ks : List κ} (hnodup : ks.Nodup) (hmem : ∀ k, k ∈ ks ↔ k ∈ xs.map key) :
    (ks.map fun k => (xs.filter fun x => key x = k).length).sum = xs.length := by
  have hperm : ks.Perm (xs.map key).dedup :=
    (perm_ext_iff_of_nodup hnodup (nodup_dedup _)).mpr fun k => by rw [hmem, mem_dedup]
  have hcount : ∀ k, (xs.filter fun x => key x = k).length = (xs.map key).count k := by
    intro k
    rw [count_eq_countP, countP_map, countP_eq_length_filter]
    rfl
  calc (ks.map fun k => (xs.filter fun x => key x = k).length).sum
      = (ks.map fun k => (xs.map key).count k).sum := by simp only [hcount]
    _ = ((xs.map key).dedup.map fun k => (xs.map key).count k).sum := (hperm.map _).sum_eq
    _ = xs.length := by rw [sum_map_count_dedup_eq_length, length_map]

end Grouped
