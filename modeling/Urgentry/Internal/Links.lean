import Mathlib.Data.List.Nodup
import Mathlib.Logic.Relation

/-!
# Lists of links

A list of items, each with a key, a place, and perhaps the key of another item that it is linked to.
The links form a *forest* when following them never comes back to where it started, and every link
leads to an item of the list in the same place.

## Linking to a root

What keeps the links free of cycles is not a search along the links but one local check: an item is
only ever linked to an item that is not linked itself. A cycle through the new link would have to go
on from there, and there is nothing to go on with (`NoCycle.of_root`). Items can also be added, and
links removed. Removing an item is the one change that has a price, since a link to it would lead
nowhere (`Forest.filter_iff`).
-/

/-- An item of a list of links. -/
structure Link (κ π : Type*) where
  /-- Its own key. -/
  key : κ
  /-- Where it belongs. -/
  place : π
  /-- The key of the item that it is linked to. -/
  into : Option κ

namespace Link

open List

open Relation

variable {κ π : Type*} (links : List (Link κ π))

/-- A step from one key to another. -/
def Edge (a b : κ) : Prop := ∃ l ∈ links, l.key = a ∧ l.into = some b

/-- Following the links never comes back to a key. -/
def NoCycle : Prop := ∀ a, ¬TransGen (Edge links) a a

/-- **A forest.** -/
structure Forest : Prop where
  noCycle : NoCycle links
  /-- Every link leads to an item of the list in the same place. -/
  closed : ∀ l ∈ links, ∀ b ∈ l.into, ∃ m ∈ links, m.key = b ∧ m.place = l.place

variable {links links' : List (Link κ π)} {a b : κ}

theorem NoCycle.mono (h : NoCycle links) (hsub : ∀ a b, Edge links' a b → Edge links a b) :
    NoCycle links' :=
  fun a hcycle => h a (TransGen.mono hsub a a hcycle)

/-- **Links to a root.** All the steps that are new lead to `b`, and none leads away from it. -/
theorem NoCycle.of_root (h : NoCycle links) (hnew : ∀ a c, Edge links' a c → Edge links a c ∨ c = b)
    (hroot : ∀ c, ¬Edge links' b c) : NoCycle links' := by
  -- a path that goes on from its end has not come to `b`, so all of its steps are old
  have hold : ∀ {a c}, TransGen (Edge links') a c → (∃ d, Edge links' c d) →
      TransGen (Edge links) a c := by
    intro a c path
    induction path with
    | single hac =>
      rintro ⟨d, hd⟩
      rcases hnew _ _ hac with hac | rfl
      · exact .single hac
      · exact absurd hd (hroot d)
    | tail _ hcd ih =>
      rintro ⟨e, he⟩
      rcases hnew _ _ hcd with hcd' | rfl
      · exact (ih ⟨_, hcd⟩).tail hcd'
      · exact absurd he (hroot e)
  intro a hcycle
  have hnext : ∃ d, Edge links' a d := by
    cases hcycle using TransGen.head_induction_on with
    | single hab => exact ⟨_, hab⟩
    | head hab _ => exact ⟨_, hab⟩
  exact h a (hold hcycle hnext)

theorem forest_nil : Forest ([] : List (Link κ π)) where
  noCycle a hcycle := by
    cases hcycle with
    | single hab => obtain ⟨l, hl, -⟩ := hab; cases hl
    | tail _ hab => obtain ⟨l, hl, -⟩ := hab; cases hl
  closed l hl := by cases hl

/-- An item that is not linked can be added. -/
theorem Forest.append_root (h : Forest links) {l : Link κ π} (hroot : l.into = none) :
    Forest (links ++ [l]) where
  noCycle := by
    refine h.noCycle.mono fun a b => ?_
    rintro ⟨m, hm, hkey, hinto⟩
    rcases mem_append.mp hm with hm | hm
    · exact ⟨m, hm, hkey, hinto⟩
    · rw [mem_singleton.mp hm, hroot] at hinto
      cases hinto
  closed := by
    intro m hm b hb
    rcases mem_append.mp hm with hm | hm
    · obtain ⟨n, hn, hrest⟩ := h.closed m hm b hb
      exact ⟨n, mem_append_left _ hn, hrest⟩
    · rw [mem_singleton.mp hm, hroot] at hb
      cases hb

/-- A change that removes links and keeps keys and places. -/
theorem Forest.unlink {ρ : Type*} {rows : List ρ} {f g : ρ → Link κ π} (h : Forest (rows.map f))
    (hkey : ∀ r, (g r).key = (f r).key) (hplace : ∀ r, (g r).place = (f r).place)
    (hinto : ∀ r, (g r).into = (f r).into ∨ (g r).into = none) : Forest (rows.map g) where
  noCycle := by
    refine h.noCycle.mono fun a b => ?_
    rintro ⟨m, hm, rfl, hb⟩
    obtain ⟨r, hr, rfl⟩ := mem_map.mp hm
    rcases hinto r with heq | hnone
    · exact ⟨f r, mem_map_of_mem hr, (hkey r).symm, heq ▸ hb⟩
    · rw [hnone] at hb
      cases hb
  closed := by
    intro m hm b hb
    obtain ⟨r, hr, rfl⟩ := mem_map.mp hm
    rcases hinto r with heq | hnone
    · obtain ⟨n, hn, hnkey, hnplace⟩ := h.closed (f r) (mem_map_of_mem hr) b (heq ▸ hb)
      obtain ⟨s, hs, rfl⟩ := mem_map.mp hn
      exact ⟨g s, mem_map_of_mem hs, (hkey s).trans hnkey,
        (hplace s).trans (hnplace.trans (hplace r).symm)⟩
    · rw [hnone] at hb
      cases hb

variable [DecidableEq κ] (l : Link κ π)

/-- Links the item with the key `a` to the one with the key `b`. -/
def relink (a b : κ) (l : Link κ π) : Link κ π := if l.key = a then { l with into := some b } else l

omit [DecidableEq κ] in
theorem eq_of_key {l m : Link κ π} (hkeys : (links.map (·.key)).Nodup)
    (hl : l ∈ links) (hm : m ∈ links) (h : l.key = m.key) : l = m :=
  inj_on_of_nodup_map hkeys hl hm h

@[simp]
theorem key_relink : (relink a b l).key = l.key := by
  unfold relink
  split <;> rfl

@[simp]
theorem place_relink : (relink a b l).place = l.place := by
  unfold relink
  split <;> rfl

@[simp]
theorem into_relink : (relink a b l).into = if l.key = a then some b else l.into := by
  unfold relink
  split <;> rfl

/-- An item can be linked to another one in the same place that is not linked itself. -/
theorem Forest.relink (h : Forest links) (hkeys : (links.map (·.key)).Nodup)
    {s t : Link κ π} (hs : s ∈ links) (ht : t ∈ links) (hne : s.key ≠ t.key)
    (hplace : s.place = t.place) (hroot : t.into = none) :
    Forest (links.map (relink s.key t.key)) where
  noCycle := by
    refine h.noCycle.of_root (b := t.key) (fun a c => ?_) fun c => ?_
    · rintro ⟨m, hm, hkey, hc⟩
      obtain ⟨l, hl, rfl⟩ := mem_map.mp hm
      rw [into_relink] at hc
      split at hc
      · exact .inr (Option.some.inj hc).symm
      · exact .inl ⟨l, hl, key_relink l ▸ hkey, hc⟩
    · rintro ⟨m, hm, hkey, hc⟩
      obtain ⟨l, hl, rfl⟩ := mem_map.mp hm
      rw [key_relink] at hkey
      obtain rfl := eq_of_key hkeys hl ht hkey
      rw [into_relink, if_neg hne.symm, hroot] at hc
      cases hc
  closed := by
    intro m hm b hb
    obtain ⟨l, hl, rfl⟩ := mem_map.mp hm
    rw [place_relink]
    rw [into_relink] at hb
    split at hb
    · next hkey =>
      obtain rfl := eq_of_key hkeys hl hs hkey
      refine ⟨Link.relink l.key t.key t, mem_map_of_mem ht, ?_, ?_⟩
      · rw [key_relink]
        exact Option.some.inj hb
      · rw [place_relink, hplace]
    · obtain ⟨n, hn, hnkey, hnplace⟩ := h.closed l hl b hb
      refine ⟨Link.relink s.key t.key n, mem_map_of_mem hn, ?_, ?_⟩
      · rw [key_relink, hnkey]
      · rw [place_relink, hnplace]

/-- **Removing items** leaves a forest exactly when no item that stays is linked to one that
goes. -/
theorem Forest.filter_iff (h : Forest links) (gone : List κ) :
    Forest (links.filter fun l => l.key ∉ gone) ↔
      ∀ l ∈ links, l.key ∉ gone → ∀ b ∈ l.into, b ∉ gone := by
  constructor
  · intro hafter l hl hstays b hb hgone
    obtain ⟨m, hm, hkey, -⟩ := hafter.closed l (mem_filter.mpr ⟨hl, by simpa using hstays⟩) b hb
    have hm' : m.key ∉ gone := by simpa using (mem_filter.mp hm).2
    exact hm' (hkey ▸ hgone)
  · intro hstay
    refine ⟨h.noCycle.mono fun a b => ?_, fun l hl b hb => ?_⟩
    · rintro ⟨l, hl, hrest⟩
      exact ⟨l, (mem_filter.mp hl).1, hrest⟩
    · obtain ⟨hl, hstays⟩ := mem_filter.mp hl
      obtain ⟨m, hm, hkey, hplace⟩ := h.closed l hl b hb
      have hgone := hstay l hl (by simpa using hstays) b hb
      exact ⟨m, mem_filter.mpr ⟨hm, by simpa [hkey] using hgone⟩, hkey, hplace⟩

end Link
