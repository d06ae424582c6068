import Mathlib.Data.List.Perm.Subperm
import Mathlib.Data.List.Nodup
import Mathlib.Tactic.Ring

/-!
# Walking a list of nodes by their parent keys

A forest is often handed over as a flat list: every node has a key of its own and perhaps the key of
a parent. Nothing makes such a list a forest. Keys may repeat, and parents may form cycles. The
natural recursion (for every child of a key: report it, then go on with its own key) is defined on
all lists and need not end.

This file says exactly when it ends with every node reported at most once. A node is reported once
for every time its parent's key is entered, so what has to be unique are the *keys that have
children*: `NoRepeat r` says that no such key belongs to two of the start `r` and the nodes below
it.

## The recursion and its graph

`walk` is the recursion with a depth bound, appending to a result as it goes. `Visits` is its graph
without the bound, on lists of siblings. Both say which nodes are reported and in which order;
`exists_walk_iff` connects them, and the arguments below are inductions on `Visits`.

## Main results

* `Visits.count_eq`: how often a node is reported, by how often its parent's key is entered
* `NoRepeat.exists_visits`: without repeated keys the recursion ends
* `NoRepeat.subperm`, `noRepeat_of_subperm`: a recursion that ends has reported each node at most
  once exactly when `NoRepeat` holds
-/

namespace ParentWalk

open List Option

/-- The recursion, at most `fuel` levels deep: reports every child of `k`, each followed by what is
below its own key. -/
def walk {α κ : Type*} (key : α → κ) (children : κ → List α) : ℕ → κ → List α → Option (List α)
  | 0, _, _ => none
  | fuel + 1, k, result =>
    (children k).foldlM (fun result child => walk key children fuel (key child) (result ++ [child]))
      result

/-- A list of nodes, each with its own key and perhaps the key of a parent. -/
structure Forest (α κ : Type*) where
  /-- The nodes, in order. -/
  nodes : List α
  /-- The key of a node. -/
  key : α → κ
  /-- The key of its parent. -/
  parent : α → Option κ

namespace Forest

variable {α κ : Type*} [DecidableEq κ] (F : Forest α κ)

/-- The nodes whose parent has the key `k`. -/
def children (k : κ) : List α := F.nodes.filter fun a => F.parent a = some k

/-- Walking the siblings `pending` reports the given nodes. -/
inductive Visits : List α → List α → Prop
  | nil : Visits [] []
  | cons {a : α} {pending below rest : List α} (hbelow : Visits (F.children (F.key a)) below)
    (hrest : Visits pending rest) : Visits (a :: pending) (a :: below ++ rest)

/-- The nodes below the key `r`. -/
inductive Reach (r : κ) : α → Prop
  | child {a : α} (h : a ∈ F.children r) : Reach r a
  | next {a b : α} (hreach : Reach r a) (h : b ∈ F.children (F.key a)) : Reach r b

variable {F} {r k : κ} {a b : α} {pending out : List α} {fuel : ℕ}

theorem mem_children : a ∈ F.children k ↔ a ∈ F.nodes ∧ F.parent a = some k := by
  simp [children]

theorem parent_eq_of_mem_children (h : a ∈ F.children k) : F.parent a = some k :=
  (mem_children.mp h).2

theorem Reach.exists_parent (h : F.Reach r a) :
    ∃ k, a ∈ F.children k ∧ (k = r ∨ ∃ b, F.Reach r b ∧ F.key b = k) := by
  cases h with
  | child h => exact ⟨r, h, .inl rfl⟩
  | @next b _ hb h => exact ⟨F.key b, h, .inr ⟨b, hb, rfl⟩⟩

theorem Reach.mem_nodes (h : F.Reach r a) : a ∈ F.nodes := by
  obtain ⟨k, hk, -⟩ := h.exists_parent
  exact (mem_children.mp hk).1

/-! ## The recursion computes its graph -/

theorem foldlM_visits (hwalk : ∀ k result out, walk F.key F.children fuel k result = some out →
      ∃ vis, out = result ++ vis ∧ F.Visits (F.children k) vis) :
    ∀ {pending result out}, pending.foldlM (fun result child =>
      walk F.key F.children fuel (F.key child) (result ++ [child])) result = some out →
      ∃ vis, out = result ++ vis ∧ F.Visits pending vis
  | [], result, out, h => by
    rw [foldlM_nil, Option.pure_def, some.injEq] at h
    exact ⟨[], by simp [h], .nil⟩
  | a :: pending, result, out, h => by
    rw [foldlM_cons, bind_eq_bind, bind_eq_some_iff] at h
    obtain ⟨mid, hmid, h⟩ := h
    obtain ⟨below, rfl, hbelow⟩ := hwalk _ _ _ hmid
    obtain ⟨rest, rfl, hrest⟩ := foldlM_visits hwalk h
    exact ⟨a :: below ++ rest, by simp, .cons hbelow hrest⟩

theorem visits_of_walk : ∀ k result out, walk F.key F.children fuel k result = some out →
    ∃ vis, out = result ++ vis ∧ F.Visits (F.children k) vis := by
  induction fuel with
  | zero => intro k result out h; simp [walk] at h
  | succ fuel ih =>
    intro k result out h
    rw [walk] at h
    exact foldlM_visits ih h

/-- Enough depth for the walk below a list of siblings is enough for any greater depth. -/
theorem Visits.exists_foldlM (h : F.Visits pending out) :
    ∃ bound, ∀ fuel ≥ bound, ∀ result, pending.foldlM (fun result child =>
      walk F.key F.children fuel (F.key child) (result ++ [child])) result =
        some (result ++ out) := by
  induction h with
  | nil => exact ⟨0, fun fuel _ result => by simp⟩
  | @cons a pending below rest _ _ ihbelow ihrest =>
    obtain ⟨m, hm⟩ := ihbelow
    obtain ⟨n, hn⟩ := ihrest
    refine ⟨max (m + 1) n, fun fuel hfuel result => ?_⟩
    obtain ⟨depth, rfl⟩ : ∃ depth, fuel = depth + 1 := ⟨fuel - 1, by omega⟩
    have hwalk : walk F.key F.children (depth + 1) (F.key a) (result ++ [a]) =
        some (result ++ [a] ++ below) := by
      rw [walk]
      exact hm depth (by omega) _
    rw [foldlM_cons, hwalk, bind_eq_bind, bind_some, hn _ (by omega)]
    simp

theorem Visits.exists_walk (h : F.Visits (F.children k) out) :
    ∃ bound, ∀ fuel ≥ bound, walk F.key F.children fuel k [] = some out := by
  obtain ⟨bound, hbound⟩ := h.exists_foldlM
  refine ⟨bound + 1, fun fuel hfuel => ?_⟩
  obtain ⟨depth, rfl⟩ : ∃ depth, fuel = depth + 1 := ⟨fuel - 1, by omega⟩
  rw [walk]
  simpa using hbound depth (by omega) []

/-- The recursion ends with the nodes of its graph. -/
theorem exists_walk_iff :
    (∃ fuel, walk F.key F.children fuel k [] = some out) ↔ F.Visits (F.children k) out := by
  constructor
  · rintro ⟨fuel, h⟩
    obtain ⟨vis, rfl, hvis⟩ := visits_of_walk k [] out h
    simpa using hvis
  · intro h
    obtain ⟨bound, hbound⟩ := h.exists_walk
    exact ⟨bound, hbound bound le_rfl⟩

/-! ## Which nodes are reported, and how often -/

theorem Visits.pending_subset (h : F.Visits pending out) : pending ⊆ out := by
  induction h with
  | nil => exact Subset.refl _
  | cons _ _ _ ihrest =>
    intro b hb
    rcases mem_cons.mp hb with rfl | hb
    · simp
    · exact mem_append_right _ (ihrest hb)

theorem Visits.children_subset (h : F.Visits pending out) (ha : a ∈ out) :
    F.children (F.key a) ⊆ out := by
  induction h with
  | nil => exact absurd ha not_mem_nil
  | @cons c pending below rest hbelow _ ihbelow ihrest =>
    intro b hb
    rw [cons_append, mem_cons, mem_append] at ha ⊢
    rcases ha with rfl | ha | ha
    · exact .inr (.inl (hbelow.pending_subset hb))
    · exact .inr (.inl (ihbelow ha hb))
    · exact .inr (.inr (ihrest ha hb))

theorem Visits.reach (h : F.Visits pending out) (hpending : ∀ a ∈ pending, F.Reach r a) :
    ∀ a ∈ out, F.Reach r a := by
  induction h with
  | nil => exact hpending
  | @cons c pending below rest _ _ ihbelow ihrest =>
    rw [forall_mem_cons] at hpending
    intro b hb
    rw [cons_append, mem_cons, mem_append] at hb
    rcases hb with rfl | hb | hb
    · exact hpending.1
    · exact ihbelow (fun a ha => .next hpending.1 ha) b hb
    · exact ihrest hpending.2 b hb

/-- The nodes reported from a key are the ones below it. -/
theorem Visits.mem_iff (h : F.Visits (F.children r) out) : a ∈ out ↔ F.Reach r a := by
  refine ⟨h.reach (fun a ha => .child ha) a, fun hreach => ?_⟩
  induction hreach with
  | child ha => exact h.pending_subset ha
  | next _ hb ih => exact h.children_subset ih hb

section Count

open Classical in
theorem count_children_eq (hparent : F.parent a = some k) (l : κ) :
    (F.children l).count a = if l = k then F.nodes.count a else 0 := by
  by_cases hl : l = k
  · rw [if_pos hl, children, count_filter (by simp [hparent, hl])]
  · rw [if_neg hl, List.count_eq_zero]
    intro ha
    rw [parent_eq_of_mem_children ha, some.injEq] at hparent
    exact hl hparent

open Classical in
/-- **Counting.** Besides its own place among the siblings, a node is reported once for every
reported node that has its parent's key. -/
theorem Visits.count_eq (h : F.Visits pending out) (hparent : F.parent a = some k) :
    out.count a = pending.count a + out.countP (fun b => F.key b = k) * F.nodes.count a := by
  induction h with
  | nil => simp
  | @cons c pending below rest _ _ ihbelow ihrest =>
    rw [cons_append, count_cons, count_append, ihbelow, ihrest, count_cons,
      countP_cons, countP_append, count_children_eq hparent]
    by_cases hc : F.key c = k
    · simp only [hc, decide_true, if_true]
      ring
    · simp only [hc, decide_false]
      simp only [Bool.false_eq_true, if_false]
      ring

open Classical in
/-- How often the walk from `r` enters the key `k`. -/
noncomputable def entered (F : Forest α κ) (r : κ) (out : List α) (k : κ) : ℕ :=
  (if r = k then 1 else 0) + out.countP fun b => F.key b = k

open Classical in
theorem Visits.count_root_eq (h : F.Visits (F.children r) out) (hparent : F.parent a = some k) :
    out.count a = F.entered r out k * F.nodes.count a := by
  rw [h.count_eq hparent, count_children_eq hparent, entered]
  by_cases hr : r = k
  · simp only [hr, if_true]
    ring
  · simp only [hr, if_false]
    ring

end Count

/-! ## Repeated keys -/

open Classical in
/-- No key with children belongs to two of the start `r` and the nodes below it. -/
def NoRepeat (F : Forest α κ) (r : κ) : Prop :=
  ∀ k, F.children k ≠ [] →
    (if r = k then 1 else 0) + F.nodes.countP (fun a => F.Reach r a ∧ F.key a = k) ≤ 1

theorem NoRepeat.key_ne (h : F.NoRepeat r) (hr : F.children r ≠ []) (ha : F.Reach r a) :
    F.key a ≠ r := by
  classical
  intro hkey
  have hpos : 0 < F.nodes.countP fun b => F.Reach r b ∧ F.key b = r :=
    countP_pos_iff.mpr ⟨a, ha.mem_nodes, by simp [ha, hkey]⟩
  have hone := h r hr
  rw [if_pos rfl] at hone
  omega

theorem eq_of_countP_le_one {p : α → Bool} {l : List α} (hone : l.countP p ≤ 1) (ha : a ∈ l)
    (hb : b ∈ l) (hpa : p a = true) (hpb : p b = true) : a = b := by
  have hlen : (l.filter p).length ≤ 1 := by rwa [← countP_eq_length_filter]
  have hamem : a ∈ l.filter p := mem_filter.mpr ⟨ha, hpa⟩
  have hbmem : b ∈ l.filter p := mem_filter.mpr ⟨hb, hpb⟩
  match hf : l.filter p, hlen, hamem, hbmem with
  | [c], _, hamem, hbmem =>
    rw [mem_singleton.mp hamem, mem_singleton.mp hbmem]

open Classical in
theorem NoRepeat.countP_le_one (h : F.NoRepeat r) (hk : F.children k ≠ []) :
    F.nodes.countP (fun a => F.Reach r a ∧ F.key a = k) ≤ 1 :=
  Nat.le_trans (Nat.le_add_left _ _) (h k hk)

/-- Two nodes below `r` with one key that has children are the same. -/
theorem NoRepeat.eq_of_key_eq (h : F.NoRepeat r) (ha : F.Reach r a) (hb : F.Reach r b)
    (hkey : F.key a = F.key b) (hk : F.children (F.key b) ≠ []) : a = b := by
  classical
  exact eq_of_countP_le_one (h.countP_le_one hk) ha.mem_nodes hb.mem_nodes (by simp [ha, hkey])
    (by simp [hb])

/-! ## Without repeated keys the recursion ends -/

/-- The keys entered on the way down from `r`, the last first. -/
inductive Path (F : Forest α κ) (r : κ) : List κ → Prop
  | start : Path F r [r]
  | down {k : κ} {ks : List κ} {a : α} (path : Path F r (k :: ks)) (h : a ∈ F.children k) :
    Path F r (F.key a :: k :: ks)

variable {ks : List κ}

theorem Path.reach (path : F.Path r (k :: ks)) (h : a ∈ F.children k) : F.Reach r a := by
  generalize hl : k :: ks = l at path
  induction path generalizing k ks a with
  | start => cases hl; exact .child h
  | @down k' ks' b _ hb ih =>
    cases hl
    exact .next (ih hb rfl) h

/-- A key on a path is the start, or that of a node whose parent's key comes before it. -/
theorem Path.mem_cases (path : F.Path r ks) (hk : k ∈ ks) :
    k = r ∨ ∃ a, F.Reach r a ∧ F.key a = k ∧ ∃ l ∈ ks.tail, F.parent a = some l := by
  induction path with
  | start => exact .inl (mem_singleton.mp hk)
  | @down l ls a path ha ih =>
    rcases mem_cons.mp hk with rfl | hk
    · exact .inr ⟨a, path.reach ha, rfl, l, mem_cons_self, parent_eq_of_mem_children ha⟩
    · refine (ih hk).imp id ?_
      rintro ⟨b, hb, hkey, m, hm, hparent⟩
      exact ⟨b, hb, hkey, m, mem_of_mem_tail hm, hparent⟩

/-- **No key is entered twice on a path**, as long as the last one has children. -/
theorem NoRepeat.nodup (h : F.NoRepeat r) (path : F.Path r ks)
    (hchildren : ∀ k ∈ ks.head?, F.children k ≠ []) : ks.Nodup := by
  induction path with
  | start => exact nodup_singleton r
  | @down k ks a path ha ih =>
    have hk : F.children k ≠ [] := ne_nil_of_mem ha
    have hnodup := ih (by simpa using hk)
    refine nodup_cons.mpr ⟨fun hmem => ?_, hnodup⟩
    have hkey : F.children (F.key a) ≠ [] := hchildren _ rfl
    have hreach := path.reach ha
    rcases path.mem_cases hmem with hr | ⟨b, hb, hbkey, l, hl, hparent⟩
    · exact h.key_ne (hr ▸ hkey) hreach hr
    · -- the same key is the same node, so its parent `k` stands twice on the path
      have hab : b = a := h.eq_of_key_eq hb hreach hbkey hkey
      rw [hab, parent_eq_of_mem_children ha, some.injEq] at hparent
      exact (nodup_cons.mp hnodup).1 (hparent ▸ hl)

theorem Path.subset (path : F.Path r ks) : ks ⊆ r :: F.nodes.map F.key := by
  intro k hk
  rcases path.mem_cases hk with rfl | ⟨a, ha, rfl, -⟩
  · exact mem_cons_self
  · exact mem_cons_of_mem _ (List.mem_map_of_mem ha.mem_nodes)

theorem exists_visits_of_forall : ∀ {pending : List α},
    (∀ a ∈ pending, ∃ below, F.Visits (F.children (F.key a)) below) →
    ∃ out, F.Visits pending out
  | [], _ => ⟨[], .nil⟩
  | a :: pending, h => by
    rw [forall_mem_cons] at h
    obtain ⟨below, hbelow⟩ := h.1
    obtain ⟨rest, hrest⟩ := exists_visits_of_forall h.2
    exact ⟨a :: below ++ rest, .cons hbelow hrest⟩

theorem NoRepeat.exists_visits_of_path (h : F.NoRepeat r) (n : ℕ)
    (path : F.Path r (k :: ks)) (hn : F.nodes.length + 1 < (k :: ks).length + n) :
    ∃ out, F.Visits (F.children k) out := by
  induction n generalizing k ks with
  | zero =>
    by_cases hk : F.children k = []
    · exact hk ▸ ⟨[], .nil⟩
    · have hnodup := h.nodup path (by simpa using hk)
      have hlen := (hnodup.subperm path.subset).length_le
      simp only [length_cons, length_map] at hlen hn
      omega
  | succ n ih =>
    refine exists_visits_of_forall fun a ha => ih (path.down ha) ?_
    simp only [length_cons] at hn ⊢
    omega

/-- **The recursion ends** when no key is repeated. -/
theorem NoRepeat.exists_visits (h : F.NoRepeat r) : ∃ out, F.Visits (F.children r) out :=
  h.exists_visits_of_path (F.nodes.length + 1) .start (by simp)

/-! ## Each node at most once -/

variable (hout : F.Visits (F.children r) out)

include hout

theorem NoRepeat.entered_le_one (h : F.NoRepeat r) (ha : F.Reach r a)
    (hparent : F.parent a = some k) : F.entered r out k ≤ 1 := by
  classical
  -- up the path: the key `k` is that of one node, which is itself reported at most once
  induction ha generalizing k with
  | @child a ha =>
    have hk : k = r := by
      rw [parent_eq_of_mem_children ha, some.injEq] at hparent
      exact hparent.symm
    subst hk
    have hzero : out.countP (fun b => F.key b = k) = 0 := by
      rw [countP_eq_zero]
      intro b hb
      simpa using h.key_ne (ne_nil_of_mem ha) (hout.mem_iff.mp hb)
    rw [entered, if_pos rfl]
    omega
  | @next b a hb ha ih =>
    have hk : k = F.key b := by
      rw [parent_eq_of_mem_children ha, some.injEq] at hparent
      exact hparent.symm
    subst hk
    have hchildren : F.children (F.key b) ≠ [] := ne_nil_of_mem ha
    have hne : ¬ r = F.key b := fun hr => h.key_ne (hr ▸ hchildren) hb hr.symm
    obtain ⟨l, hl, -⟩ := hb.exists_parent
    have hcount : out.count b ≤ F.nodes.count b := by
      rw [hout.count_root_eq (parent_eq_of_mem_children hl)]
      exact mul_le_of_le_one_left (Nat.zero_le _) (ih (parent_eq_of_mem_children hl))
    have hsame : out.countP (fun c => F.key c = F.key b) ≤ out.count b := by
      refine countP_mono_left fun c hc hkey => ?_
      have hcb : c = b :=
        h.eq_of_key_eq (hout.mem_iff.mp hc) hb (by simpa using hkey) hchildren
      simp [hcb]
    have hone : F.nodes.count b ≤ F.nodes.countP fun c => F.Reach r c ∧ F.key c = F.key b := by
      refine countP_mono_left fun c _ hc => ?_
      have hcb : c = b := by simpa using hc
      simp [hcb, hb]
    have hnorep := h.countP_le_one hchildren
    rw [entered, if_neg hne]
    omega

theorem NoRepeat.subperm (h : F.NoRepeat r) : out.Subperm F.nodes := by
  classical
  rw [subperm_ext_iff]
  intro a ha
  have hreach := hout.mem_iff.mp ha
  obtain ⟨k, hk, -⟩ := hreach.exists_parent
  have hparent := parent_eq_of_mem_children hk
  rw [hout.count_root_eq hparent]
  exact mul_le_of_le_one_left (Nat.zero_le _) (h.entered_le_one hout hreach hparent)

theorem noRepeat_of_subperm (hsub : out.Subperm F.nodes) : F.NoRepeat r := by
  classical
  intro k hk
  by_contra hrep
  -- every node below `r` is reported at least as often as it is listed
  have hreported : F.nodes.countP (fun a => F.Reach r a ∧ F.key a = k) ≤
      out.countP fun a => F.key a = k := by
    have hfilter : (F.nodes.filter fun a => F.Reach r a).Subperm out := by
      rw [subperm_ext_iff]
      intro a ha
      have hreach : F.Reach r a := by simpa using (mem_filter.mp ha).2
      obtain ⟨l, hl, -⟩ := hreach.exists_parent
      have hcount := hout.count_root_eq (parent_eq_of_mem_children hl)
      have hpos : 0 < out.count a := count_pos_iff.mpr (hout.mem_iff.mpr hreach)
      rw [count_filter (by simpa using hreach), hcount]
      refine Nat.le_mul_of_pos_left _ (Nat.pos_of_ne_zero fun hzero => ?_)
      rw [hcount, hzero, Nat.zero_mul] at hpos
      exact absurd hpos (Nat.lt_irrefl 0)
    have hle := hfilter.countP_le fun a => decide (F.key a = k)
    rw [countP_filter] at hle
    refine Nat.le_trans (Nat.le_of_eq (countP_congr fun a _ => ?_)) hle
    simp [and_comm]
  -- so the key is entered twice, and each of its children is reported twice
  obtain ⟨a, ha⟩ := exists_mem_of_ne_nil _ hk
  have htwice : 1 < F.entered r out k := by
    rw [entered]
    omega
  have hcount := hout.count_root_eq (parent_eq_of_mem_children ha)
  have hle := subperm_ext_iff.mp hsub a
  have hpos : 0 < F.nodes.count a := count_pos_iff.mpr (mem_children.mp ha).1
  have hmany : F.nodes.count a < F.entered r out k * F.nodes.count a :=
    (Nat.lt_mul_iff_one_lt_left hpos).mpr htwice
  have hmem : a ∈ out := count_pos_iff.mp (by omega)
  have := hle hmem
  omega

end Forest

end ParentWalk
