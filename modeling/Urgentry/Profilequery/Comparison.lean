import Mathlib.Algebra.Order.BigOperators.Group.List
import Mathlib.Data.List.AList
import Mathlib.Data.List.Sort
import Mathlib.Data.Prod.Lex
import Mathlib.Algebra.Order.Ring.Int
import Mathlib.Tactic.Ring
import Urgentry.Internal.GoText

/-!
# Function weights and their comparison

`profilequery.go`: what the functions of a profile weigh, and which of them weigh more or less in
another profile.

A function weighs as much as the samples in which it runs. The loop goes over the frames of each
sample, and adds the weight of the sample once for every frame, so a function that calls itself is
counted again. Weights are 64-bit integers and their sums wrap, but addition commutes with the
reduction to a word: what the loop leaves is the sum over the integers, reduced once. So a function
weighs what its samples do exactly when that sum is in range and the repetitions vanish in the
reduction.

A comparison sorts the functions by their change, largest first, and takes the first few increases
and the first few decreases. The first decreases in that order are the smallest ones. Sorting them
afterwards does not bring the others back.

## Main results

* `get_loadFunctionWeights`: the weight of a function is one sum, reduced once;
* `counts_once_iff`: when a function weighs no more than its samples;
* `buildComparison_exact_iff`: when both lists have the largest changes.
-/

namespace Urgentry.Profilequery

open List GoText

/-- A map of weights; a name that is not there has weight zero. -/
abbrev Weights := AList fun _ : String => Int64

def Weights.get (m : Weights) (name : String) : Int64 := (m.lookup name).getD 0

/-- A limit of a request, with what it is by default and at most. -/
def limit (value : ℤ) (default most : ℕ) : ℕ := if value ≤ 0 then default else min value.toNat most

theorem limit_pos {default most : ℕ} (value : ℤ) (hdefault : 0 < default) (hmost : 0 < most) :
    0 < limit value default most := by
  unfold limit
  split <;> omega

/-! ## Weights -/

structure ProfileFrame where
  (id functionLabel : String)

structure ProfileStackFrame where
  (stackId frameId : String)

structure ProfileSample where
  (threadRowId stackId : String)
  weight : Int64

structure ProfileRecord where
  frames : List ProfileFrame
  stackFrames : List ProfileStackFrame
  samples : List ProfileSample

namespace ProfileRecord

variable (record : ProfileRecord) (threadRowID : String)

/-- The label of a frame: the last one with the id is in the map. -/
def label (frameID : String) : String :=
  trimSpace ((record.frames.reverse.find? (·.id == frameID)).elim "" (·.functionLabel))

/-- The labels of the frames of a sample. -/
def labels (s : ProfileSample) : List String :=
  (record.stackFrames.filter (·.stackId == s.stackId)).map fun item => record.label item.frameId

/-- The samples of the thread, or all of them. -/
def selected : List ProfileSample :=
  record.samples.filter fun s => threadRowID == "" || s.threadRowId == threadRowID

/-- `result[label] += sample.Weight`. -/
def addWeight (weight : Int64) (result : Weights) (label : String) : Weights :=
  if label ≠ "" then result.insert label (result.get label + weight) else result

/-- `LoadFunctionWeights`. -/
def loadFunctionWeights : Weights :=
  (record.selected threadRowID).foldl
    (fun result s => (record.labels s).foldl (addWeight s.weight) result) ∅

/-- What a sample should add to a function. -/
def share (f : String) (s : ProfileSample) : ℤ := if f ∈ record.labels s then s.weight.toInt else 0

/-- What the samples add to a function beyond their shares. -/
def repeated (f : String) : ℤ :=
  ((record.selected threadRowID).map
    fun s => ((record.labels s).count f - 1 : ℕ) * s.weight.toInt).sum

variable {record threadRowID} {f : String}

@[simp]
theorem get_addWeight (hf : f ≠ "") (weight : Int64) (m : Weights) (l : String) :
    (addWeight weight m l).get f = m.get f + if l = f then weight else 0 := by
  unfold addWeight Weights.get
  by_cases hl : l = f
  · subst hl
    simp [hf, AList.lookup_insert]
  · split <;> simp [AList.lookup_insert_ne (Ne.symm hl)]

theorem get_foldl_addWeight (hf : f ≠ "") (weight : Int64) (ls : List String) (m : Weights) :
    (ls.foldl (addWeight weight) m).get f = m.get f + .ofInt (ls.count f * weight.toInt) := by
  induction ls generalizing m with
  | nil => simp
  | cons l ls ih =>
    rw [foldl_cons, ih, get_addWeight hf, Int64.add_assoc, count_cons]
    congr 1
    by_cases hl : l = f
    · rw [if_pos hl, if_pos (beq_iff_eq.mpr hl), Nat.cast_add, Nat.cast_one, add_comm,
        add_mul, one_mul,
        Int64.ofInt_add, Int64.ofInt_toInt, Int64.add_comm]
    · rw [if_neg hl, if_neg (by simpa using hl), add_zero, Int64.zero_add]

/-- **The weight of a function** has its samples once for each frame, and the sum is reduced
once. -/
theorem get_loadFunctionWeights (hf : f ≠ "") : (record.loadFunctionWeights threadRowID).get f =
    .ofInt ((record.selected threadRowID).map
      fun s => (record.labels s).count f * s.weight.toInt).sum := by
  have hloop : ∀ (samples : List ProfileSample) (m : Weights),
      (samples.foldl (fun m s => (record.labels s).foldl (addWeight s.weight) m) m).get f =
        m.get f + .ofInt (samples.map fun s => (record.labels s).count f * s.weight.toInt).sum := by
    intro samples
    induction samples with
    | nil => simp
    | cons s samples ih =>
      intro m
      rw [foldl_cons, ih, get_foldl_addWeight hf, map_cons, sum_cons, Int64.ofInt_add,
        Int64.add_assoc]
  have hstart : Weights.get ∅ f = 0 := rfl
  rw [loadFunctionWeights, hloop, hstart, Int64.zero_add]

theorem count_mul_weight (f : String) (s : ProfileSample) :
    (record.labels s).count f * s.weight.toInt =
    record.share f s + ((record.labels s).count f - 1 : ℕ) * s.weight.toInt := by
  unfold share
  split_ifs with hmem
  · rw [Nat.cast_sub (count_pos_iff.mpr hmem), Nat.cast_one]
    ring
  · simp [count_eq_zero.mpr hmem]

/-- A word is an integer that is not negative when the integer is in range and the rest of the sum
is a multiple of the size of the word. -/
theorem toInt_ofInt_add_eq_iff {a r : ℤ} (ha : 0 ≤ a) :
    (Int64.ofInt (a + r)).toInt = a ↔ a < 2 ^ 63 ∧ (2 ^ 64 : ℤ) ∣ r := by
  have hdvd : ((2 ^ 64 : ℕ) : ℤ) ∣ a + r - (Int64.ofInt (a + r)).toInt := by
    rw [Int64.toInt_ofInt]
    exact Int.dvd_self_sub_bmod
  have hlow := Int64.le_toInt (.ofInt (a + r))
  have hhigh := Int64.toInt_lt (.ofInt (a + r))
  constructor
  · intro h
    rw [h, add_sub_cancel_left] at hdvd
    exact ⟨h ▸ hhigh, by exact_mod_cast hdvd⟩
  · rintro ⟨hlt, hr⟩
    omega

section Samples

variable (hweights : ∀ s ∈ record.samples, 0 ≤ s.weight)

include hweights

theorem weight_nonneg {s : ProfileSample} (hs : s ∈ record.selected threadRowID) :
    0 ≤ s.weight.toInt := by
  have h := hweights s (mem_of_mem_filter hs)
  rwa [Int64.le_iff_toInt_le, Int64.toInt_zero] at h

theorem share_bounds {s : ProfileSample} (hs : s ∈ record.selected threadRowID) :
    0 ≤ record.share f s ∧ record.share f s ≤ s.weight.toInt := by
  have h := weight_nonneg hweights hs
  unfold share
  split <;> omega

theorem sum_share_le (f : String) : ((record.selected threadRowID).map (record.share f)).sum ≤
    ((record.selected threadRowID).map (·.weight.toInt)).sum :=
  sum_le_sum fun _ hs => (share_bounds hweights hs).2

/-- Nothing is repeated when no label is, in a sample that weighs something. -/
theorem repeated_eq_zero_iff (f : String) : record.repeated threadRowID f = 0 ↔
    ∀ s ∈ record.selected threadRowID, 0 < s.weight → (record.labels s).count f ≤ 1 := by
  have hterm (s : ProfileSample) (hs : s ∈ record.selected threadRowID) :
      0 ≤ ((record.labels s).count f - 1 : ℕ) * s.weight.toInt :=
    mul_nonneg (Int.natCast_nonneg _) (weight_nonneg hweights hs)
  constructor
  · intro hzero s hs hw
    rw [Int64.lt_iff_toInt_lt, Int64.toInt_zero] at hw
    have hextra := all_zero_of_le_zero_le_of_sum_eq_zero (forall_mem_map.mpr hterm) hzero
      (mem_map_of_mem hs)
    have hcount := (mul_eq_zero.mp hextra).resolve_right hw.ne'
    omega
  · intro h
    refine sum_eq_zero (forall_mem_map.mpr fun s hs => ?_)
    rcases (weight_nonneg hweights hs).eq_or_lt with hzero | hw
    · rw [← hzero, mul_zero]
    · rw [← Int64.toInt_zero, ← Int64.lt_iff_toInt_lt] at hw
      rw [Nat.sub_eq_zero_of_le (h s hs hw), Nat.cast_zero, zero_mul]

end Samples

/-- **Each sample counts once**, exactly when the samples of each function add up to less than `2 ^
63` and what its repetitions add is a multiple of `2 ^ 64`. They add nothing exactly when the label
is not repeated in a sample that weighs something. -/
theorem counts_once_iff (record : ProfileRecord) (threadRowID : String)
    (hweights : ∀ s ∈ record.samples, 0 ≤ s.weight) :
    ((∀ f ≠ "", ((record.loadFunctionWeights threadRowID).get f).toInt =
        ((record.selected threadRowID).map (record.share f)).sum ∧
      ((record.loadFunctionWeights threadRowID).get f).toInt ≤
        ((record.selected threadRowID).map (·.weight.toInt)).sum) ↔
      ∀ f ≠ "", ((record.selected threadRowID).map (record.share f)).sum < 2 ^ 63 ∧
        (2 ^ 64 : ℤ) ∣ record.repeated threadRowID f) ∧
    ∀ f, record.repeated threadRowID f = 0 ↔
      ∀ s ∈ record.selected threadRowID, 0 < s.weight → (record.labels s).count f ≤ 1 := by
  refine ⟨forall₂_congr fun f hf => ?_, repeated_eq_zero_iff hweights⟩
  have hshares : 0 ≤ ((record.selected threadRowID).map (record.share f)).sum :=
    sum_nonneg (forall_mem_map.mpr fun s hs => (share_bounds hweights hs).1)
  have hweight : (record.loadFunctionWeights threadRowID).get f =
      .ofInt (((record.selected threadRowID).map (record.share f)).sum +
        record.repeated threadRowID f) := by
    rw [get_loadFunctionWeights hf, repeated, ← sum_map_add]
    simp only [count_mul_weight]
  rw [hweight, ← toInt_ofInt_add_eq_iff hshares]
  exact and_iff_left_of_imp fun heq => heq.trans_le (sum_share_le hweights f)

/-- A profile whose samples have these weights and functions. -/
def profileOf (samples : List (Int64 × List String)) : ProfileRecord where
  frames := (samples.flatMap Prod.snd).map fun l => ⟨l, l⟩
  stackFrames := samples.zipIdx.flatMap fun p => p.1.2.map fun l => ⟨toString p.2, l⟩
  samples := samples.zipIdx.map fun p => ⟨"t", toString p.2, p.1.1⟩

/-- A function that calls itself weighs twice the profile, and two samples of `2 ^ 62` less than
nothing. -/
theorem recursive_function_counted_twice :
    ((profileOf [(1, ["f", "f"])]).loadFunctionWeights "").get "f" = 2 ∧
      (((profileOf [(1, ["f", "f"])]).selected "").map (·.weight.toInt)).sum = 1 ∧
      ((profileOf [(2 ^ 62, ["f"]), (2 ^ 62, ["f"])]).loadFunctionWeights "").get "f" =
        Int64.minValue := by
  decide +kernel

/-- Three samples that share functions, of which one calls itself in a sample that weighs
nothing. -/
def threeSamples : ProfileRecord :=
  profileOf [(3, ["main", "f", "g"]), (4, ["main", "g"]), (0, ["main", "f", "f"])]

theorem shared_functions_counted_once :
    ((threeSamples.loadFunctionWeights "").get "g").toInt =
        ((threeSamples.selected "").map (threeSamples.share "g")).sum ∧
      ((threeSamples.loadFunctionWeights "").get "g").toInt ≤
        ((threeSamples.selected "").map (·.weight.toInt)).sum := by
  have hweights : ∀ s ∈ threeSamples.samples, 0 ≤ s.weight := by decide +kernel
  obtain ⟨hexact, hrepeated⟩ := threeSamples.counts_once_iff "" hweights
  have hnodup : ∀ s ∈ threeSamples.selected "", 0 < s.weight → (threeSamples.labels s).Nodup := by
    decide +kernel
  have htotal : ((threeSamples.selected "").map (·.weight.toInt)).sum < 2 ^ 63 := by decide +kernel
  refine hexact.mpr (fun f _ => ⟨(sum_share_le hweights f).trans_lt htotal, ?_⟩) "g" (by decide)
  rw [(hrepeated f).mpr fun s hs hw => nodup_iff_count_le_one.mp (hnodup s hs hw) f]
  exact dvd_zero _

end ProfileRecord

/-! ## Comparison -/

/-- `store.ProfileComparisonDelta`. -/
structure ComparisonDelta where
  name : String
  (baselineWeight candidateWeight deltaWeight : Int64)

abbrev Deltas := List ComparisonDelta

/-- What deltas are sorted by. -/
abbrev Key := ComparisonDelta → ℤ ×ₗ String

/-- Largest delta first, and then by name. -/
def descending : Key := fun d => toLex (-d.deltaWeight.toInt, d.name)

/-- Most negative delta first, and then by name. -/
def ascending : Key := fun d => toLex (d.deltaWeight.toInt, d.name)

section Build

variable (baselineWeights candidateWeights : Weights) (maxFunctions : ℤ)

/-- The functions of either profile. In which order a map has them does not matter: they are
sorted. -/
def deltas : Deltas :=
  (baselineWeights.keys ++ candidateWeights.keys).dedup.map fun name =>
    ⟨name, baselineWeights.get name, candidateWeights.get name,
      candidateWeights.get name - baselineWeights.get name⟩

/-- The effective limit. -/
def functionLimit : ℕ := limit maxFunctions 10 100

/-- `sort.Slice` by a key. -/
def sortBy (key : Key) (l : Deltas) : Deltas := l.insertionSort fun a b => key a ≤ key b

/-- Appends an item that qualifies, as long as there is room. -/
def keep (k : ℕ) (p : ComparisonDelta → Bool) (acc : Deltas) (item : ComparisonDelta) : Deltas :=
  if p item ∧ acc.length < k then acc ++ [item] else acc

/-- `BuildComparison`: the regressions and the improvements. -/
def buildComparison : Deltas × Deltas :=
  let k := functionLimit maxFunctions
  let (regressions, improvements) :=
    (sortBy descending (deltas baselineWeights candidateWeights)).foldl
      (fun acc item =>
        (keep k (0 < ·.deltaWeight) acc.1 item, keep k (·.deltaWeight < 0) acc.2 item)) ([], [])
  (regressions, sortBy ascending improvements)

/-- The functions with a positive delta. -/
def regressed : Deltas := (deltas baselineWeights candidateWeights).filter (0 < ·.deltaWeight)

/-- The functions with a negative delta. -/
def improved : Deltas := (deltas baselineWeights candidateWeights).filter (·.deltaWeight < 0)

end Build

/-- **The first `k`** of the items in the order of a key. -/
def IsTop (key : Key) (k : ℕ) (all out : Deltas) : Prop :=
  out.Pairwise (key · ≤ key ·) ∧ out.length = min k all.length ∧
    ∃ rest, (out ++ rest).Perm all ∧ ∀ a ∈ out, ∀ b ∈ rest, key a ≤ key b

variable {key : Key} {k : ℕ} {l all : Deltas}

theorem pairwise_sortBy (key : Key) (l : Deltas) : (sortBy key l).Pairwise (key · ≤ key ·) := by
  have : Std.Total fun a b => key a ≤ key b := ⟨fun a b => le_total _ _⟩
  have : IsTrans ComparisonDelta fun a b => key a ≤ key b := ⟨fun _ _ _ => le_trans⟩
  exact pairwise_insertionSort _ l

theorem perm_sortBy (key : Key) (l : Deltas) : (sortBy key l).Perm l := perm_insertionSort _ l

theorem foldl_keep (p : ComparisonDelta → Bool) (l acc : Deltas) :
    l.foldl (keep k p) acc = acc ++ (l.filter p).take (k - acc.length) := by
  induction l generalizing acc with
  | nil => simp
  | cons a l ih =>
    rw [foldl_cons, ih, keep]
    split_ifs with h
    · rw [filter_cons_of_pos h.1, length_append, length_singleton, append_assoc,
        show k - acc.length = k - (acc.length + 1) + 1 by omega, take_succ_cons, singleton_append]
    · rcases not_and_or.mp h with hp | hfull
      · rw [filter_cons_of_neg hp]
      · simp [show k - acc.length = 0 by omega]

/-- The items of the pass. -/
theorem buildComparison_eq (b c : Weights) (maxFunctions : ℤ) :
    buildComparison b c maxFunctions =
      (((sortBy descending (deltas b c)).filter (0 < ·.deltaWeight)).take
        (functionLimit maxFunctions),
        sortBy ascending
          (((sortBy descending (deltas b c)).filter (·.deltaWeight < 0)).take
            (functionLimit maxFunctions))) := by
  have hpair : ∀ (l x y : Deltas) (p q : ComparisonDelta → Bool) (k : ℕ),
      l.foldl (fun acc item => (keep k p acc.1 item, keep k q acc.2 item)) (x, y) =
        (l.foldl (keep k p) x, l.foldl (keep k q) y) := by
    intro l
    induction l with
    | nil => intros; rfl
    | cons a l ih => intros; exact ih ..
  simp [buildComparison, hpair, foldl_keep]

/-- The first items of a list, sorted again. -/
theorem isTop_sortBy_iff (hl : l.Perm all) :
    IsTop key k all (sortBy key (l.take k)) ↔ ∀ a ∈ l.take k, ∀ b ∈ l.drop k, key a ≤ key b := by
  have hsort := perm_sortBy key (l.take k)
  constructor
  · rintro ⟨-, -, rest, hperm, hle⟩ a ha b hb
    refine hle a (hsort.mem_iff.mpr ha) b ?_
    have hrest : (sortBy key (l.take k) ++ rest).Perm (sortBy key (l.take k) ++ l.drop k) := by
      refine hperm.trans (hl.symm.trans ?_)
      rw [← take_append_drop k l]
      exact (hsort.symm.append_right _).trans (by simp)
    exact ((perm_append_left_iff _).mp hrest).mem_iff.mpr hb
  · intro h
    refine ⟨pairwise_sortBy key _, ?_, l.drop k, ?_, fun a ha => h a (hsort.mem_iff.mp ha)⟩
    · rw [hsort.length_eq, length_take, hl.length_eq]
    · refine (hsort.append_right _).trans ?_
      rwa [take_append_drop]

theorem le_of_take_drop (h : l.Pairwise (key · ≤ key ·)) :
    ∀ a ∈ l.take k, ∀ b ∈ l.drop k, key a ≤ key b := by
  rw [← take_append_drop k l, pairwise_append] at h
  exact h.2.2

/-- The first decreases are the largest when they are all, or all the same. -/
theorem take_largest_iff (hk : 0 < k) (h : l.Pairwise (descending · ≤ descending ·)) :
    (∀ a ∈ l.take k, ∀ b ∈ l.drop k, ascending a ≤ ascending b) ↔
      l.length ≤ k ∨ ∀ d ∈ l, ∀ e ∈ l, d.deltaWeight = e.deltaWeight := by
  constructor
  · intro hle
    refine (le_or_gt l.length k).imp_right fun hlong => ?_
    have heq : ∀ a ∈ l.take k, ∀ b ∈ l.drop k, a.deltaWeight = b.deltaWeight := by
      intro a ha b hb
      have hup := Prod.Lex.monotone_fst _ _ (hle a ha b hb)
      have hdown := Prod.Lex.monotone_fst _ _ (le_of_take_drop h a ha b hb)
      exact Int64.toInt_inj.mp (le_antisymm hup (neg_le_neg_iff.mp hdown))
    obtain ⟨x, hx⟩ := exists_mem_of_ne_nil (l.take k) (by simp; grind)
    obtain ⟨y, hy⟩ := exists_mem_of_ne_nil (l.drop k) (by simpa using hlong)
    have hall : ∀ d ∈ l, d.deltaWeight = x.deltaWeight := by
      intro d hd
      rw [← take_append_drop k l, mem_append] at hd
      rcases hd with hd | hd
      · exact (heq d hd y hy).trans (heq x hx y hy).symm
      · exact (heq x hx d hd).symm
    exact fun d hd e he => (hall d hd).trans (hall e he).symm
  · rintro (hshort | hsame) a ha b hb
    · simp [drop_of_length_le hshort] at hb
    · have hdelta := hsame a (mem_of_mem_take ha) b (mem_of_mem_drop hb)
      have hle := le_of_take_drop h a ha b hb
      rw [descending, descending, hdelta] at hle
      rw [ascending, ascending, hdelta]
      exact Prod.Lex.toLex_le_toLex.mpr
        (.inr ⟨rfl, (Prod.Lex.toLex_le_toLex.mp hle).elim (absurd · (lt_irrefl _)) And.right⟩)

/-- The improvements. -/
theorem isTop_improvements_iff (b c : Weights) (maxFunctions : ℤ) :
    IsTop ascending (functionLimit maxFunctions) (improved b c)
      (buildComparison b c maxFunctions).2 ↔
      (improved b c).length ≤ functionLimit maxFunctions ∨
        ∀ d ∈ improved b c, ∀ e ∈ improved b c, d.deltaWeight = e.deltaWeight := by
  have hk : 0 < functionLimit maxFunctions := limit_pos _ (by decide) (by decide)
  have hperm : _ ~ improved b c := (perm_sortBy descending (deltas b c)).filter (·.deltaWeight < 0)
  rw [buildComparison_eq, isTop_sortBy_iff hperm,
    take_largest_iff hk ((pairwise_sortBy descending _).filter _), hperm.length_eq]
  simp only [hperm.mem_iff]

/-- **A comparison has the largest changes** exactly when it has room for all decreases, or the
decreases are all the same. -/
theorem buildComparison_exact_iff (b c : Weights) (maxFunctions : ℤ) :
    (IsTop descending (functionLimit maxFunctions) (regressed b c)
      (buildComparison b c maxFunctions).1 ∧
      IsTop ascending (functionLimit maxFunctions) (improved b c)
        (buildComparison b c maxFunctions).2) ↔
      (improved b c).length ≤ functionLimit maxFunctions ∨
        ∀ d ∈ improved b c, ∀ e ∈ improved b c, d.deltaWeight = e.deltaWeight := by
  rw [← isTop_improvements_iff]
  refine and_iff_right ?_
  have hsorted := (pairwise_sortBy descending (deltas b c)).filter (0 < ·.deltaWeight)
  rw [buildComparison_eq, ← (hsorted.take (i := functionLimit maxFunctions)).insertionSort_eq]
  exact (isTop_sortBy_iff ((perm_sortBy ..).filter _)).mpr (le_of_take_drop hsorted)

/-- Two functions of the baseline, which the candidate does not have. -/
def twoFunctions : Weights := AList.insert "b" 2 (AList.insert "a" 1 ∅)

/-- With room for one, the smaller of two decreases is listed. -/
theorem smaller_improvement_listed :
    ¬IsTop ascending (functionLimit 1) (improved twoFunctions ∅)
      (buildComparison twoFunctions ∅ 1).2 := by
  rw [isTop_improvements_iff]
  decide +kernel

end Urgentry.Profilequery
