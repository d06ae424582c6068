import Urgentry.Sourcemap.Resolve
import Mathlib.Data.Int.Notation

/-!
# The segment of a position

`Resolve` goes once through the decoded segments and keeps the best one so far. A segment of the
position's own line is kept only if it is not behind the position, except that the first segment of
all is kept wherever it is. Such a segment is never given up: a segment before the position has a
smaller column, and one of an earlier line is on an earlier line. The columns of a line need not
increase, so a line can start behind the position and go back.

## Main results

* `chosen_closest_iff`: the chosen segment is the closest one exactly if the first segment that the
  loop can keep is not behind the position.
-/

namespace Urgentry.Sourcemap

open List

/-- `sourceMap`. -/
structure SourceMap where
  version : ℤ
  (sources names : List String)
  mappings : List UInt8

/-- The order of the segments: `m` is behind `b`. -/
def Mapping.Precedes (b m : Mapping) : Prop :=
  b.genLine < m.genLine ∨ b.genLine = m.genLine ∧ b.genCol.toInt < m.genCol.toInt
deriving Decidable

/-- The body of the loop of `Resolve`. -/
def lookupStep (line col : ℤ) (best : Option Mapping) (m : Mapping) : Option Mapping :=
  if m.hasSource = false then best
  else if m.genLine = line then
    if (best = none ∨ m.genCol.toInt ≤ col) ∧
        ∀ b ∈ best, b.genLine ≠ line ∨ b.genCol.toInt < m.genCol.toInt then some m
    else best
  else if m.genLine < line ∧ ∀ b ∈ best, b.Precedes m then some m
  else best

/-- The 0-based number of a line or column. The subtraction wraps around. -/
def target (n : Int64) : ℤ := max (n - 1).toInt 0

variable (mappings : List Mapping)

/-- The segment that `Resolve` chooses for a 1-based position. -/
def chosen (line col : Int64) : Option Mapping :=
  mappings.foldl (lookupStep (target line) (target col)) none

/-- `Resolve`, on what `json.Unmarshal` has read. -/
def resolve (data : Except String SourceMap) (line col : Int64) :
    Except String (String × ℤ × String) := do
  let sm ← data.mapError ("parse source map: " ++ ·)
  if sm.version ≠ 3 then throw ("unsupported source map version: " ++ toString sm.version)
  let mappings ← (decodeMappings sm.mappings).mapError ("decode mappings: " ++ ·.text)
  match chosen mappings line col with
  | none => throw ("no mapping found for " ++ toString line.toInt ++ ":" ++ toString col.toInt)
  | some best =>
    let entry (table : List String) (i : Int64) :=
      if 0 ≤ i then table.getD i.toNatClampNeg "" else ""
    return (entry sm.sources best.srcIndex, (best.srcLine + 1).toInt,
      if best.hasName then entry sm.names best.nameIndex else "")

/-! ## The closest segment -/

/-- The segment has a source and is not behind the position. -/
def Mapping.Before (m : Mapping) (line col : Int64) : Prop :=
  m.hasSource = true ∧
    (m.genLine < target line ∨ m.genLine = target line ∧ m.genCol.toInt ≤ target col)
deriving Decidable

/-- No segment is behind `m` and not behind the position. -/
def Closest (line col : Int64) (m : Mapping) : Prop :=
  m ∈ mappings ∧ m.Before line col ∧ ∀ m' ∈ mappings, m'.Before line col → ¬m.Precedes m'

/-- The first segment with a source that is not on a later line. -/
def firstOffered (line : Int64) : Option Mapping :=
  mappings.find? fun m => m.hasSource && m.genLine ≤ target line

variable {line col : Int64} {b m : Mapping}

/-- A segment that is not behind the position is replaced by those between it and the position. -/
theorem lookupStep_of_before (hb : b.Before line col) (m : Mapping) :
    lookupStep (target line) (target col) (some b) m =
      some (if m.Before line col ∧ b.Precedes m then m else b) := by
  obtain ⟨-, hb⟩ := hb
  unfold lookupStep Mapping.Before Mapping.Precedes
  grind

/-- A segment behind the position is never replaced. -/
theorem lookupStep_of_behind (hline : b.genLine = target line) (hcol : target col < b.genCol.toInt)
    (m : Mapping) : lookupStep (target line) (target col) (some b) m = some b := by
  unfold lookupStep Mapping.Precedes
  grind

theorem foldl_of_behind (hline : b.genLine = target line) (hcol : target col < b.genCol.toInt)
    (ms : List Mapping) : ms.foldl (lookupStep (target line) (target col)) (some b) = some b := by
  induction ms with
  | nil => rfl
  | cons m ms ih => rw [foldl_cons, lookupStep_of_behind hline hcol, ih]

/-- The loop, once it has a segment that is not behind the position. -/
theorem foldl_of_before (ms : List Mapping) (hb : b.Before line col) :
    ∃ c, ms.foldl (lookupStep (target line) (target col)) (some b) = some c ∧
      Closest (b :: ms) line col c := by
  induction ms generalizing b with
  | nil => exact ⟨b, rfl, by simp [Closest, hb, Mapping.Precedes]⟩
  | cons m ms ih =>
    rw [foldl_cons, lookupStep_of_before hb]
    split_ifs with hm
    · obtain ⟨c, hc, hmem, hbefore, hmax⟩ := ih hm.1
      refine ⟨c, hc, mem_cons_of_mem _ hmem, hbefore, ?_⟩
      unfold Mapping.Precedes at *
      grind
    · obtain ⟨c, hc, hmem, hbefore, hmax⟩ := ih hb
      refine ⟨c, hc, ?_, hbefore, ?_⟩
      · grind
      · unfold Mapping.Precedes at *
        grind

/-- **The closest segment** is chosen, where there is one, exactly if the first segment that the
loop can keep is not behind the position. -/
theorem chosen_closest_iff (mappings : List Mapping) (line col : Int64) :
    ((∃ m ∈ mappings, m.Before line col) →
        ∃ m, chosen mappings line col = some m ∧ Closest mappings line col m) ↔
      ((∃ m ∈ mappings, m.Before line col) → ∀ m ∈ firstOffered mappings line,
        m.Before line col) := by
  refine imp_congr_right fun hexists => ?_
  unfold chosen
  induction mappings with
  | nil => simp at hexists
  | cons m ms ih =>
    rw [foldl_cons, firstOffered, find?_cons]
    split
    · next hoffered =>
      have hstep : lookupStep (target line) (target col) none m = some m := by
        unfold lookupStep
        grind
      rw [hstep]
      by_cases hm : m.Before line col
      · exact iff_of_true (foldl_of_before ms hm) (by simpa using hm)
      · have hbehind : m.genLine = target line ∧ target col < m.genCol.toInt := by
          unfold Mapping.Before at hm
          grind
        rw [foldl_of_behind hbehind.1 hbehind.2]
        refine iff_of_false ?_ (by simpa using hm)
        rintro ⟨c, hc, -, hbefore, -⟩
        exact hm (Option.some.inj hc ▸ hbefore)
    · next hoffered =>
      have hstep : lookupStep (target line) (target col) none m = none := by
        unfold lookupStep
        grind
      have hm : ¬m.Before line col := by
        unfold Mapping.Before
        grind
      rw [hstep]
      have hrest : ∃ m ∈ ms, m.Before line col := by simpa [hm] using hexists
      refine Iff.trans (exists_congr fun c => and_congr_right fun hc => ?_) (ih hrest)
      unfold Closest
      grind

/-- **A line that goes back.** The first segment is at column 10, the second at column 2 and of the
next line of the source. At column 5, the first one is chosen. -/
theorem first_segment_chosen :
    let first : Mapping := { genLine := 0, genCol := 10, hasSource := true }
    let second : Mapping := { genLine := 0, genCol := 2, srcLine := 1, hasSource := true }
    let encoded := "UAAA,RACA".toList.map fun c => c.toNat.toUInt8
    decodeMappings encoded = .ok [first, second] ∧ chosen [first, second] 1 6 = some first ∧
      second.Before 1 6 ∧ ¬first.Before 1 6 ∧
        resolve (.ok ⟨3, ["a.js"], [], encoded⟩) 1 6 = .ok ("a.js", 1, "") := by
  decide +kernel

end Urgentry.Sourcemap
