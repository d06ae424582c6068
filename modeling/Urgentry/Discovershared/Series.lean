import Urgentry.Discovershared.Counts
import Urgentry.Discovershared.Interval

/-!
# The buckets of a series

`BuildSeriesResult` puts a row into the bucket that starts at `t / s * s`, where `t` is its Unix
time and `s` the seconds of the interval. Go's division goes towards zero. After 1970 this is the
multiple of `s` at or below `t`; before 1970 it is the one at or above it, so a row is in the bucket
of its own interval only when it stands at the beginning of one. The bucket at 1970 is of double
width, `(-s, s)`.

The rest is as it should be: the buckets are different multiples of `s` in ascending order, and each
is accumulated over the rows that were put into it. So the counts come down to where the rows are
put, and to whether the row of a bucket shows its count.

## Main results

* `bucketStart_inside_iff`: when a row is inside its bucket;
* `bucketed_of_buildSeriesResult`: what a series is;
* `series_partition_iff`: when the buckets partition the rows, and when the counts say so.
-/

namespace Urgentry.Discover

open List

/-! ## Where a row is put -/

/-- The bucket that `BuildSeriesResult` puts a time into. -/
def bucketStart (seconds t : ℤ) : ℤ := t.tdiv seconds * seconds

/-- The multiple of the interval at or below a time. -/
def intervalStart (seconds t : ℤ) : ℤ := t / seconds * seconds

section Start

variable {s t b : ℤ}

theorem dvd_bucketStart (s t : ℤ) : s ∣ bucketStart s t := dvd_mul_left _ _

theorem lt_intervalStart_add (hs : 1 ≤ s) : t < intervalStart s t + s := by
  have h := Int.lt_ediv_add_one_mul_self t (show 0 < s by omega)
  rwa [add_mul, one_mul] at h

/-- There is one multiple of the interval at which the interval of a time can start. -/
theorem eq_intervalStart_iff (hs : 1 ≤ s) (hb : s ∣ b) :
    (b ≤ t ∧ t < b + s) ↔ b = intervalStart s t := by
  constructor
  · rintro ⟨hle, hlt⟩
    obtain ⟨k, rfl⟩ := hb
    rw [mul_comm] at hle hlt ⊢
    have hk : t / s = k := (Int.ediv_eq_iff_of_pos (by omega)).mpr ⟨hle, hlt⟩
    rw [intervalStart, hk]
  · rintro rfl
    exact ⟨Int.ediv_mul_le t (by omega), lt_intervalStart_add hs⟩

/-- **Where a row is put**: into its own interval from 1970 on and at the beginning of an interval,
and into the next one otherwise. -/
theorem bucketStart_eq (hs : 1 ≤ s) :
    bucketStart s t = if 0 ≤ t ∨ s ∣ t then intervalStart s t else intervalStart s t + s := by
  rw [bucketStart, intervalStart, Int.tdiv_eq_ediv, Int.sign_eq_one_of_pos (by omega)]
  split
  · rw [add_zero]
  · rw [add_mul, one_mul]

/-- **When a row is inside its bucket.** -/
theorem bucketStart_inside_iff (hs : 1 ≤ s) :
    (bucketStart s t ≤ t ∧ t < bucketStart s t + s) ↔ 0 ≤ t ∨ s ∣ t := by
  rw [eq_intervalStart_iff hs (dvd_bucketStart s t), bucketStart_eq hs]
  split
  next h => exact iff_of_true rfl h
  next h => exact iff_of_false (by omega) h

end Start

/-! ## What a series is -/

section Series

variable {F : Type} {fl : FloatLib F} {lib : GoLib} {order : MapOrder} {q : Query}
  {cost : CostEstimate}
  {rows : List (TableRow F)} {seconds : ℤ}

/-- The rows of a bucket. -/
def bucketRows (seconds : ℤ) (rows : List (TableRow F)) (b : ℤ) : List (ℤ × TableRow F) :=
  (timedRows rows).filter fun r => bucketStart seconds r.1 = b

/-- The rows of the interval that starts at a time. -/
def intervalRows (seconds : ℤ) (rows : List (TableRow F)) (b : ℤ) : List (ℤ × TableRow F) :=
  (timedRows rows).filter fun r => b ≤ r.1 ∧ r.1 < b + seconds

/-- **A series over buckets**: the buckets ascend, they are those that rows are put into, and each
is accumulated over its rows. -/
structure Bucketed (fl : FloatLib F) (lib : GoLib) (order : MapOrder) (q : Query) (seconds : ℤ)
    (rows : List (TableRow F)) (points : List (SeriesPoint F)) : Prop where
  ascending : (points.map SeriesPoint.bucket).Pairwise (· < ·)
  buckets : ∀ b, b ∈ points.map SeriesPoint.bucket ↔ b ∈ (timedRows rows).map fun r =>
    bucketStart seconds r.1
  values : ∀ point ∈ points, ∃ i, point.values = finalizeAggregates fl (order.order i)
    (((bucketRows seconds rows point.bucket).map Prod.snd).foldl
      (applyAggregates fl lib q.select) ∅)

theorem map_bucket_points (groups : List (ℤ × TableRow F)) :
    (groups.zipIdx.map
      fun (bucket, i) => (⟨bucket.1, finalizeAggregates fl (order.order i) bucket.2⟩ :
      SeriesPoint F)).map SeriesPoint.bucket = groups.map Prod.fst := by
  rw [map_map]
  conv_rhs => rw [← zipIdx_map_fst 0 groups, map_map]
  rfl

/-- **The series of a query with an interval.** -/
theorem bucketed_of_buildSeriesResult (lib : GoLib) (order : MapOrder) (cost : CostEstimate)
    (rows : List (TableRow F)) {r : Rollup} {d : Duration} (hr : q.rollup = some r)
    (hd : parseDiscoverInterval r.interval = .ok d) (hs : 1 ≤ fl.seconds d) :
    ∃ result, buildSeriesResult fl lib order q cost rows = .ok result ∧
      Bucketed fl lib order q (fl.seconds d) rows result.points := by
  have hzero : ¬ (fl.seconds d = 0 ∧ timedRows rows ≠ []) := fun h => by omega
  unfold buildSeriesResult
  simp only [hr, hd, if_neg hzero]
  have hsort : ∀ groups : List (ℤ × TableRow F),
      (groups.insertionSort fun a b => a.1 ≤ b.1).map Prod.fst =
        (groups.map Prod.fst).insertionSort (· ≤ ·) :=
    fun groups => map_insertionSort _ _ _ _ fun a _ b _ => Iff.rfl
  refine ⟨_, rfl, ?_, fun b => ?_, fun point hpoint => ?_⟩
  · rw [map_bucket_points, hsort]
    refine (sortedLE_insertionSort.sortedLT_of_nodup ?_).pairwise
    exact (perm_insertionSort _ _).nodup_iff.mpr (Grouped.nodup_keys _)
  · rw [map_bucket_points, hsort, mem_insertionSort, Grouped.mem_keys]
    rfl
  · obtain ⟨⟨g, i⟩, hg, rfl⟩ := mem_map.mp hpoint
    have hgroup := (mem_insertionSort _).mp (fst_mem_of_mem_zipIdx hg)
    obtain ⟨x, rest, hfilter, hfold⟩ := Grouped.mem_groups hgroup
    have hvalues : g.2 =
        ((bucketRows (fl.seconds d) rows g.1).map Prod.snd).foldl
          (applyAggregates fl lib q.select) ∅ := by
      rw [hfold, foldl_map]
      exact (congrArg (List.foldl _ ∅) hfilter).symm
    exact ⟨i, congrArg (finalizeAggregates fl (order.order i)) hvalues⟩

/-! ## Counts -/

/-- A row with a timestamp. -/
def Timed (row : TableRow F) : Prop := ∃ t, get row "timestamp" = .time t ∧ t.ns ≠ 0

theorem length_timedRows (h : ∀ row ∈ rows, Timed row) : (timedRows rows).length = rows.length := by
  induction rows with
  | nil => rfl
  | cons row rows ih =>
    rw [forall_mem_cons] at h
    obtain ⟨⟨t, ht, hne⟩, hrest⟩ := h
    have hrow : timedRows (row :: rows) = (t.unix, row) :: timedRows rows := by
      rw [timedRows, filterMap_cons]
      simp only [ht, if_neg hne]
      rfl
    rw [hrow, length_cons, length_cons, ih hrest]

/-- **The buckets partition the rows, and the counts say so.** -/
structure CountedSeries (seconds : ℤ) (rows : List (TableRow F)) (name : String)
    (points : List (SeriesPoint F)) : Prop where
  ascending : (points.map SeriesPoint.bucket).Pairwise (· < ·)
  multiples : ∀ point ∈ points, seconds ∣ point.bucket
  inside : ∀ r ∈ timedRows rows, bucketStart seconds r.1 ≤ r.1 ∧
    r.1 < bucketStart seconds r.1 + seconds
  placed : ∀ r ∈ timedRows rows, ∃! b, b ∈ points.map SeriesPoint.bucket ∧ b ≤ r.1 ∧
    r.1 < b + seconds
  counts : ∀ point ∈ points,
    get point.values name = .int64 (intervalRows seconds rows point.bucket).length
  total : (points.map fun point => storedCount (get point.values name)).sum = rows.length

/-- When every row is inside its bucket, the rows of a bucket are those of its interval. -/
theorem bucketRows_eq {b : ℤ} (hs : 1 ≤ seconds) (hb : seconds ∣ b)
    (hplaced : ∀ r ∈ timedRows rows, 0 ≤ r.1 ∨ seconds ∣ r.1) :
    bucketRows seconds rows b = intervalRows seconds rows b := by
  refine filter_congr fun r hr => decide_eq_decide.mpr ?_
  rw [eq_intervalStart_iff hs hb, bucketStart_eq hs, if_pos (hplaced r hr), eq_comm]

namespace Bucketed

variable {points : List (SeriesPoint F)} {name : String} {point : SeriesPoint F}
  (h : Bucketed fl lib order q seconds rows points)

include h

theorem multiples (hpoint : point ∈ points) : seconds ∣ point.bucket := by
  obtain ⟨r, -, hr⟩ := mem_map.mp ((h.buckets _).mp (mem_map_of_mem hpoint))
  exact hr ▸ dvd_bucketStart _ _

/-- **The counts are those of the intervals**, when every row is inside its bucket and its count is
shown. -/
theorem counted (hs : 1 ≤ seconds) (hrows : ∀ row ∈ rows, Timed row)
    (hplaced : ∀ r ∈ timedRows rows, 0 ≤ r.1 ∨ seconds ∣ r.1)
    (hshown : ∀ r ∈ timedRows rows, CountShown fl lib q.select name ∅
      ((bucketRows seconds rows (bucketStart seconds r.1)).map Prod.snd)) :
    CountedSeries seconds rows name points := by
  have hcounts : ∀ point ∈ points,
      get point.values name = .int64 (bucketRows seconds rows point.bucket).length := by
    intro point hpoint
    obtain ⟨i, hvalues⟩ := h.values point hpoint
    obtain ⟨r, hr, hbucket⟩ := mem_map.mp ((h.buckets _).mp (mem_map_of_mem hpoint))
    have hcount := countShown_iff.mp (hshown r hr) (order.order i) (order.perm i)
    rwa [hbucket, ← hvalues, length_map] at hcount
  refine ⟨h.ascending, fun point => h.multiples,
    fun r hr => (bucketStart_inside_iff hs).mpr (hplaced r hr),
    fun r hr => ?_, fun point hpoint => ?_, ?_⟩
  · have hmem : bucketStart seconds r.1 ∈ points.map SeriesPoint.bucket :=
      (h.buckets _).mpr (mem_map_of_mem hr)
    refine ⟨_, ⟨hmem, (bucketStart_inside_iff hs).mpr (hplaced r hr)⟩, ?_⟩
    rintro b ⟨hb, hin⟩
    obtain ⟨point, hpoint, rfl⟩ := mem_map.mp hb
    rw [(eq_intervalStart_iff hs (h.multiples hpoint)).mp hin, bucketStart_eq hs,
      if_pos (hplaced r hr)]
  · rw [hcounts point hpoint, bucketRows_eq hs (h.multiples hpoint) hplaced]
  · have hsum := Grouped.sum_length_filter (h.ascending.imp ne_of_lt) h.buckets
    rw [← length_timedRows hrows, ← hsum, Nat.cast_list_sum, map_map, map_map]
    refine congrArg sum (map_congr_left fun point hpoint => ?_)
    rw [hcounts point hpoint]
    rfl

end Bucketed

end Series

/-! ## Two series -/

/-- A transaction some seconds after 1970, or before. -/
def transactionAt (seconds : ℤ) : TableRow ℚ :=
  (∅ : TableRow ℚ).insert "timestamp" (.time ⟨(unixEpoch + seconds).toNat * 10 ^ 9⟩)

/-- A maximum beside the count, under the name of a sum. -/
def countedBesideSum (interval : String) : Query where
  __ := countedEvery interval
  select := [{ expr := .mk "" "count" [] "" },
    { aliasName := "count.__sum", expr := .mk "" "max" [.mk "duration.ms" "" [] ""] "" }]

theorem timed_transactionAt {seconds : ℤ} (h : -unixEpoch < seconds) :
    Timed (transactionAt seconds) := by
  refine ⟨_, by rw [get]; rfl, ?_⟩
  show (unixEpoch + seconds).toNat * 10 ^ 9 ≠ 0
  omega

end Urgentry.Discover
