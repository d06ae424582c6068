import Urgentry.GoLib

/-!
# Pagination of the prevent endpoints

`paginatePrevent` moves a window over a list: forward from the item after the cursor, or back over
the items before it. Both ends are sums of numbers that the client sends, in wrapping 64-bit
arithmetic, and going back clamps only the start of the window. So a large limit makes a slice
expression panic, and going back from a cursor that is smaller than the limit returns the cursor's
item and items after it. `paginatePrevent_exact_iff` says when neither happens. -/

namespace Urgentry.Prevent

open GoText

/-- An error that is returned, or a slice expression that panics. -/
inductive Failure
  | invalid (message : String)
  | sliceBounds
deriving DecidableEq

/-- `preventPageInfo`. -/
structure PageInfo where
  hasNextPage : Bool := false
  hasPreviousPage : Bool := false
  startCursor : Option String := none
  endCursor : Option String := none
deriving DecidableEq

/-- The 64-bit `int` of a sum or a difference. -/
def wrap (n : ℤ) : ℤ := n.bmod (2 ^ 64)

def preventCursorPtr (v : ℤ) : Option String := if v < 0 then none else some (toString v)

def parsePreventLimit (raw : String) (fallback : ℤ) : Except Failure ℤ :=
  if trimSpace raw = "" then .ok fallback
  else match (parseInt raw.toList).filter (0 < ·) with
    | some limit => .ok limit
    | none => .error (.invalid "provided `limit` parameter must be a positive integer")

variable {α : Type*} (go : GoLib) (items : List α)

/-- The slice expression `items[start:stop]`. -/
def slice (start stop : ℤ) : Except Failure (List α) :=
  if 0 ≤ start ∧ start ≤ stop ∧ stop ≤ items.length then
    .ok ((items.take stop.toNat).drop start.toNat)
  else .error .sliceBounds

/-- Where the page starts. -/
def startOf (limit : ℤ) (rawCursor navigation : String) : Except Failure ℤ :=
  if trimSpace rawCursor = "" then .ok 0
  else match (parseInt (trimSpace rawCursor).toList).filter (0 ≤ ·) with
    | none => .error (.invalid "invalid cursor")
    | some cursor => .ok <|
      if go.equalFold (trimSpace navigation) "prev" then max (wrap (cursor - limit)) 0
      else wrap (cursor + 1)

/-- The rest of `paginatePrevent`. -/
def pageFrom (start stop : ℤ) : Except Failure (List α × PageInfo) :=
  if items.length ≤ start then .ok ([], { hasPreviousPage := true })
  else (slice items start stop).map fun page => (page,
    { hasPreviousPage := 0 < start
      hasNextPage := stop < items.length
      startCursor := preventCursorPtr start
      endCursor := preventCursorPtr (stop - 1) })

def paginatePrevent (limit : ℤ) (rawCursor navigation : String) :
    Except Failure (List α × PageInfo) :=
  if items = [] then .ok ([], {})
  else (startOf go limit rawCursor navigation).bind fun start =>
    pageFrom items start (min (wrap (start + limit)) items.length)

/-! ## The window -/

/-- The cursor is the number that the text has, or there is none. -/
def Reads (rawCursor : String) : Option ℕ → Prop
  | none => trimSpace rawCursor = ""
  | some c => trimSpace rawCursor ≠ "" ∧ parseInt (trimSpace rawCursor).toList = some (c : ℤ)

/-- The positions that are asked for: those before the cursor, or those after it. -/
def wanted (limit : ℕ) (back : Bool) : Option ℕ → ℕ × ℕ
  | none => (0, limit)
  | some c => if back then (c - limit, c) else (c + 1, c + 1 + limit)

/-- **The property.** The page has the items at these positions, and the two flags of a page with
items say whether there are others before and after it. -/
def Shows (window : ℕ × ℕ) (result : Except Failure (List α × PageInfo)) : Prop :=
  ∃ page info, result = .ok (page, info) ∧ page = (items.take window.2).drop window.1 ∧
    (page ≠ [] → (info.hasPreviousPage = true ↔ 0 < window.1) ∧
      (info.hasNextPage = true ↔ window.2 < items.length))

/-- **The condition.** Going back, the cursor is at least the limit or behind the last item. Going
forward, the start is an `int`, and so is the end unless the start is behind the last item. -/
def Fits (limit : ℕ) (back : Bool) : Option ℕ → Prop
  | none => True
  | some c => items = [] ∨
      if back then limit ≤ c ∨ items.length ≤ c
      else c + 1 < 2 ^ 63 ∧ (items.length ≤ c + 1 ∨ c + 1 + limit < 2 ^ 63)

theorem wrap_of_lt {n : ℤ} (hlo : -2 ^ 63 ≤ n) (hhi : n < 2 ^ 63) : wrap n = n :=
  Int.bmod_eq_of_le (by omega) (by omega)

theorem wrap_of_ge {n : ℤ} (hlo : 2 ^ 63 ≤ n) (hhi : n < 2 ^ 64) : wrap n < 0 := by
  rw [wrap, Int.bmod_def]
  omega

variable {items : List α} {limit : ℕ}

/-- From a start where nothing wraps, the page is the window of the limit's length. -/
theorem pageFrom_eq (items : List α) (limit a : ℕ) (h : a + limit < 2 ^ 63)
    (ha : a < items.length) :
    ∃ info, pageFrom items a (min (wrap (a + limit)) items.length) =
        .ok ((items.take (a + limit)).drop a, info) ∧
      info.hasPreviousPage = decide (0 < a) ∧
      info.hasNextPage = decide (a + limit < items.length) := by
  have hstop : (min (a + limit : ℤ) items.length).toNat = min (a + limit) items.length := by omega
  rw [wrap_of_lt (by omega) (by omega), pageFrom, if_neg (by omega), slice, if_pos (by omega),
    hstop, ← List.take_eq_take_min]
  exact ⟨_, rfl, by simp, by simp; omega⟩

theorem shows_pageFrom (items : List α) (limit a : ℕ) (h : items.length ≤ a ∨ a + limit < 2 ^ 63) :
    Shows items (a, a + limit) (pageFrom items a (min (wrap (a + limit)) items.length)) := by
  by_cases ha : items.length ≤ a
  · exact ⟨[], _, by rw [pageFrom, if_pos (by omega)], by simp; omega, fun hne => absurd rfl hne⟩
  · obtain ⟨info, heq, hprev, hnext⟩ := pageFrom_eq items limit a (h.resolve_left ha) (not_le.mp ha)
    exact ⟨_, info, heq, rfl, fun _ => by simp [hprev, hnext]⟩

/-- **The pages are exact** where the condition holds, and nowhere else. -/
theorem paginatePrevent_exact_iff (items : List α) {rawCursor navigation : String}
    {cursor : Option ℕ} (hlen : items.length < 2 ^ 63) (hlimit : 0 < limit) (hfits : limit < 2 ^ 63)
    (hcursor : Reads rawCursor cursor) :
    Shows items (wanted limit (go.equalFold (trimSpace navigation) "prev") cursor)
        (paginatePrevent go items limit rawCursor navigation) ↔
      Fits items limit (go.equalFold (trimSpace navigation) "prev") cursor := by
  unfold paginatePrevent startOf
  by_cases hnil : items = []
  · cases cursor <;> simp [Fits, hnil, Shows]
  have hpos := List.length_pos_iff.mpr hnil
  cases cursor with
  | none =>
    have hraw : trimSpace rawCursor = "" := hcursor
    simpa [hnil, hraw, Fits, wanted, Except.bind] using
      shows_pageFrom items limit 0 (.inr (by omega))
  | some c =>
    obtain ⟨hraw, hparse⟩ := hcursor
    have hc := (parseInt_range hparse).2
    have hread : (some (c : ℤ)).filter (fun x => 0 ≤ x) = some (c : ℤ) := by simp
    simp only [if_neg hraw, hparse, hread, Except.bind, wanted, Fits, hnil, false_or]
    cases go.equalFold (trimSpace navigation) "prev" with
    | true =>
      simp only [if_true]
      rw [wrap_of_lt (by omega) (by omega)]
      rcases Nat.lt_or_ge c limit with hlt | hge
      · -- The page starts at the first item and is not cut at the cursor.
        obtain ⟨info, heq, hprev, hnext⟩ := pageFrom_eq items limit 0 (by omega) hpos
        have hstart : max (c - limit : ℤ) 0 = (0 : ℕ) := by omega
        rw [hstart, heq, Nat.sub_eq_zero_of_le hlt.le]
        simp [Shows, hprev, hnext]
        omega
      · have hstart : max (c - limit : ℤ) 0 = (c - limit : ℕ) := by omega
        have hshows := shows_pageFrom items limit (c - limit) (.inr (by omega))
        simpa [hge] using hshows
    | false =>
      simp only [Bool.false_eq_true, if_false]
      by_cases hgood : c + 1 < 2 ^ 63 ∧ (items.length ≤ c + 1 ∨ c + 1 + limit < 2 ^ 63)
      · rw [wrap_of_lt (by omega) (by omega)]
        exact iff_of_true (by simpa using shows_pageFrom items limit (c + 1) hgood.2) hgood
      · refine iff_of_false (fun ⟨page, info, heq, _⟩ => ?_) hgood
        -- Where the start or the end wraps, the slice expression panics.
        generalize hstart : wrap (c + 1 : ℤ) = start at heq
        have hstop : start < items.length ∧ (start < 0 ∨ wrap (start + limit) < 0) := by
          rcases lt_or_ge (c + 1 : ℤ) (2 ^ 63) with hlt | hge
          · rw [wrap_of_lt (by omega) hlt] at hstart
            exact ⟨by omega, .inr (wrap_of_ge (by omega) (by omega))⟩
          · have hneg := wrap_of_ge hge (by omega)
            exact ⟨by omega, .inl (by omega)⟩
        rw [pageFrom, if_neg (by omega), slice, if_neg (by omega)] at heq
        cases heq

/-- A page in the middle. -/
theorem paginatePrevent_middle :
    Shows [1, 2, 3, 4, 5] (2, 4) (paginatePrevent asciiLib [1, 2, 3, 4, 5] (2 : ℕ) " 1" "") :=
  (@paginatePrevent_exact_iff ℕ asciiLib 2 [1, 2, 3, 4, 5] " 1" "" (some 1) (by decide) (by decide)
    (by decide) ⟨by decide, by decide⟩).mpr (.inr (by decide))

/-- Going back from the second item shows it, and a limit that the client may send panics. -/
theorem paginatePrevent_fails :
    (paginatePrevent asciiLib [1, 2, 3] 2 "1" "prev").map Prod.fst = .ok [1, 2] ∧
      parsePreventLimit "9223372036854775807" 25 = .ok (2 ^ 63 - 1) ∧
      paginatePrevent asciiLib [1, 2, 3] (2 ^ 63 - 1) "0" "" = .error .sliceBounds := by
  decide +kernel

end Urgentry.Prevent
