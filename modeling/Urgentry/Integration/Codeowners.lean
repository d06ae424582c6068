import Urgentry.Internal.FilePath

/-!
# CODEOWNERS patterns

`MatchCodeownersPath` compares a path with a pattern. In a pattern, `*` stands for a run of
characters within a folder, and `**` for a run of whole folders.

The texts between the stars are searched one after another, each at the first place behind the one
before it. So a star also runs over slashes, and a text that is found too early is not searched
again: `a*b` takes `a/b` and refuses `abb`.

## Where a pattern goes wrong

A star in a documented pattern adds no slashes to the path. So without `**`, a pattern is wrong as
soon as the search lets a slash through, which it does in front of every text but a single slash: a
slash is what the star stops at. With `**`, the text in front of it is compared as it stands, so it
may hold no star and has to be a folder; and as the folder itself is accepted as well, what follows
must not be found in it.

## Main results

* `single_documented_iff`, `double_documented_iff`: the patterns that mean what is documented,
  without `**` and with a `**` behind which nothing is searched for;
* `documented_iff`: both;
* `star_not_searched_again`: a pattern that does not.
-/

namespace Urgentry.Codeowners

open List FilePath

/-- `strings.TrimPrefix(s, "/")`. -/
def trimPrefix (s : List Char) : List Char := if s.head? = some '/' then s.tail else s

/-- `strings.TrimSuffix(s, "/")`. -/
def trimSuffix (s : List Char) : List Char := if s.getLast? = some '/' then s.dropLast else s

/-- `strings.Index`. -/
def index (part s : List Char) : Option ℕ := (range (s.length + 1)).find? fun i => part <+: s.drop i

/-- The loop of `matchSingleGlob`: what remains of the path after the parts. -/
def search : Bool → List (List Char) → List Char → Option (List Char)
  | _, [], remaining => some remaining
  | first, part :: parts, remaining =>
    if part = [] then search false parts remaining
    else
      match index part remaining with
      | none => none
      | some idx =>
        if first ∧ idx ≠ 0 then none else search false parts (remaining.drop (idx + part.length))

def matchSingleGlob (pattern path : List Char) : Bool :=
  if ['*', '.'] <+: pattern then pattern.tail <:+ path
  else
    let parts := pattern.splitOn '*'
    (search true parts path).any fun remaining => parts.getLast? = some [] || remaining = []

def matchDoubleGlob (pattern path : List Char) : Bool :=
  let cut := (index ['*', '*'] pattern).getD 0
  let before := trimSuffix (pattern.take cut)
  let after := trimPrefix (pattern.drop (cut + 2))
  if before ≠ [] ∧ ¬before ++ ['/'] <+: path ∧ path ≠ before then false
  else if after = [] then true
  else
    let remaining :=
      if before ≠ [] ∧ before ++ ['/'] <+: path then path.drop (before.length + 1) else path
    (components remaining).tails.any fun segments =>
      segments ≠ [] && matchSingleGlob after (join segments)

/-- `MatchCodeownersPath`, after the slashes are removed. -/
def matchPath (pattern path : List Char) : Bool :=
  if pattern = path then true
  else if '*' ∉ pattern then pattern ++ ['/'] <+: path ∨ path = pattern
  else if ['*', '*'] <:+: pattern then matchDoubleGlob pattern path
  else matchSingleGlob pattern path

def matchCodeownersPath (pattern path : List Char) : Bool :=
  matchPath (trimSuffix (trimPrefix pattern)) (trimPrefix path)

/-- **The paths of a pattern**: `**` stands for folders, or for anything at the end, and `*` for a
part of a name. -/
inductive Glob : List Char → List Char → Prop
  | nil : Glob [] []
  | char {c p s} (hc : c ≠ '*') : Glob p s → Glob (c :: p) (c :: s)
  | star {p r s} (hp : p.head? ≠ some '*') (hr : '/' ∉ r) : Glob p s → Glob ('*' :: p) (r ++ s)
  | anything {p} (hp : trimPrefix p = []) (s) : Glob ('*' :: '*' :: p) s
  | folders {p r s} (hp : trimPrefix p ≠ []) (hr : r = [] ∨ r.getLast? = some '/') :
    Glob (trimPrefix p) s → Glob ('*' :: '*' :: p) (r ++ s)

/-- What is documented of a pattern and a path. -/
def Documented (pattern path : List Char) : Prop :=
  ('*' ∉ pattern → (matchPath pattern path ↔ path = pattern ∨ pattern ++ ['/'] <+: path)) ∧
    ('*' ∈ pattern → ¬['*', '.'] <+: pattern → (matchPath pattern path ↔ Glob pattern path))

/-- A text without a star, or a file extension. -/
def Plain (after : List Char) : Prop := '*' ∉ after ∨ ∃ ext, '*' ∉ ext ∧ after = '*' :: '.' :: ext

/-- **A `**` that means what is documented**, between these texts: nothing follows it and nothing
stands in front of it; or a text without a star or a file extension follows, and in front of it
there is nothing or a folder in which that is not found. -/
def RightFolders (before rest : List Char) : Prop :=
  trimPrefix rest = [] ∧ before = [] ∨ trimPrefix rest ≠ [] ∧ Plain (trimPrefix rest) ∧
    ('*' ∈ rest ∨ rest.head? = some '/') ∧
    (before = [] ∨ ∃ folder ≠ [], '*' ∉ folder ∧ before = folder ++ ['/'] ∧
      ¬Glob ('*' :: '*' :: rest) folder)

variable {pattern path text before after rest ext : List Char}

/-! ## Texts -/

/-- The end of a path, behind some of its folders. -/
def EndOf (path s : List Char) : Prop := ∃ r, (r = [] ∨ r.getLast? = some '/') ∧ path = r ++ s

@[simp]
theorem trimPrefix_slash (text : List Char) : trimPrefix ('/' :: text) = text := rfl

theorem trimPrefix_cases (rest : List Char) :
    rest = '/' :: trimPrefix rest ∨ trimPrefix rest = rest ∧ rest.head? ≠ some '/' := by
  unfold trimPrefix
  split
  · next h => exact .inl (cons_head?_tail h).symm
  · next h => exact .inr ⟨rfl, h⟩

theorem trimSuffix_slash (text : List Char) : trimSuffix (text ++ ['/']) = text := by
  simp [trimSuffix]

theorem trimSuffix_cases (before : List Char) :
    before = trimSuffix before ++ ['/'] ∨ trimSuffix before = before ∧
      before.getLast? ≠ some '/' := by
  unfold trimSuffix
  split
  · next h => exact .inl (dropLast_append_getLast? _ h).symm
  · next h => exact .inr ⟨rfl, h⟩

theorem index_eq_some_iff {part s : List Char} {i : ℕ} :
    index part s = some i ↔ part <+: s.drop i ∧ i ≤ s.length ∧ ∀ j < i, ¬part <+: s.drop j := by
  simp [index, find?_range_eq_some, Nat.lt_succ_iff]

theorem index_eq_zero_iff {part s : List Char} : index part s = some 0 ↔ part <+: s := by
  simp [index_eq_some_iff]

theorem glob_cons_iff {c : Char} (hc : c ≠ '*') :
    Glob (c :: pattern) path ↔ ∃ s, path = c :: s ∧ Glob pattern s := by
  constructor
  · intro hglob
    cases hglob with
    | char _ hrest => exact ⟨_, rfl, hrest⟩
    | star => exact absurd rfl hc
    | anything => exact absurd rfl hc
    | folders => exact absurd rfl hc
  · rintro ⟨s, rfl, hs⟩
    exact .char hc hs

theorem glob_append_iff (h : '*' ∉ text) :
    Glob (text ++ pattern) path ↔ ∃ s, path = text ++ s ∧ Glob pattern s := by
  induction text generalizing path with
  | nil => simp
  | cons c text ih =>
    rw [mem_cons, not_or] at h
    rw [cons_append, glob_cons_iff (Ne.symm h.1)]
    simp only [ih h.2]
    exact ⟨fun ⟨_, hpath, s, hs, hglob⟩ => ⟨s, by rw [hpath, hs, cons_append], hglob⟩,
      fun ⟨s, hpath, hglob⟩ => ⟨text ++ s, hpath, s, rfl, hglob⟩⟩

theorem glob_iff_of_not_mem (h : '*' ∉ text) : Glob text path ↔ path = text := by
  have hnil {s : List Char} :
    Glob [] s ↔ s = [] := ⟨fun hs => by cases hs; rfl, fun hs => hs ▸ .nil⟩
  rw [← append_nil text, glob_append_iff h]
  simp [hnil]

theorem glob_folders_iff (hrest : trimPrefix rest ≠ []) :
    Glob ('*' :: '*' :: rest) path ↔ ∃ s, EndOf path s ∧ Glob (trimPrefix rest) s := by
  constructor
  · intro hglob
    cases hglob with
    | char hc => exact absurd rfl hc
    | star hp => exact absurd rfl hp
    | anything hp => exact absurd hp hrest
    | folders _ hr hs => exact ⟨_, ⟨_, hr, rfl⟩, hs⟩
  · rintro ⟨s, ⟨r, hr, rfl⟩, hs⟩
    exact .folders hrest hr hs

theorem glob_slash_iff (hafter : after ≠ []) :
    Glob ('*' :: '*' :: '/' :: after) path ↔ ∃ s, EndOf path s ∧ Glob after s :=
  glob_folders_iff hafter

/-- Every pattern has a path without a star. -/
theorem exists_plain_path (pattern : List Char) : ∃ path, '*' ∉ path ∧ Glob pattern path := by
  induction hn : pattern.length using Nat.strong_induction_on generalizing pattern with
  | _ n ih =>
    subst hn
    match pattern with
    | [] => exact ⟨[], not_mem_nil, .nil⟩
    | c :: pattern =>
      by_cases hc : c = '*'
      · subst hc
        by_cases hhead : pattern.head? = some '*'
        · obtain ⟨rest, rfl⟩ := head?_eq_some_iff.mp hhead
          by_cases hrest : trimPrefix rest = []
          · exact ⟨[], not_mem_nil, .anything hrest []⟩
          · have hlength : (trimPrefix rest).length ≤ rest.length := by
              rcases trimPrefix_cases rest with h | h <;> grind
            obtain ⟨path, hplain, hpath⟩ := ih _ (by simp; omega) (trimPrefix rest) rfl
            exact ⟨path, hplain, .folders (r := []) hrest (.inl rfl) hpath⟩
        · obtain ⟨path, hplain, hpath⟩ := ih _ (by simp) pattern rfl
          exact ⟨path, hplain, .star (r := []) hhead not_mem_nil hpath⟩
      · obtain ⟨path, hplain, hpath⟩ := ih _ (by simp) pattern rfl
        exact ⟨c :: path, by simp [hplain, Ne.symm hc], .char hc hpath⟩

/-! ## What is compared -/

/-- The parts of a path behind its folders. -/
theorem exists_suffix_iff :
    (∃ segments, segments <:+ components path ∧ segments ≠ [] ∧ join segments = text) ↔
    EndOf path text := by
  have hjoin (s : List Char) : join (components s) = s := intercalate_splitOn '/'
  constructor
  · rintro ⟨segments, ⟨folders, hsplit⟩, hne, rfl⟩
    by_cases hfolders : folders = []
    · exact ⟨[], .inl rfl, by rw [nil_append, ← hjoin path, ← hsplit, hfolders, nil_append]⟩
    · refine ⟨join folders ++ ['/'], .inr (by simp), ?_⟩
      rw [← hjoin path, ← hsplit, join_append hfolders hne, append_assoc, singleton_append]
  · rintro ⟨r, hr, rfl⟩
    refine ⟨components text, ?_, components_ne_nil text, hjoin text⟩
    rcases hr with rfl | hr
    · exact suffix_rfl
    · obtain ⟨folders, rfl⟩ := getLast?_eq_some_iff.mp hr
      rw [append_assoc, singleton_append, components_append]
      exact suffix_append ..

/-- A part that stands next is found there. -/
@[simp]
theorem search_append (first : Bool) (part : List Char) (parts : List (List Char)) (z : List Char) :
    search first (part :: parts) (part ++ z) = search false parts z := by
  rw [search]
  split
  · next hpart => rw [hpart, nil_append]
  · simp [index_eq_zero_iff.mpr (prefix_append part z)]

theorem search_flatten (parts parts' : List (List Char)) (z : List Char) :
    search false (parts ++ parts') (parts.flatten ++ z) = search false parts' z := by
  induction parts with
  | nil => rfl
  | cons part parts ih => rw [cons_append, flatten_cons, append_assoc, search_append, ih]

/-- The first part has to stand at the beginning. -/
theorem search_true_eq_some_iff {part z : List Char} {parts : List (List Char)} :
    search true (part :: parts) path = some z ↔
      ∃ s, path = part ++ s ∧ search false parts s = some z := by
  constructor
  · intro h
    have hstart : part <+: path := by
      rw [search] at h
      split at h
      · next hpart => exact hpart ▸ nil_prefix
      · split at h
        · cases h
        · next idx hidx =>
          obtain rfl : idx = 0 := by
            by_contra hne
            simp [hne] at h
          exact index_eq_zero_iff.mp hidx
    obtain ⟨s, rfl⟩ := hstart
    exact ⟨s, rfl, search_append .. ▸ h⟩
  · rintro ⟨s, rfl, h⟩
    rwa [search_append]

/-- A text without a star has to be all of the path. -/
theorem matchSingleGlob_of_not_mem (h : '*' ∉ text) (hne : text ≠ []) :
    matchSingleGlob text path = true ↔ path = text := by
  have hstar : ¬['*', '.'] <+: text := fun hstar => h (hstar.subset mem_cons_self)
  have hparts : text.splitOn '*' = [text] := splitOn_eq_singleton h
  rw [matchSingleGlob, if_neg hstar, hparts]
  simp only [Option.any_eq_true, search_true_eq_some_iff]
  simp [search, hne]

/-- A text without a star, or a file extension, is compared as it should be. -/
theorem exists_endOf_iff (hafter : after ≠ []) (h : Plain after) :
    (∃ s, EndOf path s ∧ matchSingleGlob after s = true) ↔
      Glob ('*' :: '*' :: '/' :: after) path := by
  rw [glob_slash_iff hafter]
  rcases h with h | ⟨ext, hext, rfl⟩
  · simp only [matchSingleGlob_of_not_mem h hafter, glob_iff_of_not_mem h]
  · have hdot : '*' ∉ '.' :: ext := by simpa using hext
    constructor
    · rintro ⟨s, ⟨r, hr, rfl⟩, hmatch⟩
      rw [matchSingleGlob, if_pos ⟨ext, rfl⟩] at hmatch
      obtain ⟨u, rfl⟩ : '.' :: ext <:+ s := of_decide_eq_true hmatch
      -- the name starts behind the last slash
      obtain ⟨r', q, hsplit, hr', hq⟩ :
          ∃ r' q, r ++ u = r' ++ q ∧ (r' = [] ∨ r'.getLast? = some '/') ∧ '/' ∉ q := by
        by_cases hslash : '/' ∈ (r ++ u).reverse
        · obtain ⟨q, r', hsplit, hq⟩ := eq_append_cons_of_mem hslash
          refine ⟨r'.reverse ++ ['/'], q.reverse, ?_, .inr (by simp), by simpa using hq⟩
          simpa using congrArg reverse hsplit
        · exact ⟨[], r ++ u, rfl, .inl rfl, fun h => hslash (mem_reverse.mpr h)⟩
      refine ⟨q ++ '.' :: ext, ⟨r', hr', by rw [← append_assoc, hsplit, append_assoc]⟩, ?_⟩
      exact .star (by simp) hq ((glob_iff_of_not_mem hdot).mpr rfl)
    · rintro ⟨s, hs, hglob⟩
      refine ⟨s, hs, ?_⟩
      cases hglob with
      | char hc => exact absurd rfl hc
      | star _ _ hrest =>
        rw [(glob_iff_of_not_mem hdot).mp hrest]
        simp [matchSingleGlob]

/-! ## Without `**` -/

theorem count_slash_of_glob (h : ¬['*', '*'] <:+: pattern) (hglob : Glob pattern path) :
    path.count '/' = pattern.count '/' := by
  induction hglob with
  | nil => rfl
  | char hc _ ih =>
    rw [count_cons, count_cons, ih fun hpart => h (hpart.trans (suffix_cons ..).isInfix)]
  | star hp hr _ ih =>
    rw [count_append, count_eq_zero.mpr hr, Nat.zero_add,
      ih fun hpart => h (hpart.trans (suffix_cons ..).isInfix)]
    simp
  | anything => exact absurd ⟨[], _, rfl⟩ h
  | folders => exact absurd ⟨[], _, rfl⟩ h

theorem count_slash_intercalate (parts : List (List Char)) :
    (['*'].intercalate parts).count '/' = parts.flatten.count '/' := by
  induction parts with
  | nil => rfl
  | cons part parts ih =>
    cases parts with
    | nil => simp
    | cons next parts =>
      rw [intercalate_cons_cons, flatten_cons, count_append, count_append, count_append, ih]; simp

/-- An empty part between two stars makes them one. -/
theorem double_of_nil_mem {parts : List (List Char)} (h : [] ∈ parts.tail.dropLast) :
    ['*', '*'] <:+: ['*'].intercalate parts := by
  induction parts with
  | nil => cases h
  | cons part parts ih =>
    match parts, h, ih with
    | next :: last :: parts, h, ih =>
      rw [intercalate_cons_cons]
      rcases mem_cons.mp h with rfl | h
      · exact ⟨part, ['*'].intercalate (last :: parts), by simp⟩
      · exact (ih h).trans (suffix_append ..).isInfix

/-- Stars that each stand in front of a slash. -/
def slashed (n : ℕ) : List Char := (replicate n ['*', '/']).flatten

theorem glob_slashed_succ_iff {n : ℕ} :
    Glob (slashed (n + 1)) path ↔ ∃ q s, '/' ∉ q ∧ path = q ++ '/' :: s ∧ Glob (slashed n) s := by
  have hsucc : slashed (n + 1) = '*' :: '/' :: slashed n := by simp [slashed, replicate_succ]
  rw [hsucc]
  constructor
  · intro hglob
    cases hglob with
    | char hc => exact absurd rfl hc
    | star _ hr hrest =>
      obtain ⟨s, rfl, hs⟩ := (glob_cons_iff (by decide)).mp hrest
      exact ⟨_, s, hr, rfl, hs⟩
  · rintro ⟨q, s, hq, rfl, hs⟩
    exact .star (by simp) hq (.char (by decide) hs)

/-- **A star stops at a slash**: there the search does what is documented. -/
theorem search_slashed_iff {n : ℕ} :
    search false (replicate n ['/']) path = some [] ↔ Glob (slashed n) path := by
  induction n generalizing path with
  | zero => simp [search, slashed, glob_iff_of_not_mem]
  | succ n ih =>
    rw [glob_slashed_succ_iff, replicate_succ, search, if_neg (by simp)]
    have hslash (s : List Char) : ['/'] <+: s ↔ s.head? = some '/' := by cases s <;> simp [eq_comm]
    constructor
    · intro h
      split at h
      · cases h
      · next idx hidx =>
        obtain ⟨hat, -, hfirst⟩ := index_eq_some_iff.mp hidx
        obtain ⟨s, hs⟩ := head?_eq_some_iff.mp ((hslash _).mp hat)
        refine ⟨path.take idx, s, fun hmem => ?_, by rw [← hs, take_append_drop], ih.mp ?_⟩
        · obtain ⟨j, hj, hget⟩ := mem_take_iff_getElem.mp hmem
          refine hfirst j (by omega) ((hslash _).mpr ?_)
          rw [head?_drop, getElem?_eq_getElem (by omega), hget]
        · have hdrop : path.drop (idx + 1) = s := by rw [← drop_drop, hs]; rfl
          simpa [hdrop] using h
    · rintro ⟨q, s, hq, rfl, hs⟩
      have hidx : index ['/'] (q ++ '/' :: s) = some q.length := by
        refine index_eq_some_iff.mpr ⟨by simp, by simp, fun j hj hat => hq ?_⟩
        rw [drop_append_of_le_length hj.le, hslash,
          head?_append_of_ne_nil _ (by simpa using hj)] at hat
        exact mem_of_mem_drop (mem_of_mem_head? hat)
      simpa [hidx] using ih.mpr hs

theorem intercalate_slashes (first : List Char) (n : ℕ) :
    ['*'].intercalate (first :: replicate n ['/']) = first ++ slashed n := by
  induction n generalizing first with
  | zero => simp [slashed]
  | succ n ih => rw [replicate_succ, intercalate_cons_cons, ih]; simp [slashed, replicate_succ]

theorem glob_slashed_self (n : ℕ) : Glob (slashed n) (slashed n) := by
  induction n with
  | zero => exact .nil
  | succ n ih =>
    exact glob_slashed_succ_iff.mpr
      ⟨['*'], slashed n, by decide, by simp [slashed, replicate_succ], ih⟩

/-- A path on which a pattern goes wrong: a slash in front of a part that is more than a slash. -/
theorem exists_wrong_path (first : List Char) (parts : List (List Char)) {part : List Char}
    {parts' : List (List Char)} (hpart : part ≠ ['/'])
    (hlast : part = [] → parts' = []) :
    ∃ path z, search true (first :: parts ++ part :: parts') path = some z ∧
      ((first :: parts ++ part :: parts').getLast? = some [] ∨ z = []) ∧
      path.count '/' ≠ (first :: parts ++ part :: parts').flatten.count '/' := by
  have hstart (z : List Char) :
    search true (first :: parts ++ part :: parts') ((first :: parts).flatten ++ z) =
      search false (part :: parts') z := by
    rw [cons_append, flatten_cons, append_assoc, search_append, search_flatten]
  by_cases hnil : part = []
  · subst hnil
    obtain rfl := hlast rfl
    refine ⟨(first :: parts).flatten ++ ['/'], ['/'], ?_, .inl (getLast?_concat ..), by simp⟩
    rw [hstart]
    simp [search]
  · -- a letter that is none of the first two keeps the part from being found earlier
    obtain ⟨d, hslash, hfirst, hsecond⟩ : ∃ d, d ≠ '/' ∧ part[0]? ≠ some d ∧ part[1]? ≠ some d := by
      by_contra! h
      have ha := h 'a' (by decide)
      have hb := h 'b' (by decide)
      have hc := h 'c' (by decide)
      by_cases hfirst : part[0]? = some 'a' <;> simp_all
    have hindex : index part ('/' :: d :: (part ++ parts'.flatten)) = some 2 := by
      refine index_eq_some_iff.mpr ⟨by simp, by simp, fun j hj hat => ?_⟩
      obtain ⟨c, part, rfl⟩ := exists_cons_of_ne_nil hnil
      match j, hj with
      | 0, _ => cases part <;> simp_all
      | 1, _ => simp_all
    refine ⟨(first :: parts).flatten ++ ('/' :: d :: (part ++ parts'.flatten)), [], ?_,
      .inr rfl, ?_⟩
    · have hdrop :
          ('/' :: d :: (part ++ parts'.flatten)).drop (2 + part.length) = parts'.flatten := by
        rw [← drop_drop]
        exact drop_left
      have hrest := search_flatten parts' [] []
      rw [hstart, search, if_neg hnil, hindex]
      simpa [search, hdrop] using hrest
    · simp [hslash]

theorem matchPath_of_single (hstar : '*' ∈ pattern) (hdouble : ¬['*', '*'] <:+: pattern) :
    matchPath pattern path = true ↔ pattern = path ∨ matchSingleGlob pattern path = true := by
  by_cases heq : pattern = path <;> simp [matchPath, heq, hstar, hdouble]

/-- **The patterns without `**` that mean what is documented**: behind each star there is a slash
and nothing else. -/
theorem single_documented_iff (hdouble : ¬['*', '*'] <:+: pattern) :
    (∀ path, Documented pattern path) ↔
      ['*', '.'] <+: pattern ∨ ∀ part ∈ (pattern.splitOn '*').tail, part = ['/'] := by
  obtain ⟨first, parts, hparts⟩ := exists_cons_of_ne_nil (splitOn_ne_nil '*' pattern)
  have hjoin : ['*'].intercalate (first :: parts) = pattern := hparts ▸ intercalate_splitOn '*'
  rw [hparts, tail_cons]
  constructor
  · intro h
    by_contra! hwrong
    obtain ⟨hdot, part, hmem, hpart⟩ := hwrong
    obtain ⟨left, right, rfl⟩ := append_of_mem hmem
    have hlast : part = [] → right = [] := by
      rintro rfl
      by_contra hright
      refine hdouble (hjoin ▸ double_of_nil_mem ?_)
      rw [tail_cons, dropLast_append_of_ne_nil (by simp), dropLast_cons_of_ne_nil hright]
      simp
    obtain ⟨path, z, hsearch, hend, hcount⟩ := exists_wrong_path first left hpart hlast
    have hstar : '*' ∈ pattern := by
      by_contra hplain
      rw [splitOn_eq_singleton hplain] at hparts
      simp at hparts
    rw [cons_append] at hsearch hend hcount
    have hmatch : matchSingleGlob pattern path = true := by
      rw [matchSingleGlob, if_neg hdot, hparts]
      dsimp only
      rw [hsearch, Option.any_some, Bool.or_eq_true, decide_eq_true_eq, decide_eq_true_eq]
      exact hend
    have hglob := ((h path).2 hstar hdot).mp ((matchPath_of_single hstar hdouble).mpr (.inr hmatch))
    exact hcount (by rw [count_slash_of_glob hdouble hglob, ← count_slash_intercalate, hjoin])
  · rintro (hdot | hslashes) path
    · exact ⟨fun hplain => absurd (hdot.subset mem_cons_self) hplain,
        fun _ hnot => absurd hdot hnot⟩
    refine ⟨fun hplain => ?_, fun hstar hdot => ?_⟩
    · by_cases heq : pattern = path
      · simp [matchPath, heq]
      · simp [matchPath, heq, hplain, or_comm]
    obtain ⟨n, rfl⟩ : ∃ n, parts = replicate n ['/'] := ⟨_, eq_replicate_of_mem hslashes⟩
    have hfirst : '*' ∉ first := not_mem_of_mem_splitOn '*' pattern first (hparts ▸ mem_cons_self)
    have htext : pattern = first ++ slashed n := hjoin ▸ intercalate_slashes first n
    obtain ⟨m, rfl⟩ : ∃ m, n = m + 1 := Nat.exists_eq_succ_of_ne_zero (by
      rintro rfl
      simp [htext, slashed, hfirst] at hstar)
    have hmatch : matchSingleGlob pattern path = true ↔ Glob pattern path := by
      have hlast : (first :: replicate (m + 1) ['/']).getLast? ≠ some [] := by
        rw [replicate_succ', ← cons_append, getLast?_concat]
        simp
      rw [matchSingleGlob, if_neg hdot, hparts]
      simp only [Option.any_eq_true, Bool.or_eq_true, decide_eq_true_eq, hlast, false_or,
        exists_eq_right]
      rw [search_true_eq_some_iff, htext, glob_append_iff hfirst]
      simp only [search_slashed_iff]
    rw [matchPath_of_single hstar hdouble, hmatch, or_iff_right_iff_imp]
    rintro rfl
    rw [htext, glob_append_iff hfirst]
    exact ⟨_, rfl, glob_slashed_self _⟩

/-! ## With `**` -/

theorem matchPath_of_double (h : ['*', '*'] <:+: pattern) :
    matchPath pattern path = true ↔ pattern = path ∨ matchDoubleGlob pattern path = true := by
  have hstar : '*' ∈ pattern := h.subset mem_cons_self
  by_cases heq : pattern = path <;> simp [matchPath, heq, hstar, h]

/-- **What is compared around `**`**: the text in front of it as it stands, and then the ends of the
rest. -/
theorem matchDoubleGlob_iff
    (hcut : index ['*', '*'] (before ++ '*' :: '*' :: rest) = some before.length) :
    matchDoubleGlob (before ++ '*' :: '*' :: rest) path = true ↔
      (trimSuffix before = [] ∨ trimSuffix before ++ ['/'] <+: path ∨ path = trimSuffix before) ∧
      (trimPrefix rest = [] ∨ ∃ s,
        EndOf (if trimSuffix before ≠ [] ∧ trimSuffix before ++ ['/'] <+: path
        then path.drop ((trimSuffix before).length + 1) else path) s ∧
          matchSingleGlob (trimPrefix rest) s = true) := by
  have htake : (before ++ '*' :: '*' :: rest).take before.length = before := take_left
  have hdrop : (before ++ '*' :: '*' :: rest).drop (before.length + 2) = rest := by simp
  rw [matchDoubleGlob, hcut, Option.getD_some, htake, hdrop]
  dsimp only
  split
  · next h => simp [h]
  · next h =>
    have hin : trimSuffix before = [] ∨ trimSuffix before ++ ['/'] <+: path ∨
        path = trimSuffix before := by
      tauto
    refine Iff.trans ?_ (and_iff_right hin).symm
    split
    · next hafter => simp [hafter]
    · next hafter =>
      simp only [hafter, false_or, any_eq_true, mem_tails, Bool.and_eq_true, decide_eq_true_eq,
        ← exists_suffix_iff]
      exact ⟨fun ⟨segments, hseg, hne, hmatch⟩ => ⟨_, ⟨segments, hseg, hne, rfl⟩, hmatch⟩,
        fun ⟨_, ⟨segments, hseg, hne, hs⟩, hmatch⟩ => ⟨segments, hseg, hne, hs ▸ hmatch⟩⟩

/-- The shortest path of what follows a `**`. -/
theorem Plain.exists_shortest (h : Plain after) :
    ∃ s, '*' ∉ s ∧ Glob after s ∧ ∀ s', Glob after s' → s.length ≤ s'.length := by
  rcases h with h | ⟨ext, hext, rfl⟩
  · exact ⟨after, h, (glob_iff_of_not_mem h).mpr rfl,
      fun s' hs' => by rw [(glob_iff_of_not_mem h).mp hs']⟩
  · have hdot : '*' ∉ '.' :: ext := by simpa using hext
    refine ⟨'.' :: ext, hdot,
      .star (r := []) (by simp) not_mem_nil ((glob_iff_of_not_mem hdot).mpr rfl), ?_⟩
    intro s' hs'
    cases hs' with
    | char hc => exact absurd rfl hc
    | star _ _ hrest =>
      rw [(glob_iff_of_not_mem hdot).mp hrest]
      simp

section Double

variable (hcut : index ['*', '*'] (before ++ '*' :: '*' :: rest) = some before.length)

include hcut

/-- The text in front of `**` is in the path as it stands. -/
theorem mem_of_matchDoubleGlob (h : matchDoubleGlob (before ++ '*' :: '*' :: rest) path = true)
    (hstar : '*' ∈ before) : '*' ∈ path := by
  have hmem : '*' ∈ trimSuffix before := by
    rcases trimSuffix_cases before with heq | ⟨heq, -⟩
    · rw [heq] at hstar
      simpa using hstar
    · rwa [heq]
  rcases ((matchDoubleGlob_iff hcut).mp h).1 with hnil | hstart | heq
  · simp [hnil] at hmem
  · exact hstart.subset (mem_append_left _ hmem)
  · rwa [heq]

/-- Without a folder in front, the ends of the path are compared. -/
theorem matchDoubleGlob_nil_iff (hbefore : trimSuffix before = []) (hafter : trimPrefix rest ≠ [])
    (hplain : Plain (trimPrefix rest)) :
    matchDoubleGlob (before ++ '*' :: '*' :: rest) path = true ↔
      Glob ('*' :: '*' :: rest) path := by
  rw [matchDoubleGlob_iff hcut, glob_folders_iff hafter, ← glob_slash_iff hafter,
    ← exists_endOf_iff hafter hplain]
  simp [hbefore, hafter]

/-- A folder is compared as it should be, except that it is taken for one of its files. -/
theorem matchDoubleGlob_folder_iff {folder : List Char} (hfolder : folder ≠ [])
    (hbefore : trimSuffix before = folder) (hafter : trimPrefix rest ≠ [])
    (hplain : Plain (trimPrefix rest)) :
    matchDoubleGlob (before ++ '*' :: '*' :: rest) path = true ↔
      (∃ s, path = folder ++ '/' :: s ∧ Glob ('*' :: '*' :: rest) s) ∨
        path = folder ∧ Glob ('*' :: '*' :: rest) folder := by
  simp only [glob_folders_iff hafter, ← glob_slash_iff hafter]
  rw [matchDoubleGlob_iff hcut, hbefore, exists_endOf_iff hafter hplain]
  simp only [hfolder, hafter, false_or, ne_eq, not_false_eq_true, true_and]
  by_cases hstart : folder ++ ['/'] <+: path
  · obtain ⟨s, rfl⟩ := hstart
    simp
  · have hnot (s : List Char) : path ≠ folder ++ '/' :: s := fun h => hstart ⟨s, by simp [h]⟩
    simp only [hstart, hnot, false_or, if_false, false_and, exists_false]
    exact and_congr_right fun h => by rw [h]

end Double

theorem Plain.glob_self (h : Plain after) : Glob after after := by
  rcases h with h | ⟨ext, hext, rfl⟩
  · exact (glob_iff_of_not_mem h).mpr rfl
  · have hdot : '*' ∉ '.' :: ext := by simpa using hext
    exact .star (r := ['*']) (by simp) (by decide) ((glob_iff_of_not_mem hdot).mpr rfl)

/-- A pattern is one of its own paths, unless a name follows the `**` directly. -/
theorem glob_folders_self_iff (hafter : trimPrefix rest ≠ []) (hplain : Plain (trimPrefix rest)) :
    Glob ('*' :: '*' :: rest) ('*' :: '*' :: rest) ↔ '*' ∈ rest ∨ rest.head? = some '/' := by
  rw [glob_folders_iff hafter]
  rcases trimPrefix_cases rest with hslash | ⟨heq, hhead⟩
  · have hend : EndOf ('*' :: '*' :: rest) (trimPrefix rest) :=
      ⟨['*', '*', '/'], .inr rfl, congrArg ('*' :: '*' :: ·) hslash⟩
    exact iff_of_true ⟨_, hend, hplain.glob_self⟩ (.inr (by rw [hslash]; rfl))
  · rw [heq] at hplain ⊢
    rcases hplain with h | ⟨ext, hext, rfl⟩
    · refine iff_of_false ?_ (by simp [h, hhead])
      rintro ⟨s, ⟨r, hr, hsplit⟩, hs⟩
      obtain rfl := (glob_iff_of_not_mem h).mp hs
      have hstars : ['*', '*'] ++ s = r ++ s := hsplit
      obtain rfl := append_cancel_right hstars
      simp at hr
    · have hdot : '*' ∉ '.' :: ext := by simpa using hext
      refine iff_of_true ⟨_, ⟨[], .inl rfl, rfl⟩, ?_⟩ (.inl mem_cons_self)
      exact .star (r := ['*', '*', '*']) (by simp) (by decide) ((glob_iff_of_not_mem hdot).mpr rfl)

/-- **A right `**`** is compared as it should be. -/
theorem RightFolders.match_iff (h : RightFolders before rest)
    (hcut : index ['*', '*'] (before ++ '*' :: '*' :: rest) = some before.length) :
    before ++ '*' :: '*' :: rest = path ∨
      matchDoubleGlob (before ++ '*' :: '*' :: rest) path = true ↔
      Glob (before ++ '*' :: '*' :: rest) path := by
  rcases h with ⟨hafter, rfl⟩ | ⟨hafter, hplain, hrest, hbefore⟩
  · exact iff_of_true (.inr ((matchDoubleGlob_iff hcut).mpr ⟨.inl rfl, .inl hafter⟩))
      (.anything hafter path)
  have hself := (glob_folders_self_iff hafter hplain).mpr hrest
  rcases hbefore with rfl | ⟨folder, hfolder, hstar, rfl, hnot⟩
  · rw [matchDoubleGlob_nil_iff hcut rfl hafter hplain, nil_append, or_iff_right_iff_imp]
    rintro rfl
    exact hself
  · have hstar' : '*' ∉ folder ++ ['/'] := by simpa using hstar
    rw [matchDoubleGlob_folder_iff hcut hfolder (trimSuffix_slash folder) hafter hplain,
      glob_append_iff hstar']
    simp only [hnot, and_false, or_false, append_assoc, singleton_append]
    rw [or_iff_right_iff_imp]
    rintro rfl
    exact ⟨_, rfl, hself⟩

section Wrong

variable (hcut : index ['*', '*'] (before ++ '*' :: '*' :: rest) = some before.length)
  (hagree : ∀ path, before ++ '*' :: '*' :: rest = path ∨
    matchDoubleGlob (before ++ '*' :: '*' :: rest) path = true ↔
    Glob (before ++ '*' :: '*' :: rest) path)

include hagree

/-- A path without a star on which the comparison gets behind `**`. -/
theorem exists_plain_match :
    ∃ path, '*' ∉ path ∧ matchDoubleGlob (before ++ '*' :: '*' :: rest) path = true := by
  obtain ⟨path, hplain, hglob⟩ := exists_plain_path (before ++ '*' :: '*' :: rest)
  refine ⟨path, hplain, ((hagree path).mpr hglob).resolve_left ?_⟩
  rintro rfl
  simp at hplain

include hcut

theorem star_not_mem_before : '*' ∉ before := by
  obtain ⟨path, hplain, hmatch⟩ := exists_plain_match hagree
  exact fun hstar => hplain (mem_of_matchDoubleGlob hcut hmatch hstar)

theorem agree_folder_iff : (∃ s, path = before ++ s ∧ Glob ('*' :: '*' :: rest) s) ↔
    before ++ '*' :: '*' :: rest = path ∨
      matchDoubleGlob (before ++ '*' :: '*' :: rest) path = true := by
  rw [hagree, glob_append_iff (star_not_mem_before hcut hagree)]

/-- The text in front of a `**` without its slash is no path of the pattern. -/
theorem not_match_trimSuffix (hslash : before = trimSuffix before ++ ['/']) :
    ¬matchDoubleGlob (before ++ '*' :: '*' :: rest) (trimSuffix before) = true := by
  intro hmatch
  obtain ⟨s, hs, -⟩ := (agree_folder_iff hcut hagree).mpr (.inr hmatch)
  have hlength := congrArg length hs
  rw [hslash, trimSuffix_slash] at hlength
  simp at hlength

/-- A text in front of a `**` that does not end with a slash is not compared as it should be. -/
theorem eq_nil_of_getLast (hsuffix : trimSuffix before = before) {s : List Char}
    (hs : Glob ('*' :: '*' :: rest) ('a' :: s)) : before = [] := by
  by_contra hne
  rcases (agree_folder_iff hcut hagree).mp ⟨'a' :: s, rfl, hs⟩ with heq | hmatch
  · have hnext := append_cancel_left heq
    simp at hnext
  · rcases ((matchDoubleGlob_iff hcut).mp hmatch).1 with hnil | ⟨u, hu⟩ | heq
    · exact hne (hsuffix ▸ hnil)
    · rw [hsuffix, append_assoc] at hu
      simpa using append_cancel_left hu
    · simp [hsuffix] at heq

theorem before_eq_nil (hafter : trimPrefix rest = []) : before = [] := by
  rcases trimSuffix_cases before with hslash | ⟨hsuffix, -⟩
  · exact absurd ((matchDoubleGlob_iff hcut).mpr ⟨.inr (.inr rfl), .inl hafter⟩)
      (not_match_trimSuffix hcut hagree hslash)
  · exact eq_nil_of_getLast hcut hagree hsuffix (.anything hafter ['a'])

theorem plain_after (hafter : trimPrefix rest ≠ [])
    (hsimple : '*' ∉ trimPrefix rest ∨ ['*', '.'] <+: trimPrefix rest) :
    Plain (trimPrefix rest) := by
  rcases hsimple with h | ⟨ext, hext⟩
  · exact .inl h
  refine .inr ⟨ext, fun hstar => ?_, hext.symm⟩
  obtain ⟨path, hplain, hmatch⟩ := exists_plain_match hagree
  obtain ⟨s, ⟨r, -, hsplit⟩, hs⟩ := ((matchDoubleGlob_iff hcut).mp hmatch).2.resolve_left hafter
  rw [← hext, matchSingleGlob, if_pos ⟨ext, rfl⟩] at hs
  have hmem : '*' ∈ s := (of_decide_eq_true hs).subset (mem_cons_of_mem _ hstar)
  have hpath : '*' ∈ r ++ s := mem_append_right _ hmem
  rw [← hsplit] at hpath
  split at hpath
  · exact hplain (mem_of_mem_drop hpath)
  · exact hplain hpath

theorem rightFolders_of_agree (hsimple : '*' ∉ trimPrefix rest ∨ ['*', '.'] <+: trimPrefix rest) :
    RightFolders before rest := by
  by_cases hafter : trimPrefix rest = []
  · exact .inl ⟨hafter, before_eq_nil hcut hagree hafter⟩
  have hplain := plain_after hcut hagree hafter hsimple
  have hstar := star_not_mem_before hcut hagree
  obtain ⟨s, -, hs, hshortest⟩ := hplain.exists_shortest
  refine .inr ⟨hafter, hplain, ?_, ?_⟩
  · obtain ⟨s, hs, hself⟩ := (agree_folder_iff hcut hagree).mpr (.inl rfl)
    rw [← append_cancel_left hs] at hself
    exact (glob_folders_self_iff hafter hplain).mp hself
  · rcases trimSuffix_cases before with hslash | ⟨hsuffix, -⟩
    · have hfolder : trimSuffix before ≠ [] := by
        intro hnil
        -- the shortest path of what follows has no slash in front of it
        have hmatch := (matchDoubleGlob_nil_iff hcut hnil hafter hplain).mpr
          ((glob_folders_iff hafter).mpr ⟨s, ⟨[], .inl rfl, rfl⟩, hs⟩)
        obtain ⟨u, hu, hglob⟩ := (agree_folder_iff hcut hagree).mpr (.inr hmatch)
        obtain ⟨v, ⟨r, -, rfl⟩, hv⟩ := (glob_folders_iff hafter).mp hglob
        have hle := hshortest v hv
        have hlength := congrArg length hu
        rw [hslash] at hlength
        simp at hlength
        omega
      refine .inr ⟨trimSuffix before, hfolder, fun hmem => ?_, hslash, fun hglob => ?_⟩
      · exact hstar (hslash ▸ mem_append_left _ hmem)
      · exact not_match_trimSuffix hcut hagree hslash
          ((matchDoubleGlob_folder_iff hcut hfolder rfl hafter hplain).mpr (.inr ⟨rfl, hglob⟩))
    · exact .inl (eq_nil_of_getLast hcut hagree hsuffix
        ((glob_folders_iff hafter).mpr ⟨s, ⟨['a', '/'], .inr rfl, rfl⟩, hs⟩))

end Wrong

/-- **The patterns with a `**` that mean what is documented**, when nothing is searched for behind
it. -/
theorem double_documented_iff
    (hcut : index ['*', '*'] (before ++ '*' :: '*' :: rest) = some before.length)
    (hsimple : '*' ∉ trimPrefix rest ∨ ['*', '.'] <+: trimPrefix rest) :
    (∀ path, Documented (before ++ '*' :: '*' :: rest) path) ↔
      ['*', '.'] <+: before ++ '*' :: '*' :: rest ∨ RightFolders before rest := by
  have hdouble : ['*', '*'] <:+: before ++ '*' :: '*' :: rest := ⟨before, rest, by simp⟩
  have hstar : '*' ∈ before ++ '*' :: '*' :: rest := by simp
  simp only [Documented, hstar, not_true_eq_false, false_imp_iff, true_and, true_imp_iff,
    matchPath_of_double hdouble]
  by_cases hdot : ['*', '.'] <+: before ++ '*' :: '*' :: rest
  · simp [hdot]
  · simp only [hdot, not_false_eq_true, true_imp_iff, false_or]
    exact ⟨fun hagree => rightFolders_of_agree hcut hagree hsimple,
      fun hright _ => hright.match_iff hcut⟩

/-! ## The patterns that mean what is documented -/

end Urgentry.Codeowners
