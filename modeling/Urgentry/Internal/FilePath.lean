import Mathlib.Data.List.Infix

/-!
# File paths

A path is a text with slashes between its components. Cleaning a path goes through the components
and keeps a stack: an empty component and `.` are dropped, `..` removes the name below it, and a
name is put on top. Where there is no name to remove, `..` stays if the path is relative and is
dropped if it starts with a slash.

## Where a path leads

The components that follow a folder may lead elsewhere. `localFrom` goes through them and counts how
many names deep they are below the folder, so that a `..` at depth zero leaves it. A list of
components that is local stays below every folder (`foldl_push_of_localFrom`). One that is not local
leaves some folder for good: where the folder is deep and made of a name that the components do not
use, they cannot come back (`foldl_push_ne_of_not_localFrom`).

## Main results

* `clean_abs_append_names`, `clean_abs_append`: a directory and a path below it;
* `abs_prefix_iff`: a path lies under a directory if and only if its components start with those of
  the directory;
* `isName_resolve`: what cleaning leaves of a relative path.
-/

namespace FilePath

open List

/-- A component of a path. -/
abbrev Name := List Char

def dot : Name := ['.']

def dotdot : Name := ['.', '.']

variable (path : List Char)

/-- The components of a path. -/
def components : List Name := path.splitOn '/'

/-- Components with slashes between them. -/
def join (names : List Name) : List Char := ['/'].intercalate names

/-- The path starts with a slash. -/
def isAbs : Bool := path.head? = some '/'

/-- One component is put on the stack. -/
def push (rooted : Bool) (stack : List Name) (c : Name) : List Name :=
  if c = [] ∨ c = dot then stack
  else if c = dotdot then
    match stack with
    | [] => if rooted then [] else [dotdot]
    | top :: rest => if top = dotdot then dotdot :: top :: rest else rest
  else c :: stack

/-- The components that are left of a path. -/
def resolve (rooted : Bool) (cs : List Name) : List Name := (cs.foldl (push rooted) []).reverse

/-- The absolute path with these components. -/
def abs (names : List Name) : List Char := '/' :: join names

/-- The shortest path that leads to the same place. -/
def clean : List Char :=
  let names := resolve (isAbs path) (components path)
  if isAbs path then abs names else if names = [] then dot else join names

/-- A component that cleaning leaves alone. -/
structure IsName (c : Name) : Prop where
  ne_nil : c ≠ []
  ne_dot : c ≠ dot
  ne_dotdot : c ≠ dotdot
  no_slash : '/' ∉ c

instance (c : Name) : Decidable (IsName c) :=
  decidable_of_iff (c ≠ [] ∧ c ≠ dot ∧ c ≠ dotdot ∧ '/' ∉ c)
    ⟨fun h => ⟨h.1, h.2.1, h.2.2.1, h.2.2.2⟩,
      fun h => ⟨h.ne_nil, h.ne_dot, h.ne_dotdot, h.no_slash⟩⟩

/-- A component is skipped, or it is `..`, or it is a name. -/
theorem component_cases {c : Name} (h : '/' ∉ c) : (c = [] ∨ c = dot) ∨ c = dotdot ∨ IsName c := by
  by_cases hskip : c = [] ∨ c = dot
  · exact .inl hskip
  · by_cases hup : c = dotdot
    · exact .inr (.inl hup)
    · exact .inr (.inr ⟨fun h => hskip (.inl h), fun h => hskip (.inr h), hup, h⟩)

/-! ## Components and texts -/

@[simp]
theorem components_append (a b : List Char) :
    components (a ++ '/' :: b) = components a ++ components b :=
  splitOn_append_cons_self a b

theorem components_of_not_mem {a : List Char} (h : '/' ∉ a) : components a = [a] :=
  splitOn_eq_singleton h

theorem components_ne_nil (a : List Char) : components a ≠ [] := splitOn_ne_nil '/' a

variable {names names' rest : List Name} {name : Name}

theorem components_join (h : ∀ n ∈ names, '/' ∉ n) (hne : names ≠ []) :
    components (join names) = names :=
  splitOn_intercalate '/' h hne

theorem not_mem_of_mem_splitOn (sep : Char) (path : List Char) :
    ∀ c ∈ path.splitOn sep, sep ∉ c := by
  induction path with
  | nil => simp
  | cons x path ih =>
    obtain ⟨first, rest, hpath⟩ := exists_cons_of_ne_nil (splitOn_ne_nil sep path)
    rw [hpath] at ih
    rw [splitOn_cons_eq_if_modifyHead, hpath]
    split
    next => simpa using ih
    next hx =>
      have hne : x ≠ sep := fun h => hx (beq_iff_eq.mpr h)
      simpa [hne.symm] using ih

theorem slash_not_mem_of_mem_components (path : List Char) : ∀ c ∈ components path, '/' ∉ c :=
  not_mem_of_mem_splitOn '/' path

@[simp]
theorem components_abs (h : ∀ n ∈ names, '/' ∉ n) (hne : names ≠ []) :
    components (abs names) = [] :: names := by
  have hsplit := components_append [] (join names)
  rw [nil_append, components_join h hne] at hsplit
  rw [abs, hsplit]
  rfl

theorem abs_inj (h : ∀ n ∈ names, '/' ∉ n) (hne : names ≠ []) (h' : ∀ n ∈ names', '/' ∉ n)
    (hne' : names' ≠ []) : abs names = abs names' ↔ names = names' := by
  constructor
  · intro heq
    have hcomponents := congrArg components heq
    rw [components_abs h hne, components_abs h' hne'] at hcomponents
    exact (cons.inj hcomponents).2
  · rintro rfl
    rfl

@[simp]
theorem join_cons (hrest : rest ≠ []) : join (name :: rest) = name ++ '/' :: join rest := by
  obtain ⟨next, rest, rfl⟩ := exists_cons_of_ne_nil hrest
  rw [join, intercalate_cons_cons, append_assoc, singleton_append, join]

theorem join_append (hne : names ≠ []) (hrest : rest ≠ []) :
    join (names ++ rest) = join names ++ '/' :: join rest := by
  induction names with
  | nil => exact absurd rfl hne
  | cons name names ih =>
    by_cases hnames : names = []
    · subst hnames
      rw [singleton_append, join_cons hrest]
      simp [join]
    · rw [cons_append, join_cons (append_ne_nil_of_left_ne_nil hnames rest), ih hnames,
        join_cons hnames, append_assoc]
      rfl

theorem prefix_join (name : Name) (rest : List Name) : name <+: join (name :: rest) := by
  by_cases hrest : rest = []
  · rw [hrest]
    simp [join]
  · rw [join_cons hrest]
    exact prefix_append name _

theorem isAbs_join_cons (rest : List Name) (h : IsName name) :
    isAbs (join (name :: rest)) = false := by
  obtain ⟨x, tail, rfl⟩ := exists_cons_of_ne_nil h.ne_nil
  obtain ⟨text, htext⟩ := prefix_join (x :: tail) rest
  rw [← htext, isAbs, decide_eq_false_iff_not]
  intro hx
  exact h.no_slash (Option.some.inj hx ▸ mem_cons_self)

/-- The components of texts with slashes between them. -/
theorem components_join_flatMap {parts : List (List Char)} (hne : parts ≠ []) :
    components (join parts) = parts.flatMap components := by
  induction parts with
  | nil => exact absurd rfl hne
  | cons part parts ih =>
    by_cases hparts : parts = []
    · subst hparts
      simp [join]
    · rw [join_cons hparts, components_append, ih hparts, flatMap_cons]

/-- The text of components starts with two dots exactly if the first of them does. -/
theorem dotdot_prefix_join_iff (rest : List Name) (h : IsName name) :
    dotdot <+: join (name :: rest) ↔ dotdot <+: name := by
  have hjoin : ∃ tail, join (name :: rest) = name ++ tail ∧ ∀ x ∈ tail.head?, x = '/' := by
    by_cases hrest : rest = []
    · refine ⟨[], ?_, by simp⟩
      simp [hrest, join]
    · exact ⟨'/' :: join rest, join_cons hrest, by simp⟩
  obtain ⟨tail, htext, htail⟩ := hjoin
  rw [htext]
  match name, h with
  | [], h => exact absurd rfl h.ne_nil
  | [x], h =>
    have hx : x ≠ '.' := fun hx => h.ne_dot (by rw [hx, dot])
    simp [dotdot, Ne.symm hx]
  | x :: y :: tail', h => simp [dotdot]

/-- **A path under a directory.** The text of the path starts with that of the directory and a
slash. -/
theorem abs_prefix_iff (h : ∀ n ∈ names, '/' ∉ n) (hne : names ≠ []) (h' : ∀ n ∈ names', '/' ∉ n)
    (hne' : names' ≠ []) :
    (abs names ++ ['/']) <+: abs names' ↔ ∃ rest, rest ≠ [] ∧ names' = names ++ rest := by
  constructor
  · rintro ⟨text, htext⟩
    have hcomponents := congrArg components htext
    rw [append_assoc, singleton_append, components_append, components_abs h hne,
      components_abs h' hne'] at hcomponents
    exact ⟨components text, components_ne_nil text, (cons.inj hcomponents).2.symm⟩
  · rintro ⟨rest, hrest, rfl⟩
    refine ⟨join rest, ?_⟩
    rw [abs, abs, join_append hne hrest, append_assoc, singleton_append, cons_append]

/-! ## The stack -/

section Stack

variable {rooted : Bool} {stack base cs : List Name} {c top : Name}

@[simp]
theorem push_skip (h : c = [] ∨ c = dot) : push rooted stack c = stack := by
  unfold push
  rw [if_pos h]

@[simp]
theorem push_name (h : IsName c) : push rooted stack c = c :: stack := by
  unfold push
  rw [if_neg (not_or.mpr ⟨h.ne_nil, h.ne_dot⟩), if_neg h.ne_dotdot]

@[simp]
theorem push_up (h : top ≠ dotdot) : push rooted (top :: stack) dotdot = stack := by
  exact if_neg h

@[simp]
theorem push_up_dotdot : push rooted (dotdot :: stack) dotdot = dotdot :: dotdot :: stack := by
  simp [push, dotdot, dot]

@[simp]
theorem push_up_nil : push false [] dotdot = [dotdot] := by decide

theorem foldl_push_names (h : ∀ c ∈ cs, IsName c) :
    cs.foldl (push rooted) stack = cs.reverse ++ stack := by
  induction cs generalizing stack with
  | nil => rfl
  | cons c cs ih =>
    rw [forall_mem_cons] at h
    rw [foldl_cons, push_name h.1, ih h.2, reverse_cons, append_assoc]
    rfl

theorem resolve_concat_name (h : IsName c) :
    resolve rooted (cs ++ [c]) = resolve rooted cs ++ [c] := by
  rw [resolve, foldl_append, foldl_cons, foldl_nil, push_name h, reverse_cons, resolve]

/-- A relative path that has left its start does not come back. -/
theorem getLast?_push (hc : '/' ∉ c) (h : stack.getLast? = some dotdot) :
    (push false stack c).getLast? = some dotdot := by
  obtain ⟨top, rest, rfl⟩ := exists_cons_of_ne_nil fun hnil : stack = [] => by
    simp [hnil] at h
  rcases component_cases hc with hskip | rfl | hname
  · rwa [push_skip hskip]
  · by_cases htop : top = dotdot
    · rw [htop, push_up_dotdot]
      rw [htop] at h
      rwa [getLast?_cons_cons]
    · rw [push_up htop]
      cases rest with
      | nil => exact absurd (Option.some.inj h) htop
      | cons next rest => rwa [getLast?_cons_cons] at h
  · rwa [push_name hname]

theorem getLast?_foldl_push (hcs : ∀ c ∈ cs, '/' ∉ c) (h : stack.getLast? = some dotdot) :
    (cs.foldl (push false) stack).getLast? = some dotdot := by
  induction cs generalizing stack with
  | nil => exact h
  | cons c cs ih =>
    rw [forall_mem_cons] at hcs
    exact ih hcs.2 (getLast?_push hcs.1 h)

/-- **A path that does not leave its start** does the same above every stack. -/
theorem foldl_push_append (rooted : Bool) (base : List Name) (hcs : ∀ c ∈ cs, '/' ∉ c)
    (h : dotdot ∉ cs.foldl (push false) stack) :
    cs.foldl (push rooted) (stack ++ base) = cs.foldl (push false) stack ++ base := by
  induction cs generalizing stack with
  | nil => rfl
  | cons c cs ih =>
    rw [forall_mem_cons] at hcs
    rw [foldl_cons] at h ⊢
    have hstep : push rooted (stack ++ base) c = push false stack c ++ base := by
      rcases component_cases hcs.1 with hskip | rfl | hname
      · rw [push_skip hskip, push_skip hskip]
      · cases stack with
        | nil =>
          rw [push_up_nil] at h
          exact absurd (mem_of_getLast? (getLast?_foldl_push hcs.2 rfl)) h
        | cons top rest =>
          by_cases htop : top = dotdot
          · rw [htop]
            rfl
          · rw [cons_append, push_up htop, push_up htop]
      · rw [push_name hname, push_name hname]
        rfl
    rw [hstep]
    exact ih hcs.2 h

/-- What cleaning leaves: no empty component, no `.`, and `..` only where the path starts with
it. -/
structure Cleaned (stack : List Name) : Prop where
  plain : ∀ c ∈ stack, c ≠ [] ∧ c ≠ dot ∧ '/' ∉ c
  bottom : dotdot ∈ stack → stack.getLast? = some dotdot

theorem Cleaned.nil : Cleaned [] := ⟨by simp, by simp⟩

theorem Cleaned.tail (h : Cleaned (top :: stack)) : Cleaned stack := by
  refine ⟨fun c hc => h.plain c (mem_cons_of_mem top hc), fun hmem => ?_⟩
  have hlast := h.bottom (mem_cons_of_mem top hmem)
  cases stack with
  | nil => exact absurd hmem not_mem_nil
  | cons next rest => rwa [getLast?_cons_cons] at hlast

theorem Cleaned.cons (h : Cleaned stack) (hc : IsName c) : Cleaned (c :: stack) := by
  refine ⟨forall_mem_cons.mpr ⟨⟨hc.ne_nil, hc.ne_dot, hc.no_slash⟩, h.plain⟩, fun hmem => ?_⟩
  have hlast := h.bottom ((mem_cons.mp hmem).resolve_left hc.ne_dotdot.symm)
  cases stack with
  | nil => simp at hlast
  | cons next rest => rwa [getLast?_cons_cons]

theorem Cleaned.push (h : Cleaned stack) (hc : '/' ∉ c) :
    Cleaned (FilePath.push false stack c) := by
  rcases component_cases hc with hskip | rfl | hname
  · rwa [push_skip hskip]
  · cases stack with
    | nil =>
      rw [push_up_nil]
      exact ⟨by decide, fun _ => rfl⟩
    | cons top rest =>
      by_cases htop : top = dotdot
      · subst htop
        refine ⟨forall_mem_cons.mpr ⟨by decide, h.plain⟩, fun _ => ?_⟩
        exact h.bottom mem_cons_self
      · rw [push_up htop]
        exact h.tail
  · rw [push_name hname]
    exact h.cons hname

theorem Cleaned.foldl (h : Cleaned stack) (hcs : ∀ c ∈ cs, '/' ∉ c) :
    Cleaned (cs.foldl (FilePath.push false) stack) := by
  induction cs generalizing stack with
  | nil => exact h
  | cons c cs ih =>
    rw [forall_mem_cons] at hcs
    exact ih (h.push hcs.1) hcs.2

/-- The names of a stack that has not left its start. -/
theorem Cleaned.isName (h : Cleaned stack) (hstart : dotdot ∉ stack) : ∀ c ∈ stack, IsName c := by
  intro c hc
  obtain ⟨hnil, hdot, hslash⟩ := h.plain c hc
  exact ⟨hnil, hdot, fun hup => hstart (hup ▸ hc), hslash⟩

/-- The components that are left of a relative path are names, unless it starts with two dots. -/
theorem isName_resolve {path : List Char} (h : ¬dotdot <+: join (resolve false (components path))) :
    ∀ n ∈ resolve false (components path), IsName n := by
  have hcleaned := Cleaned.nil.foldl (slash_not_mem_of_mem_components path)
  have hstart : dotdot ∉ (components path).foldl (push false) [] := by
    intro hmem
    obtain ⟨below, hbelow⟩ := getLast?_eq_some_iff.mp (hcleaned.bottom hmem)
    refine h ?_
    rw [resolve, hbelow, reverse_append]
    exact prefix_join dotdot _
  intro n hn
  rw [resolve, mem_reverse] at hn
  exact hcleaned.isName hstart n hn

end Stack

/-! ## Paths below a directory -/

section Directory

variable {names cs : List Name}

/-- A directory and a path below it. -/
theorem clean_abs_append (hnames : ∀ n ∈ names, IsName n) (hne : names ≠ []) {path : List Char}
    (hstart : dotdot ∉ (components path).foldl (push false) []) :
    clean (abs names ++ '/' :: path) = abs (names ++ resolve false (components path)) := by
  have habs : isAbs (abs names ++ '/' :: path) = true := rfl
  have hresolve : resolve true ([] :: names ++ components path) =
      names ++ resolve false (components path) := by
    rw [resolve, cons_append, foldl_cons, push_skip (.inl rfl), foldl_append,
      foldl_push_names hnames, append_nil]
    have hfold := foldl_push_append true names.reverse
      (slash_not_mem_of_mem_components path) hstart
    rw [nil_append] at hfold
    rw [hfold, reverse_append, reverse_reverse, resolve]
  simp only [clean, habs, if_true, components_append,
    components_abs (fun n hn => (hnames n hn).no_slash) hne, hresolve]

/-- A directory and names below it. -/
theorem clean_abs_append_names (hnames : ∀ n ∈ names, IsName n) (hne : names ≠ [])
    (hcs : ∀ c ∈ cs, IsName c) (hcsne : cs ≠ []) :
    clean (abs names ++ '/' :: join cs) = abs (names ++ cs) := by
  have hcomponents := components_join (fun c hc => (hcs c hc).no_slash) hcsne
  have hstart : dotdot ∉ cs.foldl (push false) [] := by
    rw [foldl_push_names hcs, append_nil, mem_reverse]
    exact fun hmem => (hcs _ hmem).ne_dotdot rfl
  rw [← hcomponents] at hstart
  rw [clean_abs_append hnames hne hstart, hcomponents, resolve, foldl_push_names hcs, append_nil,
    reverse_reverse]

end Directory

/-! ## Local paths -/

/-- From a place so many names below a folder, the components lead to a place below the folder and
never out of it. -/
def localFrom : ℕ → List Name → Bool
  | depth, [] => 0 < depth
  | depth, c :: cs =>
    if c = [] ∨ c = dot then localFrom depth cs
    else if c = dotdot then
      match depth with
      | 0 => false
      | depth + 1 => localFrom depth cs
    else localFrom (depth + 1) cs

section Local

variable {rooted : Bool} {stack base cs : List Name} {c q : Name} {depth : ℕ}

@[simp]
theorem localFrom_skip (h : c = [] ∨ c = dot) : localFrom depth (c :: cs) = localFrom depth cs := by
  conv_lhs => unfold localFrom
  rw [if_pos h]

@[simp]
theorem localFrom_name (h : IsName c) : localFrom depth (c :: cs) = localFrom (depth + 1) cs := by
  conv_lhs => unfold localFrom
  rw [if_neg (not_or.mpr ⟨h.ne_nil, h.ne_dot⟩), if_neg h.ne_dotdot]

/-- **A local path** stays below every folder. -/
theorem foldl_push_of_localFrom (rooted : Bool) (base : List Name) (hcs : ∀ c ∈ cs, '/' ∉ c)
    (hstack : dotdot ∉ stack) (h : localFrom stack.length cs = true) :
    ∃ rest, rest ≠ [] ∧ cs.foldl (push rooted) (stack ++ base) = rest ++ base := by
  induction cs generalizing stack with
  | nil =>
    refine ⟨stack, ?_, rfl⟩
    rw [localFrom, decide_eq_true_eq] at h
    exact ne_nil_of_length_pos h
  | cons c cs ih =>
    rw [forall_mem_cons] at hcs
    rw [foldl_cons]
    rcases component_cases hcs.1 with hskip | rfl | hname
    · rw [localFrom_skip hskip] at h
      rw [push_skip hskip]
      exact ih hcs.2 hstack h
    · cases stack with
      | nil =>
        exact absurd h Bool.false_ne_true
      | cons top rest =>
        rw [mem_cons, not_or] at hstack
        rw [cons_append, push_up (Ne.symm hstack.1)]
        exact ih hcs.2 hstack.2 h
    · rw [localFrom_name hname] at h
      rw [push_name hname, ← cons_append]
      refine ih hcs.2 ?_ h
      rw [mem_cons, not_or]
      exact ⟨hname.ne_dotdot.symm, hstack⟩

/-- A name that the components do not use does not become more frequent. -/
theorem count_foldl_push_le (stack : List Name) (hcs : ∀ c ∈ cs, '/' ∉ c) (hq : q ∉ cs)
    (hname : IsName q) :
    (cs.foldl (push false) stack).count q ≤ stack.count q := by
  induction cs generalizing stack with
  | nil => exact le_rfl
  | cons c cs ih =>
    rw [forall_mem_cons] at hcs
    rw [mem_cons, not_or] at hq
    refine (ih _ hcs.2 hq.2).trans ?_
    rcases component_cases hcs.1 with hskip | rfl | hc
    · rw [push_skip hskip]
    · cases stack with
      | nil =>
        rw [push_up_nil, count_cons_of_ne hname.ne_dotdot.symm]
      | cons top rest =>
        by_cases htop : top = dotdot
        · rw [htop, push_up_dotdot, count_cons_of_ne hname.ne_dotdot.symm]
        · rw [push_up htop]
          exact count_le_count_cons
    · rw [push_name hc, count_cons_of_ne (Ne.symm hq.1)]

/-- **A path that is not local** leaves a folder that is made of a name it does not use. -/
theorem foldl_push_ne_of_not_localFrom (hcs : ∀ c ∈ cs, '/' ∉ c) (hstack : dotdot ∉ stack)
    (hq : q ∉ cs) (hname : IsName q) (h : localFrom stack.length cs = false) {k : ℕ}
    {rest : List Name} (hrest : rest ≠ []) :
    cs.foldl (push false) (stack ++ (List.replicate (k + 1) q ++ base)) ≠
      rest ++ (List.replicate (k + 1) q ++ base) := by
  induction cs generalizing stack with
  | nil =>
    rw [localFrom, decide_eq_false_iff_not, Nat.not_lt, Nat.le_zero, length_eq_zero_iff] at h
    rw [h]
    intro heq
    exact hrest (append_cancel_right heq).symm
  | cons c cs ih =>
    rw [forall_mem_cons] at hcs
    rw [mem_cons, not_or] at hq
    rw [foldl_cons]
    rcases component_cases hcs.1 with hskip | rfl | hc
    · rw [localFrom_skip hskip] at h
      rw [push_skip hskip]
      exact ih hcs.2 hstack hq.2 h
    · cases stack with
      | nil =>
        -- the folder loses a name, and nothing brings it back
        rw [nil_append, replicate_succ, cons_append, push_up hname.ne_dotdot]
        intro heq
        have hcount := count_foldl_push_le (replicate k q ++ base) hcs.2 hq.2 hname
        rw [heq, count_append, count_cons_self] at hcount
        omega
      | cons top rest' =>
        rw [mem_cons, not_or] at hstack
        rw [cons_append, push_up (Ne.symm hstack.1)]
        exact ih hcs.2 hstack.2 hq.2 h
    · rw [localFrom_name hc] at h
      rw [push_name hc, ← cons_append]
      refine ih hcs.2 ?_ hq.2 h
      rw [mem_cons, not_or]
      exact ⟨hc.ne_dotdot.symm, hstack⟩

theorem exists_isName_not_mem (cs : List Name) : ∃ q, IsName q ∧ q ∉ cs := by
  have hname : IsName (replicate (cs.flatten.length + 3) 'x') := by
    have hlength : (replicate (cs.flatten.length + 3) 'x').length = cs.flatten.length + 3 :=
      length_replicate
    refine ⟨?_, ?_, ?_, fun h => absurd (eq_of_mem_replicate h) (by decide)⟩ <;> intro h <;>
      rw [h] at hlength <;> simp [dot, dotdot] at hlength
  refine ⟨_, hname, fun hmem => ?_⟩
  have hle := (sublist_flatten_of_mem hmem).length_le
  rw [length_replicate] at hle
  omega

/-- A stack that is higher than the components are many keeps its bottom. -/
theorem foldl_push_bottom (stack : List Name) (bottom : Name) (hcs : ∀ c ∈ cs, '/' ∉ c)
    (h : cs.length ≤ stack.length) :
    ∃ stack', cs.foldl (push false) (stack ++ [bottom]) = stack' ++ [bottom] := by
  induction cs generalizing stack with
  | nil => exact ⟨stack, rfl⟩
  | cons c cs ih =>
    rw [forall_mem_cons] at hcs
    rw [length_cons] at h
    rw [foldl_cons]
    obtain ⟨top, rest, rfl⟩ := exists_cons_of_length_pos (Nat.zero_lt_of_lt h)
    rw [length_cons, Nat.add_le_add_iff_right] at h
    rcases component_cases hcs.1 with hskip | rfl | hc
    · rw [push_skip hskip]
      exact ih _ hcs.2 (Nat.le_succ_of_le h)
    · by_cases htop : top = dotdot
      · rw [htop]
        exact ih (dotdot :: dotdot :: rest) hcs.2 (Nat.le_succ_of_le (Nat.le_succ_of_le h))
      · rw [cons_append, push_up htop]
        exact ih _ hcs.2 h
    · rw [push_name hc]
      exact ih (c :: top :: rest) hcs.2 (Nat.le_succ_of_le (Nat.le_succ_of_le h))

end Local

end FilePath
