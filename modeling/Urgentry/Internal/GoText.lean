import Mathlib.Algebra.Group.Int.Defs
import Mathlib.Data.List.DropRight
import Mathlib.Data.String.Basic

/-!
# Text functions of the Go standard library

The functions of packages `strings` and `strconv` that the development needs. A Lean string is a
sequence of code points, so these are the functions on valid UTF-8.
-/

namespace GoText

open List

/-- `unicode.IsSpace`: the code points with the property `White_Space`. -/
def isSpace (c : Char) : Bool :=
  (0x09 ≤ c.val && c.val ≤ 0x0d) || c.val == 0x20 || c.val == 0x85 || c.val == 0xa0
    || c.val == 0x1680 || (0x2000 ≤ c.val && c.val ≤ 0x200a) || c.val == 0x2028
    || c.val == 0x2029 || c.val == 0x202f || c.val == 0x205f || c.val == 0x3000

/-- A list without the leading and trailing items that satisfy `p`. -/
def trim {α : Type*} (p : α → Bool) (l : List α) : List α :=
  ((l.dropWhile p).reverse.dropWhile p).reverse

/-- `strings.TrimSpace`. -/
def trimSpace (s : String) : String := String.ofList (trim isSpace s.toList)

variable {α : Type*} {n : ℕ} (p : α → Bool) (s : String)

theorem trim_trim (l : List α) : trim p (trim p l) = trim p l := by
  have hhead : (trim p l).dropWhile p = trim p l := by
    have hpre : trim p l <+: l.dropWhile p := by
      rw [trim, ← reverse_suffix, reverse_reverse]
      exact dropWhile_suffix p
    rw [dropWhile_eq_self_iff]
    intro hpos
    rw [hpre.getElem hpos]
    exact dropWhile_get_zero_not p l (hpos.trans_le hpre.length_le)
  rw [trim, hhead, trim, reverse_reverse, dropWhile_idempotent]

@[simp] theorem trimSpace_trimSpace : trimSpace (trimSpace s) = trimSpace s := by
  rw [trimSpace, trimSpace, String.toList_ofList, trim_trim]

@[simp] theorem trimSpace_empty : trimSpace "" = "" := by decide

/-- `strings.Fields`. -/
def fields (s : String) : List String :=
  ((s.toList.splitOnP isSpace).filter fun word => !word.isEmpty).map String.ofList

/-! ## Texts with a separator -/

/-- The last part of a text that is joined by a separator can be told from the rest. -/
theorem append_sep_inj {sep : α} {a b c d : List α} (hb : sep ∉ b) (hd : sep ∉ d)
    (h : a ++ sep :: b = c ++ sep :: d) : a = c ∧ b = d := by
  rcases append_eq_append_iff.mp h with ⟨l, hc, hl⟩ | ⟨l, ha, hl⟩
  · cases l with
    | nil => exact ⟨by simpa using hc.symm, (cons.inj hl).2⟩
    | cons x l =>
      refine absurd ?_ hb
      rw [(cons.inj hl).2]
      simp
  · cases l with
    | nil => exact ⟨by simpa using ha, (cons.inj hl).2.symm⟩
    | cons x l =>
      refine absurd ?_ hd
      rw [(cons.inj hl).2]
      simp

/-- So can the first part. -/
theorem sep_append_inj {sep : α} {a b c d : List α} (ha : sep ∉ a) (hc : sep ∉ c)
    (h : a ++ sep :: b = c ++ sep :: d) : a = c ∧ b = d := by
  have hrev := congrArg reverse h
  simp only [reverse_append, reverse_cons, append_assoc] at hrev
  obtain ⟨hbd, hac⟩ := append_sep_inj (by simpa using ha) (by simpa using hc) hrev
  exact ⟨reverse_injective hac, reverse_injective hbd⟩

/-! ## Integers -/

/-- The value of a non-empty list of decimal digits. -/
def digits? (cs : List Char) : Option ℕ :=
  if cs ≠ [] ∧ cs.all Char.isDigit then some (Nat.ofDigitChars 10 cs 0) else none

/-- `strconv.ParseInt(s, 10, 64)`: an optional sign and decimal digits, in the range of `int64`. -/
def parseInt (s : List Char) : Option ℤ :=
  let value : Option ℤ := match s with
    | '-' :: cs => (digits? cs).map fun n => -Int.ofNat n
    | '+' :: cs => (digits? cs).map Int.ofNat
    | cs => (digits? cs).map Int.ofNat
  value.filter fun n => -2 ^ 63 ≤ n ∧ n < 2 ^ 63

theorem parseInt_range {s : List Char} {n : ℤ} (h : parseInt s = some n) :
    -2 ^ 63 ≤ n ∧ n < 2 ^ 63 := by
  have hfilter := (Option.filter_eq_some_iff.mp h).2
  simpa using hfilter

@[simp]
theorem digits?_toDigits (n : ℕ) : digits? (Nat.toDigits 10 n) = some n := by
  have hdigits : (Nat.toDigits 10 n).all Char.isDigit = true := by
    rw [all_eq_true]
    exact fun c hc => Nat.isDigit_of_mem_toDigits (by decide) (by decide) hc
  rw [digits?, if_pos ⟨Nat.toDigits_ne_nil, hdigits⟩,
    Nat.ofDigitChars_toDigits (by decide) (by decide)]

@[simp]
theorem toList_toString_nat (n : ℕ) : (toString n).toList = Nat.toDigits 10 n := by
  rw [Nat.toString_eq_repr, Nat.repr, String.toList_ofList]

@[simp]
theorem toList_toString_negSucc (n : ℕ) :
    (toString (Int.negSucc n)).toList = '-' :: Nat.toDigits 10 (n + 1) := by
  have htext : toString (Int.negSucc n) = "-" ++ toString (n + 1) := rfl
  rw [htext, String.toList_append, toList_toString_nat]
  rfl

theorem isDigit_of_mem_toDigits {c : Char} (h : c ∈ Nat.toDigits 10 n) : c.isDigit = true :=
  Nat.isDigit_of_mem_toDigits (by decide) (by decide) h

/-- The text of an integer is digits and perhaps a minus sign. -/
theorem mem_toString_int {n : ℤ} {c : Char} (h : c ∈ (toString n).toList) :
    c.isDigit = true ∨ c = '-' := by
  cases n with
  | ofNat m =>
    have hm : c ∈ (toString m).toList := h
    rw [toList_toString_nat] at hm
    exact .inl (isDigit_of_mem_toDigits hm)
  | negSucc m =>
    rw [toList_toString_negSucc, mem_cons] at h
    rcases h with h | h
    · exact .inr h
    · exact .inl (isDigit_of_mem_toDigits h)

theorem toDigits_inj {m : ℕ} (h : Nat.toDigits 10 m = Nat.toDigits 10 n) : m = n := by
  have hvalue := congrArg digits? h
  rw [digits?_toDigits, digits?_toDigits] at hvalue
  exact Option.some.inj hvalue

theorem toDigits_ne_minus {m : ℕ} {cs : List Char} : Nat.toDigits 10 m ≠ '-' :: cs := by
  intro h
  have hminus : '-' ∈ Nat.toDigits 10 m := by
    rw [h]
    exact mem_cons_self
  exact absurd (isDigit_of_mem_toDigits hminus) (by decide)

/-- Different integers have different texts. -/
theorem toString_int_inj {m n : ℤ} (h : (toString m).toList = (toString n).toList) : m = n := by
  cases m with
  | ofNat m =>
    have hm : (toString (Int.ofNat m)).toList = Nat.toDigits 10 m := toList_toString_nat m
    rw [hm] at h
    cases n with
    | ofNat n =>
      have hn : (toString (Int.ofNat n)).toList = Nat.toDigits 10 n := toList_toString_nat n
      rw [hn] at h
      rw [toDigits_inj h]
    | negSucc n =>
      rw [toList_toString_negSucc] at h
      exact absurd h toDigits_ne_minus
  | negSucc m =>
    rw [toList_toString_negSucc] at h
    cases n with
    | ofNat n =>
      have hn : (toString (Int.ofNat n)).toList = Nat.toDigits 10 n := toList_toString_nat n
      rw [hn] at h
      exact absurd h.symm toDigits_ne_minus
    | negSucc n =>
      rw [toList_toString_negSucc, cons_inj_right] at h
      rw [Nat.succ.inj (toDigits_inj h)]

/-- Reading back the text of a number. -/
theorem parseInt_toDigits (h : n < 2 ^ 63) : parseInt (Nat.toDigits 10 n) = some (n : ℤ) := by
  obtain ⟨c, cs, hcs⟩ := exists_cons_of_ne_nil (Nat.toDigits_ne_nil (n := n) (b := 10))
  have hc : c.isDigit = true :=
    Nat.isDigit_of_mem_toDigits (by decide) (by decide) (hcs ▸ mem_cons_self)
  have hminus : c ≠ '-' := by rintro rfl; exact absurd hc (by decide)
  have hplus : c ≠ '+' := by rintro rfl; exact absurd hc (by decide)
  have hvalue : (digits? (c :: cs)).map Int.ofNat = some (n : ℤ) := by
    rw [← hcs, digits?_toDigits, Option.map_some, Int.ofNat_eq_natCast]
  rw [hcs, parseInt]
  · rw [hvalue, Option.filter_some, if_pos]
    simp only [decide_eq_true_eq]
    omega
  · exact fun _ heq => hminus (cons.inj heq).1
  · exact fun _ heq => hplus (cons.inj heq).1

end GoText
