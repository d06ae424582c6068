import Mathlib.Data.List.Basic

/-!
# Source maps

The decoder of `resolve.go`. The mappings of a source map are one string: lines of the generated
file end with `;`, segments with `,`, and a segment is one, four or five numbers, each as a
difference to the number that was last written in its place.

A string is its bytes. An `int` of the mappings is an `Int64`; while the digits of a number are
collected it is a `BitVec 64`, whose shift gives zero from 64 places on, as in Go. The index `i`
into the string is what is left of it. -/

namespace Urgentry.Sourcemap

/-- `mapping`. -/
structure Mapping where
  genLine : ℕ
  genCol : Int64
  srcIndex : Int64 := 0
  srcLine : Int64 := 0
  srcCol : Int64 := 0
  nameIndex : Int64 := 0
  hasSource : Bool := false
  hasName : Bool := false
deriving DecidableEq

/-- The digits, in order. -/
def chars : List UInt8 :=
  "ABCDEFGHIJKLMNOPQRSTUVWXYZabcdefghijklmnopqrstuvwxyz0123456789+/".toList.map
  fun c => c.toNat.toUInt8

/-- `vlqTable`; none for the entries with -1, and for bytes from 128 on. -/
def vlqTable (c : UInt8) : Option ℕ := chars.idxOf? c

/-- The errors of the decoder. -/
inductive VlqError
  | invalidCharacter (c : UInt8)
  | unterminated
deriving DecidableEq

/-- The text of an error; `%c` writes the byte as a code point. -/
def VlqError.text : VlqError → String
  | invalidCharacter c => "invalid VLQ character: " ++ String.singleton (Char.ofNat c.toNat)
  | unterminated => "unterminated VLQ sequence"

/-- The value that is returned: the lowest bit is the sign. -/
def signedResult (result : BitVec 64) : Int64 :=
  if result &&& 1 = 1 then Int64.ofBitVec (-(result.sshiftRight 1))
    else Int64.ofBitVec (result.sshiftRight 1)

/-- The loop of `decodeVLQ`, on what is left of the string. -/
def decodeVLQLoop : List UInt8 → BitVec 64 → ℕ → ℕ → Except VlqError (Int64 × ℕ)
  | [], _, _, _ => .error .unterminated
  | c :: rest, result, shift, i =>
    match vlqTable c with
    | none => .error (.invalidCharacter c)
    | some digit =>
      let result := result ||| BitVec.ofNat 64 (digit &&& 0x1F) <<< shift
      if digit &&& 0x20 = 0 then .ok (signedResult result, i + 1)
      else decodeVLQLoop rest result (shift + 5) (i + 1)

/-- `decodeVLQ`. -/
def decodeVLQ (s : List UInt8) : Except VlqError (Int64 × ℕ) := decodeVLQLoop s 0 0 0

variable {out : Int64 × ℕ} {c : UInt8} {rest s left : List UInt8} {fields : List Int64}

theorem le_of_decodeVLQLoop {result : BitVec 64} {shift i : ℕ}
    (h : decodeVLQLoop s result shift i = .ok out) : i + 1 ≤ out.2 := by
  induction s generalizing result shift i with
  | nil => cases h
  | cons c rest ih =>
    unfold decodeVLQLoop at h
    split at h
    · cases h
    · simp only at h
      split at h
      · cases h
        exact Nat.le_refl _
      · exact Nat.le_of_succ_le (ih h)

/-- A value takes at least one character. -/
theorem pos_of_decodeVLQ (h : decodeVLQ s = .ok out) : 0 < out.2 :=
  le_of_decodeVLQLoop h

/-- The end of a segment. -/
def endsSegment (c : UInt8) : Bool := c = 44 || c = 59

/-- The fields of a segment, and what is left behind them: the inner loop of `decodeMappings`. -/
def decodeFields (encoded : List UInt8) : Except VlqError (List Int64 × List UInt8) :=
  match encoded with
  | [] => .ok ([], [])
  | c :: rest =>
    if endsSegment c then .ok ([], c :: rest)
    else
      match h : decodeVLQ (c :: rest) with
      | .error e => .error e
      | .ok out =>
        have : ((c :: rest).drop out.2).length < (c :: rest).length := by
          have := pos_of_decodeVLQ h
          rw [List.length_drop, List.length_cons]
          omega
        match decodeFields ((c :: rest).drop out.2) with
        | .error e => .error e
        | .ok (fields, left) => .ok (out.1 :: fields, left)
termination_by encoded.length
decreasing_by exact this

/-- A field is read, and the others behind it. -/
theorem decodeFields_cons (hc : endsSegment c = false) (h : decodeVLQ (c :: rest) = .ok out)
    (hrec : decodeFields ((c :: rest).drop out.2) = .ok (fields, left)) :
    decodeFields (c :: rest) = .ok (out.1 :: fields, left) := by
  rw [decodeFields, if_neg (by simp [hc])]
  split
  · rename_i e he
    rw [h] at he
    cases he
  · rename_i out' hout
    obtain rfl : out = out' := Except.ok.inj (h.symm.trans hout)
    simp only [hrec]

/-- The running values of `decodeMappings`. -/
structure Position where
  line : ℕ := 0
  col : Int64 := 0
  srcIndex : Int64 := 0
  srcLine : Int64 := 0
  srcCol : Int64 := 0
  nameIndex : Int64 := 0
deriving DecidableEq

/-- The running values after the fields of a segment. -/
def Position.advance (p : Position) (fields : List Int64) : Position :=
  let p := { p with col := p.col + fields.getD 0 0 }
  let p := if 4 ≤ fields.length then
      { p with srcIndex := p.srcIndex + fields.getD 1 0, srcLine := p.srcLine + fields.getD 2 0,
               srcCol := p.srcCol + fields.getD 3 0 }
    else p
  if 5 ≤ fields.length then { p with nameIndex := p.nameIndex + fields.getD 4 0 } else p

/-- The mapping of a segment with so many fields, from the running values after it. -/
def Position.mapping (p : Position) (n : ℕ) : Mapping :=
  let m : Mapping := { genLine := p.line, genCol := p.col }
  let m := if 4 ≤ n then
      { m with hasSource := true, srcIndex := p.srcIndex, srcLine := p.srcLine, srcCol := p.srcCol }
    else m
  if 5 ≤ n then { m with hasName := true, nameIndex := p.nameIndex } else m

theorem length_decodeFields_le (encoded : List UInt8) : ∀ out : List Int64 × List UInt8,
    decodeFields encoded = .ok out → out.2.length ≤ encoded.length := by
  fun_induction decodeFields encoded with
  | case1 =>
    intro out h
    cases h
    exact Nat.le_refl _
  | case2 =>
    intro out h
    cases h
    exact Nat.le_refl _
  | case3 =>
    intro out h
    cases h
  | case4 =>
    intro out h
    cases h
  | case5 c rest _ pair _ hlt fields left hrec ih =>
    intro out h
    cases h
    exact Nat.le_trans (ih (fields, left) hrec) (Nat.le_of_lt hlt)

theorem length_decodeFields_lt {out : List Int64 × List UInt8}
    (hc : endsSegment c = false) (h : decodeFields (c :: rest) = .ok out) :
    out.2.length < (c :: rest).length := by
  rw [decodeFields, if_neg (by simp [hc])] at h
  split at h
  · cases h
  · rename_i pair hpair
    split at h
    · cases h
    · rename_i fields left hrec
      cases h
      have hle := length_decodeFields_le _ _ hrec
      have hpos := pos_of_decodeVLQ hpair
      rw [List.length_drop] at hle
      show left.length < rest.length + 1
      have hle' : left.length ≤ rest.length + 1 - pair.2 := hle
      omega

/-- The outer loop of `decodeMappings`, on what is left of the string. -/
def decodeMappingsLoop (encoded : List UInt8) (p : Position) (result : List Mapping) :
    Except VlqError (List Mapping) :=
  match encoded with
  | [] => .ok result
  | c :: rest =>
    if h59 : c = 59 then decodeMappingsLoop rest { p with line := p.line + 1, col := 0 } result
    else if h44 : c = 44 then decodeMappingsLoop rest p result
    else
      match h : decodeFields (c :: rest) with
      | .error e => .error e
      | .ok (fields, left) =>
        have : left.length < (c :: rest).length :=
          length_decodeFields_lt (by simp [endsSegment, h44, h59]) h
        if fields = [] then decodeMappingsLoop left p result
        else
          let p := p.advance fields
          decodeMappingsLoop left p (result ++ [p.mapping fields.length])
termination_by encoded.length
decreasing_by
  · exact Nat.lt_succ_self rest.length
  · exact Nat.lt_succ_self rest.length
  · exact this
  · exact this

/-- The fields of a segment become a mapping. -/
theorem decodeMappingsLoop_cons (hc : endsSegment c = false)
    (h : decodeFields (c :: rest) = .ok (fields, left)) (hne : fields ≠ []) (p : Position)
    (result : List Mapping) :
    decodeMappingsLoop (c :: rest) p result =
      decodeMappingsLoop left (p.advance fields)
        (result ++ [(p.advance fields).mapping fields.length]) := by
  simp only [endsSegment, Bool.or_eq_false_iff, decide_eq_false_iff_not] at hc
  rw [decodeMappingsLoop, dif_neg hc.2, dif_neg hc.1]
  split
  · rename_i e he
    rw [h] at he
    cases he
  · rename_i fields' left' hout
    have hpair : (fields, left) = (fields', left') := Except.ok.inj (h.symm.trans hout)
    obtain ⟨rfl, rfl⟩ := Prod.mk.inj hpair
    exact if_neg hne

/-- `decodeMappings`. -/
def decodeMappings (encoded : List UInt8) : Except VlqError (List Mapping) :=
  decodeMappingsLoop encoded {} []

end Urgentry.Sourcemap
