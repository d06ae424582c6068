import Mathlib.Data.Nat.Digits.Lemmas

/-!
# Headers as JSON

The header of an envelope and the header of an item are JSON objects on a line of their own. The
reader needs little of `encoding/json`: that a struct is written as an object on one line, and that
what was written is read back. That is `JsonCodec`, and the reader takes any such codec.

`headerCodec` and `itemCodec` are codecs for the two structs. They write all fields, in the order of
the struct and under the names of their tags.

## Main definitions

* `EnvelopeHeader`, `ItemHeader`: the two structs.
* `JsonCodec`: what the reader needs of `encoding/json`.
* `headerCodec`, `itemCodec`: two codecs that write JSON.
-/

namespace Urgentry.Envelope

open List

/-! ## Types -/

/-- `SDK`. -/
structure SDK where
  (name version : String)
deriving DecidableEq

/-- `EnvelopeHeader`. -/
structure EnvelopeHeader where
  (eventId dsn sentAt : String)
  sdk : Option SDK
deriving DecidableEq

/-- `ItemHeader`. -/
structure ItemHeader where
  type : String
  length : Int64
  (contentType filename : String)
deriving DecidableEq

/-- The header of `&Envelope{}`. -/
def EnvelopeHeader.zero : EnvelopeHeader := ⟨"", "", "", none⟩

/-- `'\n'`. -/
def newline : UInt8 := 0x0a

/-- **`encoding/json` on one type of struct.** A struct is written as an object, without raw control
characters, and what was written is read back. -/
structure JsonCodec (H : Type) where
  /-- `json.Marshal`. -/
  marshal : H → List UInt8
  /-- `json.Unmarshal`, with the text of its error. -/
  unmarshal : List UInt8 → Except String H
  /-- An object stands between braces. -/
  object : ∀ h, ∃ body, marshal h = 0x7b :: (body ++ [0x7d])
  /-- It is one line. -/
  line : ∀ h, newline ∉ marshal h
  unmarshal_marshal : ∀ h, unmarshal (marshal h) = .ok h

/-! ## Strings -/

/-- The bytes of a string. -/
def utf8 (s : String) : List UInt8 := s.toByteArray.data.toList

/-- The string with these bytes. -/
def ofUtf8 (bytes : List UInt8) : Option String := String.fromUTF8? ⟨bytes.toArray⟩

@[simp] theorem ofUtf8_utf8 (s : String) : ofUtf8 (utf8 s) = some s := by
  rw [ofUtf8, utf8, Array.toArray_toList, String.fromUTF8?, dif_pos s.isValidUTF8]
  rfl

def hexDigit (n : UInt8) : UInt8 := if n < 10 then 0x30 + n else 0x57 + n

def hexValue (b : UInt8) : UInt8 := if b < 0x3a then b - 0x30 else b - 0x57

/-- A byte inside of a string. Quotes, backslashes and control characters are escaped. -/
def escapeByte (b : UInt8) : List UInt8 :=
  if b = 0x22 ∨ b = 0x5c then [0x5c, b]
  else if b < 0x20 then [0x5c, 0x75, 0x30, 0x30, hexDigit (b / 16), hexDigit (b % 16)]
  else [b]

/-- A string behind its opening quote. -/
def quoted (s : String) : List UInt8 := (utf8 s).flatMap escapeByte ++ [0x22]

/-- The bytes up to the closing quote, and what follows it. -/
def readBytes : List UInt8 → Option (List UInt8 × List UInt8)
  | [] => none
  | 0x22 :: rest => some ([], rest)
  | 0x5c :: 0x75 :: _ :: _ :: hi :: lo :: rest =>
    (readBytes rest).map fun (bytes, rest) => ((hexValue hi * 16 + hexValue lo) :: bytes, rest)
  | 0x5c :: b :: rest => (readBytes rest).map fun (bytes, rest) => (b :: bytes, rest)
  | b :: rest => (readBytes rest).map fun (bytes, rest) => (b :: bytes, rest)

def readString (data : List UInt8) : Option (String × List UInt8) := do
  let (bytes, rest) ← readBytes data
  return (← ofUtf8 bytes, rest)

/-- A fact about the control characters. -/
theorem forall_control {p : UInt8 → Prop} (h : ∀ n < 0x20, p (.ofNat n)) {b : UInt8}
    (hb : b < 0x20) :
    p b := by
  rw [← UInt8.ofNat_toNat (x := b)]
  exact h b.toNat (UInt8.lt_iff_toNat_lt.mp hb)

/-- **One byte.** -/
theorem readBytes_escapeByte (b : UInt8) (rest : List UInt8) : readBytes (escapeByte b ++ rest) =
    (readBytes rest).map fun (bytes, rest) => (b :: bytes, rest) := by
  unfold escapeByte
  split_ifs with hspecial hcontrol
  · rcases hspecial with rfl | rfl <;> simp [readBytes]
  · have hvalue : hexValue (hexDigit (b / 16)) * 16 + hexValue (hexDigit (b % 16)) = b :=
      forall_control
        (p := fun b => hexValue (hexDigit (b / 16)) * 16 + hexValue (hexDigit (b % 16)) = b)
        (by decide) hcontrol
    simp [readBytes, hvalue]
  · rw [not_or] at hspecial
    rw [singleton_append, readBytes]
    · exact hspecial.1
    · exact fun _ _ _ _ _ h _ => hspecial.2 h
    · exact fun _ _ h _ => hspecial.2 h

@[simp] theorem readString_quoted (s : String) (rest : List UInt8) :
    readString (quoted s ++ rest) = some (s, rest) := by
  have hbytes (bytes : List UInt8) :
      readBytes (bytes.flatMap escapeByte ++ 0x22 :: rest) = some (bytes, rest) := by
    induction bytes with
    | nil => rfl
    | cons b bytes ih => rw [flatMap_cons, append_assoc, readBytes_escapeByte, ih]; rfl
  simp [readString, quoted, hbytes]

theorem newline_notMem_quoted (s : String) : newline ∉ quoted s := by
  have hbyte (b : UInt8) : newline ∉ escapeByte b := by
    by_cases hcontrol : b < 0x20
    · exact forall_control (p := fun b => newline ∉ escapeByte b) (by decide) hcontrol
    · have hne : 0x0a ≠ b := by
        rintro rfl
        exact hcontrol (by decide)
      unfold escapeByte
      split_ifs <;> simp [hne, newline]
  simp only [quoted, mem_append, mem_flatMap, mem_singleton]
  rintro (⟨b, -, hb⟩ | h)
  · exact hbyte b hb
  · exact absurd h (by decide)

/-! ## Numbers -/

def writeNat (n : ℕ) : List UInt8 :=
  if n = 0 then [0x30] else (Nat.digits 10 n).reverse.map fun d => 0x30 + d.toUInt8

def writeInt (n : Int64) : List UInt8 :=
  (if n.toInt < 0 then [0x2d] else []) ++ writeNat n.toInt.natAbs

def isDigit (b : UInt8) : Bool := 0x30 ≤ b && b ≤ 0x39

/-- The digits in front, as a number, and what follows them. -/
def readNat (data : List UInt8) : ℕ × List UInt8 :=
  (Nat.ofDigits 10 ((data.takeWhile isDigit).reverse.map fun b => (b - 0x30).toNat),
    data.dropWhile isDigit)

def readInt : List UInt8 → Int64 × List UInt8
  | 0x2d :: rest => (.ofInt (-(readNat rest).1), (readNat rest).2)
  | data => (.ofInt (readNat data).1, (readNat data).2)

theorem digit_facts : ∀ d < 10, isDigit (0x30 + d.toUInt8) = true ∧
    (0x30 + d.toUInt8 - 0x30).toNat = d := by decide

theorem isDigit_of_mem_writeNat {n : ℕ} {b : UInt8} (h : b ∈ writeNat n) : isDigit b = true := by
  unfold writeNat at h
  split_ifs at h
  · rw [mem_singleton.mp h]
    rfl
  · obtain ⟨d, hd, rfl⟩ := mem_map.mp h
    exact (digit_facts d (Nat.digits_lt_base (by decide) (mem_reverse.mp hd))).1

@[simp]
theorem readNat_writeNat (n : ℕ) (rest : List UInt8) :
    readNat (writeNat n ++ 0x2c :: rest) = (n, 0x2c :: rest) := by
  have hcomma : isDigit 0x2c = false := rfl
  have hall : ∀ b ∈ writeNat n, isDigit b = true := fun b => isDigit_of_mem_writeNat
  have hvalue : Nat.ofDigits 10 ((writeNat n).reverse.map fun b => (b - 0x30).toNat) = n := by
    unfold writeNat
    split_ifs with hzero
    · rw [hzero]
      rfl
    · have hmap :
          (Nat.digits 10 n).map (fun d => (0x30 + d.toUInt8 - 0x30).toNat) = Nat.digits 10 n := by
        conv_rhs => rw [← map_id (Nat.digits 10 n)]
        exact map_congr_left fun d hd => (digit_facts d (Nat.digits_lt_base (by decide) hd)).2
      rw [← map_reverse, reverse_reverse, map_map]
      exact (congrArg (Nat.ofDigits 10) hmap).trans (Nat.ofDigits_digits 10 n)
  rw [readNat, takeWhile_append_of_pos hall, dropWhile_append_of_pos hall]
  simp only [takeWhile_cons, dropWhile_cons, hcomma, Bool.false_eq_true, if_false,
    append_nil, hvalue]

theorem readInt_writeInt (n : Int64) (rest : List UInt8) :
    readInt (writeInt n ++ 0x2c :: rest) = (n, 0x2c :: rest) := by
  unfold writeInt
  split_ifs with hneg
  · rw [append_assoc, singleton_append, readInt, readNat_writeNat]
    have habs : (-(n.toInt.natAbs : ℤ)) = n.toInt := by omega
    rw [habs, Int64.ofInt_toInt]
  · rw [nil_append, readInt, readNat_writeNat]
    · have habs : (n.toInt.natAbs : ℤ) = n.toInt := by omega
      rw [habs, Int64.ofInt_toInt]
    · intro tail htail
      cases hdigits : writeNat n.toInt.natAbs with
      | nil => simp [hdigits] at htail
      | cons d ds =>
        have hd : isDigit d = true := isDigit_of_mem_writeNat (hdigits ▸ mem_cons_self)
        rw [hdigits] at htail
        rw [(cons.inj htail).1] at hd
        cases hd

theorem newline_notMem_writeInt (n : Int64) : newline ∉ writeInt n := by
  rw [writeInt, mem_append, not_or]
  refine ⟨by split_ifs <;> decide, fun h => ?_⟩
  exact absurd (isDigit_of_mem_writeNat h) (by decide)

/-! ## The two headers -/

/-- What follows a text. -/
def expect (text : String) (data : List UInt8) : Option (List UInt8) :=
  if (utf8 text).isPrefixOf data then some (data.drop (utf8 text).length) else none

@[simp] theorem expect_append (text : String) (rest : List UInt8) :
    expect text (utf8 text ++ rest) = some rest := by
  simp [expect]

/-- A codec that reads what it writes. -/
def JsonCodec.ofBody {H : Type} (body : H → List UInt8) (read : List UInt8 → Option H)
    (hline : ∀ h, newline ∉ body h) (hread : ∀ h, read (body h ++ [0x7d]) = some h) :
    JsonCodec H where
  marshal h := 0x7b :: (body h ++ [0x7d])
  unmarshal data := match read data.tail with
    | some h => if data = 0x7b :: (body h ++ [0x7d]) then .ok h else .error "invalid JSON"
    | none => .error "invalid JSON"
  object h := ⟨body h, rfl⟩
  line h := by
    rw [mem_cons, mem_append, not_or, not_or]
    exact ⟨by decide, hline h, by decide⟩
  unmarshal_marshal h := by simp [hread h]

def itemBody (h : ItemHeader) : List UInt8 :=
  utf8 "\"type\":\"" ++ (quoted h.type ++ (utf8 ",\"length\":" ++ (writeInt h.length ++
    (utf8 ",\"content_type\":\"" ++ (quoted h.contentType ++
      (utf8 ",\"filename\":\"" ++ quoted h.filename))))))

def readItem (data : List UInt8) : Option ItemHeader := do
  let (type, rest) ← readString (← expect "\"type\":\"" data)
  let (length, rest) := readInt (← expect ",\"length\":" rest)
  let (contentType, rest) ← readString (← expect ",\"content_type\":\"" rest)
  let (filename, _) ← readString (← expect ",\"filename\":\"" rest)
  return ⟨type, length, contentType, filename⟩

theorem newline_notMem_itemBody (h : ItemHeader) : newline ∉ itemBody h := by
  simp only [itemBody, mem_append, not_or]
  exact ⟨by decide, newline_notMem_quoted _, by decide, newline_notMem_writeInt _, by decide,
    newline_notMem_quoted _, by decide, newline_notMem_quoted _⟩

theorem readItem_itemBody (h : ItemHeader) : readItem (itemBody h ++ [0x7d]) = some h := by
  have hnumber (rest : List UInt8) :
      readInt (writeInt h.length ++ (utf8 ",\"content_type\":\"" ++ rest)) =
        (h.length, utf8 ",\"content_type\":\"" ++ rest) := readInt_writeInt h.length _
  simp [itemBody, readItem, hnumber]

/-- A codec for `ItemHeader`. -/
def itemCodec : JsonCodec ItemHeader :=
  .ofBody itemBody readItem newline_notMem_itemBody readItem_itemBody

/-- The SDK of an envelope, or `null`. -/
def sdkBody : Option SDK → List UInt8
  | none => utf8 "null"
  | some sdk => utf8 "\x7b\"name\":\"" ++ (quoted sdk.name ++
    (utf8 ",\"version\":\"" ++ (quoted sdk.version ++ [0x7d])))

def readSDK (data : List UInt8) : Option (Option SDK) :=
  match expect "\x7b\"name\":\"" data with
  | none => some none
  | some rest => do
    let (name, rest) ← readString rest
    let (version, _) ← readString (← expect ",\"version\":\"" rest)
    return some ⟨name, version⟩

def headerBody (h : EnvelopeHeader) : List UInt8 :=
  utf8 "\"event_id\":\"" ++ (quoted h.eventId ++ (utf8 ",\"dsn\":\"" ++ (quoted h.dsn ++
    (utf8 ",\"sent_at\":\"" ++ (quoted h.sentAt ++ (utf8 ",\"sdk\":" ++ sdkBody h.sdk))))))

def readHeader (data : List UInt8) : Option EnvelopeHeader := do
  let (eventId, rest) ← readString (← expect "\"event_id\":\"" data)
  let (dsn, rest) ← readString (← expect ",\"dsn\":\"" rest)
  let (sentAt, rest) ← readString (← expect ",\"sent_at\":\"" rest)
  return ⟨eventId, dsn, sentAt, ← readSDK (← expect ",\"sdk\":" rest)⟩

theorem newline_notMem_headerBody (h : EnvelopeHeader) : newline ∉ headerBody h := by
  have hsdk : newline ∉ sdkBody h.sdk := by
    cases h.sdk with
    | none => decide
    | some sdk =>
      simp only [sdkBody, mem_append, not_or]
      exact ⟨by decide, newline_notMem_quoted _, by decide, newline_notMem_quoted _, by decide⟩
  simp only [headerBody, mem_append, not_or]
  exact ⟨by decide, newline_notMem_quoted _, by decide, newline_notMem_quoted _, by decide,
    newline_notMem_quoted _, by decide, hsdk⟩

theorem readHeader_headerBody (h : EnvelopeHeader) :
    readHeader (headerBody h ++ [0x7d]) = some h := by
  have hsdk : readSDK (sdkBody h.sdk ++ [0x7d]) = some h.sdk := by
    cases h.sdk with
    | none => decide
    | some sdk => simp [sdkBody, readSDK]
  simp [headerBody, readHeader, hsdk]

/-- A codec for `EnvelopeHeader`. -/
def headerCodec : JsonCodec EnvelopeHeader :=
  .ofBody headerBody readHeader newline_notMem_headerBody readHeader_headerBody

end Urgentry.Envelope
