import Urgentry.Envelope.Header

/-!
# The envelope format

An envelope is a header line and a sequence of items. An item is a header line and a payload, and
the payload is framed in one of two ways: its header announces a positive length and the payload is
that many bytes, whatever they are, or it announces none and the payload is the rest of the line.

```
header ⏎  item header ⏎ payload ⏎  item header ⏎ payload ⏎  …
```

The reader stands in one of two places when it looks for the next item: behind the newline that
ended a line, or, after a payload that was counted, in front of the newline that separates it from
the next item. It skips newlines there, so the two places are one to it (`parseItems_newline`), and
that is the invariant of the induction over the items.

Bytes are lists. The headers are written and read by `encoding/json`, which is a parameter with the
three properties that the format rests on: `JsonCodec`. The examples use the codecs of `jsonLib`.

## Main results

* `parse_serialize`: an envelope whose items are framed is read back as it was written, with the
  final newline and without it.
* `parse_framed`: an envelope that is read has framed items, whatever the bytes were.
-/

namespace Urgentry

open List

/-! ## Types -/

/-- `Item`. -/
structure Envelope.Item where
  header : Envelope.ItemHeader
  payload : List UInt8
deriving DecidableEq

/-- `Envelope`. -/
structure Envelope where
  header : Envelope.EnvelopeHeader
  items : List Envelope.Item
deriving DecidableEq

namespace Envelope

/-- What the reader takes from the standard library. -/
structure Lib where
  header : JsonCodec EnvelopeHeader
  item : JsonCodec ItemHeader
  /-- The verb `%q`. -/
  quote : String → String

/-! ## White space -/

/-- The UTF-8 encodings of the code points with the property `White_Space`. -/
def spaces : List (List UInt8) :=
  [[0x09], [0x0a], [0x0b], [0x0c], [0x0d], [0x20], [0xc2, 0x85], [0xc2, 0xa0], [0xe1, 0x9a, 0x80],
    [0xe2, 0x80, 0x80], [0xe2, 0x80, 0x81], [0xe2, 0x80, 0x82], [0xe2, 0x80, 0x83],
    [0xe2, 0x80, 0x84], [0xe2, 0x80, 0x85], [0xe2, 0x80, 0x86], [0xe2, 0x80, 0x87],
    [0xe2, 0x80, 0x88], [0xe2, 0x80, 0x89], [0xe2, 0x80, 0x8a], [0xe2, 0x80, 0xa8],
    [0xe2, 0x80, 0xa9], [0xe2, 0x80, 0xaf], [0xe2, 0x81, 0x9f], [0xe3, 0x80, 0x80]]

/-- At most `n` of these texts are dropped from the front. -/
def dropTexts (texts : List (List UInt8)) : ℕ → List UInt8 → List UInt8
  | 0, data => data
  | n + 1, data =>
    match texts.find? (·.isPrefixOf data) with
    | some text => dropTexts texts n (data.drop text.length)
    | none => data

variable (data : List UInt8)

/-- `bytes.TrimSpace`. -/
def trimSpace : List UInt8 :=
  let front := dropTexts spaces data.length data
  (dropTexts (spaces.map List.reverse) front.length front.reverse).reverse

/-- Nothing is dropped in front of a byte with which none of the texts starts. -/
theorem dropTexts_cons {texts : List (List UInt8)} {b : UInt8}
    (h : ∀ text ∈ texts, text.head?.any (· != b) = true) (n : ℕ) (data : List UInt8) :
    dropTexts texts n (b :: data) = b :: data := by
  cases n with
  | zero => rfl
  | succ n =>
    have hnone : texts.find? (·.isPrefixOf (b :: data)) = none := by
      rw [find?_eq_none]
      intro text htext hpre
      have hhead := h text htext
      cases text with
      | nil => simp at hhead
      | cons c text => simp_all
    rw [dropTexts, hnone]

/-- An object is not trimmed. -/
@[simp]
theorem trimSpace_object (body : List UInt8) :
    trimSpace (0x7b :: (body ++ [0x7d])) = 0x7b :: (body ++ [0x7d]) := by
  have hfront : ∀ n, dropTexts spaces n (0x7b :: (body ++ [0x7d])) = 0x7b :: (body ++ [0x7d]) :=
    fun n => dropTexts_cons (by decide) n _
  rw [trimSpace, hfront]
  have hreverse :
      (0x7b :: (body ++ [0x7d]) : List UInt8).reverse = 0x7d :: (body.reverse ++ [0x7b]) := by
    simp
  rw [hreverse, dropTexts_cons (by decide), ← hreverse, reverse_reverse]

/-! ## The reader -/

/-- `splitLine`. -/
def splitLine : List UInt8 × List UInt8 :=
  match data.idxOf? newline with
  | none => (data, [])
  | some idx => (data.take idx, data.drop (idx + 1))

theorem length_splitLine_lt {data : List UInt8} (h : data ≠ []) :
    (splitLine data).2.length < data.length := by
  have hpos := length_pos_iff.mpr h
  rw [splitLine]
  split
  · exact hpos
  · rw [length_drop]
    omega

theorem length_splitLine_le : (splitLine data).2.length ≤ data.length := by
  by_cases h : data = []
  · rw [h]
    exact Nat.le_refl _
  · exact Nat.le_of_lt (length_splitLine_lt h)

/-- `bytes.TrimLeft(rest, "\n")`. -/
def trimNewlines (rest : List UInt8) : List UInt8 := rest.dropWhile (· == newline)

/-- The error of an item that is cut short. -/
def shortItem (lib : Lib) (ih : ItemHeader) (remain : ℕ) : String :=
  "envelope: item " ++ lib.quote ih.type ++ " declared length " ++ toString ih.length.toInt ++
    " but only " ++ toString remain ++ " bytes remain"

/-- The payload of an item and what follows it. -/
def takePayload (lib : Lib) (ih : ItemHeader) (afterItemHeader : List UInt8) :
    Except String (List UInt8 × List UInt8) :=
  if 0 < ih.length.toInt then
    if (afterItemHeader.length : ℤ) < ih.length.toInt then
      .error (shortItem lib ih afterItemHeader.length)
    else
      .ok (afterItemHeader.take ih.length.toInt.toNat, afterItemHeader.drop ih.length.toInt.toNat)
  else .ok (splitLine afterItemHeader)

variable {lib : Lib}

theorem length_takePayload_le {ih : ItemHeader} {data payload rest : List UInt8}
    (h : takePayload lib ih data = .ok (payload, rest)) : rest.length ≤ data.length := by
  rw [takePayload] at h
  split at h
  · split at h
    · cases h
    · cases h
      rw [length_drop]
      exact Nat.sub_le _ _
  · have hrest : (splitLine data).2 = rest := congrArg Prod.snd (Except.ok.inj h)
    rw [← hrest]
    exact length_splitLine_le data

/-- One round of the loop of `Parse`: the next item and what follows it, or nothing when the loop
ends. -/
def nextItem (lib : Lib) (rest : List UInt8) : Except String (Option (Item × List UInt8)) :=
  if trimNewlines rest = [] then .ok none
  else
    let itemHeaderLine := trimSpace (splitLine (trimNewlines rest)).1
    if itemHeaderLine = [] then .ok none
    else
      match lib.item.unmarshal itemHeaderLine with
      | .error err => .error ("envelope: invalid item header JSON: " ++ err)
      | .ok ih =>
        match takePayload lib ih (splitLine (trimNewlines rest)).2 with
        | .error err => .error err
        | .ok (payload, next) => .ok (some (⟨ih, payload⟩, next))

/-- What a round that finds an item has done. -/
theorem of_nextItem {rest next : List UInt8} {item : Item}
    (h : nextItem lib rest = .ok (some (item, next))) :
    trimNewlines rest ≠ [] ∧
      takePayload lib item.header (splitLine (trimNewlines rest)).2 = .ok (item.payload, next) := by
  rw [nextItem] at h
  split_ifs at h with hrest
  · cases h
  · dsimp only at h
    split at h
    · cases h
    · split at h
      · cases h
      · split at h
        · cases h
        · next hpayload =>
          cases h
          exact ⟨hrest, hpayload⟩

/-- The rounds come to an end. -/
theorem length_nextItem_lt {rest next : List UInt8} {item : Item}
    (h : nextItem lib rest = .ok (some (item, next))) : next.length < rest.length := by
  obtain ⟨hrest, hpayload⟩ := of_nextItem h
  have hnext := length_takePayload_le hpayload
  have hline := length_splitLine_lt hrest
  have htrim : (trimNewlines rest).length ≤ rest.length := (dropWhile_sublist _).length_le
  omega

/-- The loop of `Parse`. -/
def parseItems (lib : Lib) (rest : List UInt8) : Except String (List Item) :=
  match _h : nextItem lib rest with
  | .error err => .error err
  | .ok none => .ok []
  | .ok (some (item, next)) =>
    match parseItems lib next with
    | .error err => .error err
    | .ok items => .ok (item :: items)
termination_by rest.length
decreasing_by exact length_nextItem_lt _h

theorem parseItems_eq (lib : Lib) (rest : List UInt8) : parseItems lib rest =
    match nextItem lib rest with
    | .error err => .error err
    | .ok none => .ok []
    | .ok (some (item, next)) =>
      match parseItems lib next with
      | .error err => .error err
      | .ok items => .ok (item :: items) := by
  rw [parseItems]
  split <;> simp_all

/-- `Parse`. -/
def parse (lib : Lib) (data : List UInt8) : Except String Envelope :=
  if data = [] then .error "envelope: empty input"
  else
    let headerLine := trimSpace (splitLine data).1
    if headerLine = [] then .ok ⟨.zero, []⟩
    else
      match lib.header.unmarshal headerLine with
      | .error err => .error ("envelope: invalid header JSON: " ++ err)
      | .ok header =>
        match parseItems lib (splitLine data).2 with
        | .error err => .error err
        | .ok items => .ok ⟨header, items⟩

/-! ## The writer -/

/-- An item as bytes: its header line and its payload, each with a newline behind it. -/
def Item.serialize (lib : Lib) (item : Item) : List UInt8 :=
  lib.item.marshal item.header ++ newline :: (item.payload ++ [newline])

/-- An envelope as bytes. -/
def serialize (lib : Lib) (env : Envelope) : List UInt8 :=
  lib.header.marshal env.header ++ newline :: env.items.flatMap (Item.serialize lib)

/-- The payload of the item can be told from what follows it: it has the length its header
announces, or the header announces none and it is part of a line. The reader takes a negative length
for none. -/
def Item.Framed (item : Item) : Prop :=
  0 < item.header.length.toInt ∧ (item.payload.length : ℤ) = item.header.length.toInt ∨
    item.header.length.toInt ≤ 0 ∧ newline ∉ item.payload
deriving Decidable

/-! ## Reading what was written -/

section RoundTrip

variable {lib : Lib} {line : List UInt8} {item : Item} {items : List Item}

theorem idxOf?_newline (h : newline ∉ line) (rest : List UInt8) :
    (line ++ newline :: rest).idxOf? newline = some line.length := by
  induction line with
  | nil => simp [idxOf?, findIdx?_cons]
  | cons b line ih =>
    rw [mem_cons, not_or] at h
    have hb : (b == newline) = false := by simpa using Ne.symm h.1
    rw [cons_append, idxOf?_cons, hb, ih h.2]
    rfl

/-- A line with its newline. -/
theorem splitLine_append (h : newline ∉ line) (rest : List UInt8) :
    splitLine (line ++ newline :: rest) = (line, rest) := by
  rw [splitLine, idxOf?_newline h]
  simp

/-- A line without one. -/
theorem splitLine_of_not_mem (h : newline ∉ line) : splitLine line = (line, []) := by
  rw [splitLine, idxOf?_eq_none_iff.mpr h]

/-- **Where the reader stands** does not matter: in front of a newline or behind it. -/
@[simp]
theorem parseItems_newline (rest : List UInt8) :
    parseItems lib (newline :: rest) = parseItems lib rest := by
  have htrim : trimNewlines (newline :: rest) = trimNewlines rest := by simp [trimNewlines]
  have hnext : nextItem lib (newline :: rest) = nextItem lib rest := by
    rw [nextItem, htrim, nextItem]
  rw [parseItems_eq, hnext, ← parseItems_eq]

@[simp]
theorem parseItems_nil : parseItems lib [] = .ok [] := by
  rw [parseItems_eq]
  rfl

/-- The header line is read, and the reader goes on with the payload. -/
theorem parseItems_header {ih : ItemHeader} {data payload next : List UInt8}
    (h : takePayload lib ih data = .ok (payload, next)) :
    parseItems lib (lib.item.marshal ih ++ newline :: data) =
      match parseItems lib next with
      | .error err => .error err
      | .ok items => .ok (⟨ih, payload⟩ :: items) := by
  obtain ⟨body, hbody⟩ := lib.item.object ih
  have htrim : trimNewlines (lib.item.marshal ih ++ newline :: data) =
      lib.item.marshal ih ++ newline :: data := by
    rw [hbody]
    rfl
  have hne : lib.item.marshal ih ++ newline :: data ≠ [] := by simp
  have hspace : trimSpace (lib.item.marshal ih) = lib.item.marshal ih := by
    rw [hbody, trimSpace_object]
  have hline : lib.item.marshal ih ≠ [] := by simp [hbody]
  have hnext : nextItem lib (lib.item.marshal ih ++ newline :: data) =
      .ok (some (⟨ih, payload⟩, next)) := by
    rw [nextItem, htrim, if_neg hne, splitLine_append (lib.item.line ih)]
    simp only [hspace, if_neg hline, lib.item.unmarshal_marshal, h]
  rw [parseItems_eq, hnext]

/-- The payload of a framed item, in front of its newline. What is left stands at that newline or
behind it. -/
theorem takePayload_append (lib : Lib) (h : item.Framed) (rest : List UInt8) :
    takePayload lib item.header (item.payload ++ newline :: rest) =
      .ok (item.payload, newline :: rest) ∨
      takePayload lib item.header (item.payload ++ newline :: rest) = .ok (item.payload, rest) := by
  rcases h with ⟨hpos, hlength⟩ | ⟨hzero, hline⟩
  · left
    have htoNat : item.header.length.toInt.toNat = item.payload.length := by omega
    rw [takePayload, if_pos hpos, if_neg, htoNat, take_left, drop_left]
    rw [length_append]
    omega
  · right
    rw [takePayload, if_neg (by omega), splitLine_append hline]

/-- The payload of a framed item at the end of the bytes. -/
theorem takePayload_last (lib : Lib) (h : item.Framed) :
    takePayload lib item.header item.payload = .ok (item.payload, []) := by
  rcases h with ⟨hpos, hlength⟩ | ⟨hzero, hline⟩
  · have htoNat : item.header.length.toInt.toNat = item.payload.length := by omega
    rw [takePayload, if_pos hpos, if_neg (by omega), htoNat, take_length, drop_length]
  · rw [takePayload, if_neg (by omega), splitLine_of_not_mem hline]

/-- **One item.** -/
theorem parseItems_serialize (h : item.Framed) (rest : List UInt8) :
    parseItems lib (item.serialize lib ++ rest) =
      match parseItems lib rest with
      | .error err => .error err
      | .ok items => .ok (item :: items) := by
  have hdata : item.serialize lib ++ rest =
      lib.item.marshal item.header ++ newline :: (item.payload ++ newline :: rest) := by
    simp [Item.serialize]
  rw [hdata]
  rcases takePayload_append lib h rest with hpayload | hpayload
  · rw [parseItems_header hpayload, parseItems_newline]
  · rw [parseItems_header hpayload]

/-- **All items.** -/
theorem parseItems_flatMap (h : ∀ item ∈ items, item.Framed) :
    parseItems lib (items.flatMap (Item.serialize lib)) = .ok items := by
  induction items with
  | nil => exact parseItems_nil
  | cons item items ih =>
    rw [forall_mem_cons] at h
    rw [flatMap_cons, parseItems_serialize h.1, ih h.2]

/-- The last item may end without its newline. -/
theorem parseItems_dropLast (h : ∀ item ∈ items, item.Framed) :
    parseItems lib (items.flatMap (Item.serialize lib)).dropLast = .ok items := by
  induction items with
  | nil => exact parseItems_nil
  | cons item items ih =>
    rw [forall_mem_cons] at h
    rw [flatMap_cons]
    by_cases hlast : items.flatMap (Item.serialize lib) = []
    · have hitems : items = [] := by
        cases items with
        | nil => rfl
        | cons next items => simp [Item.serialize] at hlast
      have hdata : (item.serialize lib ++ items.flatMap (Item.serialize lib)).dropLast =
          lib.item.marshal item.header ++ newline :: item.payload := by
        rw [hlast, append_nil, Item.serialize, ← cons_append, ← append_assoc, dropLast_concat]
      rw [hdata, parseItems_header (takePayload_last lib h.1), parseItems_nil, hitems]
    · rw [dropLast_append_of_ne_nil hlast, parseItems_serialize h.1, ih h.2]

/-- The header line is read, and the reader goes on with the items. -/
theorem parse_header (header : EnvelopeHeader) {data rest : List UInt8}
    (h : splitLine data = (lib.header.marshal header, rest)) :
    parse lib data =
      match parseItems lib rest with
      | .error err => .error err
      | .ok items => .ok ⟨header, items⟩ := by
  obtain ⟨body, hbody⟩ := lib.header.object header
  have hspace : trimSpace (lib.header.marshal header) = lib.header.marshal header := by
    rw [hbody, trimSpace_object]
  have hline : lib.header.marshal header ≠ [] := by simp [hbody]
  have hne : data ≠ [] := by
    rintro rfl
    exact hline (congrArg Prod.fst h).symm
  rw [parse, if_neg hne]
  simp only [h, hspace, if_neg hline, lib.header.unmarshal_marshal]

/-- **An envelope is read back as it was written**, with the final newline and without it. -/
theorem parse_serialize (lib : Lib) (env : Envelope) (h : ∀ item ∈ env.items, item.Framed) :
    parse lib (serialize lib env) = .ok env ∧ parse lib (serialize lib env).dropLast = .ok env := by
  have hline := lib.header.line env.header
  constructor
  · rw [serialize, parse_header env.header (splitLine_append hline _), parseItems_flatMap h]
  · by_cases hitems : env.items.flatMap (Item.serialize lib) = []
    · -- Without items the final newline is the one behind the header.
      have hread : parseItems lib (env.items.flatMap (Item.serialize lib)) = .ok env.items :=
        parseItems_flatMap h
      rw [hitems] at hread
      rw [serialize, hitems, dropLast_concat,
        parse_header env.header (splitLine_of_not_mem hline), hread]
    · have hdata : (serialize lib env).dropLast = lib.header.marshal env.header ++
          newline :: (env.items.flatMap (Item.serialize lib)).dropLast := by
        rw [serialize, dropLast_append_of_ne_nil (by simp), dropLast_cons_of_ne_nil hitems]
      rw [hdata, parse_header env.header (splitLine_append hline _), parseItems_dropLast h]

end RoundTrip

/-! ## An envelope with both kinds of items -/

/-- The reader with the codecs of the headers. -/
def jsonLib : Lib := ⟨headerCodec, itemCodec, fun s => "\"" ++ s ++ "\""⟩

/-- A counted payload with a newline in it. -/
def countedItem : Item := ⟨⟨"attachment", 3, "", "a.txt"⟩, [0x61, 0x0a, 0x62]⟩

/-- A payload that is a line. -/
def lineItem : Item := ⟨⟨"event", -1, "", ""⟩, [0x7b, 0x7d]⟩

def twoItems : Envelope :=
  ⟨⟨"9ec79c33ec9942ab8353589fcb2e04dc", "", "", none⟩, [countedItem, lineItem]⟩

theorem twoItems_framed : ∀ item ∈ twoItems.items, item.Framed := by decide

theorem parse_serialize_twoItems : parse jsonLib (serialize jsonLib twoItems) = .ok twoItems ∧
    parse jsonLib (serialize jsonLib twoItems).dropLast = .ok twoItems :=
  parse_serialize jsonLib twoItems twoItems_framed

/-! ## What is read -/

theorem newline_not_mem_splitLine (data : List UInt8) : newline ∉ (splitLine data).1 := by
  induction data with
  | nil => simp [splitLine]
  | cons b data ih =>
    by_cases hb : b = newline
    · simp [splitLine, idxOf?_cons, hb]
    · have hne : (b == newline) = false := by simpa using hb
      have hfirst : (splitLine (b :: data)).1 = b :: (splitLine data).1 := by
        rw [splitLine, idxOf?_cons, hne, splitLine]
        cases data.idxOf? newline with
        | none => rfl
        | some idx => rfl
      rw [hfirst, mem_cons, not_or]
      exact ⟨Ne.symm hb, ih⟩

variable {lib : Lib}

/-- The payload that is taken is framed. -/
theorem takePayload_framed {ih : ItemHeader} {data payload rest : List UInt8}
    (h : takePayload lib ih data = .ok (payload, rest)) : (Item.mk ih payload).Framed := by
  rw [takePayload] at h
  unfold Item.Framed
  dsimp only
  split at h
  · next hpos =>
    split at h
    · cases h
    · cases h
      left
      rw [length_take]
      omega
  · next hzero =>
    right
    have hpayload : (splitLine data).1 = payload := congrArg Prod.fst (Except.ok.inj h)
    rw [← hpayload]
    exact ⟨by omega, newline_not_mem_splitLine data⟩

theorem parseItems_framed {rest : List UInt8} {items : List Item}
    (h : parseItems lib rest = .ok items) : ∀ item ∈ items, item.Framed := by
  induction items generalizing rest with
  | nil => simp
  | cons item items ih =>
    rw [parseItems_eq] at h
    split at h
    · cases h
    · cases h
    · next first next hnext =>
      split at h
      · cases h
      · next hitems =>
        cases h
        rw [forall_mem_cons]
        exact ⟨takePayload_framed (of_nextItem hnext).2, ih hitems⟩

/-- **What is accepted is framed.** -/
theorem parse_framed {data : List UInt8} {env : Envelope} (h : parse lib data = .ok env) :
    ∀ item ∈ env.items, item.Framed := by
  rw [parse] at h
  split at h
  · cases h
  · dsimp only at h
    split at h
    · cases h
      simp
    · split at h
      · cases h
      · split at h
        · cases h
        · next hitems =>
          cases h
          exact parseItems_framed hitems

/-- **What was read is written and read again** without a change. -/
theorem parse_serialize_of_parse {data : List UInt8} {env : Envelope}
    (h : parse lib data = .ok env) :
    parse lib (serialize lib env) = .ok env := by
  rw [serialize, parse_header env.header (splitLine_append (lib.header.line _) _),
    parseItems_flatMap (parse_framed h)]

/-- Bytes with more newlines between the items, and without the one at the end. -/
theorem twoItems_written_again : ∃ data ≠ serialize jsonLib twoItems,
    parse jsonLib data = .ok twoItems ∧
      parse jsonLib (serialize jsonLib twoItems) = .ok twoItems := by
  let data := jsonLib.header.marshal twoItems.header ++ newline :: newline ::
    (countedItem.serialize jsonLib ++
      newline :: (jsonLib.item.marshal lineItem.header ++ newline :: lineItem.payload))
  have hread : parse jsonLib data = .ok twoItems := by
    rw [parse_header _ (splitLine_append (jsonLib.header.line _) _), parseItems_newline,
      parseItems_serialize (by decide), parseItems_newline,
      parseItems_header (takePayload_last jsonLib (by decide)), parseItems_nil]
    rfl
  refine ⟨data, fun heq => ?_, hread, parse_serialize_of_parse hread⟩
  have hlength := congrArg List.length heq
  simp only [data, serialize, Item.serialize, twoItems, flatMap_cons, flatMap_nil, length_append,
    length_cons, length_nil] at hlength
  omega

end Envelope

end Urgentry
