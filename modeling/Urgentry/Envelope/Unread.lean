import Urgentry.Envelope.Parse
import Mathlib.Data.List.TakeWhile

/-!
# What the reader leaves unread

`Parse` returns without an error in four places. Two of them are ends of the input: there is nothing
behind the last item but newlines. In the other two a line that should be a header is blank, and
then the reader stops, whatever follows: it takes a blank first line for an envelope without items,
and a blank line between items for the end.

## Accounting

`Reads` cuts the input into the header line, and for each item its header line and its payload, with
newlines between them, and then what is left. The newlines in front of an item are skipped, so only
a line with other white space is a blank line between items.

So the input is read to its end unless a blank line stands where a header is expected and something
other than white space follows it. `headerPlaces` are the places where a header is expected, and
`Gapless` says that there is no such line.

## Main results

* `parse_reads_all_iff`: what is read and what is left of an input that is accepted, and that
  nothing but white space is left exactly if there is no gap;
* `parse_drops_items`: a blank first line, and a blank line between items.
-/

namespace Urgentry

open List

namespace Envelope

/-! ## The end of the loop -/

/-- Only white space. -/
def Blank (data : List UInt8) : Prop := trimSpace data = []
deriving Decidable

/-- The places where the loop of `Parse` looks for an item. -/
def places (lib : Lib) (rest : List UInt8) : List (List UInt8) :=
  match _h : nextItem lib rest with
  | .ok (some (_, next)) => rest :: places lib next
  | .ok none => [rest]
  | .error _ => [rest]
termination_by rest.length
decreasing_by exact length_nextItem_lt _h

/-- What is behind the line at which the loop ends. -/
def unreadItems (lib : Lib) (rest : List UInt8) : List UInt8 :=
  match _h : nextItem lib rest with
  | .ok (some (_, next)) => unreadItems lib next
  | .ok none => (splitLine (trimNewlines rest)).2
  | .error _ => (splitLine (trimNewlines rest)).2
termination_by rest.length
decreasing_by exact length_nextItem_lt _h

section Loop

variable {lib : Lib} {rest next : List UInt8} {item : Item}

theorem places_of_end (h : nextItem lib rest = .ok none) : places lib rest = [rest] := by
  rw [places]
  split <;> simp_all

theorem unreadItems_of_end (h : nextItem lib rest = .ok none) :
    unreadItems lib rest = (splitLine (trimNewlines rest)).2 := by
  rw [unreadItems]
  split <;> simp_all

/-- The loop ends at a blank line, which may be empty because the input has ended. -/
theorem blank_of_end (h : nextItem lib rest = .ok none) :
    Blank (splitLine (trimNewlines rest)).1 := by
  rw [nextItem] at h
  split_ifs at h with hnil
  · rw [hnil]
    decide
  · dsimp only at h
    split at h
    next hline => exact hline
    next =>
      split at h
      next => cases h
      next =>
        split at h
        next => cases h
        next => cases h

variable (h : nextItem lib rest = .ok (some (item, next)))

include h

theorem places_of_item : places lib rest = rest :: places lib next := by
  rw [places]
  split <;> simp_all

theorem unreadItems_of_item : unreadItems lib rest = unreadItems lib next := by
  rw [unreadItems]
  split <;> simp_all

/-- A round that finds an item has read its header line. -/
theorem header_of_nextItem :
    ¬Blank (splitLine (trimNewlines rest)).1 ∧
      lib.item.unmarshal (trimSpace (splitLine (trimNewlines rest)).1) = .ok item.header := by
  rw [nextItem] at h
  split at h
  next => cases h
  next =>
    dsimp only at h
    split_ifs at h with hline
    · cases h
    · split at h
      next => cases h
      next ih hheader =>
        split at h
        next => cases h
        next =>
          cases h
          exact ⟨hline, hheader⟩

end Loop

variable (lib : Lib) (data : List UInt8)

/-- The places where a header is expected: the start, and, unless the first line is blank, the
places of the loop behind their newlines. -/
def headerPlaces : List (List UInt8) :=
  data :: if Blank (splitLine data).1 then [] else (places lib (splitLine data).2).map trimNewlines

/-- **There is no gap**: where a blank line stands in the place of a header, only white space
follows. -/
def Gapless : Prop :=
  ∀ place ∈ headerPlaces lib data, Blank (splitLine place).1 → Blank (splitLine place).2

/-- What is unread when `Parse` returns. -/
def unread : List UInt8 :=
  if Blank (splitLine data).1 then (splitLine data).2 else unreadItems lib (splitLine data).2

/-! ## Accounting -/

/-- A separator: a newline, or nothing at the end of the input and behind a counted payload. -/
def Separator (sep : List UInt8) : Prop := sep = [] ∨ sep = [newline]

/-- The bytes of an item: newlines, the header line, the payload, and the separators behind them. -/
structure Cut where
  (gap line lineEnd payload payloadEnd : List UInt8)

def Cut.text (c : Cut) : List UInt8 :=
  c.gap ++ (c.line ++ (c.lineEnd ++ (c.payload ++ c.payloadEnd)))

/-- The bytes are those of the item. -/
structure Cut.Fits (c : Cut) (item : Item) : Prop where
  gap : ∀ b ∈ c.gap, b = newline
  line : lib.item.unmarshal (trimSpace c.line) = .ok item.header
  lineEnd : Separator c.lineEnd
  payload : c.payload = item.payload
  payloadEnd : Separator c.payloadEnd

/-- The bytes of items, then a blank line behind newlines, and then what is left. -/
def ReadsItems (rest : List UInt8) (items : List Item) (left : List UInt8) : Prop :=
  ∃ cuts gap line lineEnd, List.Forall₂ (Cut.Fits lib) cuts items ∧ (∀ b ∈ gap, b = newline) ∧
    Blank line ∧ Separator lineEnd ∧
    rest = cuts.flatMap Cut.text ++ (gap ++ (line ++ (lineEnd ++ left)))

/-- **An input is read**: the header line, the items, and what is left; or a blank line, and what is
left. -/
def Reads (env : Envelope) (left : List UInt8) : Prop :=
  ∃ line lineEnd rest, Separator lineEnd ∧ data = line ++ (lineEnd ++ rest) ∧
    ((Blank line ∧ env = ⟨.zero, []⟩ ∧ left = rest) ∨
      (lib.header.unmarshal (trimSpace line) = .ok env.header ∧ ReadsItems lib rest env.items left))

theorem splitLine_text :
    ∃ sep, Separator sep ∧ data = (splitLine data).1 ++ (sep ++ (splitLine data).2) := by
  rw [splitLine]
  split
  next => exact ⟨[], .inl rfl, by simp⟩
  next idx hidx =>
    refine ⟨[newline], .inr rfl, ?_⟩
    obtain ⟨hlt, hat, -⟩ := findIdx?_eq_some_iff_getElem.mp hidx
    calc data = data.take idx ++ data.drop idx := (take_append_drop idx data).symm
      _ = data.take idx ++ ([newline] ++ data.drop (idx + 1)) := by
        rw [drop_eq_getElem_cons hlt, beq_iff_eq.mp hat, singleton_append]

theorem trimNewlines_text (rest : List UInt8) :
    ∃ gap, (∀ b ∈ gap, b = newline) ∧ rest = gap ++ trimNewlines rest := by
  refine ⟨rest.takeWhile (· == newline), fun b hb => ?_, (takeWhile_append_dropWhile ..).symm⟩
  have hnewline := mem_takeWhile_imp hb
  exact beq_iff_eq.mp hnewline

variable {lib : Lib} {data rest : List UInt8} {items : List Item}

theorem takePayload_text {ih : ItemHeader} {payload : List UInt8}
    (h : takePayload lib ih data = .ok (payload, rest)) :
    ∃ sep, Separator sep ∧ data = payload ++ (sep ++ rest) := by
  rw [takePayload] at h
  split at h
  next =>
    split at h
    next => cases h
    next =>
      cases h
      exact ⟨[], .inl rfl, (take_append_drop ..).symm⟩
  next =>
    obtain ⟨sep, hsep, hdata⟩ := splitLine_text data
    rw [Except.ok.inj h] at hdata
    exact ⟨sep, hsep, hdata⟩

/-- **The items are accounted for**, and what is behind them. -/
theorem parseItems_reads (h : parseItems lib rest = .ok items) :
    ReadsItems lib rest items (unreadItems lib rest) := by
  induction items generalizing rest with
  | nil =>
    rw [parseItems_eq] at h
    split at h
    next => cases h
    next hend =>
      obtain ⟨gap, hgap, hrest⟩ := trimNewlines_text rest
      obtain ⟨sep, hsep, hline⟩ := splitLine_text (trimNewlines rest)
      refine ⟨[], gap, (splitLine (trimNewlines rest)).1, sep, .nil, hgap,
        blank_of_end hend, hsep, ?_⟩
      rw [unreadItems_of_end hend, ← hline]
      exact hrest
    next =>
      split at h
      next => cases h
      next => cases h
  | cons item items ih =>
    rw [parseItems_eq] at h
    split at h
    next => cases h
    next => cases h
    next first next hnext =>
      split at h
      next => cases h
      next items' hitems =>
        cases h
        obtain ⟨cuts, gap', line', sep', hcuts, hgap', hblank, hsep', htext⟩ := ih hitems
        obtain ⟨gap, hgap, hrest⟩ := trimNewlines_text rest
        obtain ⟨sep, hsep, hline⟩ := splitLine_text (trimNewlines rest)
        obtain ⟨payloadEnd, hend, hpayload⟩ := takePayload_text (of_nextItem hnext).2
        refine ⟨⟨gap, (splitLine (trimNewlines rest)).1, sep, item.payload,
          payloadEnd⟩ :: cuts, gap',
          line', sep', .cons ⟨hgap, (header_of_nextItem hnext).2, hsep, rfl, hend⟩ hcuts,
            hgap', hblank,
          hsep', ?_⟩
        rw [unreadItems_of_item hnext, flatMap_cons, append_assoc, ← htext]
        calc rest = gap ++ trimNewlines rest := hrest
          _ = gap ++ ((splitLine (trimNewlines rest)).1 ++
              (sep ++ (item.payload ++ (payloadEnd ++ next)))) := by rw [← hpayload, ← hline]
          _ = _ := by simp only [Cut.text, append_assoc]

/-- **What is left of the items** is blank exactly if no blank line of the loop has something behind
it. -/
theorem blank_unreadItems_iff (h : parseItems lib rest = .ok items) :
    Blank (unreadItems lib rest) ↔ ∀ place ∈ (places lib rest).map trimNewlines,
      Blank (splitLine place).1 → Blank (splitLine place).2 := by
  induction items generalizing rest with
  | nil =>
    rw [parseItems_eq] at h
    split at h
    next => cases h
    next hend =>
      rw [unreadItems_of_end hend, places_of_end hend, map_singleton, forall_mem_singleton]
      exact ⟨fun hblank _ => hblank, fun hplace => hplace (blank_of_end hend)⟩
    next =>
      split at h
      next => cases h
      next => cases h
  | cons item items ih =>
    rw [parseItems_eq] at h
    split at h
    next => cases h
    next => cases h
    next first next hnext =>
      split at h
      next => cases h
      next items' hitems =>
        cases h
        rw [unreadItems_of_item hnext, ih hitems, places_of_item hnext, map_cons, forall_mem_cons]
        exact (and_iff_right fun hblank => absurd hblank (header_of_nextItem hnext).1).symm

/-- What `Parse` has done with an input that it accepts. -/
theorem of_parse {env : Envelope} (h : parse lib data = .ok env) :
    (Blank (splitLine data).1 ∧ env = ⟨.zero, []⟩) ∨
      (¬Blank (splitLine data).1 ∧
        lib.header.unmarshal (trimSpace (splitLine data).1) = .ok env.header ∧
        parseItems lib (splitLine data).2 = .ok env.items) := by
  rw [parse] at h
  split at h
  next => cases h
  next =>
    dsimp only at h
    split at h
    next hblank =>
      cases h
      exact .inl ⟨hblank, rfl⟩
    next hline =>
      split at h
      next => cases h
      next header hheader =>
        split at h
        next => cases h
        next items hitems =>
          cases h
          exact .inr ⟨hline, hheader, hitems⟩

/-- **What is read and what is left.** An input that `Parse` accepts is cut into the header line,
the header lines and the payloads of the items, newlines and a blank line, and what is unread; and
what is unread is white space exactly if no blank line stands in the place of a header with
something else behind it. -/
theorem parse_reads_all_iff {lib : Lib} {data : List UInt8} {env : Envelope}
    (h : parse lib data = .ok env) :
    Reads lib data env (unread lib data) ∧ (Blank (unread lib data) ↔ Gapless lib data) := by
  obtain ⟨sep, hsep, hdata⟩ := splitLine_text data
  rcases of_parse h with ⟨hblank, henv⟩ | ⟨hline, hheader, hitems⟩
  · have hunread : unread lib data = (splitLine data).2 := if_pos hblank
    rw [hunread]
    refine ⟨⟨_, sep, _, hsep, hdata, .inl ⟨hblank, henv, rfl⟩⟩, ?_⟩
    rw [Gapless, headerPlaces, if_pos hblank, forall_mem_singleton]
    exact ⟨fun hrest _ => hrest, fun hplace => hplace hblank⟩
  · have hunread : unread lib data = unreadItems lib (splitLine data).2 := if_neg hline
    rw [hunread]
    refine ⟨⟨_, sep, _, hsep, hdata, .inr ⟨hheader, parseItems_reads hitems⟩⟩, ?_⟩
    rw [blank_unreadItems_iff hitems, Gapless, headerPlaces, if_neg hline, forall_mem_cons]
    exact (and_iff_right fun hblank => absurd hblank hline).symm

/-! ## Bytes that are not white space -/

/-- A byte that none of the texts has is not dropped. -/
theorem mem_dropTexts {texts : List (List UInt8)} {b : UInt8} (h : ∀ text ∈ texts, b ∉ text) (n : ℕ)
    (hb : b ∈ data) : b ∈ dropTexts texts n data := by
  induction n generalizing data with
  | zero => exact hb
  | succ n ih =>
    rw [dropTexts]
    split
    next text htext =>
      refine ih ?_
      have hprefix := find?_some htext
      obtain ⟨rest, rfl⟩ := isPrefixOf_iff_prefix.mp hprefix
      rw [drop_left]
      exact (mem_append.mp hb).resolve_left (h text (mem_of_find?_eq_some htext))
    next => exact hb

/-- An opening brace is not white space. -/
theorem not_blank_of_mem (h : 0x7b ∈ data) : ¬Blank data := by
  have hfront := mem_dropTexts (show ∀ text ∈ spaces, (0x7b : UInt8) ∉ text by decide) data.length h
  have hback := mem_dropTexts (show ∀ text ∈ spaces.map reverse, (0x7b : UInt8) ∉ text by decide)
    (dropTexts spaces data.length data).length (mem_reverse.mpr hfront)
  intro hblank
  have hmem : (0x7b : UInt8) ∈ trimSpace data := mem_reverse.mpr hback
  rw [Blank] at hblank
  rw [hblank] at hmem
  exact not_mem_nil hmem

theorem brace_mem_marshal {H : Type} (codec : JsonCodec H) (h : H) : 0x7b ∈ codec.marshal h := by
  obtain ⟨body, hbody⟩ := codec.object h
  rw [hbody]
  exact mem_cons_self

/-- The two items of `twoItems` are read to the end. -/
theorem parse_reads_all_twoItems : parse jsonLib (serialize jsonLib twoItems) = .ok twoItems ∧
    Reads jsonLib (serialize jsonLib twoItems) twoItems
      (unread jsonLib (serialize jsonLib twoItems)) ∧
    (Blank (unread jsonLib (serialize jsonLib twoItems)) ↔
      Gapless jsonLib (serialize jsonLib twoItems)) := by
  have hparse : parse jsonLib (serialize jsonLib twoItems) = .ok twoItems := by
    rw [serialize, parse_header twoItems.header (splitLine_append (jsonLib.header.line _) _),
      parseItems_flatMap twoItems_framed]
  exact ⟨hparse, parse_reads_all_iff hparse⟩

/-- **Items are dropped.** An envelope behind an empty line is taken for one without items, and the
items behind a line with a space are dropped. -/
theorem parse_drops_items :
    (parse jsonLib (newline :: serialize jsonLib twoItems) = .ok ⟨.zero, []⟩ ∧
      ¬Blank (unread jsonLib (newline :: serialize jsonLib twoItems))) ∧
    ∃ data, data = jsonLib.header.marshal twoItems.header ++
        newline :: (0x20 :: newline :: twoItems.items.flatMap (Item.serialize jsonLib)) ∧
      parse jsonLib data = .ok ⟨twoItems.header, []⟩ ∧ ¬Blank (unread jsonLib data) := by
  have hempty : ∀ rest, splitLine (newline :: rest) = ([], rest) := fun rest =>
    @splitLine_append [] not_mem_nil rest
  have hspace : ∀ rest, splitLine (0x20 :: newline :: rest) = ([0x20], rest) := fun rest =>
    @splitLine_append [0x20] (by decide) rest
  have hblank : Blank [] ∧ Blank [0x20] := by decide
  have htrim : ∀ rest, trimNewlines (0x20 :: newline :: rest) = 0x20 :: newline :: rest := by
    intro rest
    simp [trimNewlines, newline]
  have hend : ∀ lib rest, nextItem lib (0x20 :: newline :: rest) = .ok none := by
    intro lib rest
    have hline : trimSpace [0x20] = [] := hblank.2
    rw [nextItem, htrim, hspace]
    simp [hline]
  have hheader := not_blank_of_mem (brace_mem_marshal jsonLib.header twoItems.header)
  refine ⟨⟨?_, ?_⟩, _, rfl, ?_, ?_⟩
  · have hnil : trimSpace [] = [] := hblank.1
    simp [parse, hempty, hnil]
  · rw [unread]
    exact not_blank_of_mem (mem_append_left _ (brace_mem_marshal jsonLib.header _))
  · rw [parse_header twoItems.header (splitLine_append (jsonLib.header.line _) _),
      parseItems_eq, hend]
  · rw [unread, splitLine_append (jsonLib.header.line _), if_neg hheader,
      unreadItems_of_end (hend _ _)]
    exact not_blank_of_mem
      (mem_append_left _ (mem_append_left _ (brace_mem_marshal jsonLib.item _)))

end Envelope

end Urgentry
