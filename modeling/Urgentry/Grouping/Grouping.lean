import Mathlib.Data.List.SplitBy
import Urgentry.Internal.Terminated

/-!
# Grouping keys

`grouping.go`. An event is put in a group by its fingerprint, or by the stack trace of its last
exception that has one, or by the type and value of the last exception, or by its message. Each rule
makes a list of components from the event, and the key is the truncated SHA-256 of their
concatenation, with a zero byte behind each of them.

The digest is a parameter, and it is injective (`Digest`), so that the question is what the bytes
that are hashed say about the components.

## The separator

A component may have a zero byte in it: JSON can write one in any string. Then two lists of
components can be one concatenation, a list with `a\0fingerprint:b` in a fingerprint and one with
`a` and `b`. What the bytes determine are the parts of the components between zero bytes.

## Main results

* `groupingKey_separates_iff`: when keys separate component lists, and events;
* `colliding_fingerprints`: two events with one key and different components.
-/

namespace Urgentry

open Terminated List

/-! ## Events -/

/-- `Frame`, as far as grouping reads it. -/
structure StackFrame where
  filename : String := ""
  function : String := ""
  module : String := ""
  inApp : Option Bool := none
deriving DecidableEq

/-- `Exception`. -/
structure EventException where
  type : String := ""
  value : String := ""
  stacktrace : Option (List StackFrame) := none
deriving DecidableEq

/-- The frames of an exception. -/
def EventException.frames (exc : EventException) : List StackFrame := exc.stacktrace.getD []

/-- A normalised event, as far as grouping reads it. -/
structure GroupedEvent where
  eventID : String := ""
  message : String := ""
  fingerprint : List String := []
  exception : Option (List EventException) := none
deriving DecidableEq

/-- The exceptions of an event. -/
def GroupedEvent.exceptions (evt : GroupedEvent) : List EventException := evt.exception.getD []

/-- `Result`. -/
structure GroupingResult where
  (version groupingKey : String)
  components : List String
deriving DecidableEq

/-! ## The key of a list of components -/

/-- A hexadecimal digit. -/
def isHexDigit (c : Char) : Bool := c.isDigit || ('a' ≤ c && c ≤ 'f') || ('A' ≤ c && c ≤ 'F')

/-- The first 32 hexadecimal digits of the SHA-256 of some bytes, assumed to be injective. -/
structure Digest where
  digest : List UInt8 → String
  injective : Function.Injective digest
  hexadecimal : ∀ bytes, ∀ c ∈ (digest bytes).toList, isHexDigit c = true

/-- The bytes of a string. -/
def utf8 (s : String) : List UInt8 := s.toByteArray.data.toList

theorem utf8_injective : Function.Injective utf8 := by
  intro s t h
  have hdata : s.toByteArray.data = t.toByteArray.data := Array.toList_inj.mp h
  exact String.toByteArray_inj.mp (ByteArray.ext hdata)

/-- `Version`. -/
def groupingVersion : String := "urgentry-v1"

namespace Grouping

variable (hash : Digest) (components : List String)

/-- `hashComponents`. -/
def hashComponents : String :=
  hash.digest (utf8 groupingVersion ++ terminate 0 (components.map utf8))

/-- The parts of the components between zero bytes. -/
def componentParts : List (List UInt8) := parts 0 (components.map utf8)

theorem hashComponents_inj {cs ds : List String} :
    hashComponents hash cs = hashComponents hash ds ↔ componentParts cs = componentParts ds := by
  rw [hashComponents, hashComponents, hash.injective.eq_iff, append_right_inj, terminate_inj,
    componentParts, componentParts]

/-! ## Normalisation -/

/-- The matches of `0x[0-9a-fA-F]+` are replaced, in a text of at most so many characters. -/
def replaceHex : ℕ → List Char → List Char
  | 0, cs => cs
  | _ + 1, [] => []
  | n + 1, '0' :: 'x' :: cs =>
    if cs.takeWhile isHexDigit ≠ [] then "<hex>".toList ++ replaceHex n (cs.dropWhile isHexDigit)
    else '0' :: replaceHex n ('x' :: cs)
  | n + 1, c :: cs => c :: replaceHex n cs

/-- A match of `\$\d+$` is removed. -/
def stripGenerated (cs : List Char) : List Char :=
  match cs.reverse.takeWhile Char.isDigit, cs.reverse.dropWhile Char.isDigit with
  | _ :: _, '$' :: rest => rest.reverse
  | _, _ => cs

/-- `normalizeFunction`. -/
def normalizeFunction (fn : String) : String :=
  String.ofList (stripGenerated (replaceHex fn.toList.length fn.toList))

/-- `normalizeFilename`. -/
def normalizeFilename (filename : String) : String :=
  String.ofList ((filename.toList.takeWhile (· ≠ '?')).takeWhile (· ≠ '#'))

/-- A word character of a regular expression. -/
def isWordChar (c : Char) : Bool := c.isAlphanum || c = '_'

/-- `normalizeMessage`: the matches of `\b\d+\b` are the words of digits only. -/
def normalizeMessage (msg : String) : String :=
  String.ofList ((msg.toList.splitBy fun a b => isWordChar a == isWordChar b).flatMap fun run =>
    if run.all Char.isDigit then "<int>".toList else run)

/-- `normalizeFrameForGrouping`. -/
def normalizeFrameForGrouping (f : StackFrame) : String :=
  if f.module = "" ∧ f.filename = "" ∧ f.function = "" then "frame:<unknown>"
  else
    "frame:" ++
    (if f.module ≠ "" then "module:" ++ f.module
      else if f.filename ≠ "" then "file:" ++ normalizeFilename f.filename else "") ++
    (if f.function ≠ "" then
      (if f.module ≠ "" ∨ f.filename ≠ "" then "|" else "") ++ "func:" ++
        normalizeFunction f.function
      else "")

/-! ## The rules -/

/-- The result of a rule whose components are hashed. -/
def ofComponents : GroupingResult :=
  ⟨groupingVersion, hashComponents hash components, components⟩

/-- The components of `groupByStackTrace`. -/
def stackTraceComponents (excType : String) (frames : List StackFrame) : List String :=
  (if excType ≠ "" then ["type:" ++ excType] else []) ++ frames.map normalizeFrameForGrouping

/-- `groupByStackTrace`. -/
def groupByStackTrace (excType : String) (frames : List StackFrame) : GroupingResult :=
  ofComponents hash (stackTraceComponents excType frames)

/-- `groupByException`. -/
def groupByException (type value : String) : GroupingResult :=
  ofComponents hash ["type:" ++ type, "value:" ++ value]

/-- `groupByMessage`. -/
def groupByMessage (msg : String) : GroupingResult :=
  ofComponents hash ["message:" ++ normalizeMessage msg]

/-- `filterInApp`. -/
def filterInApp (frames : List StackFrame) : List StackFrame :=
  frames.filter fun f => f.inApp = some true

/-- The last of the exceptions that has frames. -/
def lastWithFrames (values : List EventException) : Option EventException :=
  values.reverse.find? fun exc => exc.frames ≠ []

/-- `computeDefault`. -/
def computeDefault (evt : GroupedEvent) : GroupingResult :=
  match evt.exceptions.getLast? with
  | some last =>
    match lastWithFrames evt.exceptions with
    | some exc =>
      if filterInApp exc.frames ≠ [] then
        groupByStackTrace hash exc.type (filterInApp exc.frames)
      else groupByStackTrace hash exc.type exc.frames
    | none => groupByException hash last.type last.value
  | none =>
    if evt.message ≠ "" then groupByMessage hash evt.message
    else ⟨groupingVersion, "empty", []⟩

/-- A part of a fingerprint as a component. -/
def fingerprintComponent (evt : GroupedEvent) (part : String) : String :=
  if part = "\x7b\x7b default \x7d\x7d" then "default:" ++ (computeDefault hash evt).groupingKey
  else "fingerprint:" ++ part

/-- `groupByFingerprint`. -/
def groupByFingerprint (evt : GroupedEvent) : GroupingResult :=
  ofComponents hash (evt.fingerprint.map (fingerprintComponent hash evt))

/-- `isDefaultFingerprint`. -/
def isDefaultFingerprint (fp : List String) : Bool := fp = ["\x7b\x7b default \x7d\x7d"]

/-- `ComputeGrouping`. -/
def computeGrouping (evt : GroupedEvent) : GroupingResult :=
  if evt.fingerprint ≠ [] ∧ isDefaultFingerprint evt.fingerprint = false then
    groupByFingerprint hash evt
  else match evt.exceptions.getLast? with
    | some last =>
      match lastWithFrames evt.exceptions with
      | some exc =>
        if filterInApp exc.frames ≠ [] then
          groupByStackTrace hash exc.type (filterInApp exc.frames)
        else groupByStackTrace hash exc.type exc.frames
      | none => groupByException hash last.type last.value
    | none =>
      if evt.message ≠ "" then groupByMessage hash evt.message
      else ⟨groupingVersion, hashComponents hash ["single-event", evt.eventID],
        ["event_id:" ++ evt.eventID]⟩

/-! ## What can be a component -/

/-- No rule applies to an event. -/
def Ungrouped (evt : GroupedEvent) : Prop :=
  (evt.fingerprint = [] ∨ isDefaultFingerprint evt.fingerprint = true) ∧ evt.exceptions = [] ∧
    evt.message = ""
deriving Decidable

/-- The components that can be made of an event. -/
inductive Component (evt : GroupedEvent) : String → Prop
  | type (exc : EventException) (hexc : exc ∈ evt.exceptions) : Component evt ("type:" ++ exc.type)
  | value (exc : EventException) (hexc : exc ∈ evt.exceptions) :
    Component evt ("value:" ++ exc.value)
  | frame (exc : EventException) (hexc : exc ∈ evt.exceptions) (f : StackFrame)
    (hf : f ∈ exc.frames) :
    Component evt (normalizeFrameForGrouping f)
  | message : Component evt ("message:" ++ normalizeMessage evt.message)
  | default : Component evt ("default:" ++ (computeDefault hash evt).groupingKey)
  | fingerprint (part : String) (hpart : part ∈ evt.fingerprint) :
    Component evt ("fingerprint:" ++ part)

variable {evt : GroupedEvent}

theorem component_stackTrace {exc : EventException} (hexc : exc ∈ evt.exceptions)
    {frames : List StackFrame} (hframes : ∀ f ∈ frames, f ∈ exc.frames) :
    ∀ c ∈ stackTraceComponents exc.type frames, Component hash evt c := by
  intro c hc
  rw [stackTraceComponents, mem_append] at hc
  rcases hc with hc | hc
  · split at hc
    · rw [mem_singleton] at hc
      exact hc ▸ .type exc hexc
    · exact absurd hc not_mem_nil
  · obtain ⟨f, hf, rfl⟩ := mem_map.mp hc
    exact .frame exc hexc f (hframes f hf)

/-- What an event gives when it is grouped: the hash of components that are made of it, or a key of
its own. -/
theorem computeGrouping_cases (evt : GroupedEvent) :
    (Ungrouped evt ∧ computeGrouping hash evt = ⟨groupingVersion,
      hashComponents hash ["single-event", evt.eventID], ["event_id:" ++ evt.eventID]⟩) ∨
    (¬ Ungrouped evt ∧ ∃ components, computeGrouping hash evt = ofComponents hash components ∧
      ∀ c ∈ components, Component hash evt c) := by
  unfold computeGrouping
  split
  next hfp =>
    refine .inr ⟨fun h => ?_, _, rfl, ?_⟩
    · rcases h.1 with hnil | hdefault
      · exact hfp.1 hnil
      · exact Bool.false_ne_true (hfp.2.symm.trans hdefault)
    · intro c hc
      obtain ⟨part, hpart, rfl⟩ := mem_map.mp hc
      unfold fingerprintComponent
      split
      · exact .default
      · exact .fingerprint part hpart
  next hfp =>
    split
    next last hlast =>
      have hmem : last ∈ evt.exceptions := mem_of_getLast? hlast
      have hgrouped : ¬ Ungrouped evt := fun h => by
        rw [h.2.1] at hmem
        exact absurd hmem not_mem_nil
      split
      next exc hexc =>
        have hexc' : exc ∈ evt.exceptions := mem_reverse.mp (mem_of_find?_eq_some hexc)
        split
        · exact .inr ⟨hgrouped, _, rfl, component_stackTrace hash hexc' fun f hf =>
            (mem_filter.mp hf).1⟩
        · exact .inr ⟨hgrouped, _, rfl, component_stackTrace hash hexc' fun f hf => hf⟩
      next hnone =>
        refine .inr ⟨hgrouped, _, rfl, ?_⟩
        intro c hc
        rw [mem_cons, mem_singleton] at hc
        rcases hc with rfl | rfl
        · exact .type last hmem
        · exact .value last hmem
    next hlast =>
      have hnil : evt.exceptions = [] := getLast?_eq_none_iff.mp hlast
      split
      next hmsg =>
        refine .inr ⟨fun h => hmsg h.2.2, _, rfl, ?_⟩
        intro c hc
        rw [mem_singleton.mp hc]
        exact .message
      next hmsg =>
        refine .inl ⟨⟨?_, hnil, not_not.mp hmsg⟩, rfl⟩
        rw [not_and_or, not_not, Bool.not_eq_false] at hfp
        exact hfp

/-- The strings whose hash is the key of an event. -/
def hashedComponents (evt : GroupedEvent) : List String :=
  if Ungrouped evt then ["single-event", evt.eventID] else (computeGrouping hash evt).components

@[simp]
theorem computeGrouping_groupingKey (evt : GroupedEvent) :
    (computeGrouping hash evt).groupingKey = hashComponents hash (hashedComponents hash evt) := by
  rcases computeGrouping_cases hash evt with ⟨hun, heq⟩ | ⟨hgr, cs, heq, -⟩
  · rw [hashedComponents, if_pos hun, heq]
  · rw [hashedComponents, if_neg hgr, heq, ofComponents]

/-! ## Components and hashed strings -/

/-- A component starts with the first letter of its label. -/
theorem Component.head {c : String} (h : Component hash evt c) :
    ∃ label ∈ ['t', 'v', 'f', 'm', 'd'], c.toList.head? = some label := by
  cases h with
  | type exc hexc => exact ⟨'t', by decide, by simp [String.toList_append]⟩
  | value exc hexc => exact ⟨'v', by decide, by simp [String.toList_append]⟩
  | frame exc hexc f hf =>
    refine ⟨'f', by decide, ?_⟩
    unfold normalizeFrameForGrouping
    split
    · rfl
    · simp [String.toList_append]
  | message => exact ⟨'m', by decide, by simp [String.toList_append]⟩
  | default => exact ⟨'d', by decide, by simp [String.toList_append]⟩
  | fingerprint part hpart => exact ⟨'f', by decide, by simp [String.toList_append]⟩

/-- What is hashed for an event without a rule is not a list of components, nor is what is
reported. -/
theorem components_ne_of_head {components : List String}
    (hcs : ∀ c ∈ components, Component hash evt c) {s : String} {rest : List String} {l : Char}
    (hs : s.toList.head? = some l) (hl : l ∉ ['t', 'v', 'f', 'm', 'd']) :
    components ≠ s :: rest := by
  intro h
  obtain ⟨label, hlabel, hhead⟩ := (hcs s (h ▸ mem_cons_self)).head
  rw [hs, Option.some.injEq] at hhead
  exact hl (hhead ▸ hlabel)

theorem hashedComponents_inj {e e' : GroupedEvent} :
    hashedComponents hash e = hashedComponents hash e' ↔
      (computeGrouping hash e).components = (computeGrouping hash e').components := by
  have hreport : ∀ evt : GroupedEvent, ("event_id:" ++ evt.eventID).toList.head? = some 'e' :=
    fun evt => by simp [String.toList_append]
  have hsingle : "single-event".toList.head? = some 's' := rfl
  rcases computeGrouping_cases hash e with ⟨hun, heq⟩ | ⟨hgr, cs, heq, hcs⟩ <;>
    rcases computeGrouping_cases hash e' with ⟨hun', heq'⟩ | ⟨hgr', cs', heq', hcs'⟩
  · rw [hashedComponents, hashedComponents, if_pos hun, if_pos hun', heq, heq']
    simp [← String.toList_inj]
  · rw [hashedComponents, hashedComponents, if_pos hun, if_neg hgr', heq, heq']
    exact iff_of_false (fun h => components_ne_of_head hash hcs' hsingle (by decide) h.symm)
      fun h => components_ne_of_head hash hcs' (hreport e) (by decide) h.symm
  · rw [hashedComponents, hashedComponents, if_neg hgr, if_pos hun', heq, heq']
    exact iff_of_false (components_ne_of_head hash hcs hsingle (by decide))
      (components_ne_of_head hash hcs (hreport e') (by decide))
  · rw [hashedComponents, hashedComponents, if_neg hgr, if_neg hgr']

/-! ## Strings without zero bytes -/

/-- A string has no zero character. -/
def ZeroFree (s : String) : Prop := Char.ofNat 0 ∉ s.toList
deriving Decidable

theorem zeroFree_append {s t : String} (hs : ZeroFree s) (ht : ZeroFree t) : ZeroFree (s ++ t) := by
  rw [ZeroFree, String.toList_append, mem_append]
  exact fun h => h.elim hs ht

theorem zeroFree_ofList {cs : List Char} (h : Char.ofNat 0 ∉ cs) : ZeroFree (String.ofList cs) := by
  rwa [ZeroFree, String.toList_ofList]

/-- Only the zero character is encoded with a zero byte. -/
theorem eq_zero_of_mem_utf8EncodeChar {c : Char} (h : 0 ∈ String.utf8EncodeChar c) :
    c = Char.ofNat 0 := by
  -- the leading and the continuation bytes of a longer encoding are at least 128
  have hbyte : ∀ n : ℕ, 128 ≤ n → n < 256 → (0 : UInt8) ≠ UInt8.ofNat n := by
    intro n hlow hhigh heq
    have hnat := congrArg UInt8.toNat heq
    rw [UInt8.toNat_ofNat', UInt8.toNat_zero] at hnat
    omega
  unfold String.utf8EncodeChar at h
  dsimp only at h
  split at h
  next hsmall =>
    have hnat := congrArg UInt8.toNat (mem_singleton.mp h)
    rw [UInt8.toNat_ofNat', Nat.mod_eq_of_lt (by omega)] at hnat
    exact Char.ext (UInt32.toNat_inj.mp hnat.symm)
  next =>
    split at h
    · simp only [mem_cons, not_mem_nil, or_false] at h
      rcases h with h | h <;> exact absurd h (hbyte _ (by omega) (by omega))
    · split at h <;> simp only [mem_cons, not_mem_nil, or_false] at h
      · rcases h with h | h | h <;> exact absurd h (hbyte _ (by omega) (by omega))
      · rcases h with h | h | h | h <;> exact absurd h (hbyte _ (by omega) (by omega))

theorem zero_notMem_utf8 {s : String} (hs : ZeroFree s) : 0 ∉ utf8 s := by
  intro hzero
  rw [← String.ofList_toList (s := s), utf8, String.toByteArray_ofList, utf8Encode,
    data_toByteArray,
    mem_flatMap] at hzero
  obtain ⟨c, hc, hbyte⟩ := hzero
  exact hs (eq_zero_of_mem_utf8EncodeChar hbyte ▸ hc)

/-- Lists of strings without zero bytes are what their hash is taken of. -/
theorem componentParts_inj {cs ds : List String} (hcs : ∀ c ∈ cs, ZeroFree c)
    (hds : ∀ d ∈ ds, ZeroFree d) :
    componentParts cs = componentParts ds ↔ cs = ds := by
  have hparts : ∀ {l : List String}, (∀ c ∈ l, ZeroFree c) → componentParts l = l.map utf8 := by
    intro l hl
    refine parts_of_not_mem fun text htext => ?_
    obtain ⟨c, hc, rfl⟩ := mem_map.mp htext
    exact zero_notMem_utf8 (hl c hc)
  rw [hparts hcs, hparts hds, utf8_injective.list_map.eq_iff]

/-! ## Normalisation makes no zero bytes -/

theorem zero_notMem_replaceHex {n : ℕ} {cs : List Char} (h : Char.ofNat 0 ∉ cs) :
    Char.ofNat 0 ∉ replaceHex n cs := by
  fun_induction replaceHex n cs with
  | case1 cs => exact h
  | case2 n => exact h
  | case3 n cs hdigits ih =>
    simp only [mem_cons, not_or] at h
    rw [mem_append]
    refine fun hmem =>
      hmem.elim (by decide) (ih fun hdrop => h.2.2 (dropWhile_sublist _ |>.mem hdrop))
  | case4 n cs hdigits ih =>
    rw [mem_cons, not_or] at h ⊢
    exact ⟨h.1, ih h.2⟩
  | case5 n c cs hnot ih =>
    rw [mem_cons, not_or] at h ⊢
    exact ⟨h.1, ih h.2⟩

theorem zero_notMem_stripGenerated {cs : List Char} (h : Char.ofNat 0 ∉ cs) :
    Char.ofNat 0 ∉ stripGenerated cs := by
  unfold stripGenerated
  split
  next rest _ hrest =>
    rw [mem_reverse]
    intro hmem
    have hdrop : Char.ofNat 0 ∈ cs.reverse.dropWhile Char.isDigit := hrest ▸ mem_cons_of_mem _ hmem
    exact h (mem_reverse.mp ((dropWhile_sublist _).mem hdrop))
  next => exact h

theorem zeroFree_normalizeMessage {msg : String} (h : ZeroFree msg) :
    ZeroFree (normalizeMessage msg) := by
  refine zeroFree_ofList fun hmem => ?_
  obtain ⟨run, hrun, hmem⟩ := mem_flatMap.mp hmem
  split at hmem
  · exact absurd hmem (by decide)
  · refine h ?_
    rw [← flatten_splitBy (fun a b => isWordChar a == isWordChar b) msg.toList]
    exact mem_flatten.mpr ⟨run, hrun, hmem⟩

/-- The strings that grouping reads in an event. -/
def eventTexts (evt : GroupedEvent) : List String :=
  evt.eventID :: evt.message :: (evt.fingerprint ++ evt.exceptions.flatMap fun exc =>
    exc.type :: exc.value :: exc.frames.flatMap fun f => [f.module, f.filename, f.function])

theorem zeroFree_normalizeFrame {f : StackFrame} (hmodule : ZeroFree f.module)
    (hfilename : ZeroFree f.filename) (hfunction : ZeroFree f.function) :
    ZeroFree (normalizeFrameForGrouping f) := by
  unfold normalizeFrameForGrouping
  split
  · decide
  · refine zeroFree_append (zeroFree_append (by decide) ?_) ?_
    · split
      · exact zeroFree_append (by decide) hmodule
      · split
        · refine zeroFree_append (by decide) (zeroFree_ofList fun hmem => hfilename ?_)
          exact (takeWhile_sublist _).mem ((takeWhile_sublist _).mem hmem)
        · decide
    · split
      · refine zeroFree_append (zeroFree_append ?_ (by decide))
          (zeroFree_ofList (zero_notMem_stripGenerated (zero_notMem_replaceHex hfunction)))
        split <;> decide
      · decide

theorem zeroFree_hashComponents (components : List String) :
    ZeroFree (hashComponents hash components) := by
  intro hzero
  exact absurd (hash.hexadecimal _ _ hzero) (by decide)

theorem zeroFree_computeDefault (evt : GroupedEvent) :
    ZeroFree (computeDefault hash evt).groupingKey := by
  unfold computeDefault
  split
  · split
    · split <;> exact zeroFree_hashComponents hash _
    · exact zeroFree_hashComponents hash _
  · split
    · exact zeroFree_hashComponents hash _
    · decide

/-- The components of an event without zero bytes have none. -/
theorem Component.zeroFree (htexts : ∀ s ∈ eventTexts evt, ZeroFree s) {c : String}
    (h : Component hash evt c) : ZeroFree c := by
  have hexception : ∀ exc ∈ evt.exceptions, ∀ s ∈ exc.type :: exc.value ::
      exc.frames.flatMap fun f => [f.module, f.filename, f.function], ZeroFree s := by
    intro exc hexc s hs
    refine htexts s (mem_cons_of_mem _ (mem_cons_of_mem _ (mem_append_right _ ?_)))
    exact mem_flatMap.mpr ⟨exc, hexc, hs⟩
  cases h with
  | type exc hexc => exact zeroFree_append (by decide) (hexception exc hexc _ (by simp))
  | value exc hexc => exact zeroFree_append (by decide) (hexception exc hexc _ (by simp))
  | frame exc hexc f hf =>
    have hframe : ∀ s ∈ [f.module, f.filename, f.function], ZeroFree s := fun s hs =>
      hexception exc hexc s (mem_cons_of_mem _ (mem_cons_of_mem _ (mem_flatMap.mpr ⟨f, hf, hs⟩)))
    exact zeroFree_normalizeFrame (hframe _ (by simp)) (hframe _ (by simp)) (hframe _ (by simp))
  | message =>
    exact zeroFree_append (by decide) (zeroFree_normalizeMessage (htexts _ (by simp [eventTexts])))
  | default => exact zeroFree_append (by decide) (zeroFree_computeDefault hash evt)
  | fingerprint part hpart =>
    exact zeroFree_append (by decide) (htexts part (by simp [eventTexts, hpart]))

theorem zeroFree_hashedComponents (htexts : ∀ s ∈ eventTexts evt, ZeroFree s) :
    ∀ c ∈ hashedComponents hash evt, ZeroFree c := by
  intro c hc
  rcases computeGrouping_cases hash evt with ⟨hun, -⟩ | ⟨hgr, cs, heq, hcs⟩
  · rw [hashedComponents, if_pos hun, mem_cons, mem_singleton] at hc
    rcases hc with rfl | rfl
    · decide
    · exact htexts _ (by simp [eventTexts])
  · rw [hashedComponents, if_neg hgr, heq] at hc
    exact (hcs c hc).zeroFree hash htexts

/-! ## Keys and components -/

/-- An equivalence of equalities, one of which follows from the other. -/
theorem separates_iff {p q : Prop} (h : q → p) : (p ↔ q) ↔ (q ∨ ¬ p) := by
  constructor
  · intro hiff
    by_cases hp : p
    · exact .inl (hiff.mp hp)
    · exact .inr hp
  · rintro (hq | hp)
    · exact iff_of_true (h hq) hq
    · exact iff_of_false hp fun hq => hp (h hq)

/-- **When keys separate.** Two lists of components have one key exactly when they are equal, unless
they are different and the same when every string is cut at its zero bytes; and two events have one
key exactly when they have the same components, unless this is so of what is hashed for them. It is
not so when no string of the events has a zero byte. -/
theorem groupingKey_separates_iff :
    (∀ cs ds : List String, (hashComponents hash cs = hashComponents hash ds ↔ cs = ds) ↔
      (cs = ds ∨ componentParts cs ≠ componentParts ds)) ∧ (∀ e e' : GroupedEvent,
      ((computeGrouping hash e).groupingKey = (computeGrouping hash e').groupingKey ↔
        (computeGrouping hash e).components = (computeGrouping hash e').components) ↔
      ((computeGrouping hash e).components = (computeGrouping hash e').components ∨
        componentParts (hashedComponents hash e) ≠ componentParts (hashedComponents hash e'))) ∧
    ∀ e e' : GroupedEvent, (∀ s ∈ eventTexts e, ZeroFree s) → (∀ s ∈ eventTexts e', ZeroFree s) →
      ((computeGrouping hash e).groupingKey = (computeGrouping hash e').groupingKey ↔
        (computeGrouping hash e).components = (computeGrouping hash e').components) := by
  refine ⟨fun cs ds => ?_, fun e e' => ?_, fun e e' htexts htexts' => ?_⟩
  · rw [hashComponents_inj]
    exact separates_iff fun h => congrArg componentParts h
  · rw [computeGrouping_groupingKey, computeGrouping_groupingKey, hashComponents_inj,
      ← hashedComponents_inj]
    exact separates_iff fun h => congrArg componentParts h
  · rw [computeGrouping_groupingKey, computeGrouping_groupingKey, hashComponents_inj,
      ← hashedComponents_inj]
    exact componentParts_inj (zeroFree_hashedComponents hash htexts)
      (zeroFree_hashedComponents hash htexts')

end Grouping

/-! ## Two fingerprints with one key -/

/-- The two hexadecimal digits of a byte. -/
def hexPair (b : UInt8) : List Char := [(b.toNat / 16).digitChar, (b.toNat % 16).digitChar]

/-- The bytes themselves in hexadecimal digits. -/
def hexDigest : Digest where
  digest bytes := String.ofList (bytes.flatMap hexPair)
  injective := by
    have hdigit : ∀ m < 16, ∀ n < 16, Nat.digitChar m = Nat.digitChar n → m = n := by decide
    intro bs cs h
    replace h := String.ofList_injective h
    induction bs generalizing cs with
    | nil =>
      cases cs with
      | nil => rfl
      | cons c cs => simp [hexPair] at h
    | cons b bs ih =>
      cases cs with
      | nil => simp [hexPair] at h
      | cons c cs =>
        simp only [hexPair, List.flatMap_cons, List.cons_append, List.nil_append,
          List.cons.injEq] at h
        have hhigh := hdigit _ (by have := b.toNat_lt; omega) _ (by have := c.toNat_lt; omega) h.1
        have hlow := hdigit _ (by omega) _ (by omega) h.2.1
        rw [UInt8.toNat_inj.mp (by omega : b.toNat = c.toNat), ih h.2.2]
  hexadecimal := by
    have hdigit : ∀ n < 16, isHexDigit (Nat.digitChar n) = true := by decide
    intro bytes c hc
    rw [String.toList_ofList] at hc
    obtain ⟨b, -, hc⟩ := List.mem_flatMap.mp hc
    rw [hexPair, List.mem_cons, List.mem_singleton] at hc
    rcases hc with rfl | rfl
    · exact hdigit _ (by have := b.toNat_lt; omega)
    · exact hdigit _ (by omega)

/-- **Two events with one key and different components**: one has a zero byte in its fingerprint. -/
theorem colliding_fingerprints :
    (Grouping.computeGrouping hexDigest { fingerprint := ["a\x00fingerprint:b"] }).groupingKey =
      (Grouping.computeGrouping hexDigest { fingerprint := ["a", "b"] }).groupingKey ∧
    (Grouping.computeGrouping hexDigest { fingerprint := ["a\x00fingerprint:b"] }).components ≠
      (Grouping.computeGrouping hexDigest { fingerprint := ["a", "b"] }).components := by
  decide +kernel

end Urgentry
