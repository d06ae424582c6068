import Urgentry.Grouping.Grouping

/-!
# The default inside a fingerprint

A fingerprint may have the default in it, which stands for the key that the event would have without
a fingerprint. That key is computed a second time, by `computeDefault`, and the two computations are
the same but for their last lines: an event without an exception and without a message has a key of
its own in `ComputeGrouping`, made of its id, and the key `empty` in `computeDefault`.

So the two agree on an event exactly when there is something to group it by, as a key is written in
hexadecimal digits and `empty` is not. Two events with different keys have different keys under the
same fingerprint as long as there is something to group one of them by: the texts that are hashed
differ in the default, whatever zero bytes the other parts of the fingerprint have.

## Main results

* `default_agrees_iff`: when the default is the key without a fingerprint, and when it keeps events
  apart. -/

namespace Urgentry.Grouping

open Terminated List

variable (hash : Digest)

/-- There is nothing to group an event by. -/
def Bare (evt : GroupedEvent) : Prop := evt.exceptions = [] ∧ evt.message = ""
deriving Decidable

/-- The event with another fingerprint. -/
def withFingerprint (evt : GroupedEvent) (fp : List String) : GroupedEvent :=
  { evt with fingerprint := fp }

/-- The default, in a fingerprint. -/
def defaultPart : String := "\x7b\x7b default \x7d\x7d"

theorem computeDefault_of_bare {evt : GroupedEvent} (h : Bare evt) :
    computeDefault hash evt = ⟨groupingVersion, "empty", []⟩ := by
  simp [computeDefault, h.1, h.2]

variable (evt : GroupedEvent) {fp : List String} (e e' : GroupedEvent)

/-- Without a fingerprint, or with the default alone, the rules are those of the default. -/
theorem computeGrouping_of_not_bare (h : ¬ Bare evt)
    (hfp : evt.fingerprint = [] ∨ evt.fingerprint = [defaultPart]) :
    computeGrouping hash evt = computeDefault hash evt := by
  have hrules : ¬ (evt.fingerprint ≠ [] ∧ isDefaultFingerprint evt.fingerprint = false) := by
    rcases hfp with hfp | hfp
    · exact fun hand => hand.1 hfp
    · rw [hfp]
      decide
  unfold computeGrouping computeDefault
  rw [if_neg hrules]
  cases hlast : evt.exceptions.getLast? with
  | some last => rfl
  | none =>
    have hmessage : evt.message ≠ "" := fun hempty => h ⟨getLast?_eq_none_iff.mp hlast, hempty⟩
    exact (if_pos hmessage).trans (if_pos hmessage).symm

/-- With nothing to group it by, an event has a key of its own. -/
theorem computeGrouping_of_bare (h : Bare evt)
    (hfp : evt.fingerprint = [] ∨ evt.fingerprint = [defaultPart]) :
    (computeGrouping hash evt).groupingKey = hashComponents hash ["single-event", evt.eventID] := by
  have hun : Ungrouped evt := by
    refine ⟨hfp.imp_right fun heq => ?_, h⟩
    rw [heq]
    decide
  rw [computeGrouping_groupingKey, hashedComponents, if_pos hun]

/-- A default that is not empty is the hash of some components. -/
theorem computeDefault_of_not_bare {evt : GroupedEvent} (h : ¬ Bare evt) :
    ∃ components, (computeDefault hash evt).groupingKey = hashComponents hash components := by
  unfold computeDefault
  cases hlast : evt.exceptions.getLast? with
  | some last =>
    simp only
    split
    · split <;> exact ⟨_, rfl⟩
    · exact ⟨_, rfl⟩
  | none =>
    have hmessage : evt.message ≠ "" := fun hempty => h ⟨getLast?_eq_none_iff.mp hlast, hempty⟩
    simp only [if_pos hmessage]
    exact ⟨_, rfl⟩

/-- A key is written in hexadecimal digits. -/
theorem hashComponents_ne_empty (components : List String) :
    hashComponents hash components ≠ "empty" := by
  intro h
  have hhex := hash.hexadecimal (utf8 groupingVersion ++ terminate 0 (components.map utf8)) 'm'
  rw [← hashComponents, h] at hhex
  exact absurd (hhex (by decide)) (by decide)

/-! ## Fingerprints with the default -/

/-- With more than the default in it, a fingerprint is hashed part by part. -/
theorem computeGrouping_withFingerprint (hfp : defaultPart ∈ fp) (hmore : fp ≠ [defaultPart]) :
    (computeGrouping hash (withFingerprint evt fp)).groupingKey =
      hashComponents hash (fp.map (fingerprintComponent hash evt)) := by
  have hrules : (withFingerprint evt fp).fingerprint ≠ [] ∧
      isDefaultFingerprint (withFingerprint evt fp).fingerprint = false :=
    ⟨ne_nil_of_mem hfp, decide_eq_false hmore⟩
  unfold computeGrouping
  rw [if_pos hrules]
  rfl

theorem fingerprintComponent_default :
    fingerprintComponent hash evt defaultPart =
      "default:" ++ (computeDefault hash evt).groupingKey := if_pos rfl

theorem fingerprintComponent_of_ne {part : String} (h : part ≠ defaultPart) :
    fingerprintComponent hash evt part = "fingerprint:" ++ part := if_neg h

theorem splitOn_default :
    (utf8 (fingerprintComponent hash evt defaultPart)).splitOn 0 =
      [utf8 (fingerprintComponent hash evt defaultPart)] := by
  refine splitOn_eq_singleton (zero_notMem_utf8 ?_)
  exact zeroFree_append (by decide) (zeroFree_computeDefault hash evt)

theorem fingerprintComponent_eq_iff (part : String) :
    fingerprintComponent hash e part = fingerprintComponent hash e' part ↔
      (part = defaultPart →
        (computeDefault hash e).groupingKey = (computeDefault hash e').groupingKey) := by
  by_cases hpart : part = defaultPart
  · rw [hpart, fingerprintComponent_default, fingerprintComponent_default, String.append_right_inj]
    exact ⟨fun h _ => h, fun h => h rfl⟩
  · rw [fingerprintComponent_of_ne hash e hpart, fingerprintComponent_of_ne hash e' hpart]
    exact iff_of_true rfl fun h => absurd h hpart

/-- **A fingerprint with the default keeps events apart** as the defaults do. -/
theorem fingerprint_key_eq_iff (hfp : defaultPart ∈ fp) :
    hashComponents hash (fp.map (fingerprintComponent hash e)) =
        hashComponents hash (fp.map (fingerprintComponent hash e')) ↔
      (computeDefault hash e).groupingKey = (computeDefault hash e').groupingKey := by
  have hpieces : ∀ part ∈ fp, ((utf8 (fingerprintComponent hash e part)).splitOn 0).length =
      ((utf8 (fingerprintComponent hash e' part)).splitOn 0).length := by
    intro part _
    by_cases hpart : part = defaultPart
    · rw [hpart, splitOn_default, splitOn_default]
      rfl
    · rw [(fingerprintComponent_eq_iff hash e e' part).mpr fun h => absurd h hpart]
  rw [hashComponents_inj, componentParts, componentParts, map_map, map_map]
  refine (parts_map_inj hpieces).trans ?_
  simp only [utf8_injective.eq_iff, fingerprintComponent_eq_iff]
  exact ⟨fun h => h defaultPart hfp rfl, fun h part _ _ => h⟩

/-- The defaults of two events with different keys are different, unless there is nothing to group
either by. -/
theorem computeDefault_ne_iff {e e' : GroupedEvent}
    (hkeys : (computeGrouping hash (withFingerprint e [])).groupingKey ≠
      (computeGrouping hash (withFingerprint e' [])).groupingKey) :
    (computeDefault hash e).groupingKey ≠ (computeDefault hash e').groupingKey ↔
      ¬ (Bare e ∧ Bare e') := by
  by_cases hbare : Bare e <;> by_cases hbare' : Bare e'
  · rw [computeDefault_of_bare hash hbare, computeDefault_of_bare hash hbare']
    exact iff_of_false (fun h => h rfl) fun h => h ⟨hbare, hbare'⟩
  · obtain ⟨cs, hcs⟩ := computeDefault_of_not_bare hash hbare'
    rw [computeDefault_of_bare hash hbare, hcs]
    exact iff_of_true (hashComponents_ne_empty hash cs).symm fun h => hbare' h.2
  · obtain ⟨cs, hcs⟩ := computeDefault_of_not_bare hash hbare
    rw [computeDefault_of_bare hash hbare', hcs]
    exact iff_of_true (hashComponents_ne_empty hash cs) fun h => hbare h.1
  · rw [computeGrouping_of_not_bare hash (withFingerprint e []) hbare (.inl rfl),
      computeGrouping_of_not_bare hash (withFingerprint e' []) hbare' (.inl rfl)] at hkeys
    exact iff_of_true hkeys fun h => hbare h.1

/-- The default alone is no fingerprint. -/
theorem computeGrouping_default_alone :
    (computeGrouping hash (withFingerprint evt [defaultPart])).groupingKey =
      (computeGrouping hash (withFingerprint evt [])).groupingKey := by
  by_cases hbare : Bare evt
  · rw [computeGrouping_of_bare hash (withFingerprint evt [defaultPart]) hbare (.inr rfl),
      computeGrouping_of_bare hash (withFingerprint evt []) hbare (.inl rfl)]
    rfl
  · rw [computeGrouping_of_not_bare hash (withFingerprint evt [defaultPart]) hbare (.inr rfl),
      computeGrouping_of_not_bare hash (withFingerprint evt []) hbare (.inl rfl)]
    rfl

/-- **When the two computations of the default agree**: on an event with something to group it by.
And two events with different keys still have different keys under the same fingerprint with the
default in it, if the fingerprint is the default alone or there is something to group one of the two
by. -/
theorem default_agrees_iff :
    (∀ evt : GroupedEvent,
      (computeDefault hash evt).groupingKey =
        (computeGrouping hash (withFingerprint evt [])).groupingKey ↔
        evt.exceptions ≠ [] ∨ evt.message ≠ "") ∧
    ∀ (e e' : GroupedEvent) (fp : List String), "\x7b\x7b default \x7d\x7d" ∈ fp →
      (computeGrouping hash (withFingerprint e [])).groupingKey ≠
        (computeGrouping hash (withFingerprint e' [])).groupingKey →
      ((computeGrouping hash (withFingerprint e fp)).groupingKey ≠
        (computeGrouping hash (withFingerprint e' fp)).groupingKey ↔
          fp = ["\x7b\x7b default \x7d\x7d"] ∨ ¬ (Bare e ∧ Bare e')) := by
  constructor
  · intro evt
    rw [show (evt.exceptions ≠ [] ∨ evt.message ≠ "") ↔ ¬ Bare evt from not_and_or.symm]
    by_cases hbare : Bare evt
    · rw [computeDefault_of_bare hash hbare,
        computeGrouping_of_bare hash (withFingerprint evt []) hbare (.inl rfl)]
      exact iff_of_false (hashComponents_ne_empty hash _).symm (not_not.mpr hbare)
    · rw [computeGrouping_of_not_bare hash (withFingerprint evt []) hbare (.inl rfl)]
      exact iff_of_true rfl hbare
  · intro e e' fp hfp hkeys
    by_cases hmore : fp = [defaultPart]
    · rw [hmore, computeGrouping_default_alone]
      exact iff_of_true hkeys (.inl rfl)
    · rw [computeGrouping_withFingerprint hash e hfp hmore,
        computeGrouping_withFingerprint hash e' hfp hmore,
        ne_eq, fingerprint_key_eq_iff hash e e' hfp, ← ne_eq, computeDefault_ne_iff hash hkeys]
      exact ⟨.inr, fun h => h.resolve_left hmore⟩

/-- An event with a message and one with nothing to group it by. -/
theorem message_kept_apart :
    (computeDefault hexDigest { message := "disk full" }).groupingKey =
      (computeGrouping hexDigest (withFingerprint { message := "disk full" } [])).groupingKey ∧
    (computeGrouping hexDigest
      (withFingerprint { message := "disk full" } [defaultPart, "a"])).groupingKey ≠
      (computeGrouping hexDigest
        (withFingerprint { eventID := "2" } [defaultPart, "a"])).groupingKey :=
  ⟨((default_agrees_iff hexDigest).1 { message := "disk full" }).mpr (by decide),
    ((default_agrees_iff hexDigest).2 { message := "disk full" } { eventID := "2" }
      [defaultPart, "a"] (by decide)
      (by decide +kernel)).mpr (by decide)⟩

/-- **Two events with nothing to group them by**: they are two issues, and one under a fingerprint
with the default. -/
theorem bare_events_merged :
    (computeDefault hexDigest { eventID := "1" }).groupingKey ≠
      (computeGrouping hexDigest (withFingerprint { eventID := "1" } [])).groupingKey ∧
    (computeGrouping hexDigest (withFingerprint { eventID := "1" } [])).groupingKey ≠
      (computeGrouping hexDigest (withFingerprint { eventID := "2" } [])).groupingKey ∧
    (computeGrouping hexDigest
      (withFingerprint { eventID := "1" } [defaultPart, "a"])).groupingKey =
      (computeGrouping hexDigest
        (withFingerprint { eventID := "2" } [defaultPart, "a"])).groupingKey := by
  decide +kernel

end Urgentry.Grouping
