import Urgentry.Trace.Otlp

/-!
# When the translation of a trace ends

`collectDescendants` recurses from a root over the map of children without looking at where it has
been. The map is keyed by the *trimmed* parent id of the children while the recursion goes on with
the raw span id of each child, and span ids need not be distinct. So an entry whose spans form a
cycle keeps the recursion going when a root leads into it (as the fallback root does, which is taken
exactly when every span has a known parent), and an entry with two spans of one id has the children
of that id collected twice.

`Safe` is the exact condition under which neither happens. It goes through the roots in the order of
the translation, because an id that cannot be decoded ends the translation early, with an error:
what comes after it does not matter, and what is below a root with a bad id is never collected.

## Main results

* `groupSpans_children`: the loop's map of children is that of the forest of parent ids
* `translateOTLPJSON_once_iff`: the translation returns, and every root's descendants are collected
  at most once, exactly when `Safe` holds
* `selfParent_diverges`: one span that is its own parent
-/

namespace Urgentry

namespace Otlp

open ParentWalk List Option Function

/-! ## The map of children -/

/-- The id under which a span is filed as a child; `none` for a root. -/
def parentKey (spans : List OtlpSpan) (span : OtlpSpan) : Option String :=
  let parent := GoText.trimSpace span.parentSpanId
  if parent = "" ∨ parent ∉ spans.map OtlpSpan.spanId then none else some parent

/-- The spans of an entry with their parents. -/
def forest (spans : List OtlpSpan) : Forest OtlpSpan String where
  nodes := spans
  key := OtlpSpan.spanId
  parent := parentKey spans

variable (spans : List OtlpSpan)

theorem spanId_spanByID (id : String) :
    (spanByID spans id).spanId = if id ∈ spans.map OtlpSpan.spanId then id else "" := by
  induction spans using reverseRecOn with
  | nil => rfl
  | append_singleton spans span ih =>
    rw [spanByID, foldl_append, foldl_cons, foldl_nil, ← spanByID]
    by_cases h : id = span.spanId
    · subst h
      simp
    · rw [update_of_ne h, ih]
      simp [h]

/-- A span is a root for the loop exactly when it has no key to be filed under. -/
theorem groupSpan_eq (grouped : Grouped) (span : OtlpSpan) :
    groupSpan (spanByID spans) grouped span =
      match parentKey spans span with
      | none => { grouped with roots := grouped.roots ++ [span] }
      | some parent => { grouped with
          children := update grouped.children parent
            (grouped.children parent ++ [span]) } := by
  simp only [groupSpan, parentKey, spanId_spanByID]
  by_cases hempty : GoText.trimSpace span.parentSpanId = ""
  · simp [hempty]
  · by_cases hknown : GoText.trimSpace span.parentSpanId ∈ spans.map OtlpSpan.spanId
    · rw [if_pos hknown, if_neg (by simp [hempty]), if_neg (by simp [hempty, hknown])]
    · rw [if_neg hknown, if_pos (.inr rfl), if_pos (.inr hknown)]

theorem children_foldl_groupSpan (l : List OtlpSpan) (id : String) :
    (l.foldl (groupSpan (spanByID spans)) {}).children id =
      l.filter fun span => parentKey spans span = some id := by
  induction l using reverseRecOn with
  | nil => rfl
  | append_singleton l span ih =>
    rw [foldl_append, foldl_cons, foldl_nil, groupSpan_eq, filter_append, ← ih]
    cases hkey : parentKey spans span with
    | none => simp [hkey]
    | some parent =>
      by_cases hid : id = parent
      · subst hid
        simp [hkey]
      · have hne : ¬ parent = id := fun h => hid h.symm
        simp [hkey, hid, hne]

/-- **The loop's map of children** is that of the forest. -/
theorem groupSpans_children : (groupSpans spans).children = (forest spans).children := by
  funext id
  exact children_foldl_groupSpan spans spans id

/-! ## Steps of the translation -/

variable {α β : Type} {fuel : ℕ}

theorem exec_bind (m : Translation α) (f : α → Translation β) (log : List Call) :
    (m >>= f).exec log = (m.exec log).bind fun out =>
      match out.1 with
      | .ok a => (f a).exec out.2
      | .error e => some (.error e, out.2) := by
  simp only [Translation.exec, ExceptT.run_bind, StateT.run_bind]
  rcases StateT.run (ExceptT.run m) log with _ | ⟨_ | _, _⟩ <;> rfl

@[simp]
theorem exec_ofExcept (result : Except String α) (log : List Call) :
    (ofExcept result).exec log = some (result, log) := rfl

/-- The ids of the span can be decoded. -/
def OtlpSpan.HasIds (span : OtlpSpan) : Prop := ∃ ids, decodeIds span = .ok ids

theorem mapM_ok_iff {ε : Type} (f : α → Except ε β) (l : List α) :
    (∃ out, l.mapM f = .ok out) ↔ ∀ a ∈ l, ∃ b, f a = .ok b := by
  induction l with
  | nil => simp [pure, Except.pure]
  | cons a l ih =>
    rw [forall_mem_cons, ← ih, mapM_cons]
    cases f a with
    | error e => simp [bind, Except.bind]
    | ok b => cases l.mapM f <;> simp [bind, Except.bind, pure, Except.pure]

variable (lib : OtlpLib) {spans : List OtlpSpan} {root : OtlpSpan}
  {children : String → List OtlpSpan} {attrs : Attrs}
  {result : Except String (List TransactionPayload)} {log' : List Call}

theorem spanPayload_ok_iff (span : OtlpSpan) :
    (∃ payload, spanPayload lib span = .ok payload) ↔ span.HasIds := by
  rw [OtlpSpan.HasIds, spanPayload]
  cases decodeIds span <;> simp [bind, Except.bind, pure, Except.pure]

theorem exec_build_of_error {log : List Call} (h : ¬ root.HasIds) :
    ∃ e, (buildTransactionPayload lib fuel spans root children attrs).exec log =
      some (.error e, log) := by
  cases hids : decodeIds root with
  | ok ids => exact absurd ⟨ids, hids⟩ h
  | error e =>
    refine ⟨e, ?_⟩
    rw [buildTransactionPayload, hids]
    rfl

/-- A root with good ids: its descendants are collected, and the payload is built when all of their
ids are good. -/
theorem exec_build_of_hasIds (h : root.HasIds) :
    ∃ result : List OtlpSpan → Except String TransactionPayload,
      (∀ descendants, (∃ payload, result descendants = .ok payload) ↔ ∀ span ∈ descendants,
        span.HasIds) ∧
      ∀ log, (buildTransactionPayload lib fuel spans root children attrs).exec log =
        (collectDescendants fuel root.spanId children).map fun descendants =>
          (result descendants, log ++ [⟨spans, root, descendants⟩]) := by
  obtain ⟨ids, hids⟩ := h
  refine ⟨fun descendants => (descendants.mapM (spanPayload lib)).map
    (rootPayload lib root attrs ids), fun descendants => ?_, fun log => ?_⟩
  · simp only [← spanPayload_ok_iff lib, ← mapM_ok_iff]
    cases descendants.mapM (spanPayload lib) <;> simp [Except.map]
  · rw [buildTransactionPayload, exec_bind, hids, exec_ofExcept, bind_some]
    simp only [exec_bind]
    change ((collectDescendants fuel root.spanId children).map _).bind _ = _
    cases collectDescendants fuel root.spanId children with
    | none => rfl
    | some descendants =>
      simp only [map_some, bind_some, exec_ofExcept]
      cases descendants.mapM (spanPayload lib) <;> rfl

/-! ## The roots in the order of the translation -/

/-- A root to be translated, with the spans of its entry and the attributes of the resource. -/
structure Job where
  spans : List OtlpSpan
  root : OtlpSpan
  resourceAttrs : Attrs

/-- The roots of an entry. -/
def OtlpResourceSpans.jobs (entry : OtlpResourceSpans) : List Job :=
  (rootsOf entry.allSpans).map fun root => ⟨entry.allSpans, root, kvAttrs lib entry.resource⟩

/-- The roots of the request. -/
def OtlpRequest.jobs (req : OtlpRequest) : List Job :=
  req.resourceSpans.flatMap fun entry => entry.jobs lib

/-- The translation of one root. -/
def Job.build (fuel : ℕ) (job : Job) : Translation TransactionPayload :=
  buildTransactionPayload lib fuel job.spans job.root (groupSpans job.spans).children
    job.resourceAttrs

theorem translateResourceSpans_eq (fuel : ℕ) (entry : OtlpResourceSpans) :
    translateResourceSpans lib fuel entry = (entry.jobs lib).mapM (Job.build lib fuel) := by
  rw [OtlpResourceSpans.jobs, mapM_map]
  rfl

theorem flatten_mapM_mapM {γ : Type} {m : Type → Type} [Monad m] [LawfulMonad m]
    (f : α → List β) (g : β → m γ) (l : List α) :
    List.flatten <$> l.mapM (fun a => (f a).mapM g) = (l.flatMap f).mapM g := by
  induction l with
  | nil => simp
  | cons a l ih =>
    rw [flatMap_cons, mapM_append, ← ih]
    simp

/-- **The nested loops run through the roots in order.** -/
theorem translateOTLPJSON_eq (fuel : ℕ) (req : OtlpRequest) :
    translateOTLPJSON lib fuel req = (req.jobs lib).mapM (Job.build lib fuel) := by
  rw [OtlpRequest.jobs, ← flatten_mapM_mapM, translateOTLPJSON, map_eq_pure_bind]
  simp only [← translateResourceSpans_eq]

@[simp]
theorem exec_mapM_cons (fuel : ℕ) (job : Job) (jobs : List Job) (log : List Call) :
    ((job :: jobs).mapM (Job.build lib fuel)).exec log =
      ((job.build lib fuel).exec log).bind fun out =>
        match out.1 with
        | .error e => some (.error e, out.2)
        | .ok payload => ((jobs.mapM (Job.build lib fuel)).exec out.2).map fun rest =>
            (rest.1.map (payload :: ·), rest.2) := by
  rw [mapM_cons, exec_bind]
  congr 1
  funext out
  rcases out with ⟨_ | payload, log'⟩
  · rfl
  · simp only [exec_bind]
    rcases (jobs.mapM (Job.build lib fuel)).exec log' with _ | ⟨_ | _, _⟩ <;> rfl

/-! ## The condition -/

/-- **The condition.** From the first root on: its ids cannot be decoded (which ends the
translation), or no span id that has children belongs to two of the root and the spans below it and,
unless some id below it cannot be decoded (which ends the translation), the same holds for the roots
that follow. -/
def Safe : List Job → Prop
  | [] => True
  | job :: jobs => job.root.HasIds → (forest job.spans).NoRepeat job.root.spanId ∧
      ((∀ span, (forest job.spans).Reach job.root.spanId span → span.HasIds) → Safe jobs)

/-- The call returned every span of the entry at most once, so at most as many as there are. -/
def Call.Once (call : Call) : Prop :=
  call.descendants.Subperm call.spans ∧ call.descendants.length ≤ call.spans.length

theorem Call.once_of_subperm {call : Call} (h : call.descendants.Subperm call.spans) :
    call.Once := ⟨h, h.length_le⟩

/-- What the property says of a request: the translation returns, with payloads or an error, and all
the calls of `collectDescendants` on the way collected every span at most once. -/
def TranslatesOnce (req : OtlpRequest) : Prop :=
  ∃ fuel result log, (translateOTLPJSON lib fuel req).exec [] = some (result, log) ∧
    ∀ call ∈ log, call.Once

variable {lib} {job : Job} {jobs : List Job} {log : List Call}

theorem collectDescendants_eq (fuel : ℕ) (spans : List OtlpSpan) (id : String) :
    collectDescendants fuel id (groupSpans spans).children =
      walk (forest spans).key (forest spans).children fuel id [] := by
  rw [groupSpans_children]
  rfl

/-- Calls are only added to the record. -/
theorem log_subset (h : (jobs.mapM (Job.build lib fuel)).exec log = some (result, log')) :
    log ⊆ log' := by
  induction jobs generalizing log result with
  | nil =>
    rw [mapM_nil] at h
    cases h
    exact Subset.refl _
  | cons job jobs ih =>
    rw [exec_mapM_cons, Job.build] at h
    by_cases hids : job.root.HasIds
    · obtain ⟨payload, -, hexec⟩ := exec_build_of_hasIds lib hids
      rw [hexec, bind_map, bind_eq_some_iff] at h
      obtain ⟨descendants, -, h⟩ := h
      have hsub := subset_append_left log [⟨job.spans, job.root, descendants⟩]
      simp only [comp_apply] at h
      split at h
      · rw [some.injEq, Prod.mk.injEq] at h
        exact h.2 ▸ hsub
      · rw [map_eq_some_iff] at h
        obtain ⟨⟨rest, log''⟩, hrest, heq⟩ := h
        obtain ⟨-, rfl⟩ := heq
        exact Subset.trans hsub (ih hrest)
    · obtain ⟨e, hexec⟩ := exec_build_of_error lib hids
      rw [hexec, bind_some, some.injEq, Prod.mk.injEq] at h
      exact h.2 ▸ Subset.refl _

theorem safe_of_exec (h : (jobs.mapM (Job.build lib fuel)).exec log = some (result, log'))
    (honce : ∀ call ∈ log', call.Once) : Safe jobs := by
  induction jobs generalizing log result with
  | nil => trivial
  | cons job jobs ih =>
    intro hids
    rw [exec_mapM_cons, Job.build] at h
    obtain ⟨payload, hpayload, hexec⟩ := exec_build_of_hasIds lib hids
    rw [hexec, bind_map, bind_eq_some_iff] at h
    obtain ⟨descendants, hcollect, h⟩ := h
    rw [collectDescendants_eq] at hcollect
    have hvisits := Forest.exists_walk_iff.mp ⟨fuel, hcollect⟩
    simp only [comp_apply] at h
    split at h
    · -- an id below the root is bad: the translation ends here
      rename_i e he
      rw [some.injEq, Prod.mk.injEq] at h
      have hcall := honce ⟨job.spans, job.root, descendants⟩ (by simp [← h.2])
      refine ⟨Forest.noRepeat_of_subperm hvisits hcall.1, fun hbelow => ?_⟩
      obtain ⟨p, hp⟩ := (hpayload descendants).mpr fun span hspan =>
        hbelow span (hvisits.mem_iff.mp hspan)
      rw [hp] at he
      cases he
    · rw [map_eq_some_iff] at h
      obtain ⟨⟨rest, log''⟩, hrest, heq⟩ := h
      obtain ⟨-, rfl⟩ := heq
      have hcall := honce ⟨job.spans, job.root, descendants⟩ (log_subset hrest (by simp))
      exact ⟨Forest.noRepeat_of_subperm hvisits hcall.1, fun _ => ih hrest⟩

/-- A safe list of roots is translated with any depth from some bound on. -/
theorem Safe.exists_exec (hsafe : Safe jobs) (honce : ∀ call ∈ log, call.Once) :
    ∃ bound, ∀ fuel ≥ bound, ∃ result log',
      (jobs.mapM (Job.build lib fuel)).exec log = some (result, log') ∧
      ∀ call ∈ log', call.Once := by
  induction jobs generalizing log with
  | nil => exact ⟨0, fun fuel _ => ⟨.ok [], log, rfl, honce⟩⟩
  | cons job jobs ih =>
    by_cases hids : job.root.HasIds
    · obtain ⟨hnorepeat, hrest⟩ := hsafe hids
      obtain ⟨descendants, hvisits⟩ := hnorepeat.exists_visits
      obtain ⟨bound, hbound⟩ := hvisits.exists_walk
      have hlog : ∀ call ∈ log ++ [⟨job.spans, job.root, descendants⟩], call.Once :=
        forall_mem_append.mpr
          ⟨honce, forall_mem_singleton.mpr (Call.once_of_subperm (hnorepeat.subperm hvisits))⟩
      by_cases hbelow : ∀ span, (forest job.spans).Reach job.root.spanId span → span.HasIds
      · obtain ⟨bound', hbound'⟩ := ih (hrest hbelow) hlog
        refine ⟨max bound bound', fun fuel hfuel => ?_⟩
        obtain ⟨payload, hpayload, hexec⟩ := exec_build_of_hasIds lib hids
        obtain ⟨result, log', hjobs, hlog'⟩ := hbound' fuel (by omega)
        obtain ⟨p, hp⟩ := (hpayload descendants).mpr fun span hspan =>
          hbelow span (hvisits.mem_iff.mp hspan)
        refine ⟨result.map (p :: ·), log', ?_, hlog'⟩
        rw [exec_mapM_cons, Job.build, hexec, collectDescendants_eq, hbound fuel (by omega),
          map_some, bind_some]
        simp only [hp, hjobs, map_some]
      · refine ⟨bound, fun fuel hfuel => ?_⟩
        obtain ⟨payload, hpayload, hexec⟩ := exec_build_of_hasIds lib hids
        obtain ⟨e, he⟩ : ∃ e, payload descendants = .error e := by
          cases hp : payload descendants with
          | error e => exact ⟨e, rfl⟩
          | ok p =>
            have hall := (hpayload descendants).mp ⟨p, hp⟩
            exact absurd (fun span hspan => hall span (hvisits.mem_iff.mpr hspan)) hbelow
        refine ⟨.error e, _, ?_, hlog⟩
        rw [exec_mapM_cons, Job.build, hexec, collectDescendants_eq, hbound fuel (by omega),
          map_some, bind_some]
        simp only [he]
    · refine ⟨0, fun fuel _ => ?_⟩
      obtain ⟨e, hexec⟩ := exec_build_of_error lib hids
      refine ⟨.error e, log, ?_, honce⟩
      rw [exec_mapM_cons, Job.build, hexec]
      rfl

/-- **When the translation ends.** It returns, with every span of an entry collected at most once
for each root, exactly when the roots are safe. -/
theorem translateOTLPJSON_once_iff (lib : OtlpLib) (req : OtlpRequest) :
    TranslatesOnce lib req ↔ Safe (req.jobs lib) := by
  constructor
  · rintro ⟨fuel, result, log, hexec, honce⟩
    rw [translateOTLPJSON_eq] at hexec
    exact safe_of_exec hexec honce
  · intro hsafe
    obtain ⟨fuel, hfuel⟩ := @Safe.exists_exec lib _ [] hsafe nofun
    obtain ⟨result, log, hexec, honce⟩ := hfuel fuel le_rfl
    exact ⟨fuel, result, log, by rw [translateOTLPJSON_eq, hexec], honce⟩

/-! ## A span that is its own parent -/

/-- A library for requests without attributes. -/
def plainLib : OtlpLib where
  sprint _ := ""
  unquote _ := none
  sha256Hex s := s

/-- A span whose parent id is its own id. -/
def selfParentSpan : OtlpSpan where
  traceId := "00112233445566778899aabbccddeeff"
  spanId := "0011223344556677"
  parentSpanId := "0011223344556677"

/-- A request with that span only. -/
def selfParent : OtlpRequest := ⟨[{ scopeSpans := [[selfParentSpan]] }]⟩

/-- The only span has a known parent, so it is taken as the fallback root, and it is its own child:
the recursion does not end. -/
theorem selfParent_diverges : ¬ TranslatesOnce plainLib selfParent := by
  rintro ⟨fuel, result, log, hexec, honce⟩
  rw [translateOTLPJSON_eq] at hexec
  have hids : selfParentSpan.HasIds := ⟨_, rfl⟩
  have hchild : selfParentSpan ∈ (forest [selfParentSpan]).children selfParentSpan.spanId :=
    Forest.mem_children.mpr ⟨mem_singleton.mpr rfl, by decide +kernel⟩
  have hsafe := (safe_of_exec hexec honce hids).1
  exact hsafe.key_ne (ne_nil_of_mem hchild) (.child hchild) rfl

end Otlp

end Urgentry
